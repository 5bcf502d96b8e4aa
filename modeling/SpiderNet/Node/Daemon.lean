import SpiderNet.Node.Spawn
import SpiderNet.Node.Overlay

namespace SpiderNet.Node
open Exit Transition

def terminateGrace : ℕ := 5 * second

-- the sidecar process; `reaped` once its death has been waited for
inductive Process where
  | running
  | exited (status : String)
  | reaped (status : String)

namespace Process

def live : Process → Bool
  | .running | .exited _ => true
  | .reaped _ => false

def status : Process → Option String
  | .running => none
  | .exited status | .reaped status => some status

def reap : Process → Process
  | .running => .running
  | .exited status | .reaped status => .reaped status

end Process

inductive Signal where
  | term
  | kill

inductive DaemonEvent where
  | spawned
  | died (status : String)
  | reported (address : YggAddr)
  | bound (address : SocketAddr)
  | signalled (signal : Signal)

inductive Stopping where
  | signalling
  | grace (since : ℕ)
  | killed

-- where `run_daemon` stands
inductive Control where
  | spawning (phase : Spawning)
  | waiting (deadline : ℕ) (place : Waiting)
  | binding (exit : ExitServiceSettings) (overlay : YggAddr)
  | serving (config : ExitConfig)
  | leeching
  | terminating (stage : Stopping)
  | killing (error : NodeError) (sent : Bool)
  | returned (result : Except NodeError Unit)

structure Daemon where
  control : Control
  dir : StateDir
  child : Option Process
  now : ℕ
  shutdown : Bool
  listener : Option SocketAddr
  trace : List DaemonEvent

namespace Daemon

def exitStatus (d : Daemon) : Option String := d.child.bind Process.status

def surroundings (d : Daemon) : Surroundings := ⟨d.now, d.shutdown, d.exitStatus⟩

def childLive (d : Daemon) : Bool := d.child.any Process.live

end Daemon

-- the select that saw the sidecar exit has waited for it
def settle (place : Waiting) (child : Option Process) : Option Process :=
  match place with
  | .ended (.failed (.sidecarExited _)) => child.map Process.reap
  | _ => child

def announce : Waiting → Waiting → List DaemonEvent
  | .asking _ _, .askingPeers info _ _ => [.reported info.address]
  | _, _ => []

def enterWait (endpoint : AdminEndpoint) (d : Daemon) : Daemon :=
  let deadline := overlayDeadline d.surroundings
  let place := attempt endpoint deadline d.surroundings
  { d with control := .waiting deadline place, child := settle place d.child }

def afterUp (config : ValidatedDaemonConfig) (overlay : YggAddr) : Control :=
  match config.exit with
  | some exit => .binding exit overlay
  | none => .leeching

def startDaemon (config : ValidatedDaemonConfig) (dir : StateDir) (now : ℕ) (shutdown : Bool) :
    Daemon :=
  let d : Daemon := ⟨.spawning .creatingDir, dir, none, now, shutdown, none, []⟩
  if config.manage then d else enterWait config.adminEndpoint d

inductive DaemonStep (start : Start) (fromSlice : Bytes → Except String Json) :
    Daemon → Daemon → Prop
  | pass (d : Daemon) (later : ℕ) (h : d.now ≤ later) :
      DaemonStep start fromSlice d { d with now := later }
  | shutdownCompletes (d : Daemon) : DaemonStep start fromSlice d { d with shutdown := true }
  | sidecarDies (d : Daemon) (status : String) (hchild : d.child = some .running) :
      DaemonStep start fromSlice d
        { d with child := some (.exited status), trace := d.trace ++ [.died status] }
  | spawn (d : Daemon) (phase phase' : Spawning) (dir' : StateDir)
      (hcontrol : d.control = .spawning phase)
      (h : FaultySpawn anyStat start (phase, d.dir) (phase', dir')) :
      DaemonStep start fromSlice d { d with control := .spawning phase', dir := dir' }
  | spawned (d : Daemon) (base : Json) (hcontrol : d.control = .spawning (.spawned base)) :
      DaemonStep start fromSlice d (enterWait start.config.adminEndpoint
        { d with child := some .running, trace := d.trace ++ [.spawned] })
  | spawnFails (d : Daemon) (error : NodeError) (hcontrol : d.control = .spawning (.refused error)) :
      DaemonStep start fromSlice d { d with control := .returned (.error error) }
  | wait (d : Daemon) (deadline : ℕ) (place place' : Waiting) (reply : Option AdminReply)
      (hcontrol : d.control = .waiting deadline place)
      (h : place.poll start.config.adminEndpoint fromSlice deadline d.surroundings reply =
        some place') :
      DaemonStep start fromSlice d { d with
        control := .waiting deadline place'
        child := settle place' d.child
        trace := d.trace ++ announce place place' }
  | up (d : Daemon) (deadline : ℕ) (address : YggAddr)
      (hcontrol : d.control = .waiting deadline (.ended (.up address))) :
      DaemonStep start fromSlice d { d with control := afterUp start.config address }
  | waitShutdown (d : Daemon) (deadline : ℕ)
      (hcontrol : d.control = .waiting deadline (.ended .shutdown)) :
      DaemonStep start fromSlice d { d with control := .terminating .signalling }
  | waitFails (d : Daemon) (deadline : ℕ) (error : NodeError)
      (hcontrol : d.control = .waiting deadline (.ended (.failed error))) :
      DaemonStep start fromSlice d { d with control := .killing error false }
  | bind (d : Daemon) (exit : ExitServiceSettings) (overlay : YggAddr)
      (hcontrol : d.control = .binding exit overlay) :
      DaemonStep start fromSlice d { d with
        control := .serving (ValidatedDaemonConfig.exitConfig exit overlay)
        listener := some (exit.bind.resolve overlay)
        trace := d.trace ++ [.bound (exit.bind.resolve overlay)] }
  | bindFails (d : Daemon) (exit : ExitServiceSettings) (overlay : YggAddr) (kind : IoErrorKind)
      (hcontrol : d.control = .binding exit overlay) :
      DaemonStep start fromSlice d
        { d with control := .killing (.exitListen (exit.bind.resolve overlay) kind) false }
  -- leaving the select drops the accept loop and with it the listener
  | serveShutdown (d : Daemon) (config : ExitConfig) (hcontrol : d.control = .serving config)
      (hshutdown : d.shutdown = true) :
      DaemonStep start fromSlice d { d with control := .terminating .signalling, listener := none }
  | acceptFails (d : Daemon) (config : ExitConfig) (kind : IoErrorKind)
      (hcontrol : d.control = .serving config) :
      DaemonStep start fromSlice d
        { d with control := .killing (.exit (.io kind)) false, listener := none }
  | serveSidecarExits (d : Daemon) (config : ExitConfig) (status : String)
      (hcontrol : d.control = .serving config) (hstatus : d.exitStatus = some status) :
      DaemonStep start fromSlice d { d with
        control := .killing (.sidecarExited status) false
        child := d.child.map Process.reap
        listener := none }
  | leechShutdown (d : Daemon) (hcontrol : d.control = .leeching) (hshutdown : d.shutdown = true) :
      DaemonStep start fromSlice d { d with control := .terminating .signalling }
  | leechSidecarExits (d : Daemon) (status : String) (hcontrol : d.control = .leeching)
      (hstatus : d.exitStatus = some status) :
      DaemonStep start fromSlice d { d with
        control := .returned (.error (.sidecarExited status))
        child := d.child.map Process.reap }
  | terminateNone (d : Daemon) (hcontrol : d.control = .terminating .signalling)
      (hgone : d.childLive = false) :
      DaemonStep start fromSlice d { d with control := .returned (.ok ()) }
  | terminate (d : Daemon) (hcontrol : d.control = .terminating .signalling)
      (hlive : d.childLive = true) :
      DaemonStep start fromSlice d
        { d with control := .terminating (.grace d.now), trace := d.trace ++ [.signalled .term] }
  | graceEnds (d : Daemon) (since : ℕ) (hcontrol : d.control = .terminating (.grace since))
      (hrunning : d.exitStatus = none) (hdue : since + terminateGrace ≤ d.now) :
      DaemonStep start fromSlice d
        { d with control := .terminating .killed, trace := d.trace ++ [.signalled .kill] }
  | terminated (d : Daemon) (stage : Stopping) (status : String)
      (hcontrol : d.control = .terminating stage) (hstage : stage ≠ .signalling)
      (hstatus : d.exitStatus = some status) :
      DaemonStep start fromSlice d
        { d with control := .returned (.ok ()), child := d.child.map Process.reap }
  | killNone (d : Daemon) (error : NodeError) (hcontrol : d.control = .killing error false)
      (hnone : d.child = none) :
      DaemonStep start fromSlice d { d with control := .returned (.error error) }
  | kill (d : Daemon) (error : NodeError) (hcontrol : d.control = .killing error false)
      (hsome : d.child.isSome) :
      DaemonStep start fromSlice d { d with
        control := .killing error true
        trace := d.trace ++ if d.childLive then [.signalled .kill] else [] }
  | killed (d : Daemon) (error : NodeError) (status : String)
      (hcontrol : d.control = .killing error true) (hstatus : d.exitStatus = some status) :
      DaemonStep start fromSlice d
        { d with control := .returned (.error error), child := d.child.map Process.reap }

end SpiderNet.Node
