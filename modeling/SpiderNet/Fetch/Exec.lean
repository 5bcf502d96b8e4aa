import SpiderNet.Fetch.Plan
import SpiderNet.Fetch.Parts
import SpiderNet.Library.OrdMap
import SpiderNet.Library.Transition

namespace SpiderNet.Fetch

abbrev ExitRegistry := OrdMap ExitId Egress

abbrev Instant := Nat

abbrev RetryPolicy := NonZero 32

inductive ProgressEvent where
  | segmentStarted (index : SegmentIndex) (exit : ExitId) (attempt : Nat)
  | segmentFinished (index : SegmentIndex) (exit : ExitId) (bytes duration : Nat)
  | segmentFailed (index : SegmentIndex) (exit : ExitId) (attempt : Nat) (error : FetchError)

structure SegmentAttemptStats where
  index : SegmentIndex
  exit : ExitId
  bytes : Nat
  duration : Nat
  attempts : Nat

def ExitRegistry.lookup (exits : ExitRegistry) (id : ExitId) : Except FetchError Egress :=
  match exits.get? id with
  | some egress => .ok egress
  | none => .error (.unknownExit id)

def isRetryable : FetchError → Bool
  | .http .transport => true
  | .http (.status code) => 500 ≤ code ∧ code < 600
  | .io => true
  | .segmentLengthMismatch _ _ _ => true
  | .rangeRejected _ _ status => 500 ≤ status
  | .invalidUrl _ => false
  | .zeroFileSize => false
  | .totalLengthMismatch _ _ => false
  | .hashMismatch _ _ => false
  | .invalidPlan _ => false
  | .unknownExit _ => false
  | .corruptPart _ => false
  | .invalidDigest => false
  | .segmentAttemptsExhausted _ _ _ => false

inductive Break where
  | transport
  | io

def Break.error : Break → FetchError
  | .transport => .http .transport
  | .io => .io

-- what one attempt meets: no response at all, or a status, whether the part file could be
-- created, the chunks that arrive and are written, and what cuts the body short
inductive Reply where
  | noResponse
  | response (status : Nat) (created : Bool) (chunks : List Bytes) (stop : Option Break)

def openBody (exit : ExitId) (index : SegmentIndex) :
    Reply → Except FetchError (List Bytes × Option Break)
  | .noResponse => .error (.http .transport)
  | .response status created chunks stop =>
    if 400 ≤ status ∧ status < 600 then .error (.http (.status status))
    else if status ≠ 206 then .error (.rangeRejected exit index status)
    else if created then .ok (chunks, stop)
    else .error .io

-- `download_attempt` once the last chunk is written or the body has broken off
def closeBody (seg : SegmentPlan) (received : Bytes) : Option Break → Except FetchError Nat
  | some stop => .error stop.error
  | none =>
    if received.length ≠ seg.range.len then
      .error (.segmentLengthMismatch seg.index received.length seg.range.len)
    else .ok received.length

def downloadAttempt (exit : ExitId) (seg : SegmentPlan) (reply : Reply) : Except FetchError Nat :=
  match openBody exit seg.index reply with
  | .error error => .error error
  | .ok (chunks, stop) => closeBody seg chunks.flatten stop

def preferId (lastFailed : OrdMap ExitId Instant) (current id : ExitId) : Bool :=
  match lastFailed.get? current, lastFailed.get? id with
  | none, _ => false
  | some _, none => true
  | some currentFailed, some idFailed => idFailed < currentFailed

def pickFrom (lastFailed : OrdMap ExitId Instant) (avoid : ExitId) :
    List ExitId → Option ExitId → Option ExitId
  | [], best => best
  | id :: rest, best =>
    if id = avoid then pickFrom lastFailed avoid rest best
    else
      match best with
      | none => pickFrom lastFailed avoid rest (some id)
      | some current =>
        pickFrom lastFailed avoid rest (some (if preferId lastFailed current id then id else current))

def pickRetry (ids : List ExitId) (lastFailed : OrdMap ExitId Instant) (avoid : ExitId) : ExitId :=
  (pickFrom lastFailed avoid ids none).getD avoid

-- where `download_with_retry` stands; `body` is what the successful attempt received
inductive Phase where
  | starting
  | requesting
  | receiving (received : Bytes) (chunks : List Bytes) (stop : Option Break)
  | failed (error : FetchError)
  | reported (error : FetchError)
  | removed (error : FetchError)
  | marked (error : FetchError)
  | finished (stats : SegmentAttemptStats) (body : Bytes)
  | aborted (error : FetchError)

structure TaskState where
  seg : SegmentPlan
  exit : ExitId
  attempt : Nat
  phase : Phase

def TaskState.to (task : TaskState) (phase : Phase) : TaskState := { task with phase := phase }

-- each event is logged with the position of the task that delivered it
structure Shared where
  lastFailed : OrdMap ExitId Instant
  parts : Dir
  events : List (Nat × ProgressEvent)

def Shared.emit (shared : Shared) (pos : Nat) (event : ProgressEvent) : Shared :=
  { shared with events := shared.events ++ [(pos, event)] }

def Shared.removePart (shared : Shared) (index : SegmentIndex) (removed : Bool) : Shared :=
  if removed then { shared with parts := shared.parts.remove (partFile index) } else shared

structure Config where
  segments : List SegmentPlan
  exits : ExitRegistry
  policy : RetryPolicy
  network : ExitId → SegmentPlan → Reply → Prop

inductive Action where
  | start
  | reply (reply : Reply)
  | chunk
  | close (duration : Nat) (removed : Bool)
  | report
  | remove (removed : Bool)
  | mark (now : Instant)
  | retry

def taskStep (exits : ExitRegistry) (policy : RetryPolicy) (pos : Nat) (task : TaskState)
    (shared : Shared) : Action → Option (TaskState × Shared)
  | .start =>
    match task.phase with
    | .starting =>
      let task := { task with attempt := task.attempt + 1 }
      if exits.contains task.exit then
        some (task.to .requesting,
          shared.emit pos (.segmentStarted task.seg.index task.exit task.attempt))
      else some (task.to (.aborted (.unknownExit task.exit)), shared)
    | _ => none
  | .reply reply =>
    match task.phase with
    | .requesting =>
      match openBody task.exit task.seg.index reply with
      | .error error => some (task.to (.failed error), shared)
      | .ok (chunks, stop) =>
        some (task.to (.receiving [] chunks stop),
          { shared with parts := shared.parts.create (partFile task.seg.index) })
    | _ => none
  | .chunk =>
    match task.phase with
    | .receiving received (chunk :: chunks) stop =>
      some (task.to (.receiving (received ++ chunk) chunks stop),
        { shared with parts := shared.parts.append (partFile task.seg.index) chunk })
    | _ => none
  | .close duration removed =>
    match task.phase with
    | .receiving received [] stop =>
      match closeBody task.seg received stop with
      | .ok bytes =>
        some (task.to (.finished ⟨task.seg.index, task.exit, bytes, duration, task.attempt⟩ received),
          shared.emit pos (.segmentFinished task.seg.index task.exit bytes duration))
      | .error error =>
        some (task.to (.failed error), shared.removePart task.seg.index (removed && stop.isNone))
    | _ => none
  | .report =>
    match task.phase with
    | .failed error =>
      some (task.to (.reported error),
        shared.emit pos (.segmentFailed task.seg.index task.exit task.attempt error))
    | _ => none
  | .remove removed =>
    match task.phase with
    | .reported error => some (task.to (.removed error), shared.removePart task.seg.index removed)
    | _ => none
  | .mark now =>
    match task.phase with
    | .removed error =>
      if isRetryable error then
        some (task.to (.marked error),
          { shared with lastFailed := shared.lastFailed.insert task.exit now })
      else some (task.to (.aborted error), shared)
    | _ => none
  | .retry =>
    match task.phase with
    | .marked error =>
      if policy.value ≤ task.attempt then
        some (task.to (.aborted (.segmentAttemptsExhausted task.seg.index task.attempt error)), shared)
      else
        some ({ task with
          exit := pickRetry exits.keys shared.lastFailed task.exit, phase := .starting }, shared)
    | _ => none

inductive Caller where
  | awaiting (stats : List SegmentAttemptStats)
  | returned (result : Except FetchError (List SegmentAttemptStats))

structure RunState where
  tasks : List TaskState
  shared : Shared
  caller : Caller

def sortStats (stats : List SegmentAttemptStats) : List SegmentAttemptStats :=
  stats.insertionSort fun a b => a.index.value ≤ b.index.value

-- the handles are awaited in plan order, however the tasks finish
def callerStep (tasks : List TaskState) : Caller → Option Caller
  | .returned _ => none
  | .awaiting stats =>
    match tasks[stats.length]? with
    | none => some (.returned (.ok (sortStats stats)))
    | some task =>
      match task.phase with
      | .finished stats' _ => some (.awaiting (stats ++ [stats']))
      | .aborted error => some (.returned (.error error))
      | _ => none

def checkExits (exits : ExitRegistry) : List SegmentPlan → Except FetchError Unit
  | [] => .ok ()
  | seg :: rest => do
    let _ ← exits.lookup seg.exit
    checkExits exits rest

def spawn (seg : SegmentPlan) : TaskState := ⟨seg, seg.exit, 0, .starting⟩

-- `dirCreated` is whether the parts directory could be created
def startRun (cfg : Config) (dirCreated : Bool) (parts : Dir) : RunState :=
  let shared : Shared := ⟨.empty, parts, []⟩
  if dirCreated then
    match checkExits cfg.exits cfg.segments with
    | .error error => ⟨[], shared, .returned (.error error)⟩
    | .ok _ => ⟨cfg.segments.map spawn, shared, .awaiting []⟩
  else ⟨[], shared, .returned (.error .io)⟩

def Config.admits (cfg : Config) (task : TaskState) : Action → Prop
  | .reply reply => cfg.network task.exit task.seg reply
  | _ => True

inductive Step (cfg : Config) : RunState → RunState → Prop
  | task {s : RunState} {pos : Nat} {task task' : TaskState} {shared' : Shared} (action : Action)
      (hget : s.tasks[pos]? = some task) (hadmits : cfg.admits task action)
      (hstep : taskStep cfg.exits cfg.policy pos task s.shared action = some (task', shared')) :
      Step cfg s { s with tasks := s.tasks.set pos task', shared := shared' }
  | caller {s : RunState} {caller' : Caller} (hstep : callerStep s.tasks s.caller = some caller') :
      Step cfg s { s with caller := caller' }

def runSegments (cfg : Config) (dirCreated : Bool) (parts : Dir) (s : RunState) : Prop :=
  Transition.Reachable (Step cfg) (startRun cfg dirCreated parts) s

end SpiderNet.Fetch
