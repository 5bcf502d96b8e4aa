import SpiderNet.Node.Daemon
import SpiderNet.Node.Identity
import SpiderNet.Node.Wake
import SpiderNet.Library.ListFacts

namespace SpiderNet.Node
open Exit Transition ListFacts

def notSidecarExited (error : NodeError) : Prop := ∀ status, error ≠ .sidecarExited status

theorem generateConfig_error {binary : Text} {output : Genconf} {settings : NodeSettings}
    {error : NodeError} (h : generateConfig binary output settings = .error error) :
    notSidecarExited error := by
  rintro status rfl
  cases output with
  | notRun kind => cases h
  | failed stderr => cases h
  | printed stdout =>
    cases stdout with
    | error reason => cases h
    | ok base =>
      rw [generateConfig, applyToBaseConfig] at h
      cases hobject : base.asObject with
      | none => simp [hobject] at h
      | some fields => simp [hobject] at h

theorem generatedKey_error {binary : Text} {base : Json} {error : NodeError}
    (h : generatedKey binary base = .error error) : notSidecarExited error := by
  rintro status rfl
  rw [generatedKey] at h
  cases hfield : base.getStr "PrivateKey".toList with
  | none =>
    simp only [hfield] at h
    cases h
  | some generated =>
    simp only [hfield] at h
    cases hparse : PublicKeyHex.parse generated with
    | error error => simp [hparse] at h
    | ok key => simp [hparse] at h

theorem loadKey_error {path : Text} {content : Bytes} {error : NodeError}
    (h : loadKey path content = .error error) : notSidecarExited error := by
  rintro status rfl
  rw [loadKey] at h
  cases htext : fromUtf8 content with
  | none => simp [htext] at h
  | some existing =>
    simp only [htext] at h
    cases hparse : PublicKeyHex.parse (trim existing) with
    | error error => simp [hparse, existingKeyError] at h
    | ok key => simp [hparse] at h

theorem FaultySpawn.refused_error {stat : Stat} {start : Start} {s : Spawning × StateDir}
    {dir : StateDir} {error : NodeError} (h : FaultySpawn stat start s (.refused error, dir)) :
    notSidecarExited error := by
  cases h with
  | step hstep =>
    cases hstep with
    | generateFails dir error h => exact generateConfig_error h
    | absentFails dir base error hstat h => exact generatedKey_error h
    | loadFails dir base file error hfile h => exact loadKey_error h
  | fail phase dir kind hrunning => exact nofun

def Unsignalled (trace : List DaemonEvent) : Prop := ∀ signal, .signalled signal ∉ trace

-- dead before any signal was sent, and waited for
def DiedUnasked (status : String) (d : Daemon) : Prop :=
  d.child = some (.reaped status) ∧ .died status ∈ d.trace ∧ Unsignalled d.trace

def Gone (child : Option Process) : Prop := child = none ∨ ∃ status, child = some (.reaped status)

-- every bind of the listener comes after a report of the address it resolves with
def BoundAfterReport (config : ValidatedDaemonConfig) (trace : List DaemonEvent) : Prop :=
  ∀ before address after, trace = before ++ .bound address :: after →
    ∃ exit overlay, config.exit = some exit ∧ .reported overlay ∈ before ∧
      address = exit.bind.resolve overlay

structure Supervised (config : ValidatedDaemonConfig) (d : Daemon) : Prop where
  gone : ∀ result, d.control = .returned result → .spawned ∈ d.trace →
    ∃ status, d.child = some (.reaped status) ∧ .died status ∈ d.trace
  closed : ∀ result, d.control = .returned result → d.listener = none
  ok : d.control = .returned (.ok ()) → d.shutdown = true
  exited : ∀ status, d.control = .returned (.error (.sidecarExited status)) →
    config.manage = true ∧ DiedUnasked status d
  opened : ∀ address, d.listener = some address → .bound address ∈ d.trace
  bound : BoundAfterReport config d.trace

def WaitOk (d : Daemon) : Waiting → Prop
  | .askingPeers info _ _ => .reported info.address ∈ d.trace
  | .ended (.up address) => .reported address ∈ d.trace
  | .ended .shutdown => d.shutdown = true
  | .ended (.failed error) => ∀ status, error = .sidecarExited status → DiedUnasked status d
  | _ => True

def ControlOk (config : ValidatedDaemonConfig) (d : Daemon) : Control → Prop
  | .spawning phase => d.listener = none ∧ Unsignalled d.trace ∧ d.child = none ∧
      config.manage = true ∧ ∀ error, phase = .refused error → notSidecarExited error
  | .waiting _ place => d.listener = none ∧ Unsignalled d.trace ∧ WaitOk d place
  | .binding exit overlay => d.listener = none ∧ Unsignalled d.trace ∧ config.exit = some exit ∧
      .reported overlay ∈ d.trace
  | .serving exitConfig => Unsignalled d.trace ∧ ∃ exit overlay, config.exit = some exit ∧
      exitConfig = ValidatedDaemonConfig.exitConfig exit overlay
  | .leeching => d.listener = none ∧ Unsignalled d.trace
  | .terminating _ => d.listener = none ∧ d.shutdown = true
  | .killing error _ => d.listener = none ∧
      ∀ status, error = .sidecarExited status → DiedUnasked status d
  | .returned result => d.listener = none ∧ Gone d.child ∧ (result = .ok () → d.shutdown = true) ∧
      ∀ status, result = .error (.sidecarExited status) → DiedUnasked status d

structure Supervising (config : ValidatedDaemonConfig) (d : Daemon) : Prop where
  control : ControlOk config d d.control
  kept : .spawned ∈ d.trace → d.child.isSome
  died : ∀ status, d.exitStatus = some status → .died status ∈ d.trace
  managed : d.child.isSome → config.manage = true
  opened : ∀ address, d.listener = some address → .bound address ∈ d.trace
  bound : BoundAfterReport config d.trace

theorem Supervising.controlAt {config : ValidatedDaemonConfig} {d : Daemon} {control : Control}
    (h : Supervising config d) (hcontrol : d.control = control) : ControlOk config d control :=
  hcontrol ▸ h.control

theorem Supervising.supervised {config : ValidatedDaemonConfig} {d : Daemon} (h : Supervising config d) :
    Supervised config d where
  gone result hcontrol hspawned := by
    have hok := h.controlAt hcontrol
    rcases hok.2.1 with hnone | ⟨status, hreaped⟩
    · cases hnone ▸ h.kept hspawned
    · exact ⟨status, hreaped, h.died status (by rw [Daemon.exitStatus, hreaped]; rfl)⟩
  closed result hcontrol := by
    have hok := h.controlAt hcontrol
    exact hok.1
  ok hcontrol := by
    have hok := h.controlAt hcontrol
    exact hok.2.2.1 rfl
  exited status hcontrol := by
    have hok := h.controlAt hcontrol
    have hdied := hok.2.2.2 status rfl
    exact ⟨h.managed (by rw [hdied.1]; rfl), hdied⟩
  opened := h.opened
  bound := h.bound

theorem unsignalled_append {trace events : List DaemonEvent} :
    Unsignalled (trace ++ events) ↔ Unsignalled trace ∧ Unsignalled events := by
  simp [Unsignalled, List.mem_append, forall_and]

theorem BoundAfterReport.push {config : ValidatedDaemonConfig} {trace : List DaemonEvent}
    {event : DaemonEvent} (h : BoundAfterReport config trace)
    (hevent : ∀ address, event = .bound address → ∃ exit overlay, config.exit = some exit ∧
      .reported overlay ∈ trace ∧ address = exit.bind.resolve overlay) :
    BoundAfterReport config (trace ++ [event]) := by
  intro before address after hsplit
  rcases snoc_split hsplit with ⟨rfl, hbound⟩ | ⟨after', htrace⟩
  · exact hevent address hbound.symm
  · exact h before address after' htrace

theorem BoundAfterReport.append {config : ValidatedDaemonConfig} {trace events : List DaemonEvent}
    (h : BoundAfterReport config trace) (hevents : ∀ address, .bound address ∉ events) :
    BoundAfterReport config (trace ++ events) := by
  induction events generalizing trace with
  | nil => simpa using h
  | cons event rest ih =>
    rw [← List.singleton_append, ← List.append_assoc]
    refine ih (h.push fun address hbound => ?_) fun address hin => ?_
    · exact absurd (hbound ▸ List.mem_cons_self) (hevents address)
    · exact hevents address (List.mem_cons_of_mem event hin)

theorem exitStatus_reap {child : Option Process} {status : String}
    (h : child.bind Process.status = some status) :
    child.map Process.reap = some (.reaped status) := by
  obtain ⟨process, rfl, hstatus⟩ := Option.bind_eq_some_iff.mp h
  cases process with
  | running => cases hstatus
  | exited status' => exact congrArg (some ∘ Process.reaped) (Option.some.inj hstatus)
  | reaped status' => exact congrArg (some ∘ Process.reaped) (Option.some.inj hstatus)

theorem interrupted_eq_some {around : Surroundings} {outcome : OverlayOutcome}
    (h : interrupted around = some outcome) :
    outcome = .shutdown ∧ around.shutdown = true ∨
      ∃ status, outcome = .failed (.sidecarExited status) ∧ around.exited = some status := by
  rw [interrupted] at h
  cases hshutdown : around.shutdown with
  | true =>
    rw [hshutdown] at h
    exact Or.inl ⟨(Option.some.inj h).symm, rfl⟩
  | false =>
    rw [hshutdown] at h
    obtain ⟨status, hstatus, rfl⟩ := Option.map_eq_some_iff.mp h
    exact Or.inr ⟨status, rfl, hstatus⟩

theorem interrupted_ok {d : Daemon} {outcome : OverlayOutcome} (control : Control)
    (hdied : ∀ status, d.exitStatus = some status → .died status ∈ d.trace)
    (hquiet : Unsignalled d.trace) (h : interrupted d.surroundings = some outcome) :
    WaitOk { d with control := control, child := settle (.ended outcome) d.child } (.ended outcome) := by
  rcases interrupted_eq_some h with ⟨rfl, hshutdown⟩ | ⟨status, rfl, hstatus⟩
  · exact hshutdown
  · intro status' heq
    obtain rfl := NodeError.sidecarExited.inj heq
    exact ⟨exitStatus_reap hstatus, hdied status hstatus, hquiet⟩

theorem attempt_ok {d : Daemon} {endpoint : AdminEndpoint} {deadline : ℕ} (control : Control)
    (hdied : ∀ status, d.exitStatus = some status → .died status ∈ d.trace)
    (hquiet : Unsignalled d.trace) :
    WaitOk { d with
      control := control
      child := settle (attempt endpoint deadline d.surroundings) d.child }
      (attempt endpoint deadline d.surroundings) := by
  rw [attempt]
  split
  · exact fun status heq => by cases heq
  · cases hstop : interrupted d.surroundings with
    | some outcome => exact interrupted_ok control hdied hquiet hstop
    | none => trivial

theorem announce_quiet (place place' : Waiting) : Unsignalled (announce place place') ∧
    .spawned ∉ announce place place' ∧ ∀ address, .bound address ∉ announce place place' := by
  rw [announce.eq_def]
  split <;> simp [Unsignalled]

theorem settle_status (place : Waiting) (child : Option Process) :
    (settle place child).bind Process.status = child.bind Process.status ∧
      (settle place child).isSome = child.isSome := by
  rw [settle.eq_def]
  split
  · rcases child with _ | _ | status | status <;> exact ⟨rfl, rfl⟩
  · exact ⟨rfl, rfl⟩

theorem poll_ok {d : Daemon} {endpoint : AdminEndpoint} {fromSlice : Bytes → Except String Json}
    {deadline : ℕ} {place place' : Waiting} {reply : Option AdminReply} (control : Control)
    (hdied : ∀ status, d.exitStatus = some status → .died status ∈ d.trace)
    (hquiet : Unsignalled d.trace) (hplace : WaitOk d place)
    (h : place.poll endpoint fromSlice deadline d.surroundings reply = some place') :
    WaitOk { d with
      control := control
      child := settle place' d.child
      trace := d.trace ++ announce place place' } place' := by
  cases place with
  | asking query timeout =>
    rcases asking_poll h with ⟨outcome, hstop, rfl⟩ | ⟨_, ⟨query', _, rfl⟩ |
      ⟨result, info, _, _, rfl⟩ | ⟨_, rfl⟩⟩
    · have hok := interrupted_ok control hdied hquiet hstop
      simpa only [announce, List.append_nil] using hok
    · trivial
    · exact List.mem_append_right _ List.mem_cons_self
    · trivial
  | askingPeers info query timeout =>
    rcases askingPeers_poll h with ⟨query', _, rfl⟩ | ⟨result, _, rfl⟩
    · exact List.mem_append_left _ hplace
    · exact List.mem_append_left _ hplace
  | sleeping since timeout =>
    obtain rfl := sleeping_poll h
    have hok := @attempt_ok d endpoint deadline control hdied hquiet
    simpa only [announce, List.append_nil] using hok
  | ended outcome => cases h

theorem DiedUnasked.gone {status : String} {d : Daemon} (h : DiedUnasked status d) : Gone d.child :=
  Or.inr ⟨status, h.1⟩

theorem ControlOk.frame {config : ValidatedDaemonConfig} {d d' : Daemon} {control : Control}
    {events : List DaemonEvent} (h : ControlOk config d control)
    (hlistener : d'.listener = d.listener) (htrace : d'.trace = d.trace ++ events)
    (hquiet : Unsignalled events) (hshutdown : d.shutdown = true → d'.shutdown = true)
    (hgone : Gone d.child → d'.child = d.child) : ControlOk config d' control := by
  have hreported : ∀ overlay, .reported overlay ∈ d.trace → .reported overlay ∈ d'.trace :=
    fun overlay hin => htrace ▸ List.mem_append_left events hin
  have hunsignalled : Unsignalled d.trace → Unsignalled d'.trace :=
    fun hold => htrace ▸ unsignalled_append.mpr ⟨hold, hquiet⟩
  have hdied : ∀ status, DiedUnasked status d → DiedUnasked status d' := fun status hold =>
    ⟨(hgone hold.gone).trans hold.1, htrace ▸ List.mem_append_left events hold.2.1,
      hunsignalled hold.2.2⟩
  have hclosed : d.listener = none → d'.listener = none := fun hold => hlistener.trans hold
  cases control with
  | spawning phase =>
    obtain ⟨hlisten, hold, hnone, hrest⟩ := h
    exact ⟨hclosed hlisten, hunsignalled hold, (hgone (Or.inl hnone)).trans hnone, hrest⟩
  | waiting deadline place =>
    refine ⟨hclosed h.1, hunsignalled h.2.1, ?_⟩
    have hplace := h.2.2
    cases place with
    | asking query timeout => trivial
    | askingPeers info query timeout => exact hreported _ hplace
    | sleeping since timeout => trivial
    | ended outcome =>
      cases outcome with
      | up address => exact hreported _ hplace
      | shutdown => exact hshutdown hplace
      | failed error => exact fun status heq => hdied status (hplace status heq)
  | binding exit overlay => exact ⟨hclosed h.1, hunsignalled h.2.1, h.2.2.1, hreported _ h.2.2.2⟩
  | serving exitConfig => exact ⟨hunsignalled h.1, h.2⟩
  | leeching => exact ⟨hclosed h.1, hunsignalled h.2⟩
  | terminating stage => exact ⟨hclosed h.1, hshutdown h.2⟩
  | killing error sent => exact ⟨hclosed h.1, fun status heq => hdied status (h.2 status heq)⟩
  | returned result =>
    obtain ⟨hlisten, hchild, hok, herror⟩ := h
    exact ⟨hclosed hlisten, (hgone hchild).symm ▸ hchild, fun hresult => hshutdown (hok hresult),
      fun status heq => hdied status (herror status heq)⟩

theorem afterUp_ok {config : ValidatedDaemonConfig} {d : Daemon} {overlay : YggAddr}
    (hclosed : d.listener = none) (hquiet : Unsignalled d.trace)
    (hreported : .reported overlay ∈ d.trace) : ControlOk config d (afterUp config overlay) := by
  rw [afterUp]
  cases hexit : config.exit with
  | some exit => exact ⟨hclosed, hquiet, hexit, hreported⟩
  | none => exact ⟨hclosed, hquiet⟩

theorem supervising_enterWait {config : ValidatedDaemonConfig} {endpoint : AdminEndpoint} {d : Daemon}
    (hkept : .spawned ∈ d.trace → d.child.isSome)
    (hdied : ∀ status, d.exitStatus = some status → .died status ∈ d.trace)
    (hmanaged : d.child.isSome → config.manage = true) (hclosed : d.listener = none)
    (hquiet : Unsignalled d.trace) (hbound : BoundAfterReport config d.trace) :
    Supervising config (enterWait endpoint d) where
  control := ⟨hclosed, hquiet, attempt_ok _ hdied hquiet⟩
  kept hspawned := by
    rw [enterWait, (settle_status _ _).2]
    exact hkept hspawned
  died status hstatus := by
    rw [Daemon.exitStatus, enterWait, (settle_status _ _).1] at hstatus
    exact hdied status hstatus
  managed hsome := by
    rw [enterWait, (settle_status _ _).2] at hsome
    exact hmanaged hsome
  opened address hopen := by cases hclosed.symm.trans hopen
  bound := hbound

theorem gone_of_not_live {d : Daemon} (h : d.childLive = false) : Gone d.child := by
  rw [Daemon.childLive] at h
  rcases hchild : d.child with _ | _ | status | status
  · exact Or.inl rfl
  · rw [hchild] at h
    cases h
  · rw [hchild] at h
    cases h
  · exact Or.inr ⟨status, rfl⟩

theorem status_reap (child : Option Process) :
    (child.map Process.reap).bind Process.status = child.bind Process.status := by
  rcases child with _ | _ | status | status <;> rfl

section
variable {config : ValidatedDaemonConfig} {d : Daemon} {control : Control}
  (hs : Supervising config d)
include hs

theorem Supervising.moves (h : ControlOk config { d with control := control } control) :
    Supervising config { d with control := control } :=
  ⟨h, hs.kept, hs.died, hs.managed, hs.opened, hs.bound⟩

theorem Supervising.emits {events : List DaemonEvent}
    (hevents : .spawned ∉ events ∧ ∀ address, .bound address ∉ events)
    (h : ControlOk config { d with control := control, trace := d.trace ++ events } control) :
    Supervising config { d with control := control, trace := d.trace ++ events } where
  control := h
  kept hspawned := hs.kept ((List.mem_append.mp hspawned).resolve_right hevents.1)
  died status hstatus := List.mem_append_left _ (hs.died status hstatus)
  managed := hs.managed
  opened address hopen := List.mem_append_left _ (hs.opened address hopen)
  bound := hs.bound.append hevents.2

theorem Supervising.reaps
    (h : ControlOk config { d with control := control, child := d.child.map Process.reap } control) :
    Supervising config { d with control := control, child := d.child.map Process.reap } where
  control := h
  kept hspawned := by simpa using hs.kept hspawned
  died status hstatus := by
    rw [Daemon.exitStatus, status_reap] at hstatus
    exact hs.died status hstatus
  managed hsome := hs.managed (by simpa using hsome)
  opened := hs.opened
  bound := hs.bound

-- leaving the select of the serving state drops the listener
theorem Supervising.closes {exitConfig : ExitConfig} (hcontrol : d.control = .serving exitConfig) :
    Supervising config { d with listener := none } := by
  have hok := hs.control
  refine ⟨?_, hs.kept, hs.died, hs.managed, nofun, hs.bound⟩
  rw [hcontrol] at hok ⊢
  exact hok

theorem Supervising.diedUnasked {status : String} (hquiet : Unsignalled d.trace)
    (hstatus : d.exitStatus = some status) :
    d.child.map Process.reap = some (.reaped status) ∧ .died status ∈ d.trace ∧ Unsignalled d.trace :=
  ⟨exitStatus_reap hstatus, hs.died status hstatus, hquiet⟩

theorem Supervising.sidecarDies {status : String} (hchild : d.child = some .running) :
    Supervising config
      { d with child := some (.exited status), trace := d.trace ++ [.died status] } := by
  have hlives : ¬Gone d.child := by
    rw [hchild]
    rintro (hnone | ⟨status', hreaped⟩)
    · cases hnone
    · cases hreaped
  refine ⟨hs.control.frame rfl rfl (by simp [Unsignalled]) id (fun hgone => absurd hgone hlives),
    fun _ => rfl, ?_, fun _ => hs.managed (by rw [hchild]; rfl), ?_, hs.bound.append (by simp)⟩
  · intro status' hstatus
    obtain rfl : status = status' := Option.some.inj hstatus
    exact List.mem_append_right _ List.mem_cons_self
  · exact fun address hopen => List.mem_append_left _ (hs.opened address hopen)

theorem Supervising.waits {endpoint : AdminEndpoint} {fromSlice : Bytes → Except String Json}
    {deadline : ℕ} {place place' : Waiting} {reply : Option AdminReply}
    (hcontrol : d.control = .waiting deadline place)
    (h : place.poll endpoint fromSlice deadline d.surroundings reply = some place') :
    Supervising config { d with
      control := .waiting deadline place'
      child := settle place' d.child
      trace := d.trace ++ announce place place' } := by
  obtain ⟨hclosed, hquiet, hplace⟩ := hs.controlAt hcontrol
  obtain ⟨hsilent, hspawns, hbinds⟩ := announce_quiet place place'
  refine ⟨⟨hclosed, unsignalled_append.mpr ⟨hquiet, hsilent⟩, poll_ok _ hs.died hquiet hplace h⟩,
    ?_, ?_, ?_, ?_, hs.bound.append hbinds⟩
  · intro hin
    rw [(settle_status _ _).2]
    exact hs.kept ((List.mem_append.mp hin).resolve_right hspawns)
  · intro status hstatus
    rw [Daemon.exitStatus, (settle_status _ _).1] at hstatus
    exact List.mem_append_left _ (hs.died status hstatus)
  · intro hsome
    rw [(settle_status _ _).2] at hsome
    exact hs.managed hsome
  · intro address hopen
    cases hclosed.symm.trans hopen

theorem Supervising.binds {exit : ExitServiceSettings} {overlay : YggAddr}
    (hcontrol : d.control = .binding exit overlay) :
    Supervising config { d with
      control := .serving (ValidatedDaemonConfig.exitConfig exit overlay)
      listener := some (exit.bind.resolve overlay)
      trace := d.trace ++ [.bound (exit.bind.resolve overlay)] } := by
  obtain ⟨hclosed, hquiet, hexit, hreported⟩ := hs.controlAt hcontrol
  refine ⟨⟨unsignalled_append.mpr ⟨hquiet, by simp [Unsignalled]⟩, exit, overlay, hexit, rfl⟩, ?_,
    fun status hstatus => List.mem_append_left _ (hs.died status hstatus), hs.managed, ?_, ?_⟩
  · exact fun hin => hs.kept ((List.mem_append.mp hin).resolve_right (by simp))
  · intro address hopen
    obtain rfl := Option.some.inj hopen
    exact List.mem_append_right _ List.mem_cons_self
  · apply hs.bound.push
    rintro address hbound
    exact ⟨exit, overlay, hexit, hreported, (DaemonEvent.bound.inj hbound).symm⟩

end

section
variable {start : Start} {fromSlice : Bytes → Except String Json} {d d' : Daemon}

theorem Supervising.step (hs : Supervising start.config d) (hstep : DaemonStep start fromSlice d d') :
    Supervising start.config d' := by
  cases hstep with
  | pass later h => exact ⟨hs.control, hs.kept, hs.died, hs.managed, hs.opened, hs.bound⟩
  | shutdownCompletes =>
    exact ⟨hs.control.frame rfl (List.append_nil _).symm nofun (fun _ => rfl) (fun _ => rfl), hs.kept,
      hs.died, hs.managed, hs.opened, hs.bound⟩
  | sidecarDies status hchild => exact hs.sidecarDies hchild
  | spawn phase phase' dir' hcontrol h =>
    obtain ⟨hclosed, hquiet, hnone, hmanaged, _⟩ := hs.controlAt hcontrol
    refine ⟨⟨hclosed, hquiet, hnone, hmanaged, ?_⟩, hs.kept, hs.died, hs.managed, hs.opened, hs.bound⟩
    rintro error rfl
    exact h.refused_error
  | spawned base hcontrol =>
    obtain ⟨hclosed, hquiet, hnone, hmanaged, _⟩ := hs.controlAt hcontrol
    exact supervising_enterWait (fun _ => rfl) nofun (fun _ => hmanaged) hclosed
      (unsignalled_append.mpr ⟨hquiet, by simp [Unsignalled]⟩) (hs.bound.append (by simp))
  | spawnFails error hcontrol =>
    obtain ⟨hclosed, _, hnone, _, herror⟩ := hs.controlAt hcontrol
    refine hs.moves ⟨hclosed, Or.inl hnone, nofun, fun status heq => ?_⟩
    exact absurd (Except.error.inj heq) (herror error rfl status)
  | wait deadline place place' reply hcontrol h => exact hs.waits hcontrol h
  | up deadline address hcontrol =>
    have hok := hs.controlAt hcontrol
    exact hs.moves (afterUp_ok hok.1 hok.2.1 hok.2.2)
  | waitShutdown deadline hcontrol =>
    have hok := hs.controlAt hcontrol
    exact hs.moves ⟨hok.1, hok.2.2⟩
  | waitFails deadline error hcontrol =>
    have hok := hs.controlAt hcontrol
    exact hs.moves ⟨hok.1, hok.2.2⟩
  | bind exit overlay hcontrol => exact hs.binds hcontrol
  | bindFails exit overlay kind hcontrol =>
    have hok := hs.controlAt hcontrol
    exact hs.moves ⟨hok.1, nofun⟩
  | serveShutdown exitConfig hcontrol hshutdown =>
    exact (hs.closes hcontrol).moves ⟨rfl, hshutdown⟩
  | acceptFails exitConfig kind hcontrol => exact (hs.closes hcontrol).moves ⟨rfl, nofun⟩
  | serveSidecarExits exitConfig status hcontrol hstatus =>
    have hok := hs.controlAt hcontrol
    refine (hs.closes hcontrol).reaps ⟨rfl, fun status' heq => ?_⟩
    obtain rfl := NodeError.sidecarExited.inj heq
    exact hs.diedUnasked hok.1 hstatus
  | leechShutdown hcontrol hshutdown =>
    have hok := hs.controlAt hcontrol
    exact hs.moves ⟨hok.1, hshutdown⟩
  | leechSidecarExits status hcontrol hstatus =>
    have hok := hs.controlAt hcontrol
    have hdied := hs.diedUnasked hok.2 hstatus
    refine hs.reaps ⟨hok.1, Or.inr ⟨status, hdied.1⟩, nofun, fun status' heq => ?_⟩
    obtain rfl := NodeError.sidecarExited.inj (Except.error.inj heq)
    exact hdied
  | terminateNone hcontrol hgone =>
    have hok := hs.controlAt hcontrol
    exact hs.moves ⟨hok.1, gone_of_not_live hgone, fun _ => hok.2, nofun⟩
  | terminate hcontrol hlive =>
    have hok := hs.controlAt hcontrol
    exact hs.emits (by simp) ⟨hok.1, hok.2⟩
  | graceEnds since hcontrol hrunning hdue =>
    have hok := hs.controlAt hcontrol
    exact hs.emits (by simp) ⟨hok.1, hok.2⟩
  | terminated stage status hcontrol hstage hstatus =>
    have hok := hs.controlAt hcontrol
    exact hs.reaps ⟨hok.1, Or.inr ⟨status, exitStatus_reap hstatus⟩, fun _ => hok.2, nofun⟩
  | killNone error hcontrol hnone =>
    have hok := hs.controlAt hcontrol
    refine hs.moves ⟨hok.1, Or.inl hnone, nofun, fun status heq => ?_⟩
    exact hok.2 status (Except.error.inj heq)
  | kill error hcontrol hsome =>
    have hok := hs.controlAt hcontrol
    refine hs.emits ⟨?_, ?_⟩ ⟨hok.1, fun status heq => ?_⟩
    · split <;> simp
    · split <;> simp
    · obtain ⟨hchild, hdied, hquiet⟩ := hok.2 status heq
      have hgone : d.childLive = false := by rw [Daemon.childLive, hchild]; rfl
      rw [hgone]
      exact ⟨hchild, List.mem_append_left _ hdied, unsignalled_append.mpr ⟨hquiet, nofun⟩⟩
  | killed error status hcontrol hstatus =>
    have hok := hs.controlAt hcontrol
    refine hs.reaps ⟨hok.1, Or.inr ⟨status, exitStatus_reap hstatus⟩, nofun, fun status' heq => ?_⟩
    obtain ⟨hchild, hdied, hquiet⟩ := hok.2 status' (Except.error.inj heq)
    exact ⟨by rw [hchild]; rfl, hdied, hquiet⟩

theorem startDaemon_supervising (config : ValidatedDaemonConfig) (dir : StateDir) (now : ℕ)
    (shutdown : Bool) : Supervising config (startDaemon config dir now shutdown) := by
  rw [startDaemon]
  split
  · next hmanaged =>
    exact ⟨⟨rfl, nofun, rfl, hmanaged, nofun⟩, nofun, nofun, nofun, nofun, by simp [BoundAfterReport]⟩
  · exact supervising_enterWait nofun nofun nofun rfl nofun (by simp [BoundAfterReport])

theorem supervising_run {dir : StateDir} {now : ℕ} {shutdown : Bool}
    (h : Reachable (DaemonStep start fromSlice) (startDaemon start.config dir now shutdown) d) :
    Supervising start.config d :=
  h.invariant (fun hs hstep => hs.step hstep) (startDaemon_supervising start.config dir now shutdown)

end

theorem run_daemon_supervised (start : Start) (fromSlice : Bytes → Except String Json)
    (dir : StateDir) (now : ℕ) (shutdown : Bool) (d : Daemon)
    (h : Reachable (DaemonStep start fromSlice) (startDaemon start.config dir now shutdown) d) :
    Supervised start.config d := (supervising_run h).supervised

section
variable {start : Start} {fromSlice : Bytes → Except String Json}

theorem spawn_run {s s' : Spawning × StateDir} (d : Daemon)
    (h : Reachable (SpawnStep anyStat start) s s') : Reachable (DaemonStep start fromSlice)
      { d with control := .spawning s.1, dir := s.2 } { d with control := .spawning s'.1, dir := s'.2 } := by
  induction h with
  | refl => exact .refl _
  | @tail mid last _ hlast ih => exact ih.tail (.spawn _ mid.1 last.1 last.2 rfl (.step hlast))

theorem enterWait_quiet (endpoint : AdminEndpoint) {d : Daemon} (hquiet : d.surroundings = quiet d.now) :
    enterWait endpoint d = { d with
      control := .waiting (overlayDeadline (quiet d.now)) (.asking (.connecting d.now) overlayPoll) } := by
  have hstarts := congrArg Wait.place (startWait_quiet endpoint d.now)
  simp only [startWait] at hstarts
  simp only [enterWait, hquiet, hstarts]
  rfl

-- an overlay that is up at once
theorem binding_reached {exit : ExitServiceSettings} {buffer : Bytes} {info : SelfInfo}
    (hexit : start.config.exit = some exit) (hanswer : selfAnswer fromSlice buffer = .ok info)
    {d : Daemon} {deadline since timeout : ℕ}
    (hcontrol : d.control = .waiting deadline (.asking (.connecting since) timeout))
    (hquiet : d.surroundings = quiet d.now) : Reachable (DaemonStep start fromSlice) d { d with
      control := .binding exit info.address
      trace := d.trace ++ [.reported info.address] } := by
  have hpoll {place place' : Waiting} {reply : Option AdminReply}
      (h : place.poll start.config.adminEndpoint fromSlice deadline (quiet d.now) reply = some place') :
      place.poll start.config.adminEndpoint fromSlice deadline d.surroundings reply = some place' :=
    hquiet ▸ h
  have hconnected : DaemonStep start fromSlice d { d with
      control := .waiting deadline (.asking (.requesting d.now) timeout) } := by
    have hstep := DaemonStep.wait d deadline _ (.asking (.requesting d.now) timeout) (some .connected)
      hcontrol (hpoll rfl)
    simpa only [settle, announce, List.append_nil] using hstep
  have hanswered : DaemonStep start fromSlice
      { d with control := .waiting deadline (.asking (.requesting d.now) timeout) }
      { d with
        control := .waiting deadline (.askingPeers info (.connecting d.now) timeout)
        trace := d.trace ++ [.reported info.address] } := by
    refine .wait { d with control := .waiting deadline (.asking (.requesting d.now) timeout) } deadline
      _ _ (some (.answered buffer)) rfl (hpoll ?_)
    simp [Waiting.poll, interrupted, quiet, Query.poll, Except.bind, hanswer]
  have hpeers := ((((Reachable.refl d).tail hconnected).tail hanswered).tail
    (.wait _ deadline _ _ (some .connected) rfl rfl)).tail
    (.wait _ deadline _ _ (some (.answered [])) rfl rfl)
  have hup := hpeers.tail (.up _ deadline info.address rfl)
  have hbinding : afterUp start.config info.address = .binding exit info.address := by
    rw [afterUp, hexit]
  simpa only [settle, announce, List.append_nil, hbinding] using hup

-- a daemon without a sidecar of its own asks at once
theorem startDaemon_unmanaged {config : ValidatedDaemonConfig} (hmanage : config.manage = false)
    (dir : StateDir) (now : ℕ) : startDaemon config dir now false =
      ⟨.waiting (overlayDeadline (quiet now)) (.asking (.connecting now) overlayPoll), dir, none, now,
        false, none, []⟩ := by
  rw [startDaemon, hmanage]
  exact enterWait_quiet config.adminEndpoint rfl

end

def servedExit : ExitServiceSettings := ⟨.overlay 8080, .loopbackOnly, none⟩

def servedStart : Start :=
  { sampleStart 'a' with config := { sampleConfig with exit := some servedExit } }

theorem servedStart_serves : ∃ dir overlay, Reachable (DaemonStep servedStart fun _ => .ok sampleSelf)
    (startDaemon servedStart.config ⟨false, none, none⟩ 0 false)
    ⟨.serving (ValidatedDaemonConfig.exitConfig servedExit overlay), dir, some .running, 0, false,
      some (servedExit.bind.resolve overlay),
      [.spawned, .reported overlay, .bound (servedExit.bind.resolve overlay)]⟩ := by
  have hlaunching := @launches_generated servedStart _ ⟨List.replicate 64 'a', by decide⟩
    ⟨false, none, none⟩ rfl rfl
  have hspawned := @spawn_run servedStart (fun _ => .ok sampleSelf) _ _
    (startDaemon servedStart.config ⟨false, none, none⟩ 0 false) (hlaunching.tail (.launch _ _))
  have hwaiting := hspawned.tail (.spawned _ _ rfl)
  rw [enterWait_quiet _ rfl] at hwaiting
  have hbinding := hwaiting.trans (@binding_reached servedStart _ _ [] _ rfl rfl _ _ _ _ rfl rfl)
  exact ⟨_, _, hbinding.tail (.bind _ _ _ rfl)⟩

-- it launches its sidecar, serves its exit and stops when it is asked to
theorem run_daemon_supervised_served : ∃ d overlay, d.control = .returned (.ok ()) ∧
    d.trace = [.spawned, .reported overlay, .bound (servedExit.bind.resolve overlay), .signalled .term,
      .died ""] ∧ Supervised servedStart.config d := by
  obtain ⟨dir, overlay, hserving⟩ := servedStart_serves
  have hasked := hserving.tail (.shutdownCompletes _)
  have hstopping := (hasked.tail (.serveShutdown _ _ rfl rfl)).tail (.terminate _ rfl rfl)
  have hdead := (hstopping.tail (.sidecarDies _ "" rfl)).tail (.terminated _ _ "" rfl nofun rfl)
  exact ⟨_, overlay, rfl, rfl, run_daemon_supervised servedStart _ _ _ _ _ hdead⟩

end SpiderNet.Node
