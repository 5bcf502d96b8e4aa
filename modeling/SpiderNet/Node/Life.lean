import SpiderNet.Node.Supervision

namespace SpiderNet.Node
open Exit Transition ListFacts

def DaemonEvent.isDeath : DaemonEvent → Bool
  | .died _ => true
  | _ => false

-- what the daemon does; the death of the sidecar is not its doing
def acts (trace : List DaemonEvent) : List DaemonEvent := trace.filter fun event => !event.isDeath

def deaths (trace : List DaemonEvent) : List DaemonEvent := trace.filter DaemonEvent.isDeath

def lifeOf (spawns : Bool) (overlay : Option YggAddr) (bound : Option SocketAddr)
    (signals : List Signal) : List DaemonEvent :=
  (if spawns then [.spawned] else []) ++ overlay.toList.map .reported ++ bound.toList.map .bound ++
    signals.map .signalled

-- what was signalled by the time the daemon is where it is
def Signals : Control → List Signal → Prop
  | .terminating (.grace _), signals => signals = [.term]
  | .terminating .killed, signals => signals = [.term, .kill]
  | .killing _ true, signals | .returned (.error _), signals => signals = [] ∨ signals = [.kill]
  | .returned (.ok ()), signals => signals = [] ∨ signals = [.term] ∨ signals = [.term, .kill]
  | _, signals => signals = []

-- the listener was bound where the overlay address put it
def BoundTo (config : ValidatedDaemonConfig) (overlay : Option YggAddr) (bound : Option SocketAddr) :
    Prop :=
  ∀ address, bound = some address →
    ∃ exit own, config.exit = some exit ∧ overlay = some own ∧ address = exit.bind.resolve own

def Worked (config : ValidatedDaemonConfig) (signals : List Signal) (done : List DaemonEvent) : Prop :=
  ∃ overlay bound, BoundTo config overlay bound ∧ done = lifeOf config.manage overlay bound signals

-- before the sidecar is launched, or after that failed
def Unborn : Control → Prop
  | .spawning _ | .returned (.error _) => True
  | _ => False

structure Life (config : ValidatedDaemonConfig) (d : Daemon) : Prop where
  acted : Unborn d.control ∧ acts d.trace = [] ∨
    ∃ signals, Signals d.control signals ∧ Worked config signals (acts d.trace)
  asked : .signalled .term ∈ d.trace → d.shutdown = true
  deaths : deaths d.trace = d.exitStatus.toList.map .died
  born : ∀ before status after, d.trace = before ++ .died status :: after → .spawned ∈ before

@[simp] theorem acts_append (trace events : List DaemonEvent) :
    acts (trace ++ events) = acts trace ++ acts events := List.filter_append _ _

@[simp] theorem deaths_append (trace events : List DaemonEvent) :
    deaths (trace ++ events) = deaths trace ++ deaths events := List.filter_append _ _

def reportedBy : Waiting → Option YggAddr
  | .askingPeers info _ _ => some info.address
  | .ended (.up address) => some address
  | _ => none

def CourseOk (config : ValidatedDaemonConfig) (done : List DaemonEvent) : Control → Prop
  | .spawning _ => done = []
  | .waiting _ place => done = lifeOf config.manage (reportedBy place) none []
  | .binding exit overlay => config.exit = some exit ∧ done = lifeOf config.manage (some overlay) none []
  | .returned (.error error) => done = [] ∨
      ∃ signals, Signals (.returned (.error error)) signals ∧ Worked config signals done
  | control => ∃ signals, Signals control signals ∧ Worked config signals done

theorem interrupted_shutdown {around : Surroundings} (h : around.shutdown = true) :
    interrupted around = some .shutdown := by
  rw [interrupted, h]
  rfl

-- no attempt is made under a shutdown
theorem enterWait_shutdown (endpoint : AdminEndpoint) {d : Daemon} (h : d.shutdown = true) :
    enterWait endpoint d =
      { d with control := .waiting (overlayDeadline d.surroundings) (.ended .shutdown) } := by
  have hleft : overlayDeadline d.surroundings - d.surroundings.now ≠ 0 := by
    rw [overlayDeadline, Nat.add_sub_cancel_left]
    decide
  have hstop : interrupted d.surroundings = some .shutdown := interrupted_shutdown h
  have hended : attempt endpoint (overlayDeadline d.surroundings) d.surroundings = .ended .shutdown := by
    rw [attempt, if_neg hleft, hstop]
  rw [enterWait, hended]
  rfl

theorem interrupted_reports {around : Surroundings} {outcome : OverlayOutcome}
    (h : interrupted around = some outcome) : reportedBy (.ended outcome) = none := by
  rcases interrupted_eq_some h with ⟨rfl, _⟩ | ⟨status, rfl, _⟩ <;> rfl

theorem attempt_reports (endpoint : AdminEndpoint) (deadline : ℕ) (around : Surroundings) :
    reportedBy (attempt endpoint deadline around) = none := by
  rw [attempt]
  split
  · rfl
  · cases hstop : interrupted around with
    | some outcome => exact interrupted_reports hstop
    | none => rfl

theorem poll_reports {endpoint : AdminEndpoint} {fromSlice : Bytes → Except String Json} {deadline : ℕ}
    {place place' : Waiting} {around : Surroundings} {reply : Option AdminReply}
    (h : place.poll endpoint fromSlice deadline around reply = some place') :
    (reportedBy place).toList.map DaemonEvent.reported ++ announce place place' =
      (reportedBy place').toList.map DaemonEvent.reported := by
  cases place with
  | asking query timeout =>
    rcases asking_poll h with ⟨outcome, hstop, rfl⟩ | ⟨_, ⟨query', _, rfl⟩ |
      ⟨result, info, _, _, rfl⟩ | ⟨_, rfl⟩⟩
    · rw [interrupted_reports hstop]
      rfl
    · rfl
    · rfl
    · rfl
  | askingPeers info query timeout =>
    rcases askingPeers_poll h with ⟨query', _, rfl⟩ | ⟨result, _, rfl⟩ <;> rfl
  | sleeping since timeout =>
    obtain rfl := sleeping_poll h
    rw [attempt_reports]
    rfl
  | ended outcome => cases h

theorem announce_acts (place place' : Waiting) : acts (announce place place') = announce place place' ∧
    deaths (announce place place') = [] := by
  rw [announce.eq_def]
  split <;> exact ⟨rfl, rfl⟩

theorem lifeOf_reported (spawns : Bool) (overlay : Option YggAddr) : lifeOf spawns overlay none [] =
    (if spawns then [.spawned] else []) ++ overlay.toList.map .reported := by
  simp [lifeOf]

theorem worked_unbound (config : ValidatedDaemonConfig) (overlay : Option YggAddr) :
    Worked config [] (lifeOf config.manage overlay none []) :=
  ⟨overlay, none, nofun, rfl⟩

theorem Worked.signal {config : ValidatedDaemonConfig} {signals : List Signal}
    {done : List DaemonEvent} (h : Worked config signals done) (signal : Signal) :
    Worked config (signals ++ [signal]) (done ++ [.signalled signal]) := by
  obtain ⟨overlay, bound, hbound, rfl⟩ := h
  refine ⟨overlay, bound, hbound, ?_⟩
  simp [lifeOf]

section
variable {start : Start} {fromSlice : Bytes → Except String Json} {d d' : Daemon}

theorem courseOk_step (h : CourseOk start.config (acts d.trace) d.control)
    (hs : Supervising start.config d) (hstep : DaemonStep start fromSlice d d') :
    CourseOk start.config (acts d'.trace) d'.control := by
  have hat : ∀ control, d.control = control → CourseOk start.config (acts d.trace) control :=
    fun control hcontrol => hcontrol ▸ h
  cases hstep with
  | pass later hlater => exact h
  | shutdownCompletes => exact h
  | sidecarDies status hchild => simpa [acts, DaemonEvent.isDeath] using h
  | spawn phase phase' dir' hcontrol hspawn =>
    have hdone := hat _ hcontrol
    exact hdone
  | spawned base hcontrol =>
    have hdone : acts d.trace = [] := hat _ hcontrol
    have hmanaged := (hs.controlAt hcontrol).2.2.2.1
    change acts (d.trace ++ [.spawned]) = lifeOf start.config.manage (reportedBy (attempt _ _ _)) none []
    rw [acts_append, hdone, attempt_reports, hmanaged]
    rfl
  | spawnFails error hcontrol =>
    have hdone := hat _ hcontrol
    exact Or.inl hdone
  | wait deadline place place' reply hcontrol hpoll =>
    have hdone : acts d.trace = lifeOf start.config.manage (reportedBy place) none [] := hat _ hcontrol
    change acts (d.trace ++ announce place place') = lifeOf start.config.manage (reportedBy place') none []
    rw [acts_append, hdone, (announce_acts place place').1, lifeOf_reported, lifeOf_reported,
      List.append_assoc, poll_reports hpoll]
  | up deadline address hcontrol =>
    have hdone : acts d.trace = lifeOf start.config.manage (some address) none [] := hat _ hcontrol
    change CourseOk start.config (acts d.trace) (afterUp start.config address)
    rw [afterUp, hdone]
    cases hexit : start.config.exit with
    | some exit => exact ⟨hexit, rfl⟩
    | none => exact ⟨[], rfl, worked_unbound start.config (some address)⟩
  | waitShutdown deadline hcontrol =>
    have hdone : acts d.trace = lifeOf start.config.manage none none [] := hat _ hcontrol
    exact ⟨[], rfl, hdone ▸ worked_unbound start.config none⟩
  | waitFails deadline error hcontrol =>
    have hdone : acts d.trace = lifeOf start.config.manage none none [] := hat _ hcontrol
    exact ⟨[], rfl, hdone ▸ worked_unbound start.config none⟩
  | bind exit overlay hcontrol =>
    obtain ⟨hexit, hdone⟩ := hat _ hcontrol
    refine ⟨[], rfl, some overlay, some (exit.bind.resolve overlay), ?_, ?_⟩
    · intro address hbound
      exact ⟨exit, overlay, hexit, rfl, (Option.some.inj hbound).symm⟩
    · change acts (d.trace ++ [.bound (exit.bind.resolve overlay)]) = _
      rw [acts_append, hdone]
      simp [lifeOf, acts, DaemonEvent.isDeath]
  | bindFails exit overlay kind hcontrol =>
    obtain ⟨_, hdone⟩ := hat _ hcontrol
    exact ⟨[], rfl, hdone ▸ worked_unbound start.config (some overlay)⟩
  | serveShutdown exitConfig hcontrol hshutdown =>
    have hdone := hat _ hcontrol
    exact hdone
  | acceptFails exitConfig kind hcontrol =>
    have hdone := hat _ hcontrol
    exact hdone
  | serveSidecarExits exitConfig status hcontrol hstatus =>
    have hdone := hat _ hcontrol
    exact hdone
  | leechShutdown hcontrol hshutdown =>
    have hdone := hat _ hcontrol
    exact hdone
  | leechSidecarExits status hcontrol hstatus =>
    obtain ⟨signals, hsignals, hworked⟩ := hat _ hcontrol
    exact Or.inr ⟨signals, Or.inl hsignals, hworked⟩
  | terminateNone hcontrol hgone =>
    obtain ⟨signals, hsignals, hworked⟩ := hat _ hcontrol
    exact ⟨signals, Or.inl hsignals, hworked⟩
  | terminate hcontrol hlive =>
    obtain ⟨signals, rfl, hworked⟩ := hat _ hcontrol
    change CourseOk start.config (acts (d.trace ++ [.signalled .term])) _
    rw [acts_append]
    exact ⟨[.term], rfl, hworked.signal .term⟩
  | graceEnds since hcontrol hrunning hdue =>
    obtain ⟨signals, rfl, hworked⟩ := hat _ hcontrol
    change CourseOk start.config (acts (d.trace ++ [.signalled .kill])) _
    rw [acts_append]
    exact ⟨[.term, .kill], rfl, hworked.signal .kill⟩
  | terminated stage status hcontrol hstage hstatus =>
    obtain ⟨signals, hsignals, hworked⟩ := hat _ hcontrol
    cases stage with
    | signalling => exact absurd rfl hstage
    | grace since => exact ⟨signals, Or.inr (Or.inl hsignals), hworked⟩
    | killed => exact ⟨signals, Or.inr (Or.inr hsignals), hworked⟩
  | killNone error hcontrol hnone =>
    obtain ⟨signals, hsignals, hworked⟩ := hat _ hcontrol
    exact Or.inr ⟨signals, Or.inl hsignals, hworked⟩
  | kill error hcontrol hsome =>
    obtain ⟨signals, rfl, hworked⟩ := hat _ hcontrol
    change CourseOk start.config (acts (d.trace ++ if d.childLive then [.signalled .kill] else [])) _
    rw [acts_append]
    cases d.childLive with
    | true => exact ⟨[.kill], Or.inr rfl, hworked.signal .kill⟩
    | false => exact ⟨[], Or.inl rfl, (List.append_nil (acts d.trace)).symm ▸ hworked⟩
  | killed error status hcontrol hstatus =>
    obtain ⟨signals, hsignals, hworked⟩ := hat _ hcontrol
    exact Or.inr ⟨signals, hsignals, hworked⟩

end

structure DeathsOk (d : Daemon) : Prop where
  deaths : deaths d.trace = d.exitStatus.toList.map .died
  spawned : d.child.isSome → .spawned ∈ d.trace
  born : ∀ before status after, d.trace = before ++ .died status :: after → .spawned ∈ before

theorem born_append {trace events : List DaemonEvent} (hquiet : deaths events = [])
    (h : ∀ before status after, trace = before ++ .died status :: after → .spawned ∈ before) :
    ∀ before status after, trace ++ events = before ++ .died status :: after → .spawned ∈ before := by
  induction events generalizing trace with
  | nil => simpa using h
  | cons event rest ih =>
    have hevent : event.isDeath = false := by
      by_contra hdeath
      rw [Bool.not_eq_false] at hdeath
      simp [deaths, hdeath] at hquiet
    rw [← List.singleton_append, ← List.append_assoc]
    refine ih (by simpa [deaths, hevent] using hquiet) fun before status after hsplit => ?_
    rcases snoc_split hsplit with ⟨rfl, rfl⟩ | ⟨after', htrace⟩
    · cases hevent
    · exact h before status after' htrace

theorem DeathsOk.keep {d d' : Daemon} {events : List DaemonEvent} (h : DeathsOk d)
    (hstatus : d'.exitStatus = d.exitStatus) (hsome : d'.child.isSome = d.child.isSome)
    (htrace : d'.trace = d.trace ++ events) (hquiet : Node.deaths events = []) : DeathsOk d' where
  deaths := by rw [htrace, deaths_append, hquiet, List.append_nil, hstatus, h.deaths]
  spawned hchild := by
    rw [htrace]
    exact List.mem_append_left events (h.spawned (hsome ▸ hchild))
  born := htrace ▸ born_append hquiet h.born

theorem DeathsOk.die {d : Daemon} {status : String} (h : DeathsOk d) (hchild : d.child = some .running) :
    DeathsOk { d with child := some (.exited status), trace := d.trace ++ [.died status] } where
  deaths := by
    have halive : d.exitStatus = none := by rw [Daemon.exitStatus, hchild]; rfl
    rw [deaths_append, h.deaths, halive]
    rfl
  spawned _ := List.mem_append_left _ (h.spawned (by rw [hchild]; rfl))
  born before status' after hsplit := by
    rcases snoc_split hsplit with ⟨rfl, _⟩ | ⟨after', htrace⟩
    · exact h.spawned (by rw [hchild]; rfl)
    · exact h.born before status' after' htrace

theorem DeathsOk.enterWait {d : Daemon} (endpoint : AdminEndpoint) (h : DeathsOk d) :
    DeathsOk (enterWait endpoint d) :=
  h.keep (settle_status _ _).1 (settle_status _ _).2 (List.append_nil _).symm rfl

theorem DeathsOk.spawn {d : Daemon} (h : DeathsOk d) (hnone : d.child = none) :
    DeathsOk { d with child := some .running, trace := d.trace ++ [.spawned] } where
  deaths := by
    have hstatus : d.exitStatus = none := by rw [Daemon.exitStatus, hnone]; rfl
    rw [deaths_append, h.deaths, hstatus]
    rfl
  spawned _ := List.mem_append_right _ List.mem_cons_self
  born := born_append rfl h.born

section
variable {start : Start} {fromSlice : Bytes → Except String Json} {d d' : Daemon}

theorem deathsOk_step (h : DeathsOk d) (hs : Supervising start.config d)
    (hstep : DaemonStep start fromSlice d d') : DeathsOk d' := by
  have hreap : (d.child.map Process.reap).isSome = d.child.isSome := Option.isSome_map
  cases hstep with
  | sidecarDies status hchild => exact h.die hchild
  | spawned base hcontrol =>
    exact (h.spawn (hs.controlAt hcontrol).2.2.1).enterWait start.config.adminEndpoint
  | wait deadline place place' reply hcontrol hpoll =>
    exact h.keep (settle_status _ _).1 (settle_status _ _).2 rfl (announce_acts _ _).2
  | serveSidecarExits exitConfig status hcontrol hstatus =>
    exact h.keep (status_reap d.child) hreap (List.append_nil _).symm rfl
  | leechSidecarExits status hcontrol hstatus =>
    exact h.keep (status_reap d.child) hreap (List.append_nil _).symm rfl
  | terminated stage status hcontrol hstage hstatus =>
    exact h.keep (status_reap d.child) hreap (List.append_nil _).symm rfl
  | killed error status hcontrol hstatus =>
    exact h.keep (status_reap d.child) hreap (List.append_nil _).symm rfl
  | bind exit overlay hcontrol => exact h.keep rfl rfl rfl rfl
  | terminate hcontrol hlive => exact h.keep rfl rfl rfl rfl
  | graceEnds since hcontrol hrunning hdue => exact h.keep rfl rfl rfl rfl
  | kill error hcontrol hsome =>
    refine h.keep rfl rfl rfl ?_
    split <;> rfl
  | _ => exact h.keep rfl rfl (List.append_nil _).symm rfl

theorem startDaemon_life (config : ValidatedDaemonConfig) (dir : StateDir) (now : ℕ) (shutdown : Bool) :
    CourseOk config (acts (startDaemon config dir now shutdown).trace)
      (startDaemon config dir now shutdown).control ∧
    DeathsOk (startDaemon config dir now shutdown) := by
  have hborn : DeathsOk ⟨.spawning .creatingDir, dir, none, now, shutdown, none, []⟩ :=
    ⟨rfl, nofun, by simp⟩
  cases hmanage : config.manage with
  | true =>
    rw [startDaemon, if_pos hmanage]
    exact ⟨rfl, hborn⟩
  | false =>
    rw [startDaemon, if_neg (Bool.eq_false_iff.mp hmanage)]
    refine ⟨?_, hborn.enterWait config.adminEndpoint⟩
    change [] = lifeOf config.manage (reportedBy (attempt _ _ _)) none []
    rw [attempt_reports, hmanage]
    rfl

-- every act belongs to one pass through the daemon's phases
theorem CourseOk.acted {config : ValidatedDaemonConfig} {done : List DaemonEvent} {control : Control}
    (h : CourseOk config done control) : Unborn control ∧ done = [] ∨
      ∃ signals, Signals control signals ∧ Worked config signals done := by
  cases control with
  | spawning phase => exact Or.inl ⟨trivial, h⟩
  | waiting deadline place =>
    have hdone : done = lifeOf config.manage (reportedBy place) none [] := h
    exact Or.inr ⟨[], rfl, hdone ▸ worked_unbound config (reportedBy place)⟩
  | binding exit overlay => exact Or.inr ⟨[], rfl, h.2 ▸ worked_unbound config (some overlay)⟩
  | serving exitConfig => exact Or.inr h
  | leeching => exact Or.inr h
  | terminating stage => exact Or.inr h
  | killing error sent => exact Or.inr h
  | returned result =>
    cases result with
    | ok _ => exact Or.inr h
    | error error => exact h.imp_left fun hdone => ⟨trivial, hdone⟩

theorem signals_term {control : Control} {signals : List Signal} (h : Signals control signals)
    (hterm : .term ∈ signals) :
    (∃ stage, control = .terminating stage) ∨ control = .returned (.ok ()) := by
  cases control with
  | terminating stage => exact Or.inl ⟨stage, rfl⟩
  | returned result =>
    cases result with
    | ok _ => exact Or.inr rfl
    | error error => rcases h with rfl | rfl <;> simp at hterm
  | killing error sent =>
    cases sent with
    | true => rcases h with rfl | rfl <;> simp at hterm
    | false =>
      obtain rfl : signals = [] := h
      cases hterm
  | _ =>
    obtain rfl : signals = [] := h
    cases hterm

theorem Worked.term {config : ValidatedDaemonConfig} {signals : List Signal} {done : List DaemonEvent}
    (h : Worked config signals done) (hterm : .signalled .term ∈ done) : .term ∈ signals := by
  obtain ⟨overlay, bound, _, rfl⟩ := h
  rw [lifeOf] at hterm
  cases config.manage <;> simpa using hterm

theorem run_daemon_life {dir : StateDir} {now : ℕ} {shutdown : Bool}
    (h : Reachable (DaemonStep start fromSlice) (startDaemon start.config dir now shutdown) d) :
    Life start.config d := by
  have hinv : Supervising start.config d ∧ CourseOk start.config (acts d.trace) d.control ∧ DeathsOk d := by
    induction h with
    | refl => exact ⟨startDaemon_supervising _ _ _ _, startDaemon_life _ _ _ _⟩
    | tail _ hlast ih =>
      obtain ⟨hs, hcourse, hdeaths⟩ := ih
      exact ⟨hs.step hlast, courseOk_step hcourse hs hlast, deathsOk_step hdeaths hs hlast⟩
  obtain ⟨hs, hcourse, hdeaths⟩ := hinv
  refine ⟨hcourse.acted, fun hterm => ?_, hdeaths.deaths, hdeaths.born⟩
  have hdone : .signalled .term ∈ acts d.trace := List.mem_filter.mpr ⟨hterm, rfl⟩
  rcases hcourse.acted with ⟨_, hnone⟩ | ⟨signals, hsignals, hworked⟩
  · rw [hnone] at hdone
    cases hdone
  · rcases signals_term hsignals (hworked.term hdone) with ⟨stage, hcontrol⟩ | hcontrol
    · exact (hs.controlAt hcontrol).2
    · exact (hs.controlAt hcontrol).2.2.1 rfl

end

-- asked to stop while it waits for the overlay, with its sidecar launched
theorem run_daemon_life_stopped : ∃ d, d.control = .returned (.ok ()) ∧
    acts d.trace = [.spawned, .signalled .term] ∧ Life sampleConfig d := by
  have hlaunching := @launches_generated (sampleStart 'a') _ ⟨List.replicate 64 'a', by decide⟩
    ⟨false, none, none⟩ rfl rfl
  have hspawned := @spawn_run (sampleStart 'a') (fun _ => .error "") _ _
    (startDaemon sampleConfig ⟨false, none, none⟩ 0 true) (hlaunching.tail (.launch _ _))
  have hwaiting := hspawned.tail (.spawned _ _ rfl)
  rw [enterWait_shutdown _ rfl] at hwaiting
  have hstopping := (hwaiting.tail (.waitShutdown _ _ rfl)).tail (.terminate _ rfl rfl)
  have hdead := (hstopping.tail (.sidecarDies _ "" rfl)).tail (.terminated _ _ "" rfl nofun rfl)
  exact ⟨_, rfl, rfl, run_daemon_life hdead⟩

end SpiderNet.Node
