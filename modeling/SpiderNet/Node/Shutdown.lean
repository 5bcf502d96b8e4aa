import SpiderNet.Node.FirstStart
import SpiderNet.Node.Life

namespace SpiderNet.Node
open Exit Transition

section
variable (start : Start) (fromSlice : Bytes → Except String Json)

-- time passes, the shutdown is asked for, the sidecar dies: the daemon stays where it is
def Around (d d' : Daemon) : Prop := DaemonStep start fromSlice d d' ∧ d'.control = d.control

-- what goes on around the daemon, and then a move of its own
def Turn (d d' : Daemon) : Prop :=
  ∃ mid, Reachable (Around start fromSlice) d mid ∧ DaemonStep start fromSlice mid d' ∧
    d'.control ≠ mid.control

-- what the daemon counts on: time passes, and SIGKILL kills
inductive Expected : Daemon → Daemon → Prop
  | pass (d : Daemon) (later : ℕ) (h : d.now ≤ later) : Expected d { d with now := later }
  | dies (d : Daemon) (status : String) (hchild : d.child = some .running)
      (hkilled : .signalled .kill ∈ d.trace) :
      Expected d { d with child := some (.exited status), trace := d.trace ++ [.died status] }

-- the move takes no reply of the admin server
def Unaided (d d' : Daemon) : Prop := ∀ deadline place place', d.control = .waiting deadline place →
  d'.control = .waiting deadline place' →
  place.poll start.config.adminEndpoint fromSlice deadline d.surroundings none = some place'

def SureTurn (d d' : Daemon) : Prop :=
  ∃ mid, Reachable Expected d mid ∧ DaemonStep start fromSlice mid d' ∧ d'.control ≠ mid.control ∧
    Unaided start fromSlice mid d'

end

-- in the body of the select's branch: it looks at nothing but the admin connection
def AwaitsPeers : Control → Prop
  | .waiting _ (.askingPeers _ _ _) => True
  | _ => False

-- how far from its return a daemon is that has been asked to stop
def Waiting.rank : Waiting → ℕ
  | .askingPeers _ (.connecting _) _ => 9
  | .asking _ _ | .askingPeers _ (.requesting _) _ | .sleeping _ _ => 8
  | .ended _ => 7

def Control.rank : Control → ℕ
  | .spawning _ => 10
  | .waiting _ place => place.rank
  | .binding _ _ => 6
  | .serving _ | .leeching => 5
  | .terminating .signalling | .killing _ false => 4
  | .terminating (.grace _) | .killing _ true => 3
  | .terminating .killed => 2
  | .returned _ => 0

def spawnLeft (start : Start) : Control → ℕ ×ₗ ℕ
  | .spawning phase => remaining start phase
  | _ => toLex (0, 0)

def Control.left (start : Start) (control : Control) : ℕ ×ₗ (ℕ ×ₗ ℕ) :=
  toLex (control.rank, spawnLeft start control)

theorem left_lt_of_rank {start : Start} {control control' : Control} (h : control'.rank < control.rank) :
    control'.left start < control.left start := Prod.Lex.toLex_lt_toLex.mpr (Or.inl h)

-- once the sidecar is to be killed it has been sent SIGKILL or is dead
def AttachedAt (d : Daemon) : Control → Prop
  | .terminating (.grace _) => d.child.isSome
  | .terminating .killed | .killing _ true =>
    d.child.isSome ∧ (.signalled .kill ∈ d.trace ∨ d.exitStatus.isSome)
  | _ => True

theorem attempt_shutdown (endpoint : AdminEndpoint) (deadline : ℕ) {around : Surroundings}
    (h : around.shutdown = true) : ∃ outcome, attempt endpoint deadline around = .ended outcome := by
  rw [attempt, interrupted_shutdown h]
  split
  · exact ⟨_, rfl⟩
  · exact ⟨_, rfl⟩

theorem remaining_refused {start : Start} {phase : Spawning} (h : ¬phase.Ended) (error : NodeError) :
    remaining start (.refused error) < remaining start phase := by
  refine Prod.Lex.toLex_lt_toLex.mpr (Or.inl ?_)
  cases phase with
  | spawned base => exact absurd trivial h
  | refused error => exact absurd trivial h
  | _ => exact Nat.succ_pos _

theorem waiting_rank (place : Waiting) : place.rank < 10 := by
  cases place with
  | askingPeers info query timeout => cases query <;> simp [Waiting.rank]
  | _ => simp [Waiting.rank]

theorem afterUp_rank (config : ValidatedDaemonConfig) (overlay : YggAddr) :
    (afterUp config overlay).rank < 7 := by
  rw [afterUp]
  cases config.exit <;> simp [Control.rank]

-- under a shutdown no poll starts another attempt
theorem poll_rank {endpoint : AdminEndpoint} {fromSlice : Bytes → Except String Json} {deadline : ℕ}
    {place place' : Waiting} {around : Surroundings} {reply : Option AdminReply}
    (hshutdown : around.shutdown = true)
    (h : place.poll endpoint fromSlice deadline around reply = some place') :
    place'.rank < place.rank := by
  cases place with
  | asking query timeout =>
    rcases asking_poll h with ⟨outcome, _, rfl⟩ | ⟨hrunning, _⟩
    · simp [Waiting.rank]
    · rw [interrupted_shutdown hshutdown] at hrunning
      cases hrunning
  | askingPeers info query timeout =>
    rcases askingPeers_poll h with ⟨query', hmoved, rfl⟩ | ⟨result, _, rfl⟩
    · obtain ⟨⟨⟨since, rfl⟩, _⟩, rfl⟩ := query_moved.mp hmoved
      simp [Waiting.rank]
    · cases query <;> simp [Waiting.rank]
  | sleeping since timeout =>
    obtain rfl := sleeping_poll h
    obtain ⟨outcome, hended⟩ := attempt_shutdown endpoint deadline hshutdown
    rw [hended]
    simp [Waiting.rank]
  | ended outcome => cases h

section
variable {start : Start} {fromSlice : Bytes → Except String Json} {d d' : Daemon}

theorem shutdown_kept (hstep : DaemonStep start fromSlice d d') (h : d.shutdown = true) :
    d'.shutdown = true := by
  cases hstep with
  | shutdownCompletes => rfl
  | _ => exact h

theorem AttachedAt.keep {events : List DaemonEvent} {control : Control} (h : AttachedAt d control)
    (hsome : d'.child.isSome = d.child.isSome) (hstatus : d.exitStatus.isSome → d'.exitStatus.isSome)
    (htrace : d'.trace = d.trace ++ events) : AttachedAt d' control := by
  cases control with
  | terminating stage =>
    cases stage with
    | signalling => trivial
    | grace since => exact hsome.trans h
    | killed =>
      exact ⟨hsome.trans h.1, h.2.imp (fun hkill => htrace ▸ List.mem_append_left events hkill) hstatus⟩
  | killing error sent =>
    cases sent with
    | false => trivial
    | true =>
      exact ⟨hsome.trans h.1, h.2.imp (fun hkill => htrace ▸ List.mem_append_left events hkill) hstatus⟩
  | _ => trivial

theorem attached_step (h : AttachedAt d d.control) (hstep : DaemonStep start fromSlice d d') :
    AttachedAt d' d'.control := by
  have hat : ∀ control, d.control = control → AttachedAt d control :=
    fun control hcontrol => hcontrol ▸ h
  cases hstep with
  | pass later hlater => exact h.keep rfl id (List.append_nil _).symm
  | shutdownCompletes => exact h.keep rfl id (List.append_nil _).symm
  | sidecarDies status hchild => exact h.keep (by rw [hchild]; rfl) (fun _ => rfl) rfl
  | terminate hcontrol hlive =>
    rw [Daemon.childLive] at hlive
    rcases hchild : d.child with _ | process
    · rw [hchild] at hlive
      cases hlive
    · rfl
  | graceEnds since hcontrol hrunning hdue =>
    exact ⟨hat _ hcontrol, Or.inl (List.mem_append_right _ List.mem_cons_self)⟩
  | kill error hcontrol hsome =>
    refine ⟨hsome, ?_⟩
    rcases hchild : d.child with _ | _ | status | status
    · rw [hchild] at hsome
      cases hsome
    · exact Or.inl (List.mem_append_right _ (by simp [Daemon.childLive, hchild, Process.live]))
    · exact Or.inl (List.mem_append_right _ (by simp [Daemon.childLive, hchild, Process.live]))
    · exact Or.inr rfl
  | up deadline address hcontrol =>
    change AttachedAt _ (afterUp start.config address)
    rw [afterUp]
    cases start.config.exit <;> trivial
  | _ => trivial

theorem left_lt (hshutdown : d.shutdown = true) (hstep : DaemonStep start fromSlice d d')
    (hmoved : d'.control ≠ d.control) : d'.control.left start < d.control.left start := by
  cases hstep with
  | pass later hlater => exact absurd rfl hmoved
  | shutdownCompletes => exact absurd rfl hmoved
  | sidecarDies status hchild => exact absurd rfl hmoved
  | spawn phase phase' dir' hcontrol hspawn =>
    rw [hcontrol]
    refine Prod.Lex.toLex_lt_toLex.mpr (Or.inr ⟨rfl, ?_⟩)
    cases hspawn with
    | step hspawn => exact hspawn.remaining_lt
    | fail phase dir kind hrunning => exact remaining_refused hrunning (.io kind)
  | spawned base hcontrol =>
    rw [hcontrol]
    exact left_lt_of_rank (waiting_rank _)
  | wait deadline place place' reply hcontrol hpoll =>
    rw [hcontrol]
    exact left_lt_of_rank (poll_rank hshutdown hpoll)
  | up deadline address hcontrol =>
    rw [hcontrol]
    exact left_lt_of_rank (afterUp_rank start.config address)
  | terminated stage status hcontrol hstage hstatus =>
    rw [hcontrol]
    cases stage with
    | signalling => exact absurd rfl hstage
    | grace since => exact left_lt_of_rank (Nat.succ_pos _)
    | killed => exact left_lt_of_rank (Nat.succ_pos _)
  | serveShutdown _ hcontrol _ | serveSidecarExits _ _ hcontrol _ | acceptFails _ _ hcontrol
  | leechShutdown hcontrol _ | leechSidecarExits _ hcontrol _ | bindFails _ _ _ hcontrol
  | bind _ _ hcontrol | waitFails _ _ hcontrol | waitShutdown _ hcontrol | spawnFails _ hcontrol
  | terminateNone hcontrol _ | terminate hcontrol _ | graceEnds _ hcontrol _ _ | killNone _ hcontrol _
  | kill _ hcontrol _ | killed _ _ hcontrol _ =>
    rw [hcontrol]
    exact left_lt_of_rank (by simp [Control.rank, Waiting.rank])

theorem SureTurn.after {mid : Daemon} (hexpected : Reachable Expected d mid)
    (h : ∃ d', SureTurn start fromSlice mid d') : ∃ d', SureTurn start fromSlice d d' := by
  obtain ⟨d', last, hlast, hmoves⟩ := h
  exact ⟨d', last, hexpected.trans hlast, hmoves⟩

theorem sure_of_step {control : Control} (hcontrol : d.control = control)
    (hunaided : ∀ deadline place, control ≠ .waiting deadline place)
    (hstep : DaemonStep start fromSlice d d') (hmoved : d'.control ≠ control) :
    ∃ d', SureTurn start fromSlice d d' := by
  refine ⟨d', d, .refl d, hstep, hcontrol ▸ hmoved, fun deadline place place' hwaits _ => ?_⟩
  exact absurd (hcontrol.symm.trans hwaits) (hunaided deadline place)

theorem sure_of_poll {deadline : ℕ} {place place' : Waiting}
    (hcontrol : d.control = .waiting deadline place)
    (hpoll : place.poll start.config.adminEndpoint fromSlice deadline d.surroundings none = some place')
    (hmoved : place' ≠ place) : ∃ d', SureTurn start fromSlice d d' := by
  refine ⟨_, d, .refl d, .wait d deadline place place' none hcontrol hpoll, ?_, ?_⟩
  · rw [hcontrol]
    exact fun hsame => hmoved (Control.waiting.inj hsame).2
  · intro deadline' from' to' hwaits hends
    obtain ⟨rfl, rfl⟩ := Control.waiting.inj (hcontrol.symm.trans hwaits)
    obtain ⟨_, rfl⟩ := Control.waiting.inj hends
    exact hpoll

-- a sidecar that was sent SIGKILL dies, and the daemon sees it
theorem sure_of_death (hunaided : ∀ deadline place, d.control ≠ .waiting deadline place)
    (hattached : d.child.isSome ∧ (.signalled .kill ∈ d.trace ∨ d.exitStatus.isSome))
    (hstep : ∀ e status, e.control = d.control → e.exitStatus = some status →
      ∃ e', DaemonStep start fromSlice e e' ∧ e'.control ≠ e.control) :
    ∃ d', SureTurn start fromSlice d d' := by
  have hends {e : Daemon} {status : String} (hsame : e.control = d.control)
      (hstatus : e.exitStatus = some status) : ∃ e', SureTurn start fromSlice e e' := by
    obtain ⟨e', hnext, hmoved⟩ := hstep e status hsame hstatus
    exact sure_of_step hsame hunaided hnext (hsame ▸ hmoved)
  rcases hstatus : d.exitStatus with _ | status
  · have hkilled : .signalled .kill ∈ d.trace := hattached.2.resolve_right (by simp [hstatus])
    have hrunning : d.child = some .running := by
      rcases hchild : d.child with _ | _ | status | status
      · simp [hchild] at hattached
      · rfl
      · simp [Daemon.exitStatus, hchild, Process.status] at hstatus
      · simp [Daemon.exitStatus, hchild, Process.status] at hstatus
    exact SureTurn.after ((Reachable.refl d).tail (.dies d "" hrunning hkilled))
      (@hends { d with child := some (.exited ""), trace := d.trace ++ [.died ""] } "" rfl rfl)
  · exact hends rfl hstatus

theorem sure_of_spawning {phase : Spawning} (hcontrol : d.control = .spawning phase) :
    ∃ d', SureTurn start fromSlice d d' := by
  by_cases hended : phase.Ended
  · cases phase with
    | spawned base =>
      exact sure_of_step hcontrol (by simp) (.spawned d base hcontrol) (by simp [enterWait])
    | refused error =>
      exact sure_of_step hcontrol (by simp) (.spawnFails d error hcontrol) (by simp)
    | _ => exact hended.elim
  · refine sure_of_step hcontrol (by simp)
      (.spawn d phase _ d.dir hcontrol (.fail phase d.dir .other hended)) ?_
    intro hsame
    obtain rfl := Control.spawning.inj hsame
    exact hended trivial

theorem sure_of_waiting (hshutdown : d.shutdown = true) {deadline : ℕ} {place : Waiting}
    (hcontrol : d.control = .waiting deadline place) (hfree : ¬AwaitsPeers (.waiting deadline place)) :
    ∃ d', SureTurn start fromSlice d d' := by
  have hstop : interrupted d.surroundings = some .shutdown := interrupted_shutdown hshutdown
  cases place with
  | asking query timeout =>
    have hpoll : (Waiting.asking query timeout).poll start.config.adminEndpoint fromSlice deadline
        d.surroundings none = some (.ended .shutdown) := by rw [Waiting.poll, hstop]
    exact sure_of_poll hcontrol hpoll (by simp)
  | askingPeers info query timeout => exact absurd trivial hfree
  | sleeping since timeout =>
    let mid : Daemon := { d with now := d.now + (since + overlayPoll) }
    have hpoll : (Waiting.sleeping since timeout).poll start.config.adminEndpoint fromSlice deadline
        mid.surroundings none = some (attempt start.config.adminEndpoint deadline mid.surroundings) := by
      have hdue : since + overlayPoll ≤ mid.surroundings.now := Nat.le_add_left _ _
      rw [Waiting.poll, if_pos hdue]
    obtain ⟨outcome, hended⟩ := @attempt_shutdown start.config.adminEndpoint deadline mid.surroundings
      hshutdown
    refine SureTurn.after ((Reachable.refl d).tail (.pass d mid.now (Nat.le_add_right _ _))) ?_
    refine @sure_of_poll start fromSlice mid deadline _ _ hcontrol hpoll ?_
    rw [hended]
    simp
  | ended outcome =>
    have hstays {d' : Daemon} (hstep : DaemonStep start fromSlice d d')
        (hleaves : ∀ deadline place, d'.control ≠ .waiting deadline place) :
        ∃ d', SureTurn start fromSlice d d' := by
      refine ⟨d', d, .refl d, hstep, ?_, fun deadline place place' _ hends => ?_⟩
      · rw [hcontrol]
        exact hleaves deadline _
      · exact absurd hends (hleaves deadline place')
    cases outcome with
    | up address =>
      refine hstays (.up d deadline address hcontrol) fun deadline place => ?_
      change afterUp start.config address ≠ _
      rw [afterUp]
      cases start.config.exit <;> simp
    | shutdown => exact hstays (.waitShutdown d deadline hcontrol) (by simp)
    | failed error => exact hstays (.waitFails d deadline error hcontrol) (by simp)

theorem sure_of_terminating {stage : Stopping} (hattached : AttachedAt d (.terminating stage))
    (hcontrol : d.control = .terminating stage) : ∃ d', SureTurn start fromSlice d d' := by
  have hends {e : Daemon} {status : String} (hstage : stage ≠ .signalling)
      (hsame : e.control = d.control) (hstatus : e.exitStatus = some status) :
      ∃ e', DaemonStep start fromSlice e e' ∧ e'.control ≠ e.control := by
    rw [hcontrol] at hsame
    refine ⟨_, .terminated e stage status hsame hstage hstatus, ?_⟩
    rw [hsame]
    simp
  cases stage with
  | signalling =>
    cases hlive : d.childLive with
    | true => exact sure_of_step hcontrol (by simp) (.terminate d hcontrol hlive) (by simp)
    | false => exact sure_of_step hcontrol (by simp) (.terminateNone d hcontrol hlive) (by simp)
  | grace since =>
    rcases hstatus : d.exitStatus with _ | status
    · obtain ⟨later, hlater, hdue⟩ : ∃ later, d.now ≤ later ∧ since + terminateGrace ≤ later :=
        ⟨_, le_max_left _ _, le_max_right _ _⟩
      refine SureTurn.after ((Reachable.refl d).tail (.pass d later hlater)) ?_
      exact @sure_of_step start fromSlice { d with now := later } _ _ hcontrol (by simp)
        (.graceEnds _ since hcontrol hstatus hdue) (by simp)
    · obtain ⟨d', hnext, hmoved⟩ := hends (by simp) rfl hstatus
      exact sure_of_step rfl (by simp [hcontrol]) hnext hmoved
  | killed =>
    exact sure_of_death (by simp [hcontrol]) hattached fun e status => hends (by simp)

theorem sure_of_killing {error : NodeError} {sent : Bool} (hattached : AttachedAt d (.killing error sent))
    (hcontrol : d.control = .killing error sent) : ∃ d', SureTurn start fromSlice d d' := by
  cases sent with
  | true =>
    refine sure_of_death (by simp [hcontrol]) hattached fun e status hsame hstatus => ?_
    rw [hcontrol] at hsame
    refine ⟨_, .killed e error status hsame hstatus, ?_⟩
    rw [hsame]
    simp
  | false =>
    rcases hchild : d.child with _ | process
    · exact sure_of_step hcontrol (by simp) (.killNone d error hcontrol hchild) (by simp)
    · refine sure_of_step hcontrol (by simp) (.kill d error hcontrol (by rw [hchild]; rfl)) ?_
      intro hsame
      cases (Control.killing.inj hsame).2

theorem sure_of_shutdown (hshutdown : d.shutdown = true) (hattached : AttachedAt d d.control)
    (hfree : ¬AwaitsPeers d.control) :
    (∃ result, d.control = .returned result) ∨ ∃ d', SureTurn start fromSlice d d' := by
  rcases hcontrol : d.control with phase | ⟨deadline, place⟩ | ⟨exit, overlay⟩ | config | _ | stage |
    ⟨error, sent⟩ | result
  · exact Or.inr (sure_of_spawning hcontrol)
  · exact Or.inr (sure_of_waiting hshutdown hcontrol (hcontrol ▸ hfree))
  · exact Or.inr (sure_of_step hcontrol (by simp) (.bind d exit overlay hcontrol) (by simp))
  · exact Or.inr (sure_of_step hcontrol (by simp) (.serveShutdown d config hcontrol hshutdown) (by simp))
  · exact Or.inr (sure_of_step hcontrol (by simp) (.leechShutdown d hcontrol hshutdown) (by simp))
  · exact Or.inr (sure_of_terminating (hcontrol ▸ hattached) hcontrol)
  · exact Or.inr (sure_of_killing (hcontrol ▸ hattached) hcontrol)
  · exact Or.inl ⟨result, rfl⟩

-- under a shutdown no query of the peers is begun
theorem free_step (hshutdown : d.shutdown = true) (hfree : ¬AwaitsPeers d.control)
    (hstep : DaemonStep start fromSlice d d') : ¬AwaitsPeers d'.control := by
  cases hstep with
  | pass | shutdownCompletes | sidecarDies => exact hfree
  | spawned base hcontrol =>
    rw [enterWait_shutdown start.config.adminEndpoint (by exact hshutdown)]
    exact id
  | wait deadline place place' reply hcontrol hpoll =>
    rw [hcontrol] at hfree
    change ¬AwaitsPeers (.waiting deadline place')
    cases place with
    | asking query timeout =>
      rcases asking_poll hpoll with ⟨outcome, _, rfl⟩ | ⟨hrunning, _⟩
      · exact id
      · rw [interrupted_shutdown hshutdown] at hrunning
        cases hrunning
    | askingPeers info query timeout => exact absurd trivial hfree
    | sleeping since timeout =>
      obtain rfl := sleeping_poll hpoll
      obtain ⟨outcome, hended⟩ := @attempt_shutdown start.config.adminEndpoint deadline d.surroundings
        hshutdown
      rw [hended]
      exact id
    | ended outcome => cases hpoll
  | up deadline address hcontrol =>
    change ¬AwaitsPeers (afterUp start.config address)
    rw [afterUp]
    cases start.config.exit <;> exact id
  | _ => exact id

end

-- a run of the daemon in which the shutdown has been asked for
structure Asked (start : Start) (d : Daemon) : Prop where
  shutdown : d.shutdown = true
  attached : AttachedAt d d.control
  free : ¬AwaitsPeers d.control
  supervising : Supervising start.config d

section
variable {start : Start} {fromSlice : Bytes → Except String Json} {d d' : Daemon}

theorem Asked.step (h : Asked start d) (hstep : DaemonStep start fromSlice d d') :
    Asked start d' :=
  ⟨shutdown_kept hstep h.shutdown, attached_step h.attached hstep, free_step h.shutdown h.free hstep,
    h.supervising.step hstep⟩

theorem Asked.around (h : Asked start d) (haround : Reachable (Around start fromSlice) d d') :
    Asked start d' ∧ d'.control = d.control := by
  induction haround with
  | refl => exact ⟨h, rfl⟩
  | tail _ hlast ih => exact ⟨ih.1.step hlast.1, hlast.2.trans ih.2⟩

theorem Asked.turn (h : Asked start d) (hturn : Turn start fromSlice d d') :
    Asked start d' ∧ d'.control.left start < d.control.left start := by
  obtain ⟨mid, haround, hstep, hmoved⟩ := hturn
  obtain ⟨hmid, hcontrol⟩ := h.around haround
  refine ⟨hmid.step hstep, ?_⟩
  rw [← hcontrol]
  exact left_lt hmid.shutdown hstep hmoved

theorem attached_run {dir : StateDir} {now : ℕ} {shutdown : Bool}
    (h : Reachable (DaemonStep start fromSlice) (startDaemon start.config dir now shutdown) d) :
    AttachedAt d d.control := by
  induction h with
  | refl =>
    rw [startDaemon]
    split <;> trivial
  | tail _ hlast ih => exact attached_step ih hlast

theorem expected_control (h : Reachable Expected d d') : d'.control = d.control := by
  induction h with
  | refl => rfl
  | tail _ hlast ih =>
    cases hlast with
    | pass => exact ih
    | dies => exact ih

-- returned, the listener closed and the sidecar, if there was one, dead and waited for
def Stopped (start : Start) (d : Daemon) : Prop :=
  (∃ result, d.control = .returned result) ∧ Supervised start.config d

-- the answer to the peers query never comes
theorem silent_peers {deadline since timeout : ℕ} {info : SelfInfo}
    (hcontrol : d.control = .waiting deadline (.askingPeers info (.requesting since) timeout)) :
    ¬Assured (SureTurn start fromSlice) (Turn start fromSlice) (Stopped start) d := by
  intro hassured
  cases hassured with
  | now h =>
    obtain ⟨⟨result, hreturned⟩, _⟩ := h
    cases hcontrol.symm.trans hreturned
  | later hlive hall =>
    obtain ⟨d', mid, hexpected, hstep, hmoved, hunaided⟩ := hlive
    have hmid := (expected_control hexpected).trans hcontrol
    have hpoll := hunaided deadline (.askingPeers info (.requesting since) timeout)
    cases hstep with
    | pass | shutdownCompletes | sidecarDies => exact hmoved rfl
    | wait deadline' place place' reply hwaits _ =>
      obtain ⟨rfl, rfl⟩ := Control.waiting.inj (hmid.symm.trans hwaits)
      cases hpoll place' hmid rfl
    | spawn _ _ _ hother _ | spawned _ hother | spawnFails _ hother | up _ _ hother
    | waitShutdown _ hother | waitFails _ _ hother | bind _ _ hother | bindFails _ _ _ hother
    | serveShutdown _ hother _ | acceptFails _ _ hother | serveSidecarExits _ _ hother _
    | leechShutdown hother _ | leechSidecarExits _ hother _ | terminateNone hother _ | terminate hother _
    | graceEnds _ hother _ _ | terminated _ _ hother _ _ | killNone _ hother _ | kill _ hother _
    | killed _ _ hother _ => cases hmid.symm.trans hother

theorem run_daemon_stops {dir : StateDir} {now : ℕ} {shutdown : Bool}
    (h : Reachable (DaemonStep start fromSlice) (startDaemon start.config dir now shutdown) d)
    (hshutdown : d.shutdown = true) :
    Assured (SureTurn start fromSlice) (Turn start fromSlice) (Stopped start) d ↔
      ¬AwaitsPeers d.control := by
  refine ⟨fun hassured hawaits => ?_, fun hfree => ?_⟩
  · rcases hcontrol : d.control with _ | ⟨deadline, _ | ⟨info, query, timeout⟩ | _ | _⟩ | _ | _ | _ | _ |
      _ | _ <;> rw [hcontrol] at hawaits <;> try cases hawaits
    cases query with
    | requesting since => exact silent_peers hcontrol hassured
    | connecting since =>
      cases hassured with
      | now h =>
        obtain ⟨⟨result, hreturned⟩, _⟩ := h
        cases hcontrol.symm.trans hreturned
      | later _ hall =>
        have hconnected := @DaemonStep.wait start fromSlice d deadline (.askingPeers info (.connecting since) timeout)
          (.askingPeers info (.requesting d.now) timeout) (some .connected) hcontrol rfl
        refine silent_peers rfl (hall _ ⟨d, .refl d, hconnected, ?_⟩)
        rw [hcontrol]
        simp
  · have hasked : Asked start d := ⟨hshutdown, attached_run h, hfree, supervising_run h⟩
    refine Assured.of_measure wellFounded_lt (fun d => d.control.left start)
      (fun hs hturn => (hs.turn hturn).1) (fun hs hturn => (hs.turn hturn).2) (fun hs => ?_) hasked
    exact (sure_of_shutdown hs.shutdown hs.attached hs.free).imp_left fun hreturned =>
      ⟨hreturned, hs.supervising.supervised⟩

end

-- asked to stop while it serves its exit
theorem run_daemon_stops_serving : ∃ d config, d.control = .serving config ∧ d.child = some .running ∧
    Assured (SureTurn servedStart fun _ => .ok sampleSelf) (Turn servedStart fun _ => .ok sampleSelf)
      (Stopped servedStart) d := by
  obtain ⟨dir, overlay, hserving⟩ := servedStart_serves
  exact ⟨_, _, rfl, rfl, (run_daemon_stops (hserving.tail (.shutdownCompletes _)) rfl).mpr id⟩

end SpiderNet.Node
