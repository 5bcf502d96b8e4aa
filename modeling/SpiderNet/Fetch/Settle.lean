import SpiderNet.Fetch.RetryRun

namespace SpiderNet.Fetch
open Transition ListFacts

def Within (policy : RetryPolicy) (task : TaskState) : Prop :=
  task.attempt ≤ policy.value ∧ (task.phase = .starting → task.attempt < policy.value)

-- the first segment of the plan that gave up, whichever gave up first
def FirstAborted (tasks : List TaskState) (error : FetchError) : Prop :=
  ∃ (pos : ℕ) (task : TaskState), tasks[pos]? = some task ∧ task.phase = .aborted error ∧
    ∀ i < pos, ∃ earlier, tasks[i]? = some earlier ∧ Done earlier

def Blames (tasks : List TaskState) : Caller → Prop
  | .returned (.error error) => tasks = [] ∨ FirstAborted tasks error
  | _ => True

theorem pickRetry_registered {ids : List ExitId} {avoid : ExitId} (h : avoid ∈ ids)
    (lastFailed : OrdMap ExitId Instant) : pickRetry ids lastFailed avoid ∈ ids := by
  by_cases hother : ∃ id ∈ ids, id ≠ avoid
  · exact (pickRetry_listed hother).1
  · push Not at hother
    rwa [pickRetry_none hother]

structure TaskSettles (cfg : Config) (task : TaskState) : Prop where
  planned : task.seg ∈ cfg.segments
  registered : task.exit ∈ cfg.exits.keys
  within : Within cfg.policy task

section
variable {cfg : Config} {pos : ℕ} {task task' : TaskState} {shared shared' : Shared}

theorem Fires.settles (h : Fires cfg pos task shared task' shared') (hok : TaskSettles cfg task) :
    TaskSettles cfg task' := by
  obtain ⟨hplanned, hregistered, hattempt, hstarting⟩ := hok
  cases h with
  | started hphase hknown => exact ⟨hplanned, hregistered, hstarting hphase, nofun⟩
  | unknown hphase hunknown => exact ⟨hplanned, hregistered, hstarting hphase, nofun⟩
  | retried hphase hlimit =>
    exact ⟨hplanned, pickRetry_registered hregistered _, hattempt, fun _ => hlimit⟩
  | _ => exact ⟨hplanned, hregistered, hattempt, nofun⟩

theorem Fires.distance_closer (h : Fires cfg pos task shared task' shared')
    (hwithin : Within cfg.policy task) :
    closer (distance cfg.policy.value task') (distance cfg.policy.value task) := by
  have hstart (hphase : task.phase = .starting) :
      cfg.policy.value - (task.attempt + 1) + 1 = cfg.policy.value - task.attempt := by
    have hlt := hwithin.2 hphase
    omega
  cases h with
  | started hphase hknown =>
    simp only [distance, hphase, hstart hphase]
    exact closer_middle _ (by decide) _ _
  | unknown hphase hunknown =>
    simp only [distance, hphase, ← hstart hphase]
    exact closer_left (Nat.succ_pos _) _ _
  | chunk hphase =>
    simp only [distance, hphase, TaskState.to_phase, TaskState.to_attempt, List.length_cons]
    exact closer_right _ _ (Nat.lt_succ_self _)
  | retried hphase hlimit =>
    simp only [distance, hphase]
    exact closer_left (Nat.lt_succ_self _) _ _
  | finished duration hphase hclose =>
    simp only [distance, hphase, TaskState.to_phase]
    exact closer_left (Nat.succ_pos _) _ _
  | gaveUp hphase hfinal =>
    simp only [distance, hphase, TaskState.to_phase]
    exact closer_left (Nat.succ_pos _) _ _
  | exhausted hphase hlimit =>
    simp only [distance, hphase, TaskState.to_phase]
    exact closer_left (Nat.succ_pos _) _ _
  -- what is left moves on within the attempt
  | _ =>
    simp only [distance, ‹task.phase = _›, TaskState.to_phase, TaskState.to_attempt]
    exact closer_middle _ (by decide) _ _

end

theorem FirstAborted.set {tasks : List TaskState} {pos : ℕ} {task task' : TaskState}
    {error : FetchError} (h : FirstAborted tasks error) (hget : tasks[pos]? = some task)
    (hrunning : ¬Ended task) : FirstAborted (tasks.set pos task') error := by
  obtain ⟨i, aborted, haborted, hphase, hbefore⟩ := h
  have hother {j : ℕ} {ended : TaskState} (hj : tasks[j]? = some ended) (hended : Ended ended) :
      (tasks.set pos task')[j]? = some ended := by
    have hne : pos ≠ j := by
      rintro rfl
      rw [hget] at hj
      exact hrunning (Option.some.inj hj ▸ hended)
    rwa [List.getElem?_set_ne hne]
  refine ⟨i, aborted, hother haborted (Or.inr ⟨error, hphase⟩), hphase, fun j hj => ?_⟩
  obtain ⟨earlier, hearlier, hdone⟩ := hbefore j hj
  exact ⟨earlier, hother hearlier (Or.inl hdone), hdone⟩

theorem Blames.set {tasks : List TaskState} {pos : ℕ} {task task' : TaskState} {caller : Caller}
    (h : Blames tasks caller) (hget : tasks[pos]? = some task) (hrunning : ¬Ended task) :
    Blames (tasks.set pos task') caller := by
  cases caller with
  | awaiting stats => trivial
  | returned result =>
    cases result with
    | ok stats => trivial
    | error error =>
      rcases h with rfl | h
      · cases hget
      · exact Or.inr (h.set hget hrunning)

theorem Blames.step {tasks : List TaskState} {caller caller' : Caller} (hawaited : Awaited tasks caller)
    (hstep : callerStep tasks caller = some caller') : Blames tasks caller' := by
  cases caller with
  | returned result => cases hstep
  | awaiting stats =>
    rw [callerStep] at hstep
    cases hget : tasks[stats.length]? with
    | none =>
      rw [hget] at hstep
      obtain rfl := Option.some.inj hstep
      trivial
    | some task =>
      rw [hget] at hstep
      cases hphase : task.phase with
      | finished stats' body =>
        simp only [hphase, Option.some.injEq] at hstep
        subst hstep
        trivial
      | aborted error =>
        simp only [hphase, Option.some.injEq] at hstep
        subst hstep
        exact Or.inr ⟨stats.length, task, hget, hphase, hawaited.2⟩
      | _ => simp [hphase] at hstep

structure SettleInv (cfg : Config) (s : RunState) : Prop where
  tasks : ∀ task ∈ s.tasks, TaskSettles cfg task
  awaited : Awaited s.tasks s.caller
  blames : Blames s.tasks s.caller

theorem SettleInv.step {cfg : Config} {s s' : RunState} (h : SettleInv cfg s)
    (hstep : Step cfg s s') : SettleInv cfg s' := by
  cases hstep with
  | task action hget hadmits hstep =>
    rename_i pos task task' shared'
    have hfires := taskStep_fires hadmits hstep
    have hrunning := hfires.not_ended
    refine ⟨fun other hother => ?_, h.awaited.set hget fun hdone => hrunning (Or.inl hdone),
      h.blames.set hget hrunning⟩
    obtain ⟨j, hj⟩ := List.mem_iff_getElem?.mp hother
    rcases getElem?_set_cases hj with ⟨rfl, rfl, _⟩ | ⟨_, hj⟩
    · exact hfires.settles (h.tasks task (List.mem_of_getElem? hget))
    · exact h.tasks other (List.mem_of_getElem? hj)
  | caller hstep => exact ⟨h.tasks, h.awaited.step hstep, .step h.awaited hstep⟩

theorem checkExits_registered {exits : ExitRegistry} {segments : List SegmentPlan}
    (h : checkExits exits segments = .ok ()) : ∀ seg ∈ segments, seg.exit ∈ exits.keys := by
  induction segments with
  | nil => exact nofun
  | cons seg rest ih =>
    obtain ⟨egress, hlookup, hrest⟩ := bind_eq_ok.mp h
    intro other hother
    rcases List.mem_cons.mp hother with rfl | hother
    · refine OrdMap.get?_isSome.mp (Option.isSome_iff_exists.mpr ⟨egress, ?_⟩)
      rw [ExitRegistry.lookup] at hlookup
      cases hget : exits.get? other.exit with
      | none =>
        rw [hget] at hlookup
        cases hlookup
      | some egress' =>
        rw [hget] at hlookup
        exact congrArg some (Except.ok.inj hlookup)
    · exact ih hrest other hother

theorem settleInv_start (cfg : Config) (created : Bool) (parts : Dir) :
    SettleInv cfg (startRun cfg created parts) := by
  unfold startRun
  split
  · split
    · exact ⟨nofun, trivial, Or.inl rfl⟩
    · rename_i hchecked
      refine ⟨fun task htask => ?_, awaited_start _, trivial⟩
      obtain ⟨seg, hseg, rfl⟩ := List.mem_map.mp htask
      exact ⟨hseg, checkExits_registered hchecked seg hseg, Nat.zero_le _, fun _ => cfg.policy.pos⟩
  · exact ⟨nofun, trivial, Or.inl rfl⟩

-- every task has ended, and the caller has the outcome of the plan
structure PlanSettled (s : RunState) : Prop where
  ended : ∀ task ∈ s.tasks, Ended task
  outcome : (∃ stats, s.caller = .returned (.ok stats) ∧ ∀ task ∈ s.tasks, Done task) ∨
    ∃ error, s.caller = .returned (.error error) ∧ (s.tasks = [] ∨ FirstAborted s.tasks error)

theorem SettleInv.distance_lt {cfg : Config} {s s' : RunState} (h : SettleInv cfg s)
    (hstep : Step cfg s s') :
    Descends closer (runDistance cfg.policy.value s') (runDistance cfg.policy.value s) := by
  have hnext := h.step hstep
  cases hstep with
  | task action hget hadmits hstep =>
    rename_i pos task task' shared'
    have hless := (taskStep_fires hadmits hstep).distance_closer
      (h.tasks task (List.mem_of_getElem? hget)).within
    rw [runDistance, runDistance, List.length_set]
    exact (descends_set (distance cfg.policy.value) hget hless).cons _
  | caller hstep => exact .head _ (callerDistance_lt hnext.awaited hstep)

def Answers (cfg : Config) : Prop :=
  ∀ id ∈ cfg.exits.keys, ∀ seg ∈ cfg.segments, ∃ reply, cfg.network id seg reply

theorem SettleInv.live {cfg : Config} (hanswers : Answers cfg) {s : RunState} (h : SettleInv cfg s) :
    PlanSettled s ∨ ∃ s', Step cfg s s' := by
  by_cases hended : ∀ task ∈ s.tasks, Ended task
  · cases hcaller : s.caller with
    | awaiting stats =>
      refine Or.inr ?_
      cases hget : s.tasks[stats.length]? with
      | none =>
        have hstep : callerStep s.tasks s.caller = some (.returned (.ok (sortStats stats))) := by
          simp [callerStep, hcaller, hget]
        exact ⟨_, .caller hstep⟩
      | some task =>
        rcases hended task (List.mem_of_getElem? hget) with ⟨stats', body, hphase⟩ | ⟨error, hphase⟩
        · have hstep : callerStep s.tasks s.caller = some (.awaiting (stats ++ [stats'])) := by
            simp [callerStep, hcaller, hget, hphase]
          exact ⟨_, .caller hstep⟩
        · have hstep : callerStep s.tasks s.caller = some (.returned (.error error)) := by
            simp [callerStep, hcaller, hget, hphase]
          exact ⟨_, .caller hstep⟩
    | returned result =>
      have hawaited := h.awaited
      have hblames := h.blames
      rw [hcaller] at hawaited hblames
      cases result with
      | ok stats => exact Or.inl ⟨hended, Or.inl ⟨stats, hcaller, hawaited⟩⟩
      | error error => exact Or.inl ⟨hended, Or.inr ⟨error, hcaller, hblames⟩⟩
  · push Not at hended
    obtain ⟨task, htask, hrunning⟩ := hended
    obtain ⟨pos, hget⟩ := List.mem_iff_getElem?.mp htask
    have hok := h.tasks task htask
    obtain ⟨action, hadmits, hsome⟩ :=
      canStep hrunning (hanswers _ hok.registered _ hok.planned) pos s.shared
    obtain ⟨⟨task', shared'⟩, hstep⟩ := Option.isSome_iff_exists.mp hsome
    exact Or.inr ⟨_, .task action hget hadmits hstep⟩

theorem run_segments_settles {cfg : Config} (hanswers : Answers cfg) {created : Bool} {parts : Dir}
    {s : RunState} (hrun : runSegments cfg created parts s) :
    (∀ task ∈ s.tasks, task.attempt ≤ cfg.policy.value) ∧ Inevitably (Step cfg) PlanSettled s := by
  have hinv : SettleInv cfg s :=
    hrun.invariant (fun h hstep => h.step hstep) (settleInv_start cfg created parts)
  exact ⟨fun task htask => (hinv.tasks task htask).within.1,
    Inevitably.of_measure (wellFounded_descends wellFounded_closer) (runDistance cfg.policy.value)
      (fun h hstep => h.step hstep) (fun h hstep => h.distance_lt hstep) (fun h => h.live hanswers) hinv⟩

theorem run_segments_settles_flakyExit :
    Inevitably (Step flakyConfig) PlanSettled (startRun flakyConfig true .empty) :=
  (run_segments_settles (fun _ _ _ _ => ⟨_, rfl⟩ : Answers flakyConfig) (.refl _)).2

end SpiderNet.Fetch
