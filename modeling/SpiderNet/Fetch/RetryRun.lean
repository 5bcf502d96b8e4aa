import SpiderNet.Fetch.Retry
import SpiderNet.Library.ListFacts

namespace SpiderNet.Fetch
open Transition ListFacts

structure RetryInv (cfg : Config) (bad : Finset ExitId) (s : RunState) : Prop where
  segments : s.tasks.map (·.seg) = cfg.segments
  markedBad : ∀ id, Marked s.shared.lastFailed id → id ∈ bad
  tasksOk : ∀ pos task, s.tasks[pos]? = some task →
    TaskOk cfg bad (Marked s.shared.lastFailed) (startedExits pos s.shared.events) task
  caller : Awaited s.tasks s.caller
  noError : ∀ error, s.caller ≠ .returned (.error error)

theorem RetryInv.step {cfg : Config} {bad : Finset ExitId} (hscenario : RetryScenario cfg bad)
    {s s' : RunState} (h : RetryInv cfg bad s) (hstep : Step cfg s s') : RetryInv cfg bad s' := by
  cases hstep with
  | task action hget hadmits hstep =>
    rename_i pos task task' shared'
    have hfires := taskStep_fires hadmits hstep
    have hok := h.tasksOk pos task hget
    refine ⟨(ListFacts.map_set_same (·.seg) _ hget hfires.seg_eq).trans h.segments, hfires.marked_bad hok h.markedBad,
      fun other task'' hget' => ?_, h.caller.set hget ?_, h.noError⟩
    · rcases getElem?_set_cases hget' with ⟨rfl, rfl, _⟩ | ⟨hne, hother⟩
      · exact hfires.taskOk hscenario h.markedBad hok
      · rw [hfires.started_other (Ne.symm hne)]
        exact (h.tasksOk other task'' hother).mono hfires.marked_mono
    · rintro ⟨stats, body, hphase⟩
      exact hfires.not_finished stats body hphase
  | caller hstep =>
    refine ⟨h.segments, h.markedBad, h.tasksOk, h.caller.step hstep, ?_⟩
    rintro error rfl
    obtain ⟨pos, task, hget, hphase⟩ := callerStep_error hstep
    have hok := (h.tasksOk pos task hget).phase
    rw [hphase] at hok
    exact hok

theorem checkExits_ok {exits : ExitRegistry} {segments : List SegmentPlan}
    (h : ∀ seg ∈ segments, seg.exit ∈ exits.keys) : checkExits exits segments = .ok () := by
  induction segments with
  | nil => rfl
  | cons seg rest ih =>
    obtain ⟨egress, hegress⟩ := Option.isSome_iff_exists.mp (OrdMap.get?_isSome.mpr (h seg (by simp)))
    have hlookup : exits.lookup seg.exit = .ok egress := by rw [ExitRegistry.lookup, hegress]
    rw [checkExits, hlookup, ok_bind]
    exact ih fun other ho => h other (List.mem_cons_of_mem _ ho)

theorem startRun_ok {cfg : Config} (parts : Dir)
    (h : ∀ seg ∈ cfg.segments, seg.exit ∈ cfg.exits.keys) :
    startRun cfg true parts = ⟨cfg.segments.map spawn, ⟨.empty, parts, []⟩, .awaiting []⟩ := by
  simp only [startRun, checkExits_ok h, if_true]

theorem retryInv_start {cfg : Config} {bad : Finset ExitId} (hscenario : RetryScenario cfg bad)
    (parts : Dir) : RetryInv cfg bad (startRun cfg true parts) := by
  rw [startRun_ok parts hscenario.planned]
  have hunmarked (id : ExitId) : ¬Marked .empty id := by simp [Marked]
  refine ⟨?_, fun id hid => absurd hid (hunmarked id), fun pos task hget => ?_, awaited_start _,
    fun error => nofun⟩
  · rw [List.map_map]
    exact List.map_id _
  · rw [List.getElem?_map] at hget
    obtain ⟨seg, hseg, rfl⟩ := Option.map_eq_some_iff.mp hget
    have hmem := List.mem_of_getElem? hseg
    exact ⟨hmem, hscenario.planned seg hmem, rfl, .nil, by simp [startedExits], by simp [startedExits]⟩

-- attempts left, then how far the current attempt is, then the chunks still to come
abbrev Distance := ℕ × ℕ × ℕ

def closer : Distance → Distance → Prop := Prod.Lex (· < ·) (Prod.Lex (· < ·) (· < ·))

theorem wellFounded_closer : WellFounded closer :=
  WellFounded.prod_lex Nat.lt_wfRel.wf (WellFounded.prod_lex Nat.lt_wfRel.wf Nat.lt_wfRel.wf)

theorem closer_left {a a' : ℕ} (h : a' < a) (b b' : ℕ × ℕ) : closer (a', b') (a, b) := .left _ _ h

theorem closer_middle (a : ℕ) {b b' : ℕ} (h : b' < b) (c c' : ℕ) : closer (a, b', c') (a, b, c) :=
  .right _ (.left _ _ h)

theorem closer_right (a b : ℕ) {c c' : ℕ} (h : c' < c) : closer (a, b, c') (a, b, c) :=
  .right _ (.right _ h)

def distance (limit : ℕ) (task : TaskState) : Distance :=
  match task.phase with
  | .starting => (limit - task.attempt, 7, 0)
  | .requesting => (limit - task.attempt + 1, 6, 0)
  | .receiving _ chunks _ => (limit - task.attempt + 1, 5, chunks.length)
  | .failed _ => (limit - task.attempt + 1, 4, 0)
  | .reported _ => (limit - task.attempt + 1, 3, 0)
  | .removed _ => (limit - task.attempt + 1, 2, 0)
  | .marked _ => (limit - task.attempt + 1, 1, 0)
  | .finished _ _ => (0, 0, 0)
  | .aborted _ => (0, 0, 0)

def callerDistance (tasks : ℕ) : Caller → Distance
  | .awaiting stats => (0, 1, tasks - stats.length)
  | .returned _ => (0, 0, 0)

def runDistance (limit : ℕ) (s : RunState) : List Distance :=
  callerDistance s.tasks.length s.caller :: s.tasks.map (distance limit)

theorem Fires.distance_lt {cfg : Config} {bad : Finset ExitId} {pos : ℕ} {task task' : TaskState}
    {shared shared' : Shared} (hbad : ∀ id, Marked shared.lastFailed id → id ∈ bad)
    (hok : TaskOk cfg bad (Marked shared.lastFailed) (startedExits pos shared.events) task)
    (h : Fires cfg pos task shared task' shared') :
    closer (distance (bad.card + 1) task') (distance (bad.card + 1) task) := by
  have hphaseOk := hok.phase
  cases h with
  | started hphase hknown =>
    rw [hphase] at hphaseOk
    have hlength := length_le_of_marked hphaseOk.1 fun id hid => hbad id (hphaseOk.2.1 id hid)
    have hattempts : bad.card + 1 - (task.attempt + 1) + 1 = bad.card + 1 - task.attempt := by
      rw [hok.counted]
      omega
    simp only [distance, hphase, hattempts]
    exact closer_middle _ (by decide) _ _
  | chunk hphase =>
    simp only [distance, hphase, TaskState.to_phase, TaskState.to_attempt, List.length_cons]
    exact closer_right _ _ (Nat.lt_succ_self _)
  | retried hphase hlimit =>
    simp only [distance, hphase]
    exact closer_left (Nat.lt_succ_self _) _ _
  | unknown hphase hunknown =>
    have hknown : cfg.exits.contains task.exit = true := OrdMap.get?_isSome.mpr hok.registered
    rw [hunknown] at hknown
    cases hknown
  | finished duration hphase hclose =>
    simp only [distance, hphase, TaskState.to_phase]
    exact closer_left (Nat.succ_pos _) _ _
  | gaveUp hphase hfinal =>
    simp only [distance, hphase, TaskState.to_phase]
    exact closer_left (Nat.succ_pos _) _ _
  | exhausted hphase hlimit =>
    simp only [distance, hphase, TaskState.to_phase]
    exact closer_left (Nat.succ_pos _) _ _
  | refused hphase _ _ =>
    simp only [distance, hphase, TaskState.to_phase, TaskState.to_attempt]
    exact closer_middle _ (by decide) _ _
  | opened hphase _ _ =>
    simp only [distance, hphase, TaskState.to_phase, TaskState.to_attempt]
    exact closer_middle _ (by decide) _ _
  | broken _ hphase _ =>
    simp only [distance, hphase, TaskState.to_phase, TaskState.to_attempt]
    exact closer_middle _ (by decide) _ _
  | reported hphase =>
    simp only [distance, hphase, TaskState.to_phase, TaskState.to_attempt]
    exact closer_middle _ (by decide) _ _
  | removed _ hphase =>
    simp only [distance, hphase, TaskState.to_phase, TaskState.to_attempt]
    exact closer_middle _ (by decide) _ _
  | marked _ hphase _ =>
    simp only [distance, hphase, TaskState.to_phase, TaskState.to_attempt]
    exact closer_middle _ (by decide) _ _

theorem callerDistance_lt {tasks : List TaskState} {caller caller' : Caller}
    (hok' : Awaited tasks caller')
    (h : callerStep tasks caller = some caller') :
    closer (callerDistance tasks.length caller') (callerDistance tasks.length caller) := by
  cases caller with
  | returned result => cases h
  | awaiting stats =>
    cases caller' with
    | returned result => exact closer_middle _ (by decide) _ _
    | awaiting stats' =>
      have hlength : stats'.length = stats.length + 1 := by
        rw [callerStep] at h
        split at h
        · cases h
        · split at h
          · obtain rfl := Caller.awaiting.inj (Option.some.inj h)
            rw [List.length_append, List.length_singleton]
          · cases h
          · cases h
      have hle : stats'.length ≤ tasks.length := hok'.1
      exact closer_right _ _ (by omega)

theorem RetryInv.distance_lt {cfg : Config} {bad : Finset ExitId}
    (hscenario : RetryScenario cfg bad) {s s' : RunState} (h : RetryInv cfg bad s)
    (hstep : Step cfg s s') :
    Descends closer (runDistance (bad.card + 1) s') (runDistance (bad.card + 1) s) := by
  have hnext := h.step hscenario hstep
  cases hstep with
  | task action hget hadmits hstep =>
    rename_i pos task task' shared'
    have hfires := taskStep_fires hadmits hstep
    have hless := hfires.distance_lt h.markedBad (h.tasksOk pos task hget)
    rw [runDistance, runDistance, List.length_set]
    exact (descends_set (distance (bad.card + 1)) hget hless).cons _
  | caller hstep => exact .head _ (callerDistance_lt hnext.caller hstep)

def Succeeded (cfg : Config) (s : RunState) : Prop :=
  (∃ stats, s.caller = .returned (.ok stats)) ∧ s.tasks.length = cfg.segments.length ∧
    ∀ task ∈ s.tasks, Done task

theorem TaskOk.canStep {cfg : Config} {bad : Finset ExitId} {marked : ExitId → Prop}
    {tried : List ExitId} {task : TaskState} (hscenario : RetryScenario cfg bad)
    (hok : TaskOk cfg bad marked tried task) (hrunning : ¬Done task) (pos : ℕ) (shared : Shared) :
    ∃ action, cfg.admits task action ∧
      (taskStep cfg.exits cfg.policy pos task shared action).isSome := by
  refine SpiderNet.Fetch.canStep ?_ (hscenario.answers _ hok.registered _ hok.planned) pos shared
  rintro (hdone | ⟨error, hphase⟩)
  · exact hrunning hdone
  · have hphaseOk := hok.phase
    rw [hphase] at hphaseOk
    exact hphaseOk

theorem RetryInv.live {cfg : Config} {bad : Finset ExitId} (hscenario : RetryScenario cfg bad)
    {s : RunState} (h : RetryInv cfg bad s) : Succeeded cfg s ∨ ∃ s', Step cfg s s' := by
  by_cases hdone : ∀ task ∈ s.tasks, Done task
  · cases hcaller : s.caller with
    | awaiting stats =>
      refine Or.inr ?_
      cases hget : s.tasks[stats.length]? with
      | none =>
        have hstep : callerStep s.tasks s.caller = some (.returned (.ok (sortStats stats))) := by
          simp [callerStep, hcaller, hget]
        exact ⟨_, .caller hstep⟩
      | some task =>
        obtain ⟨stats', body, hphase⟩ := hdone task (List.mem_of_getElem? hget)
        have hstep : callerStep s.tasks s.caller = some (.awaiting (stats ++ [stats'])) := by
          simp [callerStep, hcaller, hget, hphase]
        exact ⟨_, .caller hstep⟩
    | returned result =>
      cases result with
      | ok stats =>
        have hlength := congrArg List.length h.segments
        rw [List.length_map] at hlength
        exact Or.inl ⟨⟨stats, hcaller⟩, hlength, hdone⟩
      | error error => exact absurd hcaller (h.noError error)
  · push Not at hdone
    obtain ⟨task, htask, hrunning⟩ := hdone
    obtain ⟨pos, hget⟩ := List.mem_iff_getElem?.mp htask
    obtain ⟨action, hadmits, hsome⟩ :=
      (h.tasksOk pos task hget).canStep hscenario hrunning pos s.shared
    obtain ⟨⟨task', shared'⟩, hstep⟩ := Option.isSome_iff_exists.mp hsome
    exact Or.inr ⟨_, .task action hget hadmits hstep⟩

structure SegmentOk (bad : Finset ExitId) (tried : List ExitId) (task : TaskState) : Prop where
  nodup : tried.Nodup
  bounded : tried.length ≤ bad.card + 1
  counted : ∀ stats body, task.phase = .finished stats body → stats.attempts = tried.length
  notAborted : ∀ error, task.phase ≠ .aborted error

theorem Underway.nodup {marked : ExitId → Prop} {tried : List ExitId} {exit : ExitId}
    (h : Underway marked tried exit) : tried.Nodup := by
  obtain ⟨_, _, hnodup, _⟩ := h
  exact hnodup

theorem TaskOk.underway {cfg : Config} {bad : Finset ExitId} {marked : ExitId → Prop}
    {tried : List ExitId} {task : TaskState} (hok : TaskOk cfg bad marked tried task)
    (hstarted : task.phase ≠ .starting) : Underway marked tried task.exit := by
  have hphaseOk := hok.phase
  cases hphase : task.phase with
  | starting => exact absurd hphase hstarted
  | requesting =>
    rw [hphase] at hphaseOk
    exact hphaseOk
  | aborted error =>
    rw [hphase] at hphaseOk
    exact hphaseOk.elim
  | _ =>
    rw [hphase] at hphaseOk
    exact hphaseOk.1

theorem TaskOk.segmentOk {cfg : Config} {bad : Finset ExitId} {marked : ExitId → Prop}
    {tried : List ExitId} {task : TaskState} (hbad : ∀ id, marked id → id ∈ bad)
    (hok : TaskOk cfg bad marked tried task) : SegmentOk bad tried task := by
  have htried : tried.Nodup ∧ tried.length ≤ bad.card + 1 := by
    by_cases hstarting : task.phase = .starting
    · have hphaseOk := hok.phase
      rw [hstarting] at hphaseOk
      have hlength := length_le_of_marked hphaseOk.1 fun id hid => hbad id (hphaseOk.2.1 id hid)
      exact ⟨hphaseOk.1, by omega⟩
    · have hunderway := hok.underway hstarting
      exact ⟨hunderway.nodup, hunderway.length_le hbad⟩
  refine ⟨htried.1, htried.2, fun stats body hphase => ?_, fun error hphase => ?_⟩
  · have hphaseOk := hok.phase
    rw [hphase] at hphaseOk
    exact hphaseOk.2
  · have hphaseOk := hok.phase
    rw [hphase] at hphaseOk
    exact hphaseOk

theorem retry_reaches_success {cfg : Config} {bad : Finset ExitId}
    (hscenario : RetryScenario cfg bad) (parts : Dir) {s : RunState}
    (hrun : runSegments cfg true parts s) :
    (∀ pos task, s.tasks[pos]? = some task →
      SegmentOk bad (startedExits pos s.shared.events) task) ∧
    Inevitably (Step cfg) (Succeeded cfg) s := by
  have hinv : RetryInv cfg bad s :=
    hrun.invariant (fun h hstep => h.step hscenario hstep) (retryInv_start hscenario parts)
  refine ⟨fun pos task hget => (hinv.tasksOk pos task hget).segmentOk hinv.markedBad, ?_⟩
  exact Inevitably.of_measure (wellFounded_descends wellFounded_closer)
    (runDistance (bad.card + 1)) (fun h hstep => h.step hscenario hstep)
    (fun h hstep => h.distance_lt hscenario hstep) (fun h => h.live hscenario) hinv

def flakyExit : ExitId := 1

def steadyExit : ExitId := 2

def twoExits : ExitRegistry :=
  (OrdMap.empty.insert flakyExit (.proxy "http://10.0.0.1:3128")).insert steadyExit .direct

def twoSegments : List SegmentPlan :=
  [⟨0, ⟨0, 3, by decide⟩, flakyExit⟩, ⟨1, ⟨4, 5, by decide⟩, steadyExit⟩]

def flakyNetwork (id : ExitId) (seg : SegmentPlan) (reply : Reply) : Prop :=
  reply = if id = flakyExit then .noResponse
    else .response 206 true [List.replicate seg.range.len 7] none

def flakyConfig : Config := ⟨twoSegments, twoExits, 3, flakyNetwork⟩

theorem flakyConfig_scenario : RetryScenario flakyConfig {flakyExit} := by
  refine ⟨by decide, ?_, ?_, fun id _ seg _ => ⟨_, rfl⟩, ⟨steadyExit, by decide, by decide⟩, by decide⟩
  · rintro id _ hbad seg _ reply rfl
    rw [Finset.mem_singleton.mp hbad]
    exact ⟨.http .transport, rfl, rfl⟩
  · rintro id _ hgood seg _ reply rfl
    rw [Finset.mem_singleton] at hgood
    exact ⟨seg.range.len, by simp [hgood, downloadAttempt, openBody, closeBody]⟩

theorem retry_reaches_success_flakyExit :
    Inevitably (Step flakyConfig) (Succeeded flakyConfig) (startRun flakyConfig true .empty) :=
  (retry_reaches_success flakyConfig_scenario .empty (.refl _)).2

end SpiderNet.Fetch
