import SpiderNet.Fetch.Tracker

namespace SpiderNet.Fetch
open Transition ListFacts

-- whatever still happens, no task moves, emits an event or touches the directory
def Quiet (cfg : Config) (s : RunState) : Prop :=
  ∀ s', Reachable (Step cfg) s s' → s'.tasks = s.tasks ∧ s'.shared = s.shared

-- the awaiting loop meets an error only when every task has ended
structure OrderlyStep (cfg : Config) (s s' : RunState) : Prop where
  step : Step cfg s s'
  ended : ∀ error, s'.caller ≠ s.caller → s'.caller = .returned (.error error) →
    ∀ task ∈ s.tasks, Ended task

theorem Fires.phase_ne {cfg : Config} {pos : ℕ} {task task' : TaskState} {shared shared' : Shared}
    (h : Fires cfg pos task shared task' shared') : task'.phase ≠ task.phase := by
  intro hphases
  cases h <;> simp_all

theorem quiet_of_ended {cfg : Config} {s : RunState} (hended : ∀ task ∈ s.tasks, Ended task) :
    Quiet cfg s := by
  intro s' hreach
  refine @Reachable.invariant _ (Step cfg) (fun s' => s'.tasks = s.tasks ∧ s'.shared = s.shared) ?_
    _ _ ⟨rfl, rfl⟩ hreach
  rintro mid next ⟨htasks, hshared⟩ hstep
  cases hstep with
  | task action hget hadmits hstep =>
    rw [htasks] at hget
    exact absurd (hended _ (List.mem_of_getElem? hget)) (taskStep_fires hadmits hstep).not_ended
  | caller hstep => exact ⟨htasks, hshared⟩

theorem ended_of_quiet {cfg : Config} (hanswers : ∀ id seg, ∃ reply, cfg.network id seg reply)
    {s : RunState} (hquiet : Quiet cfg s) : ∀ task ∈ s.tasks, Ended task := by
  intro task htask
  by_contra hrunning
  obtain ⟨pos, hget⟩ := List.mem_iff_getElem?.mp htask
  obtain ⟨action, hadmits, hsome⟩ := canStep hrunning (hanswers _ _) pos s.shared
  obtain ⟨⟨task', shared'⟩, hstep⟩ := Option.isSome_iff_exists.mp hsome
  have hmoved := (hquiet _ ((Reachable.refl s).tail (.task action hget hadmits hstep))).1
  have hlt := (List.getElem?_eq_some_iff.mp hget).1
  have hsame : (s.tasks.set pos task')[pos]? = s.tasks[pos]? := congrArg (·[pos]?) hmoved
  rw [List.getElem?_set_self hlt, hget] at hsame
  exact (taskStep_fires hadmits hstep).phase_ne (congrArg TaskState.phase (Option.some.inj hsame))

theorem OrderlyStep.ended_after {cfg : Config} {s s' : RunState}
    (h : ∀ error, s.caller = .returned (.error error) → ∀ task ∈ s.tasks, Ended task)
    (hstep : OrderlyStep cfg s s') :
    ∀ error, s'.caller = .returned (.error error) → ∀ task ∈ s'.tasks, Ended task := by
  intro error hreturned
  obtain ⟨hstep, hended⟩ := hstep
  cases hstep with
  | task action hget hadmits hstep =>
    have hall := h error hreturned
    exact absurd (hall _ (List.mem_of_getElem? hget)) (taskStep_fires hadmits hstep).not_ended
  | caller hstep =>
    by_cases hsame : s.caller = .returned (.error error)
    · exact h error hsame
    · exact hended error (fun heq => hsame (heq.symm.trans hreturned)) hreturned

theorem taskMoves_orderly {cfg : Config} (hadmits : ∀ task action, cfg.admits task action)
    {path : List (ℕ × Action)} {s s' : RunState}
    (h : moves cfg (path.map fun next => .task next.1 next.2) s = some s') :
    Reachable (OrderlyStep cfg) s s' := by
  induction path generalizing s with
  | nil => exact Option.some.inj h ▸ .refl s
  | cons next rest ih =>
    obtain ⟨mid, hnext, hrest⟩ := Option.bind_eq_some_iff.mp h
    have hstep := move_step hadmits hnext
    have hcaller : mid.caller = s.caller := by
      obtain ⟨task, _, hnext⟩ := Option.bind_eq_some_iff.mp hnext
      obtain ⟨_, _, hnext⟩ := Option.bind_eq_some_iff.mp hnext
      exact Option.some.inj hnext ▸ rfl
    have horderly : OrderlyStep cfg s mid := ⟨hstep, fun _ hmoved => absurd hcaller hmoved⟩
    exact ((Reachable.refl s).tail horderly).trans (ih hrest)

theorem startRun_ended (cfg : Config) (created : Bool) (parts : Dir) :
    ∀ error, (startRun cfg created parts).caller = .returned (.error error) →
      ∀ task ∈ (startRun cfg created parts).tasks, Ended task := by
  unfold startRun
  split
  · split
    · exact fun _ _ => nofun
    · exact nofun
  · exact fun _ _ => nofun

theorem abort_quiet (cfg : Config) (created : Bool) (parts : Dir) :
    (∀ s error, Reachable (OrderlyStep cfg) (startRun cfg created parts) s →
      s.caller = .returned (.error error) → Quiet cfg s) ∧
    ((∀ id seg, ∃ reply, cfg.network id seg reply) → ∀ s error, runSegments cfg created parts s →
      s.caller = .returned (.error error) → (Quiet cfg s ↔ ∀ task ∈ s.tasks, Ended task)) := by
  refine ⟨fun s error hrun hreturned => ?_, fun hanswers s error _ _ =>
    ⟨ended_of_quiet hanswers, quiet_of_ended⟩⟩
  have hended := @Reachable.invariant _ (OrderlyStep cfg) (fun s => ∀ error,
    s.caller = .returned (.error error) → ∀ task ∈ s.tasks, Ended task)
    OrderlyStep.ended_after _ _ (startRun_ended cfg created parts) hrun
  exact quiet_of_ended (hended error hreturned)

def notFound (pos : ℕ) : List (ℕ × Action) :=
  [(pos, .start), (pos, .reply (.response 404 false [] none)), (pos, .report), (pos, .remove false),
    (pos, .mark 0)]

def twoExitsConfig : Config := planConfig samplePlan sampleRegistry samplePolicy anyNetwork

-- the second segment is whole before the first is answered 404
def oneDownloadedOneFailed : List (ℕ × Action) :=
  [(1, .start), (1, .reply (.response 206 true [List.replicate 9 7] none)), (1, .chunk),
    (1, .close 0 true)] ++ notFound 0

theorem abort_quiet_sample : ∃ s, s.caller = .returned (.error (.http (.status 404))) ∧
    s.shared.parts (partFile ⟨1, by decide⟩) = some (.file (List.replicate 9 7)) ∧
    Quiet twoExitsConfig s := by
  have hfailed := @taskMoves_orderly twoExitsConfig (planConfig_admits _ _ _) oneDownloadedOneFailed
    (startRun twoExitsConfig true .empty) _ rfl
  have hreturned := hfailed.tail ⟨.caller rfl, fun _ _ _ task htask => by
    rcases List.mem_pair.mp htask with rfl | rfl
    · exact Or.inr ⟨_, rfl⟩
    · exact Or.inl ⟨_, _, rfl⟩⟩
  exact ⟨_, rfl, rfl, (abort_quiet twoExitsConfig true .empty).1 _ _ hreturned rfl⟩

theorem detached_task_downloads :
    ∃ s s', runSegments (planConfig samplePlan sampleRegistry samplePolicy anyNetwork) true .empty s ∧
      s.caller = .returned (.error (.http (.status 404))) ∧
      Reachable (Step (planConfig samplePlan sampleRegistry samplePolicy anyNetwork)) s s' ∧
      s.shared.parts (partFile ⟨1, by decide⟩) = none ∧
      s'.shared.parts (partFile ⟨1, by decide⟩) = some (.file (List.replicate 9 7)) :=
  ⟨_, _, @moves_reachable _ (planConfig_admits _ _ _)
    ((notFound 0).map (fun next => .task next.1 next.2) ++ [.caller]) (startRun _ true .empty) _ rfl, rfl,
    @moves_reachable _ (planConfig_admits _ _ _) (oneChunk 1 9) _ _ rfl, rfl, rfl⟩

end SpiderNet.Fetch
