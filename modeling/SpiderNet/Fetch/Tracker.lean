import SpiderNet.Fetch.Trace
import SpiderNet.Fetch.History

namespace SpiderNet.Fetch
open Transition ListFacts

def ProgressEvent.isFinished : ProgressEvent → Bool
  | .segmentFinished _ _ _ _ => true
  | _ => false

def hasFinished (events : List ProgressEvent) : Bool := events.any ProgressEvent.isFinished

structure BytesTracker where
  bytes : UInt64

namespace BytesTracker

def new : BytesTracker := ⟨0⟩

def total (tracker : BytesTracker) : UInt64 := tracker.bytes

-- `fetch_add` wraps around
def record (tracker : BytesTracker) : ProgressEvent → BytesTracker
  | .segmentFinished _ _ bytes _ => ⟨tracker.bytes + UInt64.ofNat bytes⟩
  | _ => tracker

end BytesTracker

def trackerOf (events : List (ℕ × ProgressEvent)) : BytesTracker :=
  (events.map Prod.snd).foldl BytesTracker.record .new

def ProgressEvent.finishedBytes : ProgressEvent → ℕ
  | .segmentFinished _ _ bytes _ => bytes
  | _ => 0

def finishedBytes (events : List (ℕ × ProgressEvent)) : ℕ :=
  (events.map fun event => event.2.finishedBytes).sum

theorem finishedBytes_snoc (events : List (ℕ × ProgressEvent)) (pos : ℕ) (event : ProgressEvent) :
    finishedBytes (events ++ [(pos, event)]) = finishedBytes events + event.finishedBytes := by
  rw [finishedBytes, List.map_append, List.sum_append]
  rfl

theorem trackerOf_toNat (events : List (ℕ × ProgressEvent)) :
    (trackerOf events).total.toNat = finishedBytes events % 2 ^ 64 := by
  induction events using List.reverseRecOn with
  | nil => rfl
  | append_singleton events event ih =>
    obtain ⟨pos, event⟩ := event
    have hlast : trackerOf (events ++ [(pos, event)]) = (trackerOf events).record event := by
      rw [trackerOf, List.map_append, List.foldl_append]
      rfl
    rw [hlast, finishedBytes_snoc, Nat.add_mod, ← ih]
    cases event with
    | segmentFinished index exit bytes duration =>
      simp only [BytesTracker.record, BytesTracker.total, ProgressEvent.finishedBytes]
      rw [UInt64.toNat_add, UInt64.toNat_ofNat']
    | segmentStarted index exit attempt =>
      have hlt := (trackerOf events).total.toNat_lt
      have hnone : (ProgressEvent.segmentStarted index exit attempt).finishedBytes = 0 := rfl
      rw [hnone, Nat.zero_mod, Nat.add_zero, Nat.mod_eq_of_lt hlt]
      rfl
    | segmentFailed index exit attempt error =>
      have hlt := (trackerOf events).total.toNat_lt
      have hnone : (ProgressEvent.segmentFailed index exit attempt error).finishedBytes = 0 := rfl
      rw [hnone, Nat.zero_mod, Nat.add_zero, Nat.mod_eq_of_lt hlt]
      rfl

def TaskState.doneBytes (task : TaskState) : ℕ :=
  match task.phase with
  | .finished _ _ => task.seg.range.len
  | _ => 0

theorem Fires.doneBytes_eq {cfg : Config} {pos : ℕ} {task task' : TaskState} {shared shared' : Shared}
    (h : Fires cfg pos task shared task' shared') :
    finishedBytes shared'.events + task.doneBytes = finishedBytes shared.events + task'.doneBytes := by
  cases h with
  | finished duration hphase hclose =>
    obtain ⟨_, _, rfl⟩ := closeBody_ok hclose
    rw [Shared.emit_events, finishedBytes_snoc]
    simp [TaskState.doneBytes, hphase, ProgressEvent.finishedBytes]
  | started hphase hknown =>
    rw [Shared.emit_events, finishedBytes_snoc]
    simp [TaskState.doneBytes, hphase, ProgressEvent.finishedBytes]
  | reported hphase =>
    rw [Shared.emit_events, finishedBytes_snoc]
    simp [TaskState.doneBytes, hphase, ProgressEvent.finishedBytes]
  | broken removed hphase hclose => simp [TaskState.doneBytes, hphase]
  | removed removed hphase => simp [TaskState.doneBytes, hphase]
  | unknown hphase _ => simp [TaskState.doneBytes, hphase]
  | refused hphase _ _ => simp [TaskState.doneBytes, hphase]
  | opened hphase _ _ => simp [TaskState.doneBytes, hphase]
  | chunk hphase => simp [TaskState.doneBytes, hphase]
  | marked _ hphase _ => simp [TaskState.doneBytes, hphase]
  | gaveUp hphase _ => simp [TaskState.doneBytes, hphase]
  | exhausted hphase _ => simp [TaskState.doneBytes, hphase]
  | retried hphase _ => simp [TaskState.doneBytes, hphase]

theorem hasFinished_failedRounds (index : SegmentIndex) (attempt : ℕ) (failures : List Failure) :
    hasFinished (failedRounds index attempt failures) = false := by
  induction failures generalizing attempt with
  | nil => rfl
  | cons failure rest ih => exact ih (attempt + 1)

theorem TaskStory.doneBytes_eq {cfg : Config} {events : List (ℕ × ProgressEvent)} {task : TaskState}
    (h : TaskStory cfg events task) : task.doneBytes =
      if hasFinished (eventsOf task.seg.index events) then task.seg.range.len else 0 := by
  have hinAttempt {failures : List Failure} (h : InAttempt cfg task.seg task.exit task.attempt failures
      (eventsOf task.seg.index events)) : hasFinished (eventsOf task.seg.index events) = false := by
    rw [h.events, hasFinished, List.any_append, ← hasFinished, hasFinished_failedRounds]
    rfl
  have hfailed {error : FetchError} {failures : List Failure} (h : FailedWith cfg task.seg task.exit
      task.attempt error failures (eventsOf task.seg.index events)) :
      hasFinished (eventsOf task.seg.index events) = false := by
    rw [h.events, hasFinished_failedRounds]
  unfold TaskStory at h
  cases hphase : task.phase with
  | finished stats body =>
    rw [hphase] at h
    obtain ⟨failures, duration, _, _, hevents⟩ := h
    rw [hevents, hasFinished, List.any_append]
    simp [TaskState.doneBytes, hphase, ProgressEvent.isFinished]
  | starting =>
    rw [hphase] at h
    obtain ⟨failures, _, _, hevents⟩ := h
    simp [TaskState.doneBytes, hphase, hevents, hasFinished_failedRounds]
  | requesting =>
    rw [hphase] at h
    simp [TaskState.doneBytes, hphase, hinAttempt h.choose_spec]
  | receiving received chunks stop =>
    rw [hphase] at h
    simp [TaskState.doneBytes, hphase, hinAttempt h.choose_spec]
  | failed error =>
    rw [hphase] at h
    simp [TaskState.doneBytes, hphase, hinAttempt h.2.choose_spec]
  | reported error =>
    rw [hphase] at h
    simp [TaskState.doneBytes, hphase, hfailed h.choose_spec]
  | removed error =>
    rw [hphase] at h
    simp [TaskState.doneBytes, hphase, hfailed h.choose_spec]
  | marked error =>
    rw [hphase] at h
    simp [TaskState.doneBytes, hphase, hfailed h.2.choose_spec]
  | aborted error =>
    rw [hphase] at h
    obtain ⟨_, ⟨failures, hevents⟩, _⟩ := h
    simp [TaskState.doneBytes, hphase, hevents, hasFinished_failedRounds]

structure TraceInv (cfg : Config) (s : RunState) : Prop where
  segments : s.tasks.map (·.seg) = cfg.segments ∨ s.tasks = [] ∧ s.shared.events = []
  story : ∀ task ∈ s.tasks, TaskStory cfg s.shared.events task
  bytes : finishedBytes s.shared.events = (s.tasks.map TaskState.doneBytes).sum

theorem TraceInv.step {cfg : Config} (hnodup : (cfg.segments.map (·.index)).Nodup) {s s' : RunState}
    (h : TraceInv cfg s) (hstep : Step cfg s s') : TraceInv cfg s' := by
  cases hstep with
  | task action hget hadmits hstep =>
    rename_i pos task task' shared'
    have hfires := taskStep_fires hadmits hstep
    rcases h.segments with hsegments | ⟨hnil, _⟩
    · refine ⟨Or.inl ((ListFacts.map_set_same (·.seg) _ hget hfires.seg_eq).trans hsegments), fun other hother => ?_, ?_⟩
      · obtain ⟨j, hj⟩ := List.mem_iff_getElem?.mp hother
        rcases getElem?_set_cases hj with ⟨rfl, rfl, _⟩ | ⟨hne, hj⟩
        · exact hfires.taskStory (h.story task (List.mem_of_getElem? hget))
        · have hstory := h.story other (List.mem_of_getElem? hj)
          rw [TaskStory] at hstory ⊢
          rwa [hfires.eventsOf_other (seg_index_ne hnodup hsegments hget hj hne).symm]
      · have hsum := sum_map_set TaskState.doneBytes task' hget
        have hbytes := hfires.doneBytes_eq
        have hinv := h.bytes
        simp only
        omega
    · rw [hnil] at hget
      cases hget
  | caller hstep => exact ⟨h.segments, h.story, h.bytes⟩

theorem traceInv_start (cfg : Config) (created : Bool) (parts : Dir) :
    TraceInv cfg (startRun cfg created parts) := by
  unfold startRun
  split
  · split
    · exact ⟨Or.inr ⟨rfl, rfl⟩, nofun, rfl⟩
    · refine ⟨Or.inl ?_, fun task htask => ?_, ?_⟩
      · rw [List.map_map]
        exact List.map_id _
      · obtain ⟨seg, _, rfl⟩ := List.mem_map.mp htask
        exact ⟨[], .first, rfl, rfl⟩
      · rw [List.map_map]
        exact (List.sum_eq_zero fun bytes hbytes => by
          obtain ⟨seg, _, rfl⟩ := List.mem_map.mp hbytes
          rfl).symm
  · exact ⟨Or.inr ⟨rfl, rfl⟩, nofun, rfl⟩

theorem runSegments_traceInv {cfg : Config} (hnodup : (cfg.segments.map (·.index)).Nodup)
    {created : Bool} {parts : Dir} {s : RunState} (hrun : runSegments cfg created parts s) :
    TraceInv cfg s :=
  hrun.invariant (fun h hstep => h.step hnodup hstep) (traceInv_start cfg created parts)

def finishedLength (planned : List SegmentPlan) (events : List (ℕ × ProgressEvent)) : ℕ :=
  ((planned.filter fun seg => hasFinished (eventsOf seg.index events)).map (·.range.len)).sum

structure RunHistory (cfg : Config) (s : RunState) : Prop where
  story : ∀ seg ∈ cfg.segments, Story cfg seg (eventsOf seg.index s.shared.events)
  exhausted : ∀ task ∈ s.tasks, ∀ index attempts last,
    task.phase = .aborted (.segmentAttemptsExhausted index attempts last) →
      Exhausted cfg task.seg (eventsOf task.seg.index s.shared.events)
  tracked : (trackerOf s.shared.events).total.toNat = finishedLength cfg.segments s.shared.events

theorem TraceInv.finishedBytes_eq {cfg : Config} {s : RunState} (h : TraceInv cfg s) :
    finishedBytes s.shared.events = finishedLength cfg.segments s.shared.events := by
  rcases h.segments with hsegments | ⟨_, hnone⟩
  · rw [h.bytes, finishedLength, ← hsegments, List.filter_map, List.map_map, sum_map_filter]
    exact congrArg List.sum (List.map_congr_left fun task htask => (h.story task htask).doneBytes_eq)
  · have hnothing : cfg.segments.filter (fun seg => hasFinished (eventsOf seg.index [])) = [] :=
      List.filter_eq_nil_iff.mpr fun seg _ => by simp [eventsOf, hasFinished]
    rw [finishedLength, hnone, hnothing]
    rfl

def planConfig (plan : FetchPlan) (exits : ExitRegistry) (policy : RetryPolicy)
    (network : ExitId → SegmentPlan → Reply → Prop) : Config :=
  ⟨plan.segments, exits, policy, network⟩

theorem segment_histories {plan : FetchPlan} (hvalid : plan.validate = .ok ()) {exits : ExitRegistry}
    {policy : RetryPolicy} {network : ExitId → SegmentPlan → Reply → Prop} {created : Bool}
    {parts : Dir} {s : RunState}
    (hrun : runSegments (planConfig plan exits policy network) created parts s) :
    RunHistory (planConfig plan exits policy network) s := by
  have hinv := runSegments_traceInv (validate_indices_nodup hvalid) hrun
  refine ⟨fun seg hseg => ?_, fun task htask index attempts last hphase => ?_, ?_⟩
  · rcases hinv.segments with hsegments | ⟨_, hnone⟩
    · obtain ⟨task, htask, rfl⟩ := List.mem_map.mp (hsegments ▸ hseg)
      exact (hinv.story task htask).story
    · rw [hnone]
      exact .unstarted
  · have hstory := hinv.story task htask
    rw [TaskStory, hphase] at hstory
    exact hstory.2.2 index attempts last rfl
  · have hle : finishedLength plan.segments s.shared.events ≤ plan.fileSize.value := by
      rw [← validate_sum_len hvalid]
      exact sum_le_of_filter _ _
    have hlt := plan.fileSize.lt
    rw [trackerOf_toNat, hinv.finishedBytes_eq]
    exact Nat.mod_eq_of_lt (lt_of_le_of_lt hle hlt)

def samplePolicy : RetryPolicy := 3

theorem planConfig_admits (plan : FetchPlan) (exits : ExitRegistry) (policy : RetryPolicy)
    (task : TaskState) (action : Action) : (planConfig plan exits policy anyNetwork).admits task action := by
  cases action <;> trivial

def oneFailure (pos : ℕ) : List Move :=
  [.task pos .start, .task pos (.reply .noResponse), .task pos .report, .task pos (.remove true),
    .task pos (.mark 0), .task pos .retry]

theorem segment_histories_sample : ∃ s,
    RunHistory (planConfig samplePlan sampleRegistry samplePolicy anyNetwork) s ∧
      (trackerOf s.shared.events).total = 3 :=
  ⟨_, segment_histories ((build_ok build_sample).2.2.1) (@moves_reachable _ (planConfig_admits _ _ _)
    (oneFailure 0 ++ oneChunk 0 3) (startRun _ true .empty) _ rfl), rfl⟩

end SpiderNet.Fetch
