import SpiderNet.Fetch.Retry

namespace SpiderNet.Fetch

def ProgressEvent.index : ProgressEvent → SegmentIndex
  | .segmentStarted index _ _ => index
  | .segmentFinished index _ _ _ => index
  | .segmentFailed index _ _ _ => index

def eventsOf (index : SegmentIndex) (events : List (ℕ × ProgressEvent)) : List ProgressEvent :=
  (events.map Prod.snd).filter fun event => event.index = index

abbrev Failure := ExitId × FetchError

def failedRounds (index : SegmentIndex) : ℕ → List Failure → List ProgressEvent
  | _, [] => []
  | attempt, (exit, error) :: rest =>
    .segmentStarted index exit attempt :: .segmentFailed index exit attempt error ::
      failedRounds index (attempt + 1) rest

-- an attempt on `exit` may follow these failures
structure Tried (cfg : Config) (failures : List Failure) (exit : ExitId) : Prop where
  bounded : failures.length < cfg.policy.value
  retryable : ∀ failure ∈ failures, isRetryable failure.2
  distinct : 2 ≤ cfg.exits.keys.length → (failures.map Prod.fst ++ [exit]).IsChain (· ≠ ·)

inductive Story (cfg : Config) (seg : SegmentPlan) : List ProgressEvent → Prop
  | unstarted : Story cfg seg []
  | started {failures : List Failure} {exit : ExitId} (htried : Tried cfg failures exit) :
      Story cfg seg (failedRounds seg.index 1 failures ++
        [.segmentStarted seg.index exit (failures.length + 1)])
  | failed {failures : List Failure} {exit : ExitId} (error : FetchError)
      (htried : Tried cfg failures exit) :
      Story cfg seg (failedRounds seg.index 1 (failures ++ [(exit, error)]))
  | finished {failures : List Failure} {exit : ExitId} (duration : ℕ)
      (htried : Tried cfg failures exit) :
      Story cfg seg (failedRounds seg.index 1 failures ++
        [.segmentStarted seg.index exit (failures.length + 1),
          .segmentFinished seg.index exit seg.range.len duration])

theorem failedRounds_snoc (index : SegmentIndex) (attempt : ℕ) (failures : List Failure)
    (exit : ExitId) (error : FetchError) :
    failedRounds index attempt (failures ++ [(exit, error)]) =
      failedRounds index attempt failures ++
        [.segmentStarted index exit (attempt + failures.length),
          .segmentFailed index exit (attempt + failures.length) error] := by
  induction failures generalizing attempt with
  | nil => rfl
  | cons failure rest ih =>
    obtain ⟨exit', error'⟩ := failure
    simp only [List.cons_append, failedRounds, ih, List.length_cons]
    rw [Nat.add_right_comm, Nat.add_assoc]

section
variable {cfg : Config}

theorem Tried.first {exit : ExitId} : Tried cfg [] exit := by
  refine ⟨cfg.policy.pos, nofun, fun _ => ?_⟩
  exact List.isChain_singleton _

theorem Tried.before {failures : List Failure} {failure : Failure} {exit : ExitId}
    (h : Tried cfg (failures ++ [failure]) exit) : Tried cfg failures failure.1 := by
  obtain ⟨hbounded, hretryable, hdistinct⟩ := h
  rw [List.length_append] at hbounded
  refine ⟨by omega, fun other hother => hretryable other (List.mem_append_left _ hother),
    fun htwo => ?_⟩
  have hchain := hdistinct htwo
  rw [List.map_append] at hchain
  exact hchain.left_of_append

theorem Tried.after {failures : List Failure} {exit exit' : ExitId} {error : FetchError}
    (h : Tried cfg failures exit) (hretryable : isRetryable error)
    (hbounded : failures.length + 1 < cfg.policy.value)
    (hother : 2 ≤ cfg.exits.keys.length → exit ≠ exit') :
    Tried cfg (failures ++ [(exit, error)]) exit' := by
  refine ⟨by rwa [List.length_append], fun failure hfailure => ?_, fun htwo => ?_⟩
  · rcases List.mem_append.mp hfailure with hfailure | hfailure
    · exact h.retryable failure hfailure
    · rwa [List.mem_singleton.mp hfailure]
  · rw [List.map_append]
    refine (h.distinct htwo).append (List.isChain_singleton _) ?_
    simp [hother htwo]

theorem Tried.story {seg : SegmentPlan} {failures : List Failure} {exit : ExitId}
    (h : Tried cfg failures exit) : Story cfg seg (failedRounds seg.index 1 failures) := by
  induction failures using List.reverseRecOn with
  | nil => exact .unstarted
  | append_singleton failures failure _ => exact .failed failure.2 h.before

end

section
variable {lastFailed : OrdMap ExitId Instant} {avoid : ExitId}

theorem pickRetry_ne {exits : ExitRegistry} (htwo : 2 ≤ exits.keys.length) :
    pickRetry exits.keys lastFailed avoid ≠ avoid := by
  have hother : ∃ id ∈ exits.keys, id ≠ avoid := by
    by_contra hnone
    push Not at hnone
    have hreplicate := List.eq_replicate_of_mem hnone
    have hnodup := exits.keys_nodup
    rw [hreplicate, List.nodup_replicate] at hnodup
    omega
  exact (pickRetry_listed hother).2

end

def AttemptError (error : FetchError) : Prop :=
  ∀ index attempts last, error ≠ .segmentAttemptsExhausted index attempts last

theorem openBody_error {exit : ExitId} {index : SegmentIndex} {reply : Reply} {error : FetchError}
    (h : openBody exit index reply = .error error) : AttemptError error := by
  intro index' attempts last heq
  subst heq
  cases reply with
  | noResponse => cases h
  | response status created chunks stop =>
    simp only [openBody] at h
    split_ifs at h <;> cases h

theorem closeBody_error {seg : SegmentPlan} {received : Bytes} {stop : Option Break}
    {error : FetchError} (h : closeBody seg received stop = .error error) : AttemptError error := by
  intro index attempts last heq
  subst heq
  cases stop with
  | some stop => cases stop <;> cases h
  | none =>
    simp only [closeBody] at h
    split_ifs at h
    cases h

structure InAttempt (cfg : Config) (seg : SegmentPlan) (exit : ExitId) (attempt : ℕ)
    (failures : List Failure) (events : List ProgressEvent) : Prop where
  tried : Tried cfg failures exit
  counted : attempt = failures.length + 1
  events : events = failedRounds seg.index 1 failures ++ [.segmentStarted seg.index exit attempt]

structure FailedWith (cfg : Config) (seg : SegmentPlan) (exit : ExitId) (attempt : ℕ)
    (error : FetchError) (failures : List Failure) (events : List ProgressEvent) : Prop where
  tried : Tried cfg failures exit
  counted : attempt = failures.length + 1
  events : events = failedRounds seg.index 1 (failures ++ [(exit, error)])
  attempt : AttemptError error

-- every attempt allowed was made and failed with an error worth a retry
def Exhausted (cfg : Config) (seg : SegmentPlan) (events : List ProgressEvent) : Prop :=
  ∃ failures, events = failedRounds seg.index 1 failures ∧ failures.length = cfg.policy.value ∧
    ∀ failure ∈ failures, isRetryable failure.2

def PhaseStory (cfg : Config) (seg : SegmentPlan) (exit : ExitId) (attempt : ℕ)
    (events : List ProgressEvent) : Phase → Prop
  | .starting => ∃ failures, Tried cfg failures exit ∧ attempt = failures.length ∧
      events = failedRounds seg.index 1 failures
  | .requesting => ∃ failures, InAttempt cfg seg exit attempt failures events
  | .receiving _ _ _ => ∃ failures, InAttempt cfg seg exit attempt failures events
  | .failed error => AttemptError error ∧ ∃ failures, InAttempt cfg seg exit attempt failures events
  | .reported error => ∃ failures, FailedWith cfg seg exit attempt error failures events
  | .removed error => ∃ failures, FailedWith cfg seg exit attempt error failures events
  | .marked error => isRetryable error ∧
      ∃ failures, FailedWith cfg seg exit attempt error failures events
  | .finished stats _ => ∃ failures duration, Tried cfg failures exit ∧
      stats = ⟨seg.index, exit, seg.range.len, duration, failures.length + 1⟩ ∧
      events = failedRounds seg.index 1 failures ++
        [.segmentStarted seg.index exit (failures.length + 1),
          .segmentFinished seg.index exit seg.range.len duration]
  | .aborted error => Story cfg seg events ∧
      (∃ failures, events = failedRounds seg.index 1 failures) ∧
      ∀ index attempts last, error = .segmentAttemptsExhausted index attempts last →
        Exhausted cfg seg events

def TaskStory (cfg : Config) (events : List (ℕ × ProgressEvent)) (task : TaskState) : Prop :=
  PhaseStory cfg task.seg task.exit task.attempt (eventsOf task.seg.index events) task.phase

section
variable {cfg : Config} {seg : SegmentPlan} {exit : ExitId} {attempt : ℕ}
  {events : List ProgressEvent}

theorem InAttempt.story {failures : List Failure}
    (h : InAttempt cfg seg exit attempt failures events) : Story cfg seg events := by
  rw [h.events, h.counted]
  exact .started h.tried

theorem FailedWith.story {failures : List Failure} {error : FetchError}
    (h : FailedWith cfg seg exit attempt error failures events) : Story cfg seg events := by
  rw [h.events]
  exact .failed error h.tried

theorem PhaseStory.story {phase : Phase} (h : PhaseStory cfg seg exit attempt events phase) :
    Story cfg seg events := by
  cases phase with
  | starting =>
    obtain ⟨failures, htried, _, rfl⟩ := h
    exact htried.story
  | requesting => exact h.choose_spec.story
  | receiving received chunks stop => exact h.choose_spec.story
  | failed error => exact h.2.choose_spec.story
  | reported error => exact h.choose_spec.story
  | removed error => exact h.choose_spec.story
  | marked error => exact h.2.choose_spec.story
  | finished stats body =>
    obtain ⟨failures, duration, htried, _, rfl⟩ := h
    exact .finished duration htried
  | aborted error => exact h.1

end

theorem eventsOf_snoc_self {index : SegmentIndex} {pos : ℕ} {event : ProgressEvent}
    (h : event.index = index) (events : List (ℕ × ProgressEvent)) :
    eventsOf index (events ++ [(pos, event)]) = eventsOf index events ++ [event] := by
  rw [eventsOf, List.map_append, List.filter_append]
  simp [eventsOf, h]

theorem eventsOf_snoc_other {index : SegmentIndex} {pos : ℕ} {event : ProgressEvent}
    (h : event.index ≠ index) (events : List (ℕ × ProgressEvent)) :
    eventsOf index (events ++ [(pos, event)]) = eventsOf index events := by
  rw [eventsOf, List.map_append, List.filter_append]
  simp [eventsOf, h]

section
variable {cfg : Config} {pos : ℕ} {task task' : TaskState} {shared shared' : Shared}

theorem Fires.eventsOf_other (h : Fires cfg pos task shared task' shared') {index : SegmentIndex}
    (hother : task.seg.index ≠ index) :
    eventsOf index shared'.events = eventsOf index shared.events := by
  cases h with
  | started hphase hknown =>
    refine eventsOf_snoc_other ?_ _
    exact hother
  | finished duration hphase hclose =>
    refine eventsOf_snoc_other ?_ _
    exact hother
  | reported hphase =>
    refine eventsOf_snoc_other ?_ _
    exact hother
  | broken removed hphase hclose => rw [Shared.removePart_events]
  | removed removed hphase => rw [Shared.removePart_events]
  | _ => rfl

theorem Fires.taskStory (h : Fires cfg pos task shared task' shared')
    (hstory : TaskStory cfg shared.events task) : TaskStory cfg shared'.events task' := by
  unfold TaskStory at hstory
  cases h with
  | started hphase hknown =>
    rw [hphase] at hstory
    obtain ⟨failures, htried, hcounted, hevents⟩ := hstory
    have hnext := @eventsOf_snoc_self task.seg.index pos
      (.segmentStarted task.seg.index task.exit (task.attempt + 1)) rfl shared.events
    rw [hevents] at hnext
    exact ⟨failures, htried, congrArg (· + 1) hcounted, hnext⟩
  | unknown hphase hunknown =>
    rw [hphase] at hstory
    obtain ⟨failures, _, _, hevents⟩ := id hstory
    exact ⟨hstory.story, ⟨failures, hevents⟩, nofun⟩
  | refused hphase hnetwork hopen =>
    rw [hphase] at hstory
    exact ⟨openBody_error hopen, hstory⟩
  | opened hphase hnetwork hopen =>
    rw [hphase] at hstory
    exact hstory
  | chunk hphase =>
    rw [hphase] at hstory
    exact hstory
  | finished duration hphase hclose =>
    rw [hphase] at hstory
    obtain ⟨failures, htried, hcounted, hevents⟩ := hstory
    obtain ⟨_, _, rfl⟩ := closeBody_ok hclose
    have hnext := @eventsOf_snoc_self task.seg.index pos
      (.segmentFinished task.seg.index task.exit task.seg.range.len duration) rfl shared.events
    rw [hevents, hcounted, List.append_assoc] at hnext
    refine ⟨failures, duration, htried, ?_, hnext⟩
    rw [hcounted]
    rfl
  | broken removed hphase hclose =>
    rw [hphase] at hstory
    rw [TaskStory, Shared.removePart_events]
    exact ⟨closeBody_error hclose, hstory⟩
  | reported hphase =>
    rw [hphase] at hstory
    obtain ⟨herror, failures, htried, hcounted, hevents⟩ := hstory
    rename_i error
    have hnext := @eventsOf_snoc_self task.seg.index pos
      (.segmentFailed task.seg.index task.exit task.attempt error) rfl shared.events
    rw [hevents, List.append_assoc] at hnext
    refine ⟨failures, htried, hcounted, hnext.trans ?_, herror⟩
    rw [TaskState.to_seg, TaskState.to_exit, failedRounds_snoc, hcounted, Nat.add_comm]
    rfl
  | removed removed hphase =>
    rw [hphase] at hstory
    rw [TaskStory, Shared.removePart_events]
    exact hstory
  | marked now hphase hretryable =>
    rw [hphase] at hstory
    exact ⟨hretryable, hstory⟩
  | gaveUp hphase hfinal =>
    rw [hphase] at hstory
    obtain ⟨failures, hfailed⟩ := hstory
    exact ⟨hfailed.story, ⟨_, hfailed.events⟩,
      fun index attempts last heq => absurd heq (hfailed.attempt _ _ _)⟩
  | exhausted hphase hlimit =>
    rw [hphase] at hstory
    obtain ⟨hretryable, failures, hfailed⟩ := hstory
    refine ⟨hfailed.story, ⟨_, hfailed.events⟩,
      fun _ _ _ _ => ⟨failures ++ [(task.exit, _)], hfailed.events, ?_, ?_⟩⟩
    · have hbounded := hfailed.tried.bounded
      have hcounted := hfailed.counted
      rw [List.length_append, List.length_singleton]
      omega
    · intro failure hfailure
      rcases List.mem_append.mp hfailure with hfailure | hfailure
      · exact hfailed.tried.retryable failure hfailure
      · rwa [List.mem_singleton.mp hfailure]
  | retried hphase hlimit =>
    rw [hphase] at hstory
    obtain ⟨hretryable, failures, hfailed⟩ := hstory
    refine ⟨_, hfailed.tried.after hretryable ?_ fun htwo => (pickRetry_ne htwo).symm, ?_,
      hfailed.events⟩
    · rwa [← hfailed.counted]
    · rw [hfailed.counted, List.length_append, List.length_singleton]

end

end SpiderNet.Fetch
