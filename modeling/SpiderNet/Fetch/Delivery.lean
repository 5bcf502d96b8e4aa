import SpiderNet.Fetch.Tracker

namespace SpiderNet.Fetch
open Transition ListFacts

-- what is written is what the current attempt's reply brought
def BodyFrom (network : ExitId → SegmentPlan → Reply → Prop) (task : TaskState) : Prop :=
  match task.phase with
  | .receiving received chunks stop => ∃ all,
      network task.exit task.seg (.response 206 true all stop) ∧
        received ++ chunks.flatten = all.flatten
  | .finished _ body => ∃ all, network task.exit task.seg (.response 206 true all none) ∧
      body = all.flatten
  | _ => True

theorem openBody_ok {exit : ExitId} {index : SegmentIndex} {reply : Reply} {chunks : List Bytes}
    {stop : Option Break} (h : openBody exit index reply = .ok (chunks, stop)) :
    reply = .response 206 true chunks stop := by
  cases reply with
  | noResponse => cases h
  | response status created chunks' stop' =>
    simp only [openBody] at h
    split_ifs at h with hstatus hpartial hcreated
    obtain ⟨rfl, rfl⟩ := Prod.ext_iff.mp (Except.ok.inj h)
    rw [not_ne_iff.mp hpartial, hcreated]

theorem Fires.bodyFrom {cfg : Config} {pos : ℕ} {task task' : TaskState} {shared shared' : Shared}
    (h : Fires cfg pos task shared task' shared') (hbody : BodyFrom cfg.network task) :
    BodyFrom cfg.network task' := by
  cases h with
  | opened hphase hnetwork hopen =>
    obtain rfl := openBody_ok hopen
    exact ⟨_, hnetwork, rfl⟩
  | chunk hphase =>
    simp only [BodyFrom, hphase] at hbody
    obtain ⟨all, hnetwork, heq⟩ := hbody
    refine ⟨all, hnetwork, ?_⟩
    rw [List.append_assoc, ← List.flatten_cons]
    exact heq
  | finished duration hphase hclose =>
    simp only [BodyFrom, hphase] at hbody
    obtain ⟨all, hnetwork, heq⟩ := hbody
    obtain ⟨rfl, _⟩ := closeBody_ok hclose
    rw [List.flatten_nil, List.append_nil] at heq
    exact ⟨all, hnetwork, heq⟩
  | _ => trivial

-- the awaited handles gave the first tasks' results
def Collected (tasks : List TaskState) (stats : List SegmentAttemptStats) : Prop :=
  ∀ (i : ℕ) (stat : SegmentAttemptStats), stats[i]? = some stat →
    ∃ (task : TaskState) (body : Bytes), tasks[i]? = some task ∧ task.phase = .finished stat body

def CallerCollected (tasks : List TaskState) : Caller → Prop
  | .awaiting stats => Collected tasks stats
  | .returned (.ok result) => ∃ stats, result = sortStats stats ∧ stats.length = tasks.length ∧
      Collected tasks stats
  | .returned (.error _) => True

theorem Collected.set {tasks : List TaskState} {pos : ℕ} {task task' : TaskState}
    {stats : List SegmentAttemptStats} (h : Collected tasks stats) (hget : tasks[pos]? = some task)
    (hrunning : ¬Done task) : Collected (tasks.set pos task') stats := by
  intro i stat hstat
  obtain ⟨other, body, hother, hphase⟩ := h i stat hstat
  have hne : pos ≠ i := by
    rintro rfl
    rw [hget] at hother
    obtain rfl := Option.some.inj hother
    exact hrunning ⟨stat, body, hphase⟩
  exact ⟨other, body, by rwa [List.getElem?_set_ne hne], hphase⟩

theorem CallerCollected.set {tasks : List TaskState} {pos : ℕ} {task task' : TaskState}
    {caller : Caller} (h : CallerCollected tasks caller) (hget : tasks[pos]? = some task)
    (hrunning : ¬Done task) : CallerCollected (tasks.set pos task') caller := by
  cases caller with
  | awaiting stats => exact Collected.set h hget hrunning
  | returned result =>
    cases result with
    | ok result =>
      obtain ⟨stats, hresult, hlength, hcollected⟩ := h
      exact ⟨stats, hresult, by rwa [List.length_set], hcollected.set hget hrunning⟩
    | error error => trivial

theorem CallerCollected.step {tasks : List TaskState} {caller caller' : Caller}
    (h : CallerCollected tasks caller) (hawaited : Awaited tasks caller)
    (hstep : callerStep tasks caller = some caller') : CallerCollected tasks caller' := by
  cases caller with
  | returned result => cases hstep
  | awaiting stats =>
    rw [callerStep] at hstep
    cases hget : tasks[stats.length]? with
    | none =>
      rw [hget] at hstep
      obtain rfl := Option.some.inj hstep
      have hend := List.getElem?_eq_none_iff.mp hget
      exact ⟨stats, rfl, le_antisymm hawaited.1 hend, h⟩
    | some task =>
      rw [hget] at hstep
      cases hphase : task.phase with
      | finished stat body =>
        simp only [hphase, Option.some.injEq] at hstep
        subst hstep
        intro i stat' hstat'
        rcases getElem?_snoc_cases hstat' with hold | ⟨rfl, rfl⟩
        · exact h i stat' hold
        · exact ⟨task, body, hget, hphase⟩
      | aborted error =>
        simp only [hphase, Option.some.injEq] at hstep
        subst hstep
        trivial
      | _ => simp [hphase] at hstep

structure DeliveryInv (cfg : Config) (s : RunState) : Prop where
  body : ∀ task ∈ s.tasks, BodyFrom cfg.network task
  awaited : Awaited s.tasks s.caller
  collected : CallerCollected s.tasks s.caller

theorem DeliveryInv.step {cfg : Config} {s s' : RunState} (h : DeliveryInv cfg s)
    (hstep : Step cfg s s') : DeliveryInv cfg s' := by
  cases hstep with
  | task action hget hadmits hstep =>
    rename_i pos task task' shared'
    have hfires := taskStep_fires hadmits hstep
    have hrunning : ¬Done task := by
      rintro ⟨stats, body, hphase⟩
      exact hfires.not_finished stats body hphase
    refine ⟨fun other hother => ?_, h.awaited.set hget hrunning, h.collected.set hget hrunning⟩
    obtain ⟨j, hj⟩ := List.mem_iff_getElem?.mp hother
    rcases getElem?_set_cases hj with ⟨rfl, rfl, _⟩ | ⟨_, hj⟩
    · exact hfires.bodyFrom (h.body task (List.mem_of_getElem? hget))
    · exact h.body other (List.mem_of_getElem? hj)
  | caller hstep => exact ⟨h.body, h.awaited.step hstep, h.collected.step h.awaited hstep⟩

theorem deliveryInv_start (cfg : Config) (created : Bool) (parts : Dir) :
    DeliveryInv cfg (startRun cfg created parts) := by
  unfold startRun
  split
  · split
    · exact ⟨nofun, trivial, trivial⟩
    · refine ⟨fun task htask => ?_, awaited_start _, nofun⟩
      obtain ⟨seg, _, rfl⟩ := List.mem_map.mp htask
      trivial
  · exact ⟨nofun, trivial, trivial⟩

theorem runSegments_deliveryInv {cfg : Config} {created : Bool} {parts : Dir} {s : RunState}
    (hrun : runSegments cfg created parts s) : DeliveryInv cfg s :=
  hrun.invariant (fun h hstep => h.step hstep) (deliveryInv_start cfg created parts)

theorem Collected.map_eq {α : Type} {tasks : List TaskState} {stats : List SegmentAttemptStats}
    (h : Collected tasks stats) (hlength : stats.length = tasks.length)
    {f : SegmentAttemptStats → α} {g : TaskState → α}
    (hfg : ∀ task ∈ tasks, ∀ stat body, task.phase = .finished stat body → f stat = g task) :
    stats.map f = tasks.map g := by
  refine List.ext_getElem (by simpa) fun i hi hi' => ?_
  rw [List.length_map] at hi hi'
  obtain ⟨task, body, hget, hphase⟩ := h i stats[i] (List.getElem?_eq_getElem hi)
  obtain ⟨_, rfl⟩ := List.getElem?_eq_some_iff.mp hget
  rw [List.getElem_map, List.getElem_map]
  exact hfg _ (List.getElem_mem hi') _ body hphase

-- the one attempt that succeeded, after these failures, and what it brought
structure DeliveredBy (network : ExitId → SegmentPlan → Reply → Prop) (s : RunState)
    (seg : SegmentPlan) (stat : SegmentAttemptStats) (failures : List Failure) (chunks : List Bytes) :
    Prop where
  events : eventsOf seg.index s.shared.events = failedRounds seg.index 1 failures ++
    [.segmentStarted seg.index stat.exit (failures.length + 1),
      .segmentFinished seg.index stat.exit seg.range.len stat.duration]
  record : stat = ⟨seg.index, stat.exit, seg.range.len, stat.duration, failures.length + 1⟩
  reply : network stat.exit seg (.response 206 true chunks none)
  accepted : downloadAttempt stat.exit seg (.response 206 true chunks none) = .ok seg.range.len
  written : s.shared.parts (partFile seg.index) = some (.file chunks.flatten)

structure CleanDownload (plan : FetchPlan) (network : ExitId → SegmentPlan → Reply → Prop)
    (s : RunState) (stats : List SegmentAttemptStats) : Prop where
  listed : stats.map (·.index) = plan.segments.map (·.index)
  ordered : stats.map (·.index.value) = List.range plan.segments.length
  lengths : stats.map (·.bytes) = plan.segments.map (·.range.len)
  total : (stats.map (·.bytes)).sum = plan.fileSize.value
  segment : ∀ (pos : ℕ) (seg : SegmentPlan), plan.segments[pos]? = some seg → ∃ stat failures chunks,
    stats[pos]? = some stat ∧ DeliveredBy network s seg stat failures chunks
  only : ∀ name, (s.shared.parts name).isSome → ∃ seg ∈ plan.segments, name = partFile seg.index

section
variable {plan : FetchPlan} {exits : ExitRegistry} {policy : RetryPolicy}
  {network : ExitId → SegmentPlan → Reply → Prop} {s : RunState}

theorem deliveredBy_of_finished {created : Bool} {parts : Dir} (hvalid : plan.validate = .ok ())
    (hrun : runSegments (planConfig plan exits policy network) created parts s) {task : TaskState}
    (htask : task ∈ s.tasks) {stat : SegmentAttemptStats} {body : Bytes}
    (hphase : task.phase = .finished stat body) :
    ∃ failures chunks, DeliveredBy network s task.seg stat failures chunks := by
  have hnodup := validate_indices_nodup hvalid
  have hstory := (runSegments_traceInv hnodup hrun).story task htask
  have hheld := (runSegments_partsInv hnodup hrun).held task htask
  have hbody := (runSegments_deliveryInv hrun).body task htask
  rw [TaskStory, hphase] at hstory
  simp only [Held, hphase] at hheld
  simp only [BodyFrom, hphase] at hbody
  obtain ⟨failures, duration, _, rfl, hevents⟩ := hstory
  obtain ⟨chunks, hreply, rfl⟩ := hbody
  refine ⟨failures, chunks, hevents, rfl, hreply, ?_, hheld.1⟩
  simp [downloadAttempt, openBody, closeBody, hheld.2]

theorem stat_of_finished {created : Bool} {parts : Dir} (hvalid : plan.validate = .ok ())
    (hrun : runSegments (planConfig plan exits policy network) created parts s) {task : TaskState}
    (htask : task ∈ s.tasks) {stat : SegmentAttemptStats} {body : Bytes}
    (hphase : task.phase = .finished stat body) :
    stat.index = task.seg.index ∧ stat.bytes = task.seg.range.len := by
  obtain ⟨failures, chunks, hby⟩ := deliveredBy_of_finished hvalid hrun htask hphase
  rw [hby.record]
  exact ⟨rfl, rfl⟩

theorem sortStats_of_ordered {stats : List SegmentAttemptStats} {n : ℕ}
    (h : stats.map (·.index.value) = List.range n) : sortStats stats = stats := by
  refine List.Pairwise.insertionSort_eq ?_
  have hrange : (stats.map (·.index.value)).Pairwise (· ≤ ·) := by
    rw [h]
    exact List.pairwise_le_range
  exact List.pairwise_map.mp hrange

theorem clean_download (hvalid : plan.validate = .ok ()) {created : Bool}
    (hrun : runSegments (planConfig plan exits policy network) created .empty s)
    {stats : List SegmentAttemptStats} (hreturned : s.caller = .returned (.ok stats)) :
    CleanDownload plan network s stats := by
  have hnodup := validate_indices_nodup hvalid
  have hdownloaded : Downloaded plan.segments .empty s := runSegments_downloaded hnodup hrun hreturned
  have hcollected := (runSegments_deliveryInv hrun).collected
  rw [hreturned] at hcollected
  obtain ⟨stats, rfl, hlength, hcollected⟩ := hcollected
  have hindices : stats.map (·.index) = plan.segments.map (·.index) := by
    rw [← hdownloaded.segments, List.map_map]
    exact hcollected.map_eq hlength fun task htask stat body hphase =>
      (stat_of_finished hvalid hrun htask hphase).1
  have hlengths : stats.map (·.bytes) = plan.segments.map (·.range.len) := by
    rw [← hdownloaded.segments, List.map_map]
    exact hcollected.map_eq hlength fun task htask stat body hphase =>
      (stat_of_finished hvalid hrun htask hphase).2
  have hordered : stats.map (·.index.value) = List.range plan.segments.length := by
    have hvalues := congrArg (List.map SegmentIndex.value) hindices
    rw [List.map_map, List.map_map] at hvalues
    exact hvalues.trans ((validate_iff plan).mp hvalid).2
  rw [sortStats_of_ordered hordered]
  refine ⟨hindices, hordered, hlengths, ?_, fun pos seg hseg => ?_, fun name hname => ?_⟩
  · rw [hlengths, validate_sum_len hvalid]
  · rw [← hdownloaded.segments, List.getElem?_map] at hseg
    obtain ⟨task, htask, rfl⟩ := Option.map_eq_some_iff.mp hseg
    have hlt : pos < stats.length := hlength ▸ (List.getElem?_eq_some_iff.mp htask).1
    have hget := List.getElem?_eq_getElem hlt
    obtain ⟨task', body, htask', hphase⟩ := hcollected pos _ hget
    rw [htask] at htask'
    obtain rfl := Option.some.inj htask'
    obtain ⟨failures, chunks, hby⟩ :=
      deliveredBy_of_finished hvalid hrun (List.mem_of_getElem? htask) hphase
    exact ⟨_, failures, chunks, hget, hby⟩
  · by_contra hnone
    push Not at hnone
    rw [hdownloaded.frame name hnone] at hname
    cases hname

end

theorem clean_download_sample : ∃ s stats, CleanDownload samplePlan anyNetwork s stats ∧
    stats.map (·.attempts) = [2, 1] :=
  ⟨_, _, clean_download (build_ok build_sample).2.2.1 (@moves_reachable _ (planConfig_admits _ _ _)
    (oneFailure 0 ++ oneChunk 1 9 ++ oneChunk 0 3 ++ [.caller, .caller, .caller])
    (startRun (planConfig samplePlan sampleRegistry samplePolicy anyNetwork) true .empty) _ rfl) rfl, rfl⟩

end SpiderNet.Fetch
