import SpiderNet.Fetch.Leftover

namespace SpiderNet.Fetch
open Transition Tiling

-- what a fetch, completed, failed or killed at any moment, makes of the directory it was given
inductive LeftBehind : Dir → Prop
  | fresh : LeftBehind .empty
  | fetch {cfg : Config} {created : Bool} {parts : Dir} {s : RunState} (hleft : LeftBehind parts)
      (hrun : runSegments cfg created parts s) : LeftBehind s.shared.parts

def PartFilesOnly (parts : Dir) : Prop :=
  ∀ name node, parts name = some node → ∃ index content, name = partFile index ∧ node = .file content

theorem PartFilesOnly.create {parts : Dir} (h : PartFilesOnly parts) (index : SegmentIndex) :
    PartFilesOnly (parts.create (partFile index)) := by
  intro name node hnode
  by_cases hname : name = partFile index
  · rw [hname, Dir.create_self] at hnode
    exact ⟨index, [], hname, (Option.some.inj hnode).symm⟩
  · rw [Dir.create_other _ hname] at hnode
    exact h name node hnode

theorem PartFilesOnly.append {parts : Dir} (h : PartFilesOnly parts) (index : SegmentIndex)
    (data : Bytes) : PartFilesOnly (parts.append (partFile index) data) := by
  intro name node hnode
  by_cases hname : name = partFile index
  · subst hname
    cases hold : parts (partFile index) with
    | none => simp [Dir.append, hold] at hnode
    | some old =>
      obtain ⟨_, content, _, rfl⟩ := h _ old hold
      rw [Dir.append_self hold] at hnode
      exact ⟨index, content ++ data, rfl, (Option.some.inj hnode).symm⟩
  · rw [Dir.append_other _ _ hname] at hnode
    exact h name node hnode

theorem PartFilesOnly.removePart {shared : Shared} (h : PartFilesOnly shared.parts)
    (index : SegmentIndex) (removed : Bool) : PartFilesOnly (shared.removePart index removed).parts := by
  cases removed with
  | false => exact h
  | true =>
    intro name node hnode
    by_cases hname : name = partFile index
    · simp [Shared.removePart, Dir.remove, hname] at hnode
    · rw [Shared.removePart_other _ _ hname] at hnode
      exact h name node hnode

theorem Fires.partFilesOnly {cfg : Config} {pos : ℕ} {task task' : TaskState}
    {shared shared' : Shared} (h : Fires cfg pos task shared task' shared')
    (hparts : PartFilesOnly shared.parts) : PartFilesOnly shared'.parts := by
  cases h with
  | opened hphase hnetwork hopen => exact hparts.create _
  | chunk hphase => exact hparts.append _ _
  | broken removed hphase hclose => exact hparts.removePart _ _
  | removed removed hphase => exact hparts.removePart _ _
  | _ => exact hparts

theorem runSegments_partFilesOnly {cfg : Config} {created : Bool} {parts : Dir} {s : RunState}
    (hparts : PartFilesOnly parts) (hrun : runSegments cfg created parts s) :
    PartFilesOnly s.shared.parts := by
  refine @Reachable.invariant _ (Step cfg) (fun s => PartFilesOnly s.shared.parts) ?_ _ s ?_ hrun
  · intro s s' h hstep
    cases hstep with
    | task action hget hadmits hstep => exact (taskStep_fires hadmits hstep).partFilesOnly h
    | caller hstep => exact h
  · rw [startRun_parts]
    exact hparts

theorem LeftBehind.partFilesOnly {parts : Dir} (h : LeftBehind parts) : PartFilesOnly parts := by
  induction h with
  | fresh => exact nofun
  | fetch _ hrun ih => exact runSegments_partFilesOnly ih hrun

theorem LeftBehind.harmless_iff {parts : Dir} (h : LeftBehind parts) (planned : List SegmentPlan) :
    Harmless planned parts ↔ ∀ index, (∀ seg ∈ planned, seg.index ≠ index) →
      parts (partFile index) = none ∨ parts (partFile index) = some (.file []) := by
  constructor
  · intro hharmless index hindex
    cases hnode : parts (partFile index) with
    | none => exact Or.inl rfl
    | some node =>
      rcases hharmless _ node hnode with ⟨seg, hseg, heq⟩ | ⟨rfl, _⟩
      · exact absurd (partFile_injective heq).symm (hindex seg hseg)
      · exact Or.inr rfl
  · intro hempty name node hnode
    obtain ⟨index, content, rfl, rfl⟩ := h.partFilesOnly name node hnode
    by_cases hplanned : ∃ seg ∈ planned, seg.index = index
    · obtain ⟨seg, hseg, rfl⟩ := hplanned
      exact Or.inl ⟨seg, hseg, rfl⟩
    · rcases hempty index fun seg hseg heq => hplanned ⟨seg, hseg, heq⟩ with hnone | hsome
      · rw [hnone] at hnode
        cases hnode
      · rw [hsome] at hnode
        exact Or.inr ⟨(Option.some.inj hnode).symm, _, rfl, by simp⟩

section
variable {target : TargetUrl} {options : FetchOptions} {exits : ExitRegistry}
  {network : ExitId → SegmentPlan → Reply → Prop} {fileSize : FileSize} {plan : FetchPlan}

structure Fetched (target : TargetUrl) (options : FetchOptions) (exits : ExitRegistry)
    (network : ExitId → SegmentPlan → Reply → Prop) (fileSize : FileSize) (plan : FetchPlan)
    (start : Dir) (s : RunState) (stats : List SegmentAttemptStats) : Prop where
  planned : FetchPlan.build target fileSize options.exits options.segmentsPerExit
    options.minSegment = .ok plan
  run : runSegments (rangedConfig options exits network plan) true start s
  returned : s.caller = .returned (.ok stats)

-- the fetch reports a digest and an output, and so does the same fetch on an empty directory
def LikeFresh (sha256 : Bytes → Sha256Digest) (target : TargetUrl) (options : FetchOptions)
    (exits : ExitRegistry) (network : ExitId → SegmentPlan → Reply → Prop) (fileSize : FileSize)
    (plan : FetchPlan) (s : RunState) (stats : List SegmentAttemptStats) (listing : List FileName)
    (output : Option Bytes) : Prop :=
  ∃ report file,
    finishRanged sha256 noFaults target options fileSize stats s.shared.parts listing output =
      (.ok report, some file) ∧
    (∃ fresh listing', Fetched target options exits network fileSize plan .empty fresh stats ∧
      fresh.tasks = s.tasks ∧ Lists fresh.shared.parts listing') ∧
    ∀ fresh listing', Fetched target options exits network fileSize plan .empty fresh stats →
      fresh.tasks = s.tasks → Lists fresh.shared.parts listing' →
      finishRanged sha256 noFaults target options fileSize stats fresh.shared.parts listing' output =
        (.ok report, some file)

variable {start : Dir} {s : RunState} {stats : List SegmentAttemptStats}

theorem Fetched.valid (h : Fetched target options exits network fileSize plan start s stats) :
    plan.validate = .ok () ∧ plan.fileSize = fileSize := by
  obtain ⟨_, hsize, hvalidate, _⟩ := build_ok h.planned
  exact ⟨hvalidate, hsize⟩

theorem Fetched.downloaded (h : Fetched target options exits network fileSize plan start s stats) :
    Downloaded plan.segments start s :=
  runSegments_downloaded (validate_indices_nodup h.valid.1) h.run h.returned

theorem Fetched.sum_len (h : Fetched target options exits network fileSize plan start s stats) :
    (plan.segments.map (·.range.len)).sum = fileSize.value := by
  rw [validate_sum_len h.valid.1, h.valid.2]

theorem Fetched.delivered_length
    (h : Fetched target options exits network fileSize plan start s stats) :
    (delivered s.tasks).length = fileSize.value := by
  rw [← h.sum_len, ← h.downloaded.segments, List.map_map, delivered, List.length_flatMap,
    ((readOrder_perm s.tasks).map _).sum_eq]
  exact congrArg List.sum (List.map_congr_left fun task htask => h.downloaded.lengths task htask)

theorem checkAssembly_ok_iff {sha256 : Bytes → Sha256Digest} {content : Bytes} {size : FileSize}
    (hsize : content.length = size.value) {expected : Option Sha256Digest} :
    (∃ digest, checkAssembly sha256 ⟨content, content, content.length⟩ size expected = .ok digest) ↔
      expected = none ∨ expected = some (sha256 content) := by
  cases expected with
  | none => simp [checkAssembly, hsize]
  | some digest =>
    by_cases hdigest : sha256 content = digest
    · simp [checkAssembly, hsize, hdigest]
    · simp [checkAssembly, hsize, hdigest, Ne.symm hdigest]

theorem Fetched.replay (h : Fetched target options exits network fileSize plan start s stats) :
    ∃ fresh listing, Fetched target options exits network fileSize plan .empty fresh stats ∧
      fresh.tasks = s.tasks ∧ Lists fresh.shared.parts listing := by
  obtain ⟨fresh, hrun, halike⟩ := runSegments_replay h.run .empty
  have hfresh : Fetched target options exits network fileSize plan .empty fresh stats :=
    ⟨h.planned, hrun, halike.caller.trans h.returned⟩
  exact ⟨fresh, _, hfresh, halike.tasks,
    hfresh.downloaded.lists_plan (validate_indices_nodup hfresh.valid.1) nofun⟩

theorem Fetched.finish (sha256 : Bytes → Sha256Digest)
    (h : Fetched target options exits network fileSize plan start s stats)
    (hharmless : Harmless plan.segments start) {listing : List FileName}
    (hlisting : Lists s.shared.parts listing) (output : Option Bytes) :
    finishRanged sha256 noFaults target options fileSize stats s.shared.parts listing output =
      ((checkAssembly sha256 ⟨delivered s.tasks, delivered s.tasks, (delivered s.tasks).length⟩
          fileSize options.expectedSha256).map fun digest =>
        ⟨target, fileSize, stats.map (·.toStats), some digest⟩, some (delivered s.tasks)) := by
  rw [finishRanged, assemble_harmless sha256 h.downloaded (planNames_nodup h.valid.1) hharmless
    hlisting]

theorem finishRanged_ok {sha256 : Bytes → Sha256Digest} {parts : Dir} {listing : List FileName}
    {output : Option Bytes} {report : FetchReport} {file : Option Bytes}
    (h : finishRanged sha256 noFaults target options fileSize stats parts listing output =
      (.ok report, file)) :
    ∃ digest, (assemble sha256 noFaults parts listing output fileSize options.expectedSha256).1 =
      .ok digest := by
  have hresult := (Prod.ext_iff.mp h).1
  cases hassemble : (assemble sha256 noFaults parts listing output fileSize
    options.expectedSha256).1 with
  | error error =>
    simp only [finishRanged, hassemble] at hresult
    cases hresult
  | ok digest => exact ⟨digest, rfl⟩

theorem harmless_empty (planned : List SegmentPlan) : Harmless planned .empty := nofun

theorem later_fetch_likeFresh_iff (sha256 : Bytes → Sha256Digest)
    (h : Fetched target options exits network fileSize plan start s stats) {listing : List FileName}
    (hlisting : Lists s.shared.parts listing) (output : Option Bytes) :
    LikeFresh sha256 target options exits network fileSize plan s stats listing output ↔
      Harmless plan.segments start ∧ (options.expectedSha256 = none ∨
        options.expectedSha256 = some (sha256 (delivered s.tasks))) := by
  rw [← checkAssembly_ok_iff h.delivered_length]
  constructor
  · rintro ⟨report, file, hdone, _, _⟩
    obtain ⟨digest, hdigest⟩ := finishRanged_ok hdone
    have hharmless := harmless_of_ok h.downloaded (planNames_nodup h.valid.1) hlisting h.sum_len
      hdigest
    rw [assemble_harmless sha256 h.downloaded (planNames_nodup h.valid.1) hharmless hlisting]
      at hdigest
    exact ⟨hharmless, digest, hdigest⟩
  · rintro ⟨hharmless, digest, hdigest⟩
    refine ⟨⟨target, fileSize, stats.map (·.toStats), some digest⟩, delivered s.tasks, ?_,
      h.replay, fun fresh listing' hfresh htasks hlisting' => ?_⟩
    · rw [h.finish sha256 hharmless hlisting, hdigest]
      rfl
    · rw [hfresh.finish sha256 (harmless_empty _) hlisting', htasks, hdigest]
      rfl

end

theorem fewer_segments_fail (sha256 : Bytes → Sha256Digest) {target target' : TargetUrl}
    {options options' : FetchOptions} {exits exits' : ExitRegistry}
    {network network' : ExitId → SegmentPlan → Reply → Prop} {fileSize fileSize' : FileSize}
    {plan plan' : FetchPlan} {start : Dir} {s s' : RunState} {stats stats' : List SegmentAttemptStats}
    (h : Fetched target options exits network fileSize plan start s stats)
    (h' : Fetched target' options' exits' network' fileSize' plan' s.shared.parts s' stats')
    (hfewer : plan'.segments.length < plan.segments.length) {listing : List FileName}
    (hlisting : Lists s'.shared.parts listing) (output file : Option Bytes) (report : FetchReport) :
    finishRanged sha256 noFaults target' options' fileSize' stats' s'.shared.parts listing output ≠
      (.ok report, file) := by
  intro hdone
  obtain ⟨digest, hdigest⟩ := finishRanged_ok hdone
  have hharmless := harmless_of_ok h'.downloaded (planNames_nodup h'.valid.1) hlisting h'.sum_len hdigest
  have hindices := ((validate_iff plan).mp h.valid.1).2
  have hindices' := ((validate_iff plan').mp h'.valid.1).2
  obtain ⟨seg, hseg, hvalue⟩ := List.mem_map.mp (hindices ▸ List.mem_range.mpr hfewer)
  obtain ⟨task, htask, rfl⟩ := List.mem_map.mp (h.downloaded.segments ▸ hseg)
  rcases hharmless _ _ (h.downloaded.written task htask) with ⟨seg', hseg', heq⟩ | ⟨hempty, _⟩
  · have hin : seg'.index.value ∈ List.range plan'.segments.length :=
      hindices' ▸ List.mem_map_of_mem hseg'
    rw [← partFile_injective heq, hvalue] at hin
    exact absurd (List.mem_range.mp hin) (lt_irrefl _)
  · have hlength := h.downloaded.lengths task htask
    rw [Node.file.inj hempty] at hlength
    exact task.seg.range.len_pos.ne hlength

def anyNetwork (_ : ExitId) (_ : SegmentPlan) (_ : Reply) : Prop := True

theorem anyNetwork_admits (options : FetchOptions) (exits : ExitRegistry) (plan : FetchPlan)
    (task : TaskState) (action : Action) :
    (rangedConfig options exits anyNetwork plan).admits task action := by
  cases action <;> trivial

def sampleRegistry : ExitRegistry := (OrdMap.empty.insert 1 .direct).insert 2 .direct

def sampleOptions : FetchOptions := ⟨sampleExits, 1, 2, none, 3⟩

def shortPlan : FetchPlan := ⟨sampleUrl, 3, [⟨0, firstThree, 2⟩]⟩

theorem build_short : FetchPlan.build sampleUrl 3 sampleExits 1 2 = .ok shortPlan := rfl

def oneChunk (pos size : ℕ) : List Move :=
  [.task pos .start, .task pos (.reply (.response 206 true [List.replicate size 7] none)),
    .task pos .chunk, .task pos (.close 0 true)]

theorem sample_fetched (start : Dir) : ∃ s stats, Fetched sampleUrl sampleOptions sampleRegistry
    anyNetwork 12 samplePlan start s stats :=
  ⟨_, _, build_sample, @moves_reachable _ (anyNetwork_admits _ _ _)
    (oneChunk 0 3 ++ oneChunk 1 9 ++ [.caller, .caller, .caller]) _ _ rfl, rfl⟩

theorem short_fetched (start : Dir) : ∃ s stats, Fetched sampleUrl sampleOptions sampleRegistry
    anyNetwork 3 shortPlan start s stats :=
  ⟨_, _, build_short, @moves_reachable _ (anyNetwork_admits _ _ _)
    (oneChunk 0 3 ++ [.caller, .caller]) _ _ rfl, rfl⟩

theorem later_fetch_likeFresh_iff_sample : ∃ start s stats listing, LeftBehind start ∧
    LikeFresh (fun _ => ⟨.replicate 32 0⟩) sampleUrl sampleOptions sampleRegistry anyNetwork
      ⟨12, by decide, by decide⟩ samplePlan s stats listing none := by
  obtain ⟨earlier, stats, hearlier⟩ := short_fetched .empty
  obtain ⟨s, stats', h⟩ := sample_fetched earlier.shared.parts
  have hplanned : ∀ seg ∈ shortPlan.segments, ∃ seg' ∈ samplePlan.segments, seg'.index = seg.index := by
    decide
  have hlisting := h.downloaded.lists_plan (validate_indices_nodup h.valid.1) fun name hsome => by
    rcases (hearlier.downloaded.isSome_iff name).mp hsome with ⟨seg, hseg, rfl⟩ | hnone
    · obtain ⟨seg', hseg', heq⟩ := hplanned seg hseg
      exact ⟨seg', hseg', by rw [heq]⟩
    · cases hnone
  refine ⟨_, s, stats', _, .fetch .fresh hearlier.run,
    (later_fetch_likeFresh_iff _ h hlisting none).mpr ⟨?_, Or.inl rfl⟩⟩
  exact (harmless_empty _).after hearlier.downloaded hplanned

theorem fetch_after_larger_fails : ∃ start s stats listing, LeftBehind start ∧
    Fetched sampleUrl sampleOptions sampleRegistry anyNetwork ⟨3, by decide, by decide⟩ shortPlan
      start s stats ∧ Lists s.shared.parts listing ∧
    ∀ sha256 output, ¬LikeFresh sha256 sampleUrl sampleOptions sampleRegistry anyNetwork
      ⟨3, by decide, by decide⟩ shortPlan s stats listing output := by
  obtain ⟨earlier, stats, hearlier⟩ := sample_fetched .empty
  obtain ⟨s, stats', h⟩ := short_fetched earlier.shared.parts
  have hearlierListing := hearlier.downloaded.lists_plan (validate_indices_nodup hearlier.valid.1) nofun
  have hlisting := h.downloaded.lists_start hearlierListing (by simp [shortPlan, samplePlan])
  refine ⟨_, s, stats', _, .fetch .fresh hearlier.run, h, hlisting, ?_⟩
  rintro sha256 output ⟨report, file, hdone, _⟩
  exact fewer_segments_fail sha256 hearlier h (by decide) hlisting output file report hdone

end SpiderNet.Fetch
