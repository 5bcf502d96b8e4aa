import SpiderNet.Fetch.Merge

namespace SpiderNet.Fetch
open Tiling

def FetchPlan.extents (plan : FetchPlan) : List Extent := plan.segments.map (·.range.extent)

theorem tryIntoU64_ok {value : ℕ} {reason : String} (h : value < 2 ^ 64) :
    tryIntoU64 value reason = .ok value := if_pos h

theorem tryIntoU64_eq_ok {value value' : ℕ} {reason : String}
    (h : tryIntoU64 value reason = .ok value') : value' = value ∧ value < 2 ^ 64 := by
  unfold tryIntoU64 at h
  split_ifs at h with hlt
  exact ⟨(Except.ok.inj h).symm, hlt⟩

theorem tryIndex_eq_ok {i : ℕ} {index : SegmentIndex} (h : tryIndex i = .ok index) :
    index.value = i := by
  unfold tryIndex at h
  split_ifs at h with hlt
  obtain rfl := Except.ok.inj h
  rfl

theorem tryIndex_ok {i : ℕ} (h : i < 2 ^ 32) : tryIndex i = .ok ⟨i, h⟩ := dif_pos h

theorem validateFrom_cons (i cursor : ℕ) (seg : SegmentPlan) (rest : List SegmentPlan) {stop : ℕ} :
    validateFrom i cursor (seg :: rest) = .ok stop ↔
      seg.index.value = i ∧ seg.range.start = cursor ∧ seg.range.endInclusive + 1 < 2 ^ 64 ∧
        validateFrom (i + 1) (seg.range.endInclusive + 1) rest = .ok stop := by
  constructor
  · intro h
    simp only [validateFrom, bind, Except.bind] at h
    cases hindex : tryIndex i with
    | error error => simp [hindex] at h
    | ok expected =>
      rw [hindex] at h
      by_cases hi : seg.index.value = expected.value
      · by_cases hstart : seg.range.start = cursor
        · cases hnext : checkedSucc seg.range.endInclusive "range end overflow" with
          | error error => simp [hi, hstart, hnext, ByteRange.isEmpty] at h
          | ok next =>
            obtain ⟨rfl, hlt⟩ := tryIntoU64_eq_ok hnext
            simp only [hi, hstart, hnext, ByteRange.isEmpty] at h
            exact ⟨hi.trans (tryIndex_eq_ok hindex), hstart, hlt, by simpa using h⟩
        · simp [hi, hstart, throw, throwThe, MonadExceptOf.throw] at h
      · simp [hi, throw, throwThe, MonadExceptOf.throw] at h
  · rintro ⟨rfl, rfl, hlt, hrest⟩
    simp only [validateFrom, tryIndex_ok seg.index.lt, checkedSucc, tryIntoU64_ok hlt, ok_bind,
      ByteRange.isEmpty]
    simpa using hrest

theorem validateFrom_iff {i cursor stop : ℕ} {segs : List SegmentPlan} (hstop : stop < 2 ^ 64) :
    validateFrom i cursor segs = .ok stop ↔
      Tiles stop cursor (segs.map (·.range.extent)) ∧
        segs.map (·.index.value) = List.range' i segs.length := by
  induction segs generalizing i cursor with
  | nil => simp [validateFrom, Tiles]
  | cons seg rest ih =>
    rw [validateFrom_cons, ih]
    simp only [List.map_cons, tiles_cons, List.length_cons, List.range'_succ, List.cons.injEq]
    constructor
    · rintro ⟨hindex, hstart, _, htiles, hindices⟩
      exact ⟨⟨hstart, Nat.lt_succ_of_le seg.range.le, htiles⟩, hindex, hindices⟩
    · rintro ⟨⟨hstart, _, htiles⟩, hindex, hindices⟩
      have hle : seg.range.endInclusive + 1 ≤ stop := htiles.le
      exact ⟨hindex, hstart, by omega, htiles, hindices⟩

theorem validate_iff (plan : FetchPlan) :
    plan.validate = .ok () ↔ Tiles plan.fileSize.value 0 plan.extents ∧
      plan.segments.map (·.index.value) = List.range plan.segments.length := by
  rw [List.range_eq_range', FetchPlan.extents, ← validateFrom_iff plan.fileSize.lt,
    FetchPlan.validate]
  cases hvalidate : validateFrom 0 0 plan.segments with
  | error error => simp [bind, Except.bind]
  | ok cursor =>
    by_cases hcursor : cursor = plan.fileSize.value
    · simp [bind, Except.bind, hcursor, pure, Except.pure]
    · simp [bind, Except.bind, hcursor, throw, throwThe, MonadExceptOf.throw]

theorem validate_sum_len {plan : FetchPlan} (h : plan.validate = .ok ()) :
    (plan.segments.map (·.range.len)).sum = plan.fileSize.value := by
  have hsum := ((validate_iff plan).mp h).1.sum_lengths
  rw [Nat.zero_add, FetchPlan.extents, List.map_map] at hsum
  rw [← hsum]
  refine congrArg List.sum (List.map_congr_left fun seg _ => ?_)
  have hlen := seg.range.len_eq
  simp only [Function.comp_apply, ByteRange.extent]
  omega

theorem validate_indices_nodup {plan : FetchPlan} (h : plan.validate = .ok ()) :
    (plan.segments.map (·.index)).Nodup := by
  obtain ⟨_, hindices⟩ := (validate_iff plan).mp h
  refine List.Nodup.of_map SegmentIndex.value ?_
  rw [List.map_map]
  exact hindices ▸ List.nodup_range

theorem numberFrom_ok {i : ℕ} {assignments : List Assignment} {segs : List SegmentPlan}
    (h : numberFrom i assignments = .ok segs) :
    segs.map (fun seg => (seg.range, seg.exit)) = assignments := by
  induction assignments generalizing i segs with
  | nil =>
    obtain rfl : [] = segs := by simpa [numberFrom] using h
    rfl
  | cons first rest ih =>
    simp only [numberFrom, bind_eq_ok] at h
    obtain ⟨index, _, later, hrest, heq⟩ := h
    obtain rfl := Except.ok.inj heq
    rw [List.map_cons, ih hrest]

theorem build_ok {url : TargetUrl} {fileSize : FileSize} {exits : List ExitSpec}
    {segmentsPerExit : SegmentsPerExit} {minSegment : MinSegmentBytes} {plan : FetchPlan}
    (h : FetchPlan.build url fileSize exits segmentsPerExit minSegment = .ok plan) :
    plan.url = url ∧ plan.fileSize = fileSize ∧ plan.validate = .ok () ∧
    ∃ assignments, assign ExitSpec.id fileSize
        (splitCount fileSize minSegment segmentsPerExit (keptExits fileSize minSegment exits))
        (keptExits fileSize minSegment exits) = .ok assignments ∧
      plan.segments.map (fun seg => (seg.range, seg.exit)) =
        mergeTinySegments assignments minSegment := by
  unfold FetchPlan.build at h
  cases hempty : exits.isEmpty with
  | true => simp [hempty, throw, throwThe, MonadExceptOf.throw, bind, Except.bind] at h
  | false =>
    simp only [hempty, Bool.false_eq_true, if_false, bind_eq_ok] at h
    obtain ⟨assignments, hassign, segments, hnumber, _, hvalidate, heq⟩ := h
    obtain rfl := Except.ok.inj heq
    exact ⟨rfl, rfl, hvalidate, assignments, hassign, numberFrom_ok hnumber⟩

structure Owned (exits : List ExitSpec) (assignments : List Assignment) : Prop where
  sorted : (assignments.map (·.2)).Pairwise (· ≤ ·)
  mem : ∀ id ∈ assignments.map (·.2), id ∈ exits.map (·.id)

theorem Owned.sublist {exits : List ExitSpec} {assignments merged : List Assignment}
    (h : Owned exits assignments) (hsub : (merged.map (·.2)).Sublist (assignments.map (·.2))) :
    Owned exits merged :=
  ⟨h.sorted.sublist hsub, fun id hid => h.mem id (hsub.subset hid)⟩

theorem splitLoop_owned {size totalUnits spe cursor start : ℕ} {exits : List ExitSpec}
    {assignments : List Assignment} {start' : ℕ} (hsorted : (exits.map (·.id)).Pairwise (· ≤ ·))
    (h : splitLoop ExitSpec.id size totalUnits spe exits cursor start = .ok (assignments, start')) :
    Owned exits assignments := by
  induction exits generalizing cursor start assignments with
  | nil =>
    obtain ⟨rfl, _⟩ : [] = assignments ∧ start = start' := by simpa [splitLoop] using h
    exact ⟨.nil, by simp⟩
  | cons exit rest ih =>
    obtain ⟨hfirst, hrest⟩ := List.pairwise_cons.mp hsorted
    have hmem {later : List Assignment} (howned : Owned rest later) :
        ∀ id ∈ later.map (·.2), id ∈ (exit :: rest).map (·.id) :=
      fun id hid => List.mem_cons_of_mem _ (howned.mem id hid)
    simp only [splitLoop, bind_eq_ok] at h
    obtain ⟨exitEnd, _, h⟩ := h
    split_ifs at h
    · obtain ⟨⟨later, final⟩, hlater, heq⟩ := bind_eq_ok.mp h
      obtain ⟨rfl, rfl⟩ := Prod.ext_iff.mp (Except.ok.inj heq)
      have howned := ih hrest hlater
      have hown : ∀ id ∈ ((evenSubsplit start (exitEnd - 1) spe).map (·, exit.id)).map (·.2),
          id = exit.id := by simp
      refine ⟨?_, fun id hid => ?_⟩
      · rw [List.map_append, List.pairwise_append]
        refine ⟨?_, howned.sorted, fun a ha b hb => ?_⟩
        · exact List.pairwise_of_forall_mem_list fun a ha b hb => by rw [hown a ha, hown b hb]
        · rw [hown a ha]
          exact hfirst b (howned.mem b hb)
      · rw [List.map_append, List.mem_append] at hid
        rcases hid with hid | hid
        · simp [hown id hid]
        · exact hmem howned id hid
    · have howned := ih hrest h
      exact ⟨howned.sorted, hmem howned⟩

theorem extendLast_owned {fileSize : FileSize} {exits : List ExitSpec}
    {assignments extended : List Assignment} (howned : Owned exits assignments)
    (h : extendLast ExitSpec.id fileSize exits assignments = .ok extended) : Owned exits extended := by
  unfold extendLast at h
  split at h
  · rename_i last hlast
    obtain ⟨range, _, heq⟩ := bind_eq_ok.mp h
    obtain rfl := Except.ok.inj heq
    obtain ⟨pre, rfl⟩ := List.getLast?_eq_some_iff.mp hlast
    refine howned.sublist ?_
    simp
  · split at h
    · obtain rfl := Except.ok.inj h
      exact howned
    · obtain ⟨range, _, heq⟩ := bind_eq_ok.mp h
      obtain rfl := Except.ok.inj heq
      exact ⟨by simp, by simp⟩

theorem assign_owned {fileSize : FileSize} {spe : SegmentsPerExit} {exits : List ExitSpec}
    {assignments : List Assignment} (hsorted : (exits.map (·.id)).Pairwise (· ≤ ·))
    (h : assign ExitSpec.id fileSize spe exits = .ok assignments) : Owned exits assignments := by
  have split_owned (h : weightedSplit ExitSpec.id fileSize spe exits = .ok assignments) :
      Owned exits assignments := by
    obtain ⟨⟨pushed, start⟩, hpushed, h⟩ := bind_eq_ok.mp h
    have howned := splitLoop_owned hsorted hpushed
    simp only at h
    split_ifs at h
    · exact extendLast_owned howned h
    · obtain rfl := Except.ok.inj h
      exact howned
  unfold assign at h
  split at h
  · split_ifs at h
    · obtain ⟨range, _, heq⟩ := bind_eq_ok.mp h
      obtain rfl := Except.ok.inj heq
      exact ⟨by simp, by simp⟩
    · exact split_owned h
  · exact split_owned h

theorem dropWeakest_sublist (fileSize : FileSize) (minSegment : MinSegmentBytes) (turns : ℕ)
    (exits : List ExitSpec) : (dropWeakest fileSize minSegment turns exits).Sublist exits := by
  induction turns generalizing exits with
  | zero => exact List.Sublist.refl _
  | succ turns ih =>
    rw [dropWeakest]
    split_ifs
    · exact (ih _).trans (List.eraseIdx_sublist _ _)
    · exact List.Sublist.refl _

theorem mem_keptExits {fileSize : FileSize} {minSegment : MinSegmentBytes} {exits : List ExitSpec}
    {exit : ExitSpec} (h : exit ∈ keptExits fileSize minSegment exits) : exit ∈ exits :=
  (dropWeakest_sublist fileSize minSegment exits.length exits).subset
    ((List.mem_insertionSort _).mp h)

theorem keptExits_sorted (fileSize : FileSize) (minSegment : MinSegmentBytes)
    (exits : List ExitSpec) :
    ((keptExits fileSize minSegment exits).map (·.id)).Pairwise (· ≤ ·) := by
  have : Std.Total fun a b : ExitSpec => a.id ≤ b.id := ⟨fun a b => le_total a.id b.id⟩
  have : IsTrans ExitSpec fun a b => a.id ≤ b.id := ⟨fun _ _ _ => le_trans⟩
  exact List.pairwise_map.mpr (List.pairwise_insertionSort _ _)

structure WellFormed (plan : FetchPlan) (minSegment : MinSegmentBytes) (exits : List ExitSpec) :
    Prop where
  nonempty : 0 < plan.segments.length
  indices : plan.segments.map (·.index.value) = List.range plan.segments.length
  covered : ∀ byte < plan.fileSize.value, ∃! i : ℕ, ∃ seg, plan.segments[i]? = some seg ∧
    seg.range.start ≤ byte ∧ byte ≤ seg.range.endInclusive
  inside : ∀ seg ∈ plan.segments, seg.range.endInclusive < plan.fileSize.value
  large : plan.segments.length ≠ 1 → ∀ seg ∈ plan.segments, minSegment.value ≤ seg.range.len
  owned : ∀ seg ∈ plan.segments, ∃ exit ∈ exits, exit.id = seg.exit
  ordered : (plan.segments.map (·.exit)).Pairwise (· ≤ ·)

theorem validate_covered {plan : FetchPlan} (h : plan.validate = .ok ()) :
    ∀ byte < plan.fileSize.value, ∃! i : ℕ, ∃ seg, plan.segments[i]? = some seg ∧
      seg.range.start ≤ byte ∧ byte ≤ seg.range.endInclusive := by
  intro byte hbyte
  obtain ⟨i, ⟨part, hget, hle, hlt⟩, hunique⟩ :=
    ((validate_iff plan).mp h).1.existsUnique (Nat.zero_le byte) hbyte
  simp only [FetchPlan.extents, List.getElem?_map, Option.map_eq_some_iff] at hget hunique
  obtain ⟨seg, hseg, rfl⟩ := hget
  refine ⟨i, ⟨seg, hseg, hle, Nat.le_of_lt_succ hlt⟩, ?_⟩
  rintro j ⟨other, hother, hstart, hend⟩
  exact hunique j ⟨_, ⟨other, hother, rfl⟩, hstart, Nat.lt_succ_of_le hend⟩

theorem build_wellFormed {url : TargetUrl} {fileSize : FileSize} {exits : List ExitSpec}
    {segmentsPerExit : SegmentsPerExit} {minSegment : MinSegmentBytes} {plan : FetchPlan}
    (h : FetchPlan.build url fileSize exits segmentsPerExit minSegment = .ok plan) :
    plan.url = url ∧ plan.fileSize = fileSize ∧ WellFormed plan minSegment exits := by
  obtain ⟨hurl, hsize, hvalidate, assignments, hassign, hsegments⟩ := build_ok h
  obtain ⟨htiles, hindices⟩ := (validate_iff plan).mp hvalidate
  obtain ⟨hsub, hsettled⟩ := @mergeLoop_spec minSegment _ assignments le_rfl
  have hmerged : mergeLoop minSegment assignments.length assignments = _ := hsegments.symm
  have howned := (assign_owned (keptExits_sorted fileSize minSegment exits) hassign).sublist hsub
  rw [hmerged] at hsettled howned
  refine ⟨hurl, hsize, ⟨?_, hindices, validate_covered hvalidate, ?_, ?_, ?_, ?_⟩⟩
  · refine List.length_pos_iff.mpr fun hnil => ?_
    have hzero : 0 = plan.fileSize.value := by simpa [FetchPlan.extents, hnil, Tiles] using htiles
    exact plan.fileSize.pos.ne hzero
  · intro seg hseg
    have hbounds := htiles.bounds (List.mem_map_of_mem (f := fun seg => seg.range.extent) hseg)
    exact hbounds.2.2
  · intro hlength seg hseg
    rcases hsettled with hlarge | hone | hdisorder
    · exact not_lt.mp (hlarge _ (List.mem_map_of_mem hseg))
    · exact absurd (by simpa using hone) hlength
    · refine absurd (@inOrder_of_tiles plan.fileSize.value 0 _ ?_) hdisorder
      simpa only [extents, FetchPlan.extents, List.map_map, Function.comp_def] using htiles
  · intro seg hseg
    have hmem := howned.mem seg.exit (List.mem_map.mpr ⟨_, List.mem_map_of_mem hseg, rfl⟩)
    obtain ⟨exit, hexit, heq⟩ := List.mem_map.mp hmem
    exact ⟨exit, mem_keptExits hexit, heq⟩
  · simpa only [List.map_map, Function.comp_def] using howned.sorted

def sampleUrl : TargetUrl := ⟨"http://files.example/image"⟩

def sampleExits : List ExitSpec := [⟨2, 3, .direct⟩, ⟨1, 1, .direct⟩]

def firstThree : ByteRange := ⟨0, 2, by decide⟩

def samplePlan : FetchPlan := ⟨sampleUrl, 12, [⟨0, firstThree, 1⟩, ⟨1, ⟨3, 11, by decide⟩, 2⟩]⟩

theorem build_sample : FetchPlan.build sampleUrl 12 sampleExits 1 2 = .ok samplePlan := rfl

theorem build_wellFormed_sample : WellFormed samplePlan ⟨2, by decide, by decide⟩ sampleExits :=
  (build_wellFormed build_sample).2.2

end SpiderNet.Fetch
