import SpiderNet.Fetch.PlanGaps

namespace SpiderNet.Fetch
open Tiling

theorem numberFrom_complete {i : ℕ} {assignments : List Assignment}
    (h : i + assignments.length ≤ 2 ^ 32) : ∃ segs, numberFrom i assignments = .ok segs ∧
      segs.map (·.index.value) = List.range' i segs.length := by
  induction assignments generalizing i with
  | nil => exact ⟨[], rfl, rfl⟩
  | cons first rest ih =>
    rw [List.length_cons] at h
    obtain ⟨segs, hsegs, hindices⟩ := @ih (i + 1) (by omega)
    have hi : i < 2 ^ 32 := by omega
    refine ⟨⟨⟨i, hi⟩, first.1, first.2⟩ :: segs, ?_, ?_⟩
    · rw [numberFrom, tryIndex_ok hi, ok_bind, hsegs]
      rfl
    · rw [List.map_cons, hindices, List.length_cons, List.range'_succ]

theorem extents_segments {segments : List SegmentPlan} {assignments : List Assignment}
    (h : segments.map (fun seg => (seg.range, seg.exit)) = assignments) :
    segments.map (·.range.extent) = extents assignments := by
  rw [← h, extents, List.map_map]
  rfl

section
variable {url : TargetUrl} {fileSize : FileSize} {exits : List ExitSpec}
  {segmentsPerExit : SegmentsPerExit} {minSegment : MinSegmentBytes}

theorem build_iff_tiles (hne : exits ≠ []) {assignments : List Assignment}
    (hassign : assign ExitSpec.id fileSize
      (splitCount fileSize minSegment segmentsPerExit (keptExits fileSize minSegment exits))
      (keptExits fileSize minSegment exits) = .ok assignments)
    (hlength : assignments.length ≤ 2 ^ 32) :
    (∃ plan, FetchPlan.build url fileSize exits segmentsPerExit minSegment = .ok plan) ↔
      Tiles fileSize.value 0 (extents (mergeTinySegments assignments minSegment)) := by
  constructor
  · rintro ⟨plan, h⟩
    obtain ⟨_, hsize, hvalidate, assignments', hassign', hsegments⟩ := build_ok h
    obtain rfl := Except.ok.inj (hassign.symm.trans hassign')
    rw [← extents_segments hsegments, ← hsize]
    exact ((validate_iff plan).mp hvalidate).1
  · intro htiles
    have hmerged := (@mergeLoop_spec minSegment _ assignments le_rfl).1.length_le
    rw [List.length_map, List.length_map] at hmerged
    obtain ⟨segs, hsegs, hindices⟩ := @numberFrom_complete 0 (mergeTinySegments assignments minSegment)
      (by rw [Nat.zero_add]; exact hmerged.trans hlength)
    have hvalidate : (⟨url, fileSize, segs⟩ : FetchPlan).validate = .ok () := by
      refine (validate_iff _).mpr ⟨?_, ?_⟩
      · rw [FetchPlan.extents, extents_segments (numberFrom_ok hsegs)]
        exact htiles
      · rw [List.range_eq_range']
        exact hindices
    refine ⟨⟨url, fileSize, segs⟩, ?_⟩
    have hnonempty : exits.isEmpty = false := by simpa using hne
    simp only [FetchPlan.build, hnonempty, Bool.false_eq_true, if_false]
    rw [hassign, ok_bind, hsegs, ok_bind, hvalidate]
    rfl

theorem sum_unitsOf (exits : List ExitSpec) (spe : ℕ) :
    (exits.map (unitsOf spe)).sum = totalWeight exits * spe := by
  induction exits with
  | nil => rw [totalWeight, List.map_nil, List.map_nil, List.sum_nil, Nat.zero_mul]
  | cons exit rest ih =>
    rw [totalWeight, List.map_cons, List.map_cons, List.sum_cons, List.sum_cons, ih, Nat.add_mul]
    rfl

theorem totalWeight_pos (hne : exits ≠ []) : 0 < totalWeight exits := by
  obtain ⟨exit, rest, rfl⟩ := List.exists_cons_of_ne_nil hne
  exact Nat.add_pos_left exit.weight.pos _

theorem reaches_zero (size : ℕ) (exits : List ExitSpec) :
    Reaches size (totalWeight exits) 0 exits := by
  simp [Reaches]

theorem sum_shares (hne : exits ≠ []) : (shares fileSize exits).sum = fileSize.value := by
  have hsum := sum_sharesFrom (totalWeight_pos hne) hne (reaches_zero fileSize.value exits)
  rwa [Nat.zero_add] at hsum

theorem weightedSplit_ok {spe : SegmentsPerExit} {assignments : List Assignment}
    (h : splitLoop ExitSpec.id fileSize.value (totalWeight exits * spe.value) spe.value exits 0 0 =
      .ok (assignments, fileSize.value)) : weightedSplit ExitSpec.id fileSize spe exits = .ok assignments := by
  rw [weightedSplit, sum_unitsOf, h, ok_bind]
  exact if_neg (lt_irrefl _)

theorem assign_split {spe : SegmentsPerExit} (h : ¬(exits.length = 1 ∧ spe.value = 1)) :
    assign ExitSpec.id fileSize spe exits = weightedSplit ExitSpec.id fileSize spe exits := by
  unfold assign
  split
  · exact if_neg fun hone => h ⟨rfl, hone⟩
  · rfl

theorem assign_single {spe : SegmentsPerExit} (h : spe.value = 1) (exit : ExitSpec) :
    assign ExitSpec.id fileSize spe [exit] =
      .ok [(⟨0, fileSize.value - 1, Nat.zero_le _⟩, exit.id)] := by
  rw [assign, if_pos h, ByteRange.tryNew_ok (Nat.zero_le _)]
  rfl

theorem seamless_one {shares : List ℕ} (hsum : 0 < shares.sum) (minSegment : ℕ) :
    Seamless minSegment 1 shares := by
  have htotal := total_cut Nat.one_pos 0 shares
  have htrailing := (cut_one 0 shares).elim id id
  have hgapless := cut_one_gapless shares
  unfold Seamless
  generalize cut 1 0 shares = pieces at htotal htrailing hgapless ⊢
  obtain ⟨pieces, trailing⟩ := pieces
  cases pieces with
  | nil =>
    simp only [total_nil] at htotal htrailing
    omega
  | cons first rest =>
    exact ⟨htrailing, hgapless first (by simp),
      bridged_of_gapless fun piece hp => hgapless piece (List.mem_cons_of_mem _ hp)⟩

theorem not_tiles_phantoms {size : ℕ} {phantoms rest : List Assignment} {first : Assignment}
    (hne : phantoms ≠ []) (hphantoms : ∀ assignment ∈ phantoms, Phantom assignment)
    (hfirst : first.1.start = 0) : ¬Tiles size 0 (extents (phantoms ++ first :: rest)) := by
  intro htiles
  rw [extents_append, tiles_append] at htiles
  obtain ⟨mid, hbefore, hafter, _⟩ := htiles
  obtain ⟨phantom, others, rfl⟩ := List.exists_cons_of_ne_nil hne
  have hstart : mid = 0 := hafter.symm.trans hfirst
  have hbounds := hbefore.bounds (List.mem_cons_self (a := phantom.1.extent) (l := extents others))
  omega

theorem merge_without_tiny {assignments : List Assignment} (hmin : minSegment.value = 1) :
    mergeTinySegments assignments minSegment = assignments := by
  refine mergeLoop_settled _ fun assignment _ => ?_
  have hlen := assignment.1.len_pos
  rw [Tiny, hmin]
  omega

end

theorem dropWeakest_ne_nil {fileSize : FileSize} {minSegment : MinSegmentBytes} (turns : ℕ)
    {exits : List ExitSpec} (h : exits ≠ []) : dropWeakest fileSize minSegment turns exits ≠ [] := by
  induction turns generalizing exits with
  | zero => exact h
  | succ turns ih =>
    rw [dropWeakest]
    split_ifs with hdrop
    · refine ih (List.length_pos_iff.mp ?_)
      have hlength := List.le_length_eraseIdx exits (weakest exits)
      omega
    · exact h

theorem keptExits_ne_nil {fileSize : FileSize} {minSegment : MinSegmentBytes}
    {exits : List ExitSpec} (h : exits ≠ []) : keptExits fileSize minSegment exits ≠ [] := by
  rw [← List.length_pos_iff, keptExits, sortById, List.length_insertionSort, List.length_pos_iff]
  exact dropWeakest_ne_nil _ h

theorem length_keptExits_le (fileSize : FileSize) (minSegment : MinSegmentBytes)
    (exits : List ExitSpec) : (keptExits fileSize minSegment exits).length ≤ exits.length := by
  rw [keptExits, sortById, List.length_insertionSort]
  exact (dropWeakest_sublist _ _ _ _).length_le

-- what has to hold of the shares of the kept exits when each is cut into `spe` sub-segments
def SharesJoin (fileSize : FileSize) (kept : List ExitSpec) (spe : SegmentsPerExit)
    (minSegment : MinSegmentBytes) : Prop :=
  if spe.value = 1 then 1 < minSegment.value ∨ (shares fileSize kept).head? ≠ some 0
  else Seamless minSegment.value spe.value (shares fileSize kept)

structure Assigns (fileSize : FileSize) (kept : List ExitSpec) (spe : SegmentsPerExit)
    (minSegment : MinSegmentBytes) (assignments : List Assignment) : Prop where
  assigned : assign ExitSpec.id fileSize spe kept = .ok assignments
  length_le : assignments.length ≤ kept.length * spe.value
  tiles_iff : Tiles fileSize.value 0 (extents (mergeTinySegments assignments minSegment)) ↔
    SharesJoin fileSize kept spe minSegment

section
variable {fileSize : FileSize} {kept : List ExitSpec} {spe : SegmentsPerExit}
  (minSegment : MinSegmentBytes)

theorem assigns_single (hspe : spe.value = 1) (exit : ExitSpec) :
    Assigns fileSize [exit] spe minSegment [(⟨0, fileSize.value - 1, Nat.zero_le _⟩, exit.id)] := by
  have hpos := fileSize.pos
  refine ⟨assign_single hspe exit, ?_, ?_⟩
  · rw [hspe, List.length_singleton, List.length_singleton]
  · rw [mergeTinySegments, mergeLoop_single, SharesJoin, if_pos hspe]
    refine iff_of_true ⟨rfl, by simp [ByteRange.extent], ?_⟩ (Or.inr ?_)
    · exact Nat.sub_add_cancel hpos
    · simpa [shares, sharesFrom] using hpos.ne'

theorem assigns_one (hspe : spe.value = 1) (hkept : 1 < kept.length) :
    ∃ assignments, Assigns fileSize kept spe minSegment assignments := by
  have hne : kept ≠ [] := List.length_pos_iff.mp (by omega)
  have htotal := totalWeight_pos hne
  obtain ⟨phantoms, rest, hloop, hphantoms, hhead, hextents, hlength⟩ :=
    splitLoop_phantoms fileSize.lt fileSize.pos htotal hne (reaches_zero fileSize.value kept)
  have hsum := @sum_shares fileSize kept hne
  have hjoin : Seamless minSegment.value 1 (shares fileSize kept) :=
    seamless_one (hsum ▸ fileSize.pos) _
  have hseamless := (@seamless_iff minSegment _ _ _ rest Nat.one_pos fileSize.pos hsum hextents).mpr
    hjoin
  refine ⟨phantoms ++ rest, ?_, ?_, ?_⟩
  · rw [assign_split fun hsingle => hkept.ne' hsingle.1]
    refine weightedSplit_ok ?_
    rw [hspe]
    exact hloop
  · rwa [hspe, Nat.mul_one]
  · rw [SharesJoin, if_pos hspe, shares, ← hhead]
    rcases eq_or_ne phantoms [] with rfl | hsome
    · exact iff_of_true hseamless (Or.inr rfl)
    · obtain ⟨first, later, rfl, hfirst⟩ : ∃ first later, rest = first :: later ∧
          first.1.start = 0 := by
        cases rest with
        | nil =>
          have hzero : 0 = fileSize.value := hseamless
          exact absurd hzero fileSize.pos.ne
        | cons first later =>
          refine ⟨first, later, rfl, ?_⟩
          have hgapless := cut_one_gapless (shares fileSize kept)
          rw [← shares] at hextents
          cases hcut : (cut 1 0 (shares fileSize kept)).1 with
          | nil =>
            rw [hcut] at hextents
            cases hextents
          | cons piece pieces =>
            rw [hcut] at hextents hgapless
            obtain ⟨hspan, _⟩ := List.cons.inj hextents
            rw [(span_bounds hspan).1, hgapless piece (by simp)]
      rcases Nat.lt_or_ge 1 minSegment.value with hmin | hmin
      · refine iff_of_true ?_ (Or.inl hmin)
        have hlengths : (phantoms ++ first :: later).length =
            phantoms.length + (first :: later).length := List.length_append
        rw [mergeTinySegments, hlengths, mergeLoop_phantoms hmin hphantoms hfirst]
        exact hseamless
      · have hone : minSegment.value = 1 := le_antisymm hmin minSegment.pos
        rw [merge_without_tiny hone, hone]
        exact iff_of_false (not_tiles_phantoms hsome hphantoms hfirst) (by simpa using hsome)

theorem assigns_many (hspe : 1 < spe.value) (hspe' : spe.value ≤ 2 ^ 32) (hne : kept ≠ []) :
    ∃ assignments, Assigns fileSize kept spe minSegment assignments := by
  obtain ⟨assignments, hloop, hextents, hlength⟩ := splitLoop_whole fileSize.lt
    (totalWeight_pos hne) spe.pos hspe' hne (reaches_zero fileSize.value kept) (Or.inl hspe)
  refine ⟨assignments, ?_, hlength, ?_⟩
  · rw [assign_split fun hsingle => hspe.ne' hsingle.2]
    exact weightedSplit_ok hloop
  · rw [SharesJoin, if_neg hspe.ne']
    exact seamless_iff spe.pos fileSize.pos (sum_shares hne) hextents

theorem exists_assigns (hspe : spe.value ≤ 2 ^ 32) (hne : kept ≠ []) :
    ∃ assignments, Assigns fileSize kept spe minSegment assignments := by
  rcases Nat.lt_or_ge 1 spe.value with hmany | hone
  · exact assigns_many minSegment hmany hspe hne
  · have heq : spe.value = 1 := le_antisymm hone spe.pos
    rcases Nat.lt_or_ge 1 kept.length with hkept | hkept
    · exact assigns_one minSegment heq hkept
    · have hlength : kept.length = 1 := le_antisymm hkept (List.length_pos_iff.mpr hne)
      obtain ⟨exit, rfl⟩ := List.length_eq_one_iff.mp hlength
      exact ⟨_, assigns_single minSegment heq exit⟩

end

theorem splitCount_le (fileSize : FileSize) (minSegment : MinSegmentBytes)
    (segmentsPerExit : SegmentsPerExit) (exits : List ExitSpec) :
    (splitCount fileSize minSegment segmentsPerExit exits).value ≤ segmentsPerExit.value := by
  unfold splitCount
  split_ifs
  · exact le_rfl
  · exact segmentsPerExit.pos

def Plannable (fileSize : FileSize) (exits : List ExitSpec) (segmentsPerExit : SegmentsPerExit)
    (minSegment : MinSegmentBytes) : Prop :=
  let kept := keptExits fileSize minSegment exits
  SharesJoin fileSize kept (splitCount fileSize minSegment segmentsPerExit kept) minSegment

theorem build_isOk_iff (url : TargetUrl) (fileSize : FileSize) {exits : List ExitSpec}
    {segmentsPerExit : SegmentsPerExit} (minSegment : MinSegmentBytes) (hne : exits ≠ [])
    (hlimit : exits.length * segmentsPerExit.value ≤ 2 ^ 32) :
    (∃ plan, FetchPlan.build url fileSize exits segmentsPerExit minSegment = .ok plan) ↔
      Plannable fileSize exits segmentsPerExit minSegment := by
  have hkept := @keptExits_ne_nil fileSize minSegment exits hne
  have hspe := splitCount_le fileSize minSegment segmentsPerExit (keptExits fileSize minSegment exits)
  have hone : segmentsPerExit.value ≤ exits.length * segmentsPerExit.value :=
    Nat.le_mul_of_pos_left _ (List.length_pos_iff.mpr hne)
  have hcount := Nat.mul_le_mul (length_keptExits_le fileSize minSegment exits) hspe
  obtain ⟨assignments, hassigns⟩ := @exists_assigns fileSize _ _ minSegment
    (hspe.trans (hone.trans hlimit)) hkept
  rw [build_iff_tiles hne hassigns.assigned (hassigns.length_le.trans (hcount.trans hlimit)),
    hassigns.tiles_iff]
  rfl

theorem plannable_sample : Plannable 12 sampleExits 1 2 := by
  rw [Plannable, SharesJoin]
  split_ifs with hone
  · exact Or.inl (by decide)
  · exact absurd rfl hone

theorem build_isOk_iff_sample :
    ∃ plan, FetchPlan.build sampleUrl ⟨12, by decide, by decide⟩ sampleExits
      ⟨1, by decide, by decide⟩ ⟨2, by decide, by decide⟩ = .ok plan :=
  (build_isOk_iff sampleUrl 12 2 (List.cons_ne_nil _ _) (by decide)).mpr plannable_sample

-- 16 MiB over a strong and a very weak exit, two sub-segments each, 1 MiB minimum
theorem build_thin_exit : ¬∀ (url : TargetUrl) (fileSize : FileSize) (exits : List ExitSpec)
    (segmentsPerExit : SegmentsPerExit) (minSegment : MinSegmentBytes), exits ≠ [] →
    exits.length * segmentsPerExit.value ≤ 2 ^ 32 →
    ∃ plan, FetchPlan.build url fileSize exits segmentsPerExit minSegment = .ok plan := by
  intro h
  obtain ⟨plan, hplan⟩ := h sampleUrl 16777216 [⟨1, 1, .direct⟩, ⟨2, 10000000, .direct⟩] 2 1048576
    (List.cons_ne_nil _ _) (by decide)
  cases hplan

end SpiderNet.Fetch
