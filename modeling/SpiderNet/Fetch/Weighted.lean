import SpiderNet.Fetch.Strongest
import SpiderNet.Library.ListFacts

namespace SpiderNet.Fetch
open Tiling

def fairShare (size total : ℕ) (exit : ExitSpec) : ℕ := size * exit.weight.value / total

theorem sum_fairShare (size total : ℕ) (exits : List ExitSpec) :
    total * (exits.map (fairShare size total)).sum +
      (exits.map fun exit => size * exit.weight.value % total).sum = size * totalWeight exits := by
  induction exits with
  | nil => simp [totalWeight]
  | cons exit rest ih =>
    have hdivision := Nat.div_add_mod (size * exit.weight.value) total
    have hweights : totalWeight (exit :: rest) = exit.weight.value + totalWeight rest := rfl
    rw [List.map_cons, List.map_cons, List.sum_cons, List.sum_cons, hweights, Nat.mul_add,
      Nat.mul_add, ← ih, fairShare]
    omega

theorem sum_remainders_lt {size total : ℕ} (htotal : 0 < total) {exits : List ExitSpec}
    (hne : exits ≠ []) :
    (exits.map fun exit => size * exit.weight.value % total).sum < total * exits.length := by
  induction exits with
  | nil => exact absurd rfl hne
  | cons exit rest ih =>
    have hmod := Nat.mod_lt (size * exit.weight.value) htotal
    rw [List.map_cons, List.sum_cons, List.length_cons, Nat.mul_succ]
    rcases eq_or_ne rest [] with rfl | hrest
    · simpa using hmod
    · have hlater := ih hrest
      omega

theorem sum_fairShare_le {size : ℕ} {exits : List ExitSpec} (hne : exits ≠ []) :
    (exits.map (fairShare size (totalWeight exits))).sum ≤ size := by
  have hsum := sum_fairShare size (totalWeight exits) exits
  refine Nat.le_of_mul_le_mul_left (c := totalWeight exits) ?_ (totalWeight_pos hne)
  rw [Nat.mul_comm (totalWeight exits) size]
  omega

theorem lt_sum_fairShare {size : ℕ} {exits : List ExitSpec} (hne : exits ≠ []) :
    size < (exits.map (fairShare size (totalWeight exits))).sum + exits.length := by
  have hsum := sum_fairShare size (totalWeight exits) exits
  have hremainders := @sum_remainders_lt size _ (totalWeight_pos hne) exits hne
  refine Nat.lt_of_mul_lt_mul_left (a := totalWeight exits) ?_
  rw [Nat.mul_comm (totalWeight exits) size, Nat.mul_add]
  omega

theorem sharesFrom_concat (size total cursor : ℕ) (front : List ExitSpec) (last : ExitSpec) :
    sharesFrom size total cursor (front ++ [last]) = front.map (fairShare size total) ++
      [size - (cursor + (front.map (fairShare size total)).sum)] := by
  induction front generalizing cursor with
  | nil => rfl
  | cons exit rest ih =>
    have hshare : shareAt size total cursor exit (rest ++ [last]) = fairShare size total exit := by
      rw [shareAt, if_neg (by simp), fairShare]
    rw [List.cons_append, sharesFrom_cons, hshare, ih, List.map_cons, List.sum_cons,
      List.cons_append, Nat.add_assoc]

theorem cut_wide {spe : ℕ} (hspe : 0 < spe) {shares : List ℕ} (h : ∀ share ∈ shares, spe ≤ share) :
    cut spe 0 shares = ((shares.flatMap (evenLens · spe)).map (Piece.mk 0), 0) := by
  induction shares with
  | nil => rfl
  | cons share rest ih =>
    obtain ⟨len, lens, hlens⟩ := @exists_evenLens share spe hspe
    rw [cut_full (h share (by simp)) hlens, ih fun other ho => h other (List.mem_cons_of_mem _ ho),
      List.flatMap_cons, hlens, List.map_append]
    rfl

theorem lens_of_layout {ranges : List ByteRange} {start : ℕ} {lens : List ℕ}
    (h : ranges.map ByteRange.extent = layout start (lens.map (Piece.mk 0))) :
    ranges.map ByteRange.len = lens := by
  induction ranges generalizing start lens with
  | nil =>
    cases lens with
    | nil => rfl
    | cons len rest => cases h
  | cons first rest ih =>
    cases lens with
    | nil => cases h
    | cons len later =>
      obtain ⟨hfirst, hrest⟩ := List.cons.inj h
      rw [List.map_cons, len_of_span hfirst, ih hrest]

theorem length_evenLens (share parts : ℕ) : (evenLens share parts).length = parts := by
  rw [evenLens, List.length_map, List.length_range]

theorem evenLens_eq {share parts : ℕ} (hparts : 0 < parts) : evenLens share parts =
    List.replicate (share % parts) (share / parts + 1) ++
      List.replicate (parts - share % parts) (share / parts) := by
  have hmod := Nat.mod_lt share hparts
  refine List.ext_getElem ?_ fun i hi hi' => ?_
  · rw [length_evenLens, List.length_append, List.length_replicate, List.length_replicate]
    omega
  · simp only [evenLens, List.getElem_map, List.getElem_range, evenLen, List.getElem_append,
      List.length_replicate, List.getElem_replicate]
    split_ifs <;> rfl

theorem le_evenLens {bound parts : ℕ} (hparts : 0 < parts) {shares : List ℕ}
    (h : ∀ share ∈ shares, parts * bound ≤ share) :
    ∀ len ∈ shares.flatMap (evenLens · parts), bound ≤ len := by
  intro len hlen
  obtain ⟨share, hshare, hin⟩ := List.mem_flatMap.mp hlen
  obtain ⟨j, _, rfl⟩ := List.mem_map.mp hin
  have hbase : bound ≤ share / parts :=
    (Nat.le_div_iff_mul_le hparts).mpr (Nat.mul_comm _ _ ▸ h share hshare)
  exact Nat.le_add_right_of_le hbase

section
variable {size total spe : ℕ} (hsize : size < 2 ^ 64) (htotal : 0 < total) (hspe : 0 < spe)
  (hspe' : spe ≤ 2 ^ 32)
include hsize htotal hspe hspe'

theorem splitLoop_wide {cursor : ℕ} {exits : List ExitSpec} (h : Reaches size total cursor exits)
    (hwide : ∀ share ∈ sharesFrom size total cursor exits, spe ≤ share) :
    ∃ assignments stop, splitLoop ExitSpec.id size (total * spe) spe exits cursor cursor = .ok (assignments, stop) ∧
      assignments.map (·.2) = exits.flatMap fun exit => List.replicate spe exit.id := by
  induction exits generalizing cursor with
  | nil => exact ⟨[], cursor, rfl, rfl⟩
  | cons exit rest ih =>
    rw [sharesFrom_cons] at hwide
    rw [splitLoop_cons hsize htotal hspe hspe' h]
    have hstep := h.step htotal
    generalize shareAt size total cursor exit rest = share at hwide hstep ⊢
    have hshare := hwide share (by simp)
    obtain ⟨later, stop, hlater, howners⟩ := ih hstep fun other ho =>
      hwide other (List.mem_cons_of_mem _ ho)
    have hfull := congrArg List.length (@evenSubsplit_full cursor share spe hspe hshare)
    rw [if_pos (by omega), hlater]
    refine ⟨_, stop, rfl, ?_⟩
    have hparts : (evenSubsplit cursor (cursor + share - 1) spe).length = spe := by
      rw [List.length_map] at hfull
      rw [hfull, length_layout, List.length_map, length_evenLens]
    rw [List.map_append, List.map_map, howners, List.flatMap_cons]
    exact congrArg (· ++ _) (List.map_const' .. |>.trans (congrArg (List.replicate · _) hparts))

end

section
variable {fileSize : FileSize} {kept : List ExitSpec} {spe : SegmentsPerExit} (hne : kept ≠ [])
include hne

theorem shares_eq : shares fileSize kept =
    kept.dropLast.map (fairShare fileSize.value (totalWeight kept)) ++
      [fileSize.value - (kept.dropLast.map (fairShare fileSize.value (totalWeight kept))).sum] := by
  have hconcat := sharesFrom_concat fileSize.value (totalWeight kept) 0 kept.dropLast
    (kept.getLast hne)
  rwa [List.dropLast_append_getLast, Nat.zero_add] at hconcat

theorem last_share_bounds :
    (kept.dropLast.map (fairShare fileSize.value (totalWeight kept))).sum ≤ fileSize.value ∧
    fairShare fileSize.value (totalWeight kept) (kept.getLast hne) ≤ fileSize.value -
      (kept.dropLast.map (fairShare fileSize.value (totalWeight kept))).sum ∧
    fileSize.value - (kept.dropLast.map (fairShare fileSize.value (totalWeight kept))).sum <
      fairShare fileSize.value (totalWeight kept) (kept.getLast hne) + kept.length := by
  have hle := @sum_fairShare_le fileSize.value kept hne
  have hlt := @lt_sum_fairShare fileSize.value kept hne
  have hsplit : (kept.map (fairShare fileSize.value (totalWeight kept))).sum =
      (kept.dropLast.map (fairShare fileSize.value (totalWeight kept))).sum +
        fairShare fileSize.value (totalWeight kept) (kept.getLast hne) := by
    conv_lhs => rw [← List.dropLast_append_getLast hne]
    rw [List.map_append, List.sum_append, List.dropLast_append_getLast, List.map_singleton,
      List.sum_singleton]
  omega

theorem shares_wide {bound : ℕ}
    (h : ∀ exit ∈ kept, bound ≤ fairShare fileSize.value (totalWeight kept) exit) :
    ∀ share ∈ shares fileSize kept, bound ≤ share := by
  rw [shares_eq hne]
  intro share hshare
  rcases List.mem_append.mp hshare with hshare | hshare
  · obtain ⟨exit, hexit, rfl⟩ := List.mem_map.mp hshare
    exact h exit (List.dropLast_subset _ hexit)
  · rw [List.mem_singleton.mp hshare]
    exact (h _ (List.getLast_mem hne)).trans (last_share_bounds hne).2.1

theorem length_shares : (shares fileSize kept).length = kept.length := by
  have hpos := List.length_pos_iff.mpr hne
  rw [shares_eq hne, List.length_append, List.length_map, List.length_dropLast, List.length_singleton]
  omega

theorem assign_wide (hspe : spe.value ≤ 2 ^ 32)
    (hwide : ∀ share ∈ shares fileSize kept, spe.value ≤ share) :
    ∃ assignments, assign ExitSpec.id fileSize spe kept = .ok assignments ∧
      extents assignments =
        layout 0 (((shares fileSize kept).flatMap (evenLens · spe.value)).map (Piece.mk 0)) ∧
      assignments.map (·.2) = kept.flatMap fun exit => List.replicate spe.value exit.id := by
  by_cases hsingle : kept.length = 1 ∧ spe.value = 1
  · obtain ⟨hlength, hone⟩ := hsingle
    obtain ⟨exit, rfl⟩ := List.length_eq_one_iff.mp hlength
    refine ⟨_, assign_single hone exit, ?_, ?_⟩
    · have hpos := fileSize.pos
      simp only [shares_eq hne, hone]
      simp [extents, ByteRange.extent, evenLens, evenLen, layout, Piece.span, Nat.mod_one,
        Nat.sub_add_cancel hpos]
    · rw [hone]
      rfl
  · have hreach := reaches_zero fileSize.value kept
    have hhead : (sharesFrom fileSize.value (totalWeight kept) 0 kept).head? ≠ some 0 := by
      intro hzero
      have hle := hwide 0 (List.mem_of_head? hzero)
      have hpos := spe.pos
      omega
    obtain ⟨assignments, hloop, hextents, _⟩ := splitLoop_whole fileSize.lt (totalWeight_pos hne)
      spe.pos hspe hne hreach (Or.inr hhead)
    obtain ⟨assignments', stop, hloop', howners⟩ := splitLoop_wide fileSize.lt (totalWeight_pos hne)
      spe.pos hspe hreach hwide
    obtain ⟨rfl, _⟩ := Prod.ext_iff.mp (Except.ok.inj (hloop.symm.trans hloop'))
    refine ⟨assignments, ?_, ?_, howners⟩
    · rw [assign_split hsingle]
      exact weightedSplit_ok hloop
    · rw [hextents, ← shares, cut_wide spe.pos hwide]

theorem tiles_wide {bound : ℕ} (hbound : 0 < bound)
    (h : ∀ share ∈ shares fileSize kept, spe.value * bound ≤ share) :
    Tiles fileSize.value 0
      (layout 0 (((shares fileSize kept).flatMap (evenLens · spe.value)).map (Piece.mk 0))) := by
  have hwide : ∀ share ∈ shares fileSize kept, spe.value ≤ share := fun share hs =>
    (Nat.le_mul_of_pos_right _ hbound).trans (h share hs)
  have htotal := total_cut spe.pos 0 (shares fileSize kept)
  rw [cut_wide spe.pos hwide, Nat.add_zero, sum_shares hne, Nat.zero_add, total_mk_zero] at htotal
  refine tiles_lens (fun len hlen => hbound.trans_le (le_evenLens spe.pos h len hlen)) ?_
  exact (Nat.zero_add _).trans htotal

end

-- what the plan gives to the kept entry at position `i`
def ownSegments (plan : FetchPlan) (spe i : ℕ) : List SegmentPlan :=
  (plan.segments.drop (i * spe)).take spe

def ownBytes (plan : FetchPlan) (spe i : ℕ) : ℕ :=
  ((ownSegments plan spe i).map (·.range.len)).sum

structure FollowsWeights (plan : FetchPlan) (kept : List ExitSpec) (spe : ℕ) : Prop where
  count : plan.segments.length = kept.length * spe
  tiles : Tiles plan.fileSize.value 0 plan.extents
  owner : ∀ i (hi : i < kept.length),
    (ownSegments plan spe i).map (·.exit) = List.replicate spe kept[i].id
  even : ∀ i < kept.length, (ownSegments plan spe i).map (·.range.len) =
    List.replicate (ownBytes plan spe i % spe) (ownBytes plan spe i / spe + 1) ++
      List.replicate (spe - ownBytes plan spe i % spe) (ownBytes plan spe i / spe)
  floored : ∀ i (hi : i + 1 < kept.length), ownBytes plan spe i =
    plan.fileSize.value * kept[i].weight.value / (kept.map (·.weight.value)).sum
  last : ∀ i (hi : i < kept.length), i + 1 = kept.length →
    ownBytes plan spe i + (kept.dropLast.map fun exit => plan.fileSize.value * exit.weight.value /
      (kept.map (·.weight.value)).sum).sum = plan.fileSize.value ∧
    ownBytes plan spe i < plan.fileSize.value * kept[i].weight.value /
      (kept.map (·.weight.value)).sum + kept.length

section
variable {plan : FetchPlan} {kept : List ExitSpec} {spe : SegmentsPerExit}

theorem ownSegments_lens (hlens : plan.segments.map (·.range.len) =
      (shares plan.fileSize kept).flatMap (evenLens · spe.value))
    {i : ℕ} (hi : i < (shares plan.fileSize kept).length) :
    (ownSegments plan spe.value i).map (·.range.len) =
      evenLens (shares plan.fileSize kept)[i] spe.value := by
  have hblock := ListFacts.take_drop_flatMap (f := (evenLens · spe.value))
    (fun share _ => length_evenLens share spe.value) hi
  rw [ownSegments, List.map_take, List.map_drop, hlens]
  exact hblock

theorem followsWeights_of_lens (hne : kept ≠ []) (htiles : Tiles plan.fileSize.value 0 plan.extents)
    (hlens : plan.segments.map (·.range.len) =
      (shares plan.fileSize kept).flatMap (evenLens · spe.value))
    (howners : plan.segments.map (·.exit) =
      kept.flatMap fun exit => List.replicate spe.value exit.id) :
    FollowsWeights plan kept spe.value := by
  have hcount := @length_shares plan.fileSize kept hne
  have hown : ∀ i (hi : i < (shares plan.fileSize kept).length),
      ownBytes plan spe.value i = (shares plan.fileSize kept)[i] := by
    intro i hi
    rw [ownBytes, ownSegments_lens hlens hi, sum_evenLens spe.pos]
  refine ⟨?_, htiles, ?_, ?_, ?_, ?_⟩
  · have hlength := congrArg List.length howners
    rwa [List.length_map, ListFacts.length_flatMap_const fun _ _ => List.length_replicate] at hlength
  · intro i hi
    rw [ownSegments, List.map_take, List.map_drop, howners]
    exact ListFacts.take_drop_flatMap (f := fun exit : ExitSpec => List.replicate spe.value exit.id)
      (fun _ _ => List.length_replicate) hi
  · intro i hi
    have hi' : i < (shares plan.fileSize kept).length := hcount.symm ▸ hi
    rw [ownSegments_lens hlens hi', hown i hi']
    exact evenLens_eq spe.pos
  · intro i hi
    have hfront : i < kept.dropLast.length := by
      rw [List.length_dropLast]
      omega
    rw [hown i (by omega)]
    simp only [shares_eq hne]
    rw [List.getElem_append_left (by rwa [List.length_map]), List.getElem_map, List.getElem_dropLast]
    rfl
  · intro i hi hlast
    have hend : i = kept.dropLast.length := by
      rw [List.length_dropLast]
      omega
    obtain ⟨hle, _, hlt⟩ := @last_share_bounds plan.fileSize kept hne
    have hget : kept[i] = kept.getLast hne := by
      rw [List.getLast_eq_getElem]
      congr 1
      omega
    have hbytes : ownBytes plan spe.value i = plan.fileSize.value -
        (kept.dropLast.map (fairShare plan.fileSize.value (totalWeight kept))).sum := by
      rw [hown i (by omega)]
      simp only [shares_eq hne, hend]
      rw [List.getElem_append_right (by rw [List.length_map])]
      simp
    rw [hbytes, hget]
    exact ⟨Nat.sub_add_cancel hle, hlt⟩

end

theorem build_weighted (url : TargetUrl) (fileSize : FileSize) (exits : List ExitSpec)
    (segmentsPerExit : SegmentsPerExit) (minSegment : MinSegmentBytes) (hne : exits ≠ []) :
    let kept := keptExits fileSize minSegment exits
    let spe := if segmentsPerExit.value ≤ fileSize.value / (kept.length * minSegment.value) then
      segmentsPerExit.value else 1
    (∀ exit ∈ kept, spe * minSegment.value ≤
      fileSize.value * exit.weight.value / (kept.map (·.weight.value)).sum) →
    kept.length * spe ≤ 2 ^ 32 →
    ∃ plan, FetchPlan.build url fileSize exits segmentsPerExit minSegment = .ok plan ∧
      FollowsWeights plan kept spe := by
  intro kept spe hshare hlimit
  have hkept : kept ≠ [] := keptExits_ne_nil hne
  obtain ⟨count, hcount⟩ : ∃ count, count = splitCount fileSize minSegment segmentsPerExit kept :=
    ⟨_, rfl⟩
  have hspe : spe = count.value := by
    rw [hcount, splitCount]
    split_ifs with h
    · exact if_pos h
    · exact if_neg h
  rw [hspe] at hshare hlimit ⊢
  have hlarge := @shares_wide fileSize kept hkept (count.value * minSegment.value) hshare
  have hwide : ∀ share ∈ shares fileSize kept, count.value ≤ share := fun share hs =>
    (Nat.le_mul_of_pos_right _ minSegment.pos).trans (hlarge share hs)
  have hcountLe : count.value ≤ 2 ^ 32 :=
    (Nat.le_mul_of_pos_left _ (List.length_pos_iff.mpr hkept)).trans hlimit
  obtain ⟨assignments, hassign, hextents, howners⟩ := assign_wide hkept hcountLe hwide
  have hlens : assignments.map (·.1.len) = (shares fileSize kept).flatMap (evenLens · count.value) := by
    have hranges : (assignments.map (·.1)).map ByteRange.extent = extents assignments := List.map_map
    have hlens := lens_of_layout (hranges.trans hextents)
    rwa [List.map_map] at hlens
  have hpieces := @le_evenLens minSegment.value _ count.pos _ hlarge
  have hmerged : mergeTinySegments assignments minSegment = assignments := by
    refine mergeLoop_settled _ fun assignment ha => not_lt.mpr ?_
    exact hpieces _ (hlens ▸ List.mem_map_of_mem (f := fun a : Assignment => a.1.len) ha)
  have htiles : Tiles fileSize.value 0 (extents assignments) := by
    rw [hextents]
    exact tiles_wide hkept minSegment.pos hlarge
  have hlength : assignments.length ≤ 2 ^ 32 := by
    have hcounted := congrArg List.length howners
    rw [List.length_map,
      ListFacts.length_flatMap_const fun _ _ => List.length_replicate] at hcounted
    exact hcounted.trans_le hlimit
  rw [hcount] at hassign
  obtain ⟨plan, hplan⟩ := (@build_iff_tiles url _ _ _ _ hne _ hassign hlength).mpr (by
    rw [hmerged]
    exact htiles)
  obtain ⟨_, rfl, hvalidate, assignments', hassign', hsegments⟩ := build_ok hplan
  obtain rfl := Except.ok.inj (hassign.symm.trans hassign')
  rw [hmerged] at hsegments
  refine ⟨plan, hplan, followsWeights_of_lens hkept ((validate_iff plan).mp hvalidate).1 ?_ ?_⟩
  · rw [← hlens, ← hsegments, List.map_map]
    rfl
  · rw [← howners, ← hsegments, List.map_map]
    rfl

def evenExits : List ExitSpec := [⟨2, 3, .direct⟩, ⟨1, 2, .direct⟩]

def evenSize : FileSize := 11

def twoEach : SegmentsPerExit := 2

def twoBytes : MinSegmentBytes := 2

theorem build_weighted_even :
    ∃ plan, FetchPlan.build sampleUrl evenSize evenExits twoEach twoBytes = .ok plan ∧
      FollowsWeights plan (keptExits evenSize twoBytes evenExits) 2 :=
  build_weighted sampleUrl evenSize evenExits twoEach twoBytes (List.cons_ne_nil _ _) (by decide)
    (by decide)

end SpiderNet.Fetch
