import SpiderNet.Fetch.PlanShape
import SpiderNet.Library.Coalesce

namespace SpiderNet.Fetch
open Tiling

theorem span_bounds {range : ByteRange} {piece : Piece} {start : ℕ}
    (h : range.extent = piece.span start) :
    range.start = start + piece.gap ∧ range.endInclusive + 1 = start + piece.gap + piece.len :=
  Prod.ext_iff.mp h

theorem len_of_span {range : ByteRange} {piece : Piece} {start : ℕ}
    (h : range.extent = piece.span start) : range.len = piece.len := by
  obtain ⟨hstart, hstop⟩ := span_bounds h
  have hlen := range.len_eq
  omega

theorem extents_append (xs ys : List Assignment) : extents (xs ++ ys) = extents xs ++ extents ys :=
  List.map_append

theorem not_tiny_of_layout {minSegment : MinSegmentBytes} {assignments : List Assignment}
    {start : ℕ} {pieces : List Piece} (h : extents assignments = layout start pieces)
    (hlarge : ∀ piece ∈ pieces, minSegment.value ≤ piece.len) :
    ∀ assignment ∈ assignments, ¬Tiny minSegment assignment := by
  induction assignments generalizing start pieces with
  | nil => simp
  | cons first rest ih =>
    cases pieces with
    | nil => cases h
    | cons piece later =>
      obtain ⟨hfirst, hrest⟩ := List.cons.inj h
      intro assignment ha
      rcases List.mem_cons.mp ha with rfl | ha
      · have hle := hlarge piece (by simp)
        rw [Tiny, len_of_span hfirst]
        omega
      · exact ih hrest (fun other ho => hlarge other (List.mem_cons_of_mem _ ho)) assignment ha

theorem joined_span {first second : Assignment} (owner : ExitId) {start : ℕ} {a b : Piece}
    (hfirst : first.1.extent = a.span start)
    (hsecond : second.1.extent = b.span (start + a.gap + a.len))
    (h : first.1.start ≤ second.1.endInclusive) :
    (joined first second owner h).1.extent = (a.join b).span start := by
  obtain ⟨hstart, _⟩ := span_bounds hfirst
  obtain ⟨_, hstop⟩ := span_bounds hsecond
  refine Prod.ext ?_ ?_
  · exact hstart
  · simp only [joined, ByteRange.extent, Piece.span, Piece.join]
    omega

theorem joinable {first second : Assignment} {start : ℕ} {a b : Piece}
    (hfirst : first.1.extent = a.span start)
    (hsecond : second.1.extent = b.span (start + a.gap + a.len)) :
    first.1.start ≤ second.1.endInclusive := by
  obtain ⟨hstart, _⟩ := span_bounds hfirst
  obtain ⟨hstart', _⟩ := span_bounds hsecond
  have hle := second.1.le
  omega

theorem mergeLoop_last {minSegment : MinSegmentBytes} {turns : ℕ} {doneA : List Assignment}
    {curA : Assignment} {done : List Piece} {cur : Piece} (hturns : doneA.length + 1 ≤ turns)
    (hdone : extents doneA = layout 0 done)
    (hlarge : ∀ piece ∈ done, minSegment.value ≤ piece.len)
    (hcur : curA.1.extent = cur.span (total done)) :
    extents (mergeLoop minSegment turns (doneA ++ [curA])) =
      layout 0 (coalesce minSegment.value done cur []) := by
  have hnot := not_tiny_of_layout hdone hlarge
  have hlen := len_of_span hcur
  by_cases hopen : cur.len < minSegment.value
  · have htiny : Tiny minSegment curA := by rwa [Tiny, hlen]
    rcases List.eq_nil_or_concat done with rfl | ⟨pre, last, rfl⟩
    · obtain rfl : doneA = [] := List.map_eq_nil_iff.mp hdone
      rw [List.nil_append, mergeLoop_single, coalesce, if_pos hopen]
      exact congrArg (fun extent => [extent]) hcur
    · rw [List.concat_eq_append] at hdone hlarge hcur ⊢
      rw [layout_append, layout, layout, Nat.zero_add] at hdone
      obtain ⟨preA, tailA, rfl, hpre, htail⟩ := List.map_eq_append_iff.mp hdone
      obtain ⟨prevA, rfl, hprev⟩ := List.map_eq_singleton_iff.mp htail
      rw [total_append, total_cons, total_nil, Nat.add_zero, ← Nat.add_assoc] at hcur
      have hle := joinable hprev hcur
      have hspan := joined_span prevA.2 hprev hcur hle
      obtain ⟨turns, rfl⟩ : ∃ t, turns = t + 1 := ⟨turns - 1, by omega⟩
      rw [List.append_assoc, List.singleton_append, mergeLoop_end _ hnot htiny, dif_pos hle,
        coalesce, if_pos hopen]
      simp only [List.getLast?_append, List.getLast?_singleton, Option.some_or,
        List.dropLast_concat]
      have hall : extents (preA ++ [joined prevA curA prevA.2 hle]) =
          layout 0 (pre ++ [last.join cur]) := by
        rw [layout_append, layout, layout, Nat.zero_add, ← hspan, ← hpre, extents_append]
        rfl
      have hfull : ∀ piece ∈ pre ++ [last.join cur], minSegment.value ≤ piece.len := by
        intro piece hp
        rcases List.mem_append.mp hp with hp | hp
        · exact hlarge piece (by simp [hp])
        · have hlast := hlarge last (by simp)
          rw [List.mem_singleton.mp hp]
          simp only [Piece.join]
          omega
      rw [mergeLoop_settled _ (not_tiny_of_layout hall hfull)]
      exact hall
  · have hall : extents (doneA ++ [curA]) = layout 0 (done ++ [cur]) := by
      rw [layout_append, layout, layout, Nat.zero_add, ← hcur, ← hdone, extents_append]
      rfl
    have hfull : ∀ piece ∈ done ++ [cur], minSegment.value ≤ piece.len := by
      intro piece hp
      rcases List.mem_append.mp hp with hp | hp
      · exact hlarge piece hp
      · rw [List.mem_singleton.mp hp]
        exact not_lt.mp hopen
    rw [mergeLoop_settled _ (not_tiny_of_layout hall hfull), coalesce, if_neg hopen]
    exact hall

theorem mergeLoop_coalesce {minSegment : MinSegmentBytes} {turns : ℕ}
    {doneA restA : List Assignment} {curA : Assignment} {done rest : List Piece} {cur : Piece}
    (hturns : doneA.length + 1 + restA.length ≤ turns) (hdone : extents doneA = layout 0 done)
    (hlarge : ∀ piece ∈ done, minSegment.value ≤ piece.len)
    (hcur : curA.1.extent = cur.span (total done))
    (hrest : extents restA = layout (total done + cur.gap + cur.len) rest) :
    extents (mergeLoop minSegment turns (doneA ++ curA :: restA)) =
      layout 0 (coalesce minSegment.value done cur rest) := by
  induction rest generalizing turns doneA restA curA done cur with
  | nil =>
    obtain rfl : restA = [] := List.map_eq_nil_iff.mp hrest
    exact mergeLoop_last hturns hdone hlarge hcur
  | cons next rest ih =>
    obtain ⟨nextA, restA, rfl, hnext, hlater⟩ := List.map_eq_cons_iff.mp hrest
    rw [List.length_cons] at hturns
    have hlen := len_of_span hcur
    by_cases hopen : cur.len < minSegment.value
    · have htiny : Tiny minSegment curA := by rwa [Tiny, hlen]
      have hle := joinable hcur hnext
      have hspan := joined_span nextA.2 hcur hnext hle
      obtain ⟨turns, rfl⟩ : ∃ t, turns = t + 1 := ⟨turns - 1, by omega⟩
      rw [mergeLoop_middle _ (not_tiny_of_layout hdone hlarge) htiny, dif_pos hle, coalesce,
        if_pos hopen]
      refine ih (by omega) hdone hlarge hspan (hlater.trans ?_)
      simp only [Piece.join, Nat.add_assoc]
    · rw [coalesce, if_neg hopen, List.append_cons]
      have hshift : total (done ++ [cur]) = total done + cur.gap + cur.len := by
        simp only [total_append, total_cons, total_nil]
        omega
      refine ih ?_ ?_ ?_ (by rw [hshift]; exact hnext) (by rw [hshift]; exact hlater)
      · rw [List.length_append, List.length_singleton]
        omega
      · rw [layout_append, layout, layout, Nat.zero_add, ← hcur, ← hdone, extents_append]
        rfl
      · intro piece hp
        rcases List.mem_append.mp hp with hp | hp
        · exact hlarge piece hp
        · rw [List.mem_singleton.mp hp]
          exact not_lt.mp hopen

end SpiderNet.Fetch
