import SpiderNet.Fetch.Plan
import SpiderNet.Library.Tiling

namespace SpiderNet.Fetch
open Tiling

def ByteRange.extent (range : ByteRange) : Extent := (range.start, range.endInclusive + 1)

def extents (assignments : List Assignment) : List Extent := assignments.map (·.1.extent)

def Tiny (minSegment : MinSegmentBytes) (assignment : Assignment) : Prop :=
  assignment.1.len < minSegment.value

instance (minSegment : MinSegmentBytes) (assignment : Assignment) :
    Decidable (Tiny minSegment assignment) := inferInstanceAs (Decidable (_ < _))

def joined (first second : Assignment) (owner : ExitId)
    (h : first.1.start ≤ second.1.endInclusive) : Assignment :=
  (⟨first.1.start, second.1.endInclusive, h⟩, owner)

-- a merge sets one assignment to a range that ends where an old one did, and drops the tiny one
theorem mergeAt_some {pos : ℕ} {assignments merged : List Assignment}
    (h : mergeAt pos assignments = some merged) : ∃ i start second range owner,
      second ∈ assignments ∧ ByteRange.tryNew start second.1.endInclusive = .ok range ∧
        merged = (assignments.set i (range, owner)).eraseIdx pos := by
  rw [mergeAt] at h
  split_ifs at h with hnext
  · split at h
    · rename_i tiny next htiny hnextGet
      split at h
      · rename_i range hjoin
        exact ⟨_, _, next, range, _, List.mem_of_getElem? hnextGet, hjoin, (Option.some.inj h).symm⟩
      · cases h
    · cases h
  · split at h
    · rename_i prev tiny hprev htiny
      split at h
      · rename_i range hjoin
        exact ⟨_, _, tiny, range, _, List.mem_of_getElem? htiny, hjoin, (Option.some.inj h).symm⟩
      · cases h
    · cases h

section
variable (pre post : List Assignment) (prev tiny next : Assignment)

theorem mergeAt_middle : mergeAt pre.length (pre ++ tiny :: next :: post) =
    match ByteRange.tryNew tiny.1.start next.1.endInclusive with
    | .ok range => some (pre ++ (range, next.2) :: post)
    | .error _ => none := by
  have hlt : pre.length + 1 < (pre ++ tiny :: next :: post).length := by
    simp
  have htiny : (pre ++ tiny :: next :: post)[pre.length]? = some tiny := by simp
  have hnext : (pre ++ tiny :: next :: post)[pre.length + 1]? = some next := by
    rw [List.getElem?_append_right (Nat.le_succ _)]
    simp
  have hset : ∀ merged, ((pre ++ tiny :: next :: post).set (pre.length + 1) merged).eraseIdx pre.length =
      pre ++ merged :: post := by
    intro merged
    rw [List.set_append_right _ _ (Nat.le_succ _), List.eraseIdx_append_of_length_le le_rfl]
    simp
  cases hjoin : ByteRange.tryNew tiny.1.start next.1.endInclusive <;>
    simp only [mergeAt, if_pos hlt, htiny, hnext, hset, hjoin]

theorem mergeAt_end : mergeAt (pre.length + 1) (pre ++ [prev, tiny]) =
    match ByteRange.tryNew prev.1.start tiny.1.endInclusive with
    | .ok range => some (pre ++ [(range, prev.2)])
    | .error _ => none := by
  have hlt : ¬pre.length + 1 + 1 < (pre ++ [prev, tiny]).length := by simp
  have hprev : (pre ++ [prev, tiny])[pre.length]? = some prev := by simp
  have htiny : (pre ++ [prev, tiny])[pre.length + 1]? = some tiny := by
    rw [List.getElem?_append_right (Nat.le_succ _)]
    simp
  have hset : ∀ merged, ((pre ++ [prev, tiny]).set pre.length merged).eraseIdx (pre.length + 1) =
      pre ++ [merged] := by
    intro merged
    rw [List.set_append_right _ _ le_rfl, List.eraseIdx_append_of_length_le (Nat.le_succ _)]
    simp
  cases hjoin : ByteRange.tryNew prev.1.start tiny.1.endInclusive <;>
    simp only [mergeAt, if_neg hlt, Nat.add_sub_cancel, hprev, htiny, hset, hjoin]

end

section
variable {minSegment : MinSegmentBytes}

theorem findIdx?_tiny {pre post : List Assignment} {tiny : Assignment}
    (hpre : ∀ assignment ∈ pre, ¬Tiny minSegment assignment) (htiny : Tiny minSegment tiny) :
    (pre ++ tiny :: post).findIdx? (fun assignment => assignment.1.len < minSegment.value) =
      some pre.length := by
  have hnone : pre.findIdx? (fun assignment => assignment.1.len < minSegment.value) = none := by
    simpa [List.findIdx?_eq_none_iff, Tiny] using hpre
  have hlt : tiny.1.len < minSegment.value := htiny
  simp [List.findIdx?_append, hnone, List.findIdx?_cons, hlt]

theorem tiny_cases (minSegment : MinSegmentBytes) (assignments : List Assignment) :
    (∀ assignment ∈ assignments, ¬Tiny minSegment assignment) ∨
    ∃ pre tiny post, assignments = pre ++ tiny :: post ∧
      (∀ assignment ∈ pre, ¬Tiny minSegment assignment) ∧ Tiny minSegment tiny := by
  induction assignments with
  | nil => exact Or.inl (by simp)
  | cons first rest ih =>
    by_cases hfirst : Tiny minSegment first
    · exact Or.inr ⟨[], first, rest, rfl, by simp, hfirst⟩
    · rcases ih with hall | ⟨pre, tiny, post, rfl, hpre, htiny⟩
      · exact Or.inl (by simpa [hfirst] using hall)
      · exact Or.inr ⟨first :: pre, tiny, post, rfl, by simpa [hfirst] using hpre, htiny⟩

theorem mergeLoop_settled (turns : ℕ) {assignments : List Assignment}
    (h : ∀ assignment ∈ assignments, ¬Tiny minSegment assignment) :
    mergeLoop minSegment turns assignments = assignments := by
  have hnone : assignments.findIdx? (fun assignment => assignment.1.len < minSegment.value) = none := by
    simpa [List.findIdx?_eq_none_iff, Tiny] using h
  cases turns with
  | zero => rfl
  | succ turns => simp only [mergeLoop, hnone]

theorem mergeLoop_single (turns : ℕ) (assignment : Assignment) :
    mergeLoop minSegment turns [assignment] = [assignment] := by
  cases turns with
  | zero => rfl
  | succ turns =>
    rw [mergeLoop]
    split <;> simp

theorem mergeLoop_middle (turns : ℕ) {pre post : List Assignment} {tiny next : Assignment}
    (hpre : ∀ assignment ∈ pre, ¬Tiny minSegment assignment) (htiny : Tiny minSegment tiny) :
    mergeLoop minSegment (turns + 1) (pre ++ tiny :: next :: post) =
      if h : tiny.1.start ≤ next.1.endInclusive then
        mergeLoop minSegment turns (pre ++ joined tiny next next.2 h :: post)
      else pre ++ tiny :: next :: post := by
  have hlength : ¬(pre ++ tiny :: next :: post).length = 1 := by
    rw [List.length_append, List.length_cons, List.length_cons]
    omega
  simp only [mergeLoop, findIdx?_tiny hpre htiny, if_neg hlength, mergeAt_middle]
  split_ifs with h
  · rw [ByteRange.tryNew_ok h]
    rfl
  · obtain ⟨error, herror⟩ := ByteRange.tryNew_error h
    rw [herror]

theorem mergeLoop_end (turns : ℕ) {pre : List Assignment} {prev tiny : Assignment}
    (hpre : ∀ assignment ∈ pre ++ [prev], ¬Tiny minSegment assignment)
    (htiny : Tiny minSegment tiny) :
    mergeLoop minSegment (turns + 1) (pre ++ [prev, tiny]) =
      if h : prev.1.start ≤ tiny.1.endInclusive then
        mergeLoop minSegment turns (pre ++ [joined prev tiny prev.2 h])
      else pre ++ [prev, tiny] := by
  have hlength : ¬(pre ++ [prev, tiny]).length = 1 := by simp
  have hfind := @findIdx?_tiny minSegment _ [] _ hpre htiny
  rw [List.append_assoc, List.singleton_append, List.length_append, List.length_singleton] at hfind
  simp only [mergeLoop, hfind, if_neg hlength, mergeAt_end]
  split_ifs with h
  · rw [ByteRange.tryNew_ok h]
    rfl
  · obtain ⟨error, herror⟩ := ByteRange.tryNew_error h
    rw [herror]

end

def InOrder (assignments : List Assignment) : Prop :=
  assignments.Pairwise fun a b => a.1.start ≤ b.1.endInclusive

theorem inOrder_of_tiles {stop start : ℕ} {assignments : List Assignment}
    (h : Tiles stop start (extents assignments)) : InOrder assignments := by
  induction assignments generalizing start with
  | nil => exact .nil
  | cons first rest ih =>
    obtain ⟨hstart, hlt, hrest⟩ := h
    refine List.pairwise_cons.mpr ⟨fun other ho => ?_, ih hrest⟩
    have hbounds := hrest.bounds (List.mem_map_of_mem (f := fun a : Assignment => a.1.extent) ho)
    simp only [ByteRange.extent] at hbounds hlt
    omega

def Settled (minSegment : MinSegmentBytes) (assignments : List Assignment) : Prop :=
  (∀ assignment ∈ assignments, ¬Tiny minSegment assignment) ∨ assignments.length = 1 ∨
    ¬InOrder assignments

theorem InOrder.adjacent {pre post : List Assignment} {a b : Assignment}
    (h : InOrder (pre ++ a :: b :: post)) : a.1.start ≤ b.1.endInclusive := by
  obtain ⟨_, htail, _⟩ := List.pairwise_append.mp h
  exact (List.pairwise_cons.mp htail).1 b (by simp)

theorem mergeLoop_spec {minSegment : MinSegmentBytes} {turns : ℕ} {assignments : List Assignment}
    (h : assignments.length ≤ turns) :
    ((mergeLoop minSegment turns assignments).map (·.2)).Sublist (assignments.map (·.2)) ∧
    Settled minSegment (mergeLoop minSegment turns assignments) := by
  induction turns generalizing assignments with
  | zero =>
    obtain rfl := List.length_eq_zero_iff.mp (Nat.le_zero.mp h)
    exact ⟨List.Sublist.refl _, Or.inl (by simp [mergeLoop])⟩
  | succ turns ih =>
    rcases tiny_cases minSegment assignments with
      hall | ⟨pre, tiny, post, rfl, hpre, htiny⟩
    · rw [mergeLoop_settled _ hall]
      exact ⟨List.Sublist.refl _, Or.inl hall⟩
    · cases post with
      | cons next post =>
        rw [mergeLoop_middle _ hpre htiny]
        split_ifs with hle
        · have hlength : (pre ++ joined tiny next next.2 hle :: post).length ≤ turns := by
            simp only [List.length_append, List.length_cons] at h ⊢
            omega
          obtain ⟨hsub, hsettled⟩ := ih hlength
          refine ⟨hsub.trans ?_, hsettled⟩
          simp only [List.map_append, List.map_cons]
          exact (List.Sublist.refl _).append (List.sublist_cons_self _ _)
        · exact ⟨List.Sublist.refl _, Or.inr (Or.inr fun horder => hle horder.adjacent)⟩
      | nil =>
        rcases List.eq_nil_or_concat pre with rfl | ⟨pre, prev, rfl⟩
        · rw [List.nil_append, mergeLoop_single]
          exact ⟨List.Sublist.refl _, Or.inr (Or.inl rfl)⟩
        · rw [List.concat_eq_append] at hpre h ⊢
          rw [List.append_assoc, List.singleton_append] at h ⊢
          rw [mergeLoop_end _ hpre htiny]
          split_ifs with hle
          · have hlength : (pre ++ [joined prev tiny prev.2 hle]).length ≤ turns := by
              simp only [List.length_append, List.length_cons, List.length_nil] at h ⊢
              omega
            obtain ⟨hsub, hsettled⟩ := ih hlength
            refine ⟨hsub.trans ?_, hsettled⟩
            simp only [List.map_append, List.map_cons, List.map_nil]
            exact (List.Sublist.refl _).append (List.Sublist.cons_cons _ (List.nil_sublist _))
          · exact ⟨List.Sublist.refl _, Or.inr (Or.inr fun horder => hle horder.adjacent)⟩

end SpiderNet.Fetch
