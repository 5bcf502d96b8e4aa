import Mathlib.Data.List.Infix

namespace Terminator
variable {α : Type} {mark xs ys : List α} {n m : ℕ}

-- the first occurrence of `mark` in `xs` ends after `n` elements
structure EndsAt (mark xs : List α) (n : ℕ) : Prop where
  le : n ≤ xs.length
  found : mark <:+ xs.take n
  first : ∀ m < n, ¬mark <:+ xs.take m

def Clear (mark xs : List α) (n : ℕ) : Prop := ∀ m ≤ n, ¬mark <:+ xs.take m

theorem EndsAt.unique (h : EndsAt mark xs n) (h' : EndsAt mark xs m) : n = m :=
  le_antisymm (not_lt.mp fun hlt => h.first m hlt h'.found) (not_lt.mp fun hlt => h'.first n hlt h.found)

theorem EndsAt.append (h : EndsAt mark xs n) (ys : List α) : EndsAt mark (xs ++ ys) n := by
  have htake {k : ℕ} (hk : k ≤ n) : (xs ++ ys).take k = xs.take k :=
    List.take_append_of_le_length (hk.trans h.le)
  refine ⟨h.le.trans (List.length_append ▸ Nat.le_add_right _ _), ?_, fun k hk => ?_⟩
  · rw [htake le_rfl]
    exact h.found
  · rw [htake hk.le]
    exact h.first k hk

theorem EndsAt.of_take {k : ℕ} (h : EndsAt mark (xs.take k) n) : EndsAt mark xs n := by
  have happend := h.append (xs.drop k)
  rwa [List.take_append_drop] at happend

theorem EndsAt.take_eq {k : ℕ} (h : EndsAt mark (xs.take k) n) : (xs.take k).take n = xs.take n := by
  rw [List.take_take, min_eq_left (h.le.trans (List.length_take_le _ _))]

theorem clear_zero (hmark : mark ≠ []) (xs : List α) : Clear mark xs 0 := by
  intro m hm hsuffix
  rw [Nat.le_zero.mp hm, List.take_zero] at hsuffix
  exact hmark (List.suffix_nil.mp hsuffix)

theorem Clear.endsAt (h : Clear mark xs n) (hlt : n < xs.length) (hfound : mark <:+ xs.take (n + 1)) :
    EndsAt mark xs (n + 1) :=
  ⟨hlt, hfound, fun m hm => h m (Nat.le_of_lt_succ hm)⟩

theorem Clear.succ (h : Clear mark xs n) (hnot : ¬mark <:+ xs.take (n + 1)) :
    Clear mark xs (n + 1) := by
  intro m hm
  rcases Nat.le_succ_iff.mp hm with hle | rfl
  · exact h m hle
  · exact hnot

theorem Clear.not_endsAt (h : Clear mark xs n) (hle : m ≤ n) : ¬EndsAt mark xs m :=
  fun hends => h m hle hends.found

theorem Clear.none (h : Clear mark xs xs.length) (m : ℕ) : ¬EndsAt mark xs m :=
  fun hends => h m hends.le hends.found

end Terminator
