import Mathlib.Algebra.GroupWithZero.Nat
import Mathlib.Data.List.Basic
import Mathlib.Logic.ExistsUnique

namespace Tiling

abbrev Extent := ℕ × ℕ

def Tiles (stop : ℕ) : ℕ → List Extent → Prop
  | start, [] => start = stop
  | start, part :: rest => part.1 = start ∧ part.1 < part.2 ∧ Tiles stop part.2 rest

theorem tiles_cons {stop start : ℕ} {part : Extent} {rest : List Extent} :
    Tiles stop start (part :: rest) ↔ part.1 = start ∧ part.1 < part.2 ∧ Tiles stop part.2 rest :=
  Iff.rfl

theorem Tiles.le {stop start : ℕ} {parts : List Extent} (h : Tiles stop start parts) :
    start ≤ stop := by
  induction parts generalizing start with
  | nil => exact Nat.le_of_eq h
  | cons part rest ih =>
    obtain ⟨hstart, hlt, hrest⟩ := h
    have hle := ih hrest
    omega

theorem Tiles.bounds {stop start : ℕ} {parts : List Extent} (h : Tiles stop start parts)
    {part : Extent} (hp : part ∈ parts) : start ≤ part.1 ∧ part.1 < part.2 ∧ part.2 ≤ stop := by
  induction parts generalizing start with
  | nil => simp at hp
  | cons first rest ih =>
    obtain ⟨hstart, hlt, hrest⟩ := h
    have hle := hrest.le
    rcases List.mem_cons.mp hp with rfl | hp
    · omega
    · have hbounds := ih hrest hp
      omega

theorem tiles_append {stop start : ℕ} {xs ys : List Extent} :
    Tiles stop start (xs ++ ys) ↔ ∃ mid, Tiles mid start xs ∧ Tiles stop mid ys := by
  induction xs generalizing start with
  | nil => simp [Tiles]
  | cons part rest ih =>
    simp only [List.cons_append, tiles_cons, ih]
    constructor
    · rintro ⟨hstart, hlt, mid, hrest, hys⟩
      exact ⟨mid, ⟨hstart, hlt, hrest⟩, hys⟩
    · rintro ⟨mid, ⟨hstart, hlt, hrest⟩, hys⟩
      exact ⟨hstart, hlt, mid, hrest, hys⟩

theorem Tiles.existsUnique {stop start : ℕ} {parts : List Extent} (h : Tiles stop start parts)
    {x : ℕ} (hx : start ≤ x) (hx' : x < stop) :
    ∃! i : ℕ, ∃ part, parts[i]? = some part ∧ part.1 ≤ x ∧ x < part.2 := by
  induction parts generalizing start with
  | nil =>
    have heq : start = stop := h
    omega
  | cons first rest ih =>
    obtain ⟨hstart, hlt, hrest⟩ := h
    by_cases hin : x < first.2
    · refine ⟨0, ⟨first, rfl, by omega, hin⟩, ?_⟩
      rintro i ⟨part, hget, hle, _⟩
      cases i with
      | zero => rfl
      | succ i =>
        have hbounds := hrest.bounds (List.mem_of_getElem? (by simpa using hget))
        omega
    · obtain ⟨i, ⟨part, hget, hle, hlt'⟩, hunique⟩ := ih hrest (by omega)
      refine ⟨i + 1, ⟨part, hget, hle, hlt'⟩, ?_⟩
      rintro j ⟨other, hother, hj⟩
      cases j with
      | zero =>
        obtain rfl : first = other := by simpa using hother
        omega
      | succ j =>
        have heq := hunique j ⟨other, by simpa using hother, hj⟩
        omega

theorem Tiles.sum_lengths {stop start : ℕ} {parts : List Extent} (h : Tiles stop start parts) :
    start + (parts.map fun part => part.2 - part.1).sum = stop := by
  induction parts generalizing start with
  | nil => exact h
  | cons part rest ih =>
    obtain ⟨rfl, hlt, hrest⟩ := h
    have hsum := ih hrest
    rw [List.map_cons, List.sum_cons]
    omega

def slice {α : Type} (xs : List α) (part : Extent) : List α := (xs.drop part.1).take (part.2 - part.1)

theorem length_slice {α : Type} {xs : List α} {part : Extent} (h : part.2 ≤ xs.length) :
    (slice xs part).length = part.2 - part.1 := by
  simp only [slice, List.length_take, List.length_drop]
  omega

theorem slice_append_slice {α : Type} (xs : List α) {a b c : ℕ} (hab : a ≤ b) (hbc : b ≤ c) :
    slice xs (a, b) ++ slice xs (b, c) = slice xs (a, c) := by
  have hdrop : xs.drop b = (xs.drop a).drop (b - a) := by
    rw [List.drop_drop]
    congr 1
    omega
  have hsplit : c - a = (b - a) + (c - b) := by omega
  simp only [slice]
  rw [hdrop, hsplit, List.take_add]

theorem Tiles.flatMap_slice {α : Type} (xs : List α) {stop start : ℕ} {parts : List Extent}
    (h : Tiles stop start parts) : parts.flatMap (slice xs) = slice xs (start, stop) := by
  induction parts generalizing start with
  | nil =>
    obtain rfl : start = stop := h
    simp [slice]
  | cons part rest ih =>
    obtain ⟨rfl, hlt, hrest⟩ := h
    rw [List.flatMap_cons, ih hrest]
    exact slice_append_slice xs (Nat.le_of_lt hlt) hrest.le

theorem slice_all {α : Type} (xs : List α) : slice xs (0, xs.length) = xs := by
  simp [slice]

theorem Tiles.first_of_start {stop start : ℕ} {first : Extent} {rest : List Extent}
    (h : Tiles stop start (first :: rest)) {part : Extent} (hp : part ∈ first :: rest)
    (hstart : part.1 = start) : part = first := by
  obtain ⟨_, hlt, hrest⟩ := h
  rcases List.mem_cons.mp hp with rfl | hp
  · rfl
  · have hbounds := hrest.bounds hp
    omega

theorem Tiles.nodup {stop start : ℕ} {parts : List Extent} (h : Tiles stop start parts) :
    parts.Nodup := by
  induction parts generalizing start with
  | nil => exact .nil
  | cons first rest ih =>
    obtain ⟨hstart, hlt, hrest⟩ := h
    refine List.nodup_cons.mpr ⟨fun hmem => ?_, ih hrest⟩
    have hbounds := hrest.bounds hmem
    omega

section
variable {α : Type} (zero one : α)

def marked (size position : ℕ) : List α :=
  (List.range size).map fun i => if i = position then one else zero

theorem length_marked (size position : ℕ) : (marked zero one size position).length = size := by
  simp [marked]

theorem getElem?_marked {size position i : ℕ} (h : i < size) :
    (marked zero one size position)[i]? = some (if i = position then one else zero) := by
  rw [marked, List.getElem?_map, List.getElem?_range h]
  rfl

theorem head?_slice_marked {size position : ℕ} {part : Extent} (hlt : part.1 < part.2)
    (hsize : part.2 ≤ size) :
    (slice (marked zero one size position) part).head? =
      some (if part.1 = position then one else zero) := by
  rw [slice, List.head?_take, if_neg (by omega), List.head?_drop, getElem?_marked _ _ (by omega)]

theorem slice_marked_unit {size position i : ℕ} (h : i < size) :
    slice (marked zero one size position) (i, i + 1) = [if i = position then one else zero] := by
  have hlength := @length_slice α (marked zero one size position) (i, i + 1)
    (by rw [length_marked]; exact h)
  have hhead := @head?_slice_marked α zero one size position (i, i + 1) (Nat.lt_succ_self i) h
  obtain ⟨x, hx⟩ := List.length_eq_one_iff.mp (hlength.trans (Nat.add_sub_cancel_left i 1))
  rw [hx] at hhead ⊢
  rw [Option.some.inj hhead]

end

theorem Tiles.order_determined {α : Type} [Nontrivial α] {stop start : ℕ} {parts order : List Extent}
    (h : Tiles stop start parts) (hperm : order.Perm parts)
    (hall : ∀ file : List α, file.length = stop →
      order.flatMap (slice file) = slice file (start, stop)) : order = parts := by
  induction parts generalizing start order with
  | nil => exact hperm.eq_nil
  | cons first rest ih =>
    have htiles := h
    obtain ⟨hstart, hlt, hrest⟩ := h
    cases order with
    | nil => exact absurd hperm.symm.eq_nil (List.cons_ne_nil _ _)
    | cons part order =>
      obtain ⟨zero, one, hne⟩ := exists_pair_ne α
      have hbounds := htiles.bounds (hperm.subset List.mem_cons_self)
      have hstop := hrest.le
      have hfirst : part = first := by
        refine htiles.first_of_start (hperm.subset List.mem_cons_self) ?_
        have hheads := congrArg List.head? (hall (marked zero one stop start) (length_marked _ _ _ _))
        rw [List.flatMap_cons, List.head?_append, head?_slice_marked zero one hbounds.2.1 hbounds.2.2,
          Option.some_or, @head?_slice_marked α zero one stop start (start, stop) (by omega)
            (Nat.le_refl _), if_pos rfl] at hheads
        by_contra hother
        rw [if_neg hother] at hheads
        exact hne (Option.some.inj hheads)
      subst hfirst
      rw [ih hrest ((List.perm_cons _).mp hperm) fun file hfile => ?_]
      have hsplit := hall file hfile
      rw [List.flatMap_cons, ← slice_append_slice file (by omega : start ≤ part.2) hstop,
        ← hstart] at hsplit
      exact List.append_cancel_left hsplit

end Tiling
