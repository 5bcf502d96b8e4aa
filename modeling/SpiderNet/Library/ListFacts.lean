import Mathlib.Algebra.BigOperators.Group.List.Basic
import Mathlib.Algebra.GroupWithZero.Nat
import Mathlib.Algebra.Order.BigOperators.Group.List
import Mathlib.Data.List.Forall2
import Mathlib.Data.List.Nodup
import Mathlib.Data.List.Perm.Basic

namespace ListFacts
variable {ι : Type}

theorem sum_filter_add {M : Type} [AddCommMonoid M] (p : ι → Bool) (f : ι → M) (l : List ι) :
    ((l.filter p).map f).sum + ((l.filter fun i => !p i).map f).sum = (l.map f).sum := by
  have hperm := ((List.filter_append_perm p l).map f).sum_eq
  simpa only [List.map_append, List.sum_append] using hperm

theorem sum_le_of_filter {f : ι → ℕ} (p : ι → Bool) (l : List ι) :
    ((l.filter p).map f).sum ≤ (l.map f).sum := by
  have := sum_filter_add p f l
  omega

theorem sum_shrink_le {M : Type} [AddCommMonoid M] [PartialOrder M] [IsOrderedAddMonoid M]
    (p : ι → Bool) {f : ι → ι} {g : ι → M} {l : List ι} (hnonneg : ∀ i ∈ l, 0 ≤ g i)
    (hle : ∀ i ∈ l, g (f i) ≤ g i) : (((l.filter p).map f).map g).sum ≤ (l.map g).sum := by
  have hrest : 0 ≤ ((l.filter fun i => !p i).map g).sum := by
    refine List.sum_nonneg fun value hvalue => ?_
    obtain ⟨i, hi, rfl⟩ := List.mem_map.mp hvalue
    exact hnonneg i (List.mem_filter.mp hi).1
  rw [List.map_map, ← sum_filter_add p g l]
  refine le_trans (List.sum_le_sum fun i hi => ?_) (le_add_of_nonneg_right hrest)
  exact hle i (List.mem_filter.mp hi).1

theorem sum_map_filter (p : ι → Bool) (f : ι → ℕ) (l : List ι) :
    ((l.filter p).map f).sum = (l.map fun i => if p i then f i else 0).sum := by
  induction l with
  | nil => rfl
  | cons i rest ih =>
    cases hp : p i with
    | true => simp [hp, ih]
    | false => simp [hp, ih]

theorem sum_map_set {α : Type} (f : α → ℕ) {xs : List α} {i : ℕ} {x : α} (y : α)
    (hget : xs[i]? = some x) : ((xs.set i y).map f).sum + f x = (xs.map f).sum + f y := by
  obtain ⟨hi, rfl⟩ := List.getElem?_eq_some_iff.mp hget
  have hsplit : (xs.map f).sum = ((xs.take i).map f).sum + (f xs[i] + ((xs.drop (i + 1)).map f).sum) := by
    rw [← List.sum_cons, ← List.map_cons, List.getElem_cons_drop, ← List.sum_append, ← List.map_append,
      List.take_append_drop]
  rw [hsplit, List.set_eq_take_append_cons_drop, if_pos hi, List.map_append, List.sum_append,
    List.map_cons, List.sum_cons]
  omega

theorem filter_set_out {α : Type} (p : α → Bool) {xs : List α} {i : ℕ} {x y : α}
    (hget : xs[i]? = some x) (hx : p x = false) (hy : p y = false) :
    (xs.set i y).filter p = xs.filter p := by
  obtain ⟨hi, rfl⟩ := List.getElem?_eq_some_iff.mp hget
  have hsplit : xs = xs.take i ++ xs[i] :: xs.drop (i + 1) := by
    rw [List.getElem_cons_drop, List.take_append_drop]
  conv_rhs => rw [hsplit]
  rw [List.set_eq_take_append_cons_drop, if_pos hi, List.filter_append, List.filter_append,
    List.filter_cons_of_neg (by simp [hy]), List.filter_cons_of_neg (by simp [hx])]

theorem filter_set_in {α : Type} (p : α → Bool) {xs : List α} {i : ℕ} {x y : α}
    (hget : xs[i]? = some x) (hx : p x = true) (hy : p y = true) :
    ∃ j, (xs.filter p)[j]? = some x ∧ (xs.set i y).filter p = (xs.filter p).set j y := by
  obtain ⟨hi, rfl⟩ := List.getElem?_eq_some_iff.mp hget
  have hsplit : xs = xs.take i ++ xs[i] :: xs.drop (i + 1) := by
    rw [List.getElem_cons_drop, List.take_append_drop]
  have hfilter : xs.filter p = (xs.take i).filter p ++ xs[i] :: (xs.drop (i + 1)).filter p := by
    conv_lhs => rw [hsplit]
    rw [List.filter_append, List.filter_cons_of_pos hx]
  refine ⟨((xs.take i).filter p).length, ?_, ?_⟩
  · rw [hfilter, List.getElem?_append_right le_rfl, Nat.sub_self, List.getElem?_cons_zero]
  · rw [hfilter, List.set_append_right _ _ le_rfl, Nat.sub_self, List.set_cons_zero,
      List.set_eq_take_append_cons_drop, if_pos hi, List.filter_append, List.filter_cons_of_pos hy]

theorem map_set_same {α β : Type} (f : α → β) {xs : List α} {i : ℕ} {x : α} (y : α)
    (hget : xs[i]? = some x) (h : f y = f x) : (xs.set i y).map f = xs.map f := by
  obtain ⟨hi, rfl⟩ := List.getElem?_eq_some_iff.mp hget
  rw [List.map_set, h, ← List.getElem_map f (h := by simpa), List.set_getElem_self]

theorem flatMap_filter {α β : Type} (keep : α → Bool) {f : α → List β} {xs : List α}
    (h : ∀ x ∈ xs, keep x = false → f x = []) : (xs.filter keep).flatMap f = xs.flatMap f := by
  induction xs with
  | nil => rfl
  | cons x rest ih =>
    have hrest := ih fun y hy => h y (List.mem_cons_of_mem _ hy)
    cases hkeep : keep x with
    | true => rw [List.filter_cons_of_pos hkeep, List.flatMap_cons, List.flatMap_cons, hrest]
    | false =>
      rw [List.filter_cons_of_neg (by simp [hkeep]), List.flatMap_cons, h x (by simp) hkeep, hrest,
        List.nil_append]

theorem take_drop_flatMap {α β : Type} {f : α → List β} {size : ℕ} {xs : List α}
    (hsize : ∀ x ∈ xs, (f x).length = size) {i : ℕ} (hi : i < xs.length) :
    ((xs.flatMap f).drop (i * size)).take size = f xs[i] := by
  induction xs generalizing i with
  | nil => cases hi
  | cons x rest ih =>
    have hx := hsize x (by simp)
    rw [List.flatMap_cons]
    cases i with
    | zero =>
      rw [Nat.zero_mul, List.drop_zero, List.take_append_of_le_length hx.ge, ← hx, List.take_length]
      rfl
    | succ i =>
      have hskip : (i + 1) * size = (f x).length + i * size := by
        rw [hx, Nat.succ_mul, Nat.add_comm]
      rw [hskip, ← List.drop_drop, List.drop_left]
      exact ih (fun y hy => hsize y (List.mem_cons_of_mem _ hy)) (Nat.lt_of_succ_lt_succ hi)

theorem length_flatMap_const {α β : Type} {f : α → List β} {size : ℕ} {xs : List α}
    (hsize : ∀ x ∈ xs, (f x).length = size) : (xs.flatMap f).length = xs.length * size := by
  induction xs with
  | nil => rw [List.flatMap_nil, List.length_nil, List.length_nil, Nat.zero_mul]
  | cons x rest ih =>
    rw [List.flatMap_cons, List.length_append, hsize x (by simp),
      ih fun y hy => hsize y (List.mem_cons_of_mem _ hy), List.length_cons, Nat.succ_mul,
      Nat.add_comm]

theorem getElem?_set_cases {α : Type} {xs : List α} {i j : ℕ} {x y : α}
    (h : (xs.set i x)[j]? = some y) : (j = i ∧ y = x ∧ i < xs.length) ∨ (j ≠ i ∧ xs[j]? = some y) := by
  by_cases heq : i = j
  · subst heq
    have hi : i < xs.length := by
      have hlt := (List.getElem?_eq_some_iff.mp h).1
      rwa [List.length_set] at hlt
    rw [List.getElem?_set_self hi] at h
    exact Or.inl ⟨rfl, (Option.some.inj h).symm, hi⟩
  · rw [List.getElem?_set_ne heq] at h
    exact Or.inr ⟨Ne.symm heq, h⟩

theorem mem_set_eraseIdx {α : Type} {xs : List α} {i pos : ℕ} {x y : α}
    (h : y ∈ (xs.set i x).eraseIdx pos) : y ∈ xs ∨ y = x :=
  List.mem_or_eq_of_mem_set ((List.eraseIdx_sublist _ _).subset h)

theorem getElem?_snoc_cases {α : Type} {xs : List α} {x y : α} {i : ℕ}
    (h : (xs ++ [x])[i]? = some y) : xs[i]? = some y ∨ (i = xs.length ∧ y = x) := by
  rw [List.getElem?_append] at h
  split_ifs at h with hlt
  · exact Or.inl h
  · obtain ⟨hi, hx⟩ := List.getElem?_eq_some_iff.mp h
    rw [List.length_singleton] at hi
    exact Or.inr ⟨by omega, by simpa using hx.symm⟩

theorem eq_of_map_eq {α β : Type} {f : α → β} {xs ys : List α} (hnodup : (ys.map f).Nodup)
    (hperm : xs.Perm ys) (h : xs.map f = ys.map f) : xs = ys := by
  refine List.ext_getElem hperm.length_eq fun i hi hi' => ?_
  refine List.inj_on_of_nodup_map hnodup (hperm.subset (List.getElem_mem hi)) (List.getElem_mem hi') ?_
  have hget : (xs.map f)[i]? = (ys.map f)[i]? := by rw [h]
  simpa [hi, hi'] using hget

theorem forall₂_mem_right {α β : Type} {R : α → β → Prop} {xs : List α} {ys : List β} {y : β}
    (h : List.Forall₂ R xs ys) (hy : y ∈ ys) : ∃ x ∈ xs, R x y := by
  induction h with
  | nil => cases hy
  | @cons x z xs ys hxz _ ih =>
    rcases List.mem_cons.mp hy with rfl | hrest
    · exact ⟨x, List.mem_cons_self, hxz⟩
    · obtain ⟨later, hlater, hR⟩ := ih hrest
      exact ⟨later, List.mem_cons_of_mem x hlater, hR⟩

theorem snoc_split {α : Type} {xs before after : List α} {x y : α}
    (h : xs ++ [x] = before ++ y :: after) :
    before = xs ∧ y = x ∨ ∃ after', xs = before ++ y :: after' := by
  rcases List.eq_nil_or_concat after with rfl | ⟨after', last, rfl⟩
  · obtain ⟨hbefore, hlast⟩ := List.append_inj' h rfl
    exact Or.inl ⟨hbefore.symm, (List.cons.inj hlast).1.symm⟩
  · rw [List.concat_eq_append, ← List.cons_append, ← List.append_assoc] at h
    exact Or.inr ⟨after', (List.append_inj' h rfl).1⟩

theorem le_of_idxOf_le {α : Type} [LinearOrder α] {xs : List α} {x y : α}
    (hsorted : xs.Pairwise (· < ·)) (hy : y ∈ xs) (h : xs.idxOf x ≤ xs.idxOf y) : x ≤ y := by
  have hylt := List.idxOf_lt_length_of_mem hy
  have hxlt := h.trans_lt hylt
  have hget := (List.getElem_idxOf hxlt : xs[xs.idxOf x] = x)
  have hget' := (List.getElem_idxOf hylt : xs[xs.idxOf y] = y)
  rcases h.lt_or_eq with hlt | heq
  · have horder := List.pairwise_iff_getElem.mp hsorted _ _ hxlt hylt hlt
    rw [hget, hget'] at horder
    exact horder.le
  · rw [← hget, ← hget']
    simp only [heq, le_refl]

end ListFacts
