import SpiderNet.Library.ListFacts
import Mathlib.Algebra.Order.Floor.Semiring
import Mathlib.Algebra.Order.Field.Basic
import Mathlib.Algebra.Order.BigOperators.Group.List
import Mathlib.Algebra.BigOperators.Ring.List
import Mathlib.Algebra.BigOperators.Ring.Finset
import Mathlib.Data.List.Perm.Basic
import Mathlib.Tactic.Linarith
import Mathlib.Tactic.Ring
import Mathlib.Tactic.FieldSimp

namespace WaterLevel
open ListFacts
variable {ι : Type}

variable {K : Type} [Field K] [LinearOrder K] (d w : ι → K)

def fill (l : List ι) (level : K) : K := (l.map fun i => min (d i) (level * w i)).sum

def Fills (l : List ι) (capacity level : K) : Prop := 0 ≤ level ∧ fill d w l level = capacity

theorem fill_perm {l l' : List ι} (h : l.Perm l') (level : K) :
    fill d w l level = fill d w l' level := (h.map _).sum_eq

theorem fill_filter_add (p : ι → Bool) (l : List ι) (level : K) :
    fill d w (l.filter p) level + fill d w (l.filter fun i => !p i) level = fill d w l level :=
  sum_filter_add p _ l

theorem fill_of_met {l : List ι} {level : K} (h : ∀ i ∈ l, d i ≤ level * w i) :
    fill d w l level = (l.map d).sum := by
  unfold fill
  congr 1
  exact List.map_congr_left (fun i hi => min_eq_left (h i hi))

theorem fill_of_unmet {l : List ι} {level : K} (h : ∀ i ∈ l, level * w i ≤ d i) :
    fill d w l level = level * (l.map w).sum := by
  rw [← List.sum_map_mul_left]
  unfold fill
  congr 1
  exact List.map_congr_left (fun i hi => min_eq_right (h i hi))

theorem fills_extend {l : List ι} (p : ι → Bool) {c level : K}
    (hp : ∀ i ∈ l.filter p, d i ≤ level * w i)
    (h : Fills d w (l.filter fun i => !p i) (c - ((l.filter p).map d).sum) level) :
    Fills d w l c level := by
  refine ⟨h.1, ?_⟩
  rw [← fill_filter_add d w p l level, fill_of_met d w hp, h.2]
  ring

variable [IsStrictOrderedRing K]

theorem fill_le_demand (l : List ι) (level : K) : fill d w l level ≤ (l.map d).sum :=
  List.sum_le_sum (fun _ _ => min_le_left _ _)

theorem fill_lt_fill {l : List ι} {a b : K} (hab : a < b) (hw : ∀ i ∈ l, 0 < w i) {i : ι}
    (hi : i ∈ l) (hunmet : a * w i < d i) : fill d w l a < fill d w l b := by
  refine List.sum_lt_sum _ _ (fun j hj => ?_) ⟨i, hi, ?_⟩
  · exact min_le_min le_rfl (mul_le_mul_of_nonneg_right hab.le (hw j hj).le)
  · rw [min_eq_right hunmet.le]
    exact lt_min hunmet (mul_lt_mul_of_pos_right hab (hw i hi))

theorem fill_eq_demand_of_le {l : List ι} {a b : K} (hab : a < b) (hw : ∀ i ∈ l, 0 < w i)
    (h : fill d w l b ≤ fill d w l a) : fill d w l a = (l.map d).sum := by
  refine fill_of_met d w fun i hi => ?_
  by_contra hunmet
  exact absurd h (not_le.mpr (fill_lt_fill d w hab hw hi (not_le.mp hunmet)))

theorem fills_level_unique {l : List ι} {c a b : K} (hw : ∀ i ∈ l, 0 < w i)
    (ha : Fills d w l c a) (hb : Fills d w l c b) (hover : c < (l.map d).sum) : a = b := by
  have hnot {x y : K} (hx : Fills d w l c x) (hy : Fills d w l c y) : ¬x < y := by
    intro hlt
    have hall := fill_eq_demand_of_le d w hlt hw (hy.2.trans hx.2.symm).le
    exact hover.ne (hx.2.symm.trans hall)
  exact le_antisymm (not_lt.mp (hnot hb ha)) (not_lt.mp (hnot ha hb))

theorem fill_mono {l : List ι} {a b : K} (hab : a ≤ b) (hw : ∀ i ∈ l, 0 < w i) :
    fill d w l a ≤ fill d w l b :=
  List.sum_le_sum fun i hi => min_le_min le_rfl (mul_le_mul_of_nonneg_right hab (hw i hi).le)

theorem fills_level_mono {l : List ι} {c c' a b : K} (hw : ∀ i ∈ l, 0 < w i)
    (ha : Fills d w l c a) (hb : Fills d w l c' b) (hle : c ≤ c') (hover : c < (l.map d).sum) :
    a ≤ b := by
  by_contra hlt
  rw [not_le] at hlt
  have hfull := fill_eq_demand_of_le d w hlt hw (by rw [ha.2, hb.2]; exact hle)
  have hmono := fill_mono d w hlt.le hw
  rw [ha.2, hfull] at hmono
  exact absurd hover (not_lt.mpr hmono)

-- less is poured into the second list at the first level than that list takes
theorem level_le_of_over {l : List ι} {c a b : K} (hw : ∀ i ∈ l, 0 < w i) (ha : fill d w l a ≤ c)
    (hb : Fills d w l c b) (hover : c < (l.map d).sum) : a ≤ b := by
  by_contra hlt
  have hfull := fill_eq_demand_of_le d w (not_le.mp hlt) hw (ha.trans_eq hb.2.symm)
  rw [hb.2] at hfull
  exact absurd hfull hover.ne

theorem level_ge_share {l : List ι} {c level : K} (h : Fills d w l c level) (hpos : 0 < (l.map w).sum) :
    c / (l.map w).sum ≤ level := by
  rw [div_le_iff₀ hpos, ← h.2, ← List.sum_map_mul_left]
  exact List.sum_le_sum fun i _ => min_le_right _ _

theorem fills_fair {l : List ι} {c : K} (hc : 0 ≤ c) (hpos : 0 < (l.map w).sum)
    (h : ∀ i ∈ l, c / (l.map w).sum * w i ≤ d i) : Fills d w l c (c / (l.map w).sum) := by
  refine ⟨div_nonneg hc hpos.le, ?_⟩
  rw [fill_of_unmet d w h]
  field_simp

theorem level_rises {l : List ι} (p : ι → Bool) {c : K} (hpos : 0 < (l.map w).sum)
    (hrest : 0 < ((l.filter fun i => !p i).map w).sum)
    (hp : ∀ i ∈ l.filter p, d i ≤ c / (l.map w).sum * w i) :
    c / (l.map w).sum ≤
      (c - ((l.filter p).map d).sum) / ((l.filter fun i => !p i).map w).sum := by
  have hsplit := sum_filter_add p w l
  have hmet : ((l.filter p).map d).sum ≤ c / (l.map w).sum * ((l.filter p).map w).sum := by
    rw [← List.sum_map_mul_left]
    exact List.sum_le_sum hp
  have hc : c / (l.map w).sum * (l.map w).sum = c := div_mul_cancel₀ _ hpos.ne'
  rw [le_div_iff₀ hrest]
  rw [← hsplit, mul_add, hsplit] at hc
  linarith

section
variable [FloorSemiring K] {v : ι → K} {l : List ι}

theorem floor_sum_le (hv : ∀ i ∈ l, 0 ≤ v i) : ((l.map fun i => ⌊v i⌋₊).sum : K) ≤ (l.map v).sum := by
  rw [Nat.cast_list_sum, List.map_map]
  exact List.sum_le_sum (fun i hi => Nat.floor_le (hv i hi))

theorem sum_lt_floor_sum (hl : l ≠ []) :
    (l.map v).sum < ((l.map fun i => ⌊v i⌋₊).sum + l.length : ℕ) := by
  have hlt : (l.map v).sum < (l.map fun i => (⌊v i⌋₊ : K) + 1).sum :=
    List.sum_lt_sum_of_ne_nil hl _ _ (fun i _ => Nat.lt_floor_add_one (v i))
  have hsum : (l.map fun i => (⌊v i⌋₊ : K) + 1).sum = ((l.map fun i => ⌊v i⌋₊).sum + l.length : ℕ) := by
    rw [List.sum_map_add, Nat.cast_add, Nat.cast_list_sum, List.map_map]
    simp [Function.comp_def]
  exact hlt.trans_eq hsum

end

end WaterLevel
