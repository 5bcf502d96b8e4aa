import SpiderNet.Fetch.PlanAccepted
import SpiderNet.Library.TopSelection
import Mathlib.Data.Prod.Lex

namespace SpiderNet.Fetch
open TopSelection

abbrev Strength := ExitWeight ×ₗ ExitIdᵒᵈ

def strength (exit : ExitSpec) : Strength := toLex (exit.weight, OrderDual.toDual exit.id)

def keptCount (fileSize : FileSize) (minSegment : MinSegmentBytes) (count : ℕ) : ℕ :=
  max 1 (min count (fileSize.value / minSegment.value))

theorem weaker_iff (a b : ExitSpec) : weaker a b = true ↔ strength a < strength b := by
  rw [strength, strength, Prod.Lex.toLex_lt_toLex]
  simp [weaker]

theorem weakestFrom_spec {pre mid rest : List ExitSpec} {best : ExitSpec}
    (h : FirstMin strength pre best mid) : ∃ pre' m post,
      pre ++ best :: (mid ++ rest) = pre' ++ m :: post ∧ FirstMin strength pre' m post ∧
        weakestFrom pre.length best (pre.length + 1 + mid.length) rest = pre'.length := by
  induction rest generalizing pre best mid with
  | nil => exact ⟨pre, best, mid, by rw [List.append_nil], h, rfl⟩
  | cons exit rest ih =>
    rw [weakestFrom]
    split_ifs with hweaker
    · have hlt := (weaker_iff exit best).mp hweaker
      have hnext : FirstMin strength (pre ++ best :: mid) exit [] := by
        refine ⟨fun other ho => ?_, by simp⟩
        rcases List.mem_append.mp ho with ho | ho
        · exact hlt.trans (h.before other ho)
        · rcases List.mem_cons.mp ho with rfl | ho
          · exact hlt
          · exact hlt.trans_le (h.after other ho)
      have hlength : (pre ++ best :: mid).length = pre.length + 1 + mid.length := by
        rw [List.length_append, List.length_cons]
        omega
      have hlater := ih hnext
      rw [hlength] at hlater
      simpa using hlater
    · have hge : strength best ≤ strength exit := not_lt.mp (mt (weaker_iff exit best).mpr hweaker)
      have hnext : FirstMin strength pre best (mid ++ [exit]) := by
        refine ⟨h.before, fun other ho => ?_⟩
        rcases List.mem_append.mp ho with ho | ho
        · exact h.after other ho
        · rwa [List.mem_singleton.mp ho]
      have hlater := ih hnext
      rw [List.append_assoc, List.singleton_append, List.length_append, List.length_singleton,
        ← Nat.add_assoc] at hlater
      exact hlater

theorem weakest_firstMin {exits : List ExitSpec} (hne : exits ≠ []) : ∃ pre m post,
    exits = pre ++ m :: post ∧ FirstMin strength pre m post ∧ weakest exits = pre.length := by
  obtain ⟨exit, rest, rfl⟩ := List.exists_cons_of_ne_nil hne
  exact @weakestFrom_spec [] [] rest exit ⟨by simp, by simp⟩

theorem keptCount_drop {fileSize : FileSize} {minSegment : MinSegmentBytes} {count : ℕ}
    (hcount : 1 < count) (hsmall : fileSize.value < count * minSegment.value) :
    keptCount fileSize minSegment count ≤ count - 1 ∧
      keptCount fileSize minSegment (count - 1) = keptCount fileSize minSegment count := by
  have hquotient : fileSize.value / minSegment.value < count :=
    (Nat.div_lt_iff_lt_mul minSegment.pos).mpr hsmall
  unfold keptCount
  omega

theorem keptCount_done {fileSize : FileSize} {minSegment : MinSegmentBytes} {count : ℕ}
    (h : ¬(1 < count ∧ fileSize.value < count * minSegment.value)) :
    count ≤ keptCount fileSize minSegment count := by
  unfold keptCount
  rcases Nat.lt_or_ge 1 count with hmany | hone
  · have hlarge : count * minSegment.value ≤ fileSize.value := not_lt.mp fun hlt => h ⟨hmany, hlt⟩
    have hquotient := (Nat.le_div_iff_mul_le minSegment.pos).mpr hlarge
    omega
  · omega

-- the induction is on the removals; each takes the first of the weakest exits out
theorem dropWeakest_eq_select {fileSize : FileSize} {minSegment : MinSegmentBytes} {turns : ℕ}
    {exits : List ExitSpec} (hturns : exits.length ≤ turns) :
    dropWeakest fileSize minSegment turns exits =
      select strength (keptCount fileSize minSegment exits.length) exits := by
  induction turns generalizing exits with
  | zero =>
    obtain rfl := List.length_eq_zero_iff.mp (Nat.le_zero.mp hturns)
    rfl
  | succ turns ih =>
    rw [dropWeakest]
    split_ifs with hdrop
    · obtain ⟨pre, m, post, rfl, hmin, hweakest⟩ := @weakest_firstMin exits
        (List.length_pos_iff.mp (by omega))
      have hlength : (pre ++ m :: post).length - 1 = (pre ++ post).length := by
        simp only [List.length_append, List.length_cons]
        omega
      have herase : (pre ++ m :: post).eraseIdx pre.length = pre ++ post := by
        rw [List.eraseIdx_append_of_length_le le_rfl, Nat.sub_self, List.eraseIdx_cons_zero]
      obtain ⟨hle, hcount⟩ := keptCount_drop hdrop.1 hdrop.2
      rw [hlength] at hle hcount
      rw [hweakest, herase, ih (by omega), hcount]
      exact (hmin.select_eq hle).symm
    · exact (select_all strength (keptCount_done hdrop)).symm

def pairOf (exit : ExitSpec) : ExitId × ExitWeight := (exit.id, exit.weight)

def strongestFirst (pairs : List (ExitId × ExitWeight)) : List (ExitId × ExitWeight) :=
  pairs.insertionSort fun a b => b.2 < a.2 ∨ a.2 = b.2 ∧ a.1 ≤ b.1

def ofStrength (value : Strength) : ExitId × ExitWeight :=
  (OrderDual.ofDual (ofLex value).2, (ofLex value).1)

theorem map_ofStrength (exits : List ExitSpec) :
    (exits.map strength).map ofStrength = exits.map pairOf := List.map_map

theorem map_descending (exits : List ExitSpec) :
    (descending (exits.map strength)).map ofStrength = strongestFirst (exits.map pairOf) := by
  rw [← map_ofStrength]
  refine List.map_insertionSort _ _ _ _ fun a _ b _ => ?_
  rw [ge_iff_le, Prod.Lex.le_iff, ofStrength, ofStrength, eq_comm]
  rfl

theorem strength_perm {exits exits' : List ExitSpec} (h : (exits.map pairOf).Perm (exits'.map pairOf)) :
    (exits.map strength).Perm (exits'.map strength) := by
  have hmap := h.map fun pair : ExitId × ExitWeight => (toLex (pair.2, OrderDual.toDual pair.1) : Strength)
  rwa [List.map_map, List.map_map] at hmap

theorem dropWeakest_strongest (fileSize : FileSize) (minSegment : MinSegmentBytes)
    {exits : List ExitSpec} (hne : exits ≠ []) :
    let kept := dropWeakest fileSize minSegment exits.length exits
    let k := max 1 (min exits.length (fileSize.value / minSegment.value))
    ¬(1 < kept.length ∧ fileSize.value < kept.length * minSegment.value) ∧
    kept.length = k ∧ kept.Sublist exits ∧
    (kept.map pairOf).Perm ((strongestFirst (exits.map pairOf)).take k) ∧
    ∀ exits', (exits'.map pairOf).Perm (exits.map pairOf) →
      ((dropWeakest fileSize minSegment exits'.length exits').map pairOf).Perm (kept.map pairOf) := by
  intro kept k
  have hkept : kept = select strength k exits := dropWeakest_eq_select le_rfl
  have hpos := List.length_pos_iff.mpr hne
  have hlength : kept.length = k := by
    rw [hkept, length_select]
    omega
  refine ⟨?_, hlength, dropWeakest_sublist _ _ _ _, ?_, ?_⟩
  · rintro ⟨hmany, hsmall⟩
    have hquotient := (Nat.div_lt_iff_lt_mul minSegment.pos).mpr hsmall
    omega
  · have htop := (select_perm_top strength k exits).map ofStrength
    rwa [map_ofStrength, List.map_take, map_descending, ← hkept] at htop
  · intro exits' hperm
    have hcount : exits'.length = exits.length := by simpa using hperm.length_eq
    have hselect := (select_perm strength k (strength_perm hperm)).map ofStrength
    rw [map_ofStrength, map_ofStrength, ← hkept] at hselect
    rw [dropWeakest_eq_select le_rfl, hcount]
    exact hselect

def sampleSize : FileSize := 12

def sampleMinimum : MinSegmentBytes := 10

theorem dropWeakest_strongest_sample :
    ((dropWeakest sampleSize sampleMinimum 2 sampleExits).map pairOf).Perm
      ((strongestFirst (sampleExits.map pairOf)).take 1) :=
  (dropWeakest_strongest sampleSize sampleMinimum (List.cons_ne_nil _ _)).2.2.2.1

end SpiderNet.Fetch
