import SpiderNet.Fair.Model
import SpiderNet.Library.WaterLevel
import Mathlib.Data.Rat.Floor
import Mathlib.Algebra.Order.Floor.Semifield
import Mathlib.Algebra.BigOperators.Ring.Finset
import Mathlib.Data.Nat.Cast.Order.Field

namespace SpiderNet.Fair
open WaterLevel

def Entry.want (entry : Entry) : ℚ := entry.demand.toNat

def Entry.pull (entry : Entry) : ℚ := entry.weight.value

def demandTotal (entries : List Entry) : ℕ := (entries.map (·.demand.toNat)).sum

def metAt (level : ℚ) (entry : Entry) : Bool := decide (entry.want ≤ level * entry.pull)

def unmetAt (level : ℚ) (entries : List Entry) : List Entry :=
  entries.filter fun entry => !metAt level entry

def floorShare (level : ℚ) (entry : Entry) : ℕ := ⌊level * entry.pull⌋₊

def earlier (entries : List Entry) (entry : Entry) : ℕ :=
  (entries.filter fun other => other.id < entry.id).length

structure WaterFilled (capacity : ℕ) (entries : List Entry) (rates : Rates) (level : ℚ) : Prop where
  fills : Fills Entry.want Entry.pull entries capacity level
  met : ∀ entry ∈ entries, metAt level entry → rates.get? entry.id = some entry.demand
  unmet : ∃ remainder, demandTotal (entries.filter (metAt level)) +
      ((unmetAt level entries).map (floorShare level)).sum + remainder = capacity ∧
    remainder < (unmetAt level entries).length ∧
    ∀ entry ∈ unmetAt level entries, (rates.get? entry.id).map UInt64.toNat =
      some (floorShare level entry +
        if earlier (unmetAt level entries) entry < remainder then 1 else 0)

theorem pull_pos (entry : Entry) : 0 < entry.pull := Nat.cast_pos.mpr entry.weight.pos

theorem pull_sum (entries : List Entry) :
    (entries.map Entry.pull).sum = (totalWeight entries : ℚ) := by
  simp only [totalWeight, Nat.cast_list_sum, List.map_map]
  rfl

theorem want_sum (entries : List Entry) :
    (entries.map Entry.want).sum = (demandTotal entries : ℚ) := by
  simp only [demandTotal, Nat.cast_list_sum, List.map_map]
  rfl

theorem toNat_demands {entries : List Entry} (h : demandTotal entries < 2 ^ 64) :
    ((entries.map Entry.demand).sum).toNat = demandTotal entries := by
  have heq : (entries.map Entry.demand).map UInt64.toNat = entries.map (·.demand.toNat) := by simp
  rw [demandTotal, ← heq] at h ⊢
  exact toNat_sum h

theorem totalWeight_pos {entries : List Entry} (h : entries ≠ []) : 0 < totalWeight entries := by
  cases entries with
  | nil => exact absurd rfl h
  | cons entry rest =>
    have := entry.weight.pos
    simp only [totalWeight, List.map_cons, List.sum_cons]
    omega

theorem weight_le_total {entries : List Entry} {entry : Entry} (h : entry ∈ entries) :
    entry.weight.value ≤ totalWeight entries :=
  List.single_le_sum (by simp) _ (List.mem_map_of_mem h)

theorem share_eq_floor (capacity : UInt64) (total : ℕ) (entry : Entry) :
    share capacity total entry = floorShare (capacity.toNat / total) entry := by
  have hmul : (capacity.toNat / total : ℚ) * entry.pull =
      ((capacity.toNat * entry.weight.value : ℕ) : ℚ) / (total : ℚ) := by
    rw [Entry.pull, div_mul_eq_mul_div]
    norm_cast
  rw [share, floorShare, hmul, Nat.floor_div_eq_div]

theorem satisfied_eq_metAt (capacity : UInt64) (total : ℕ) (entry : Entry) :
    satisfied capacity total entry = metAt (capacity.toNat / total) entry := by
  have hnonneg : (0 : ℚ) ≤ capacity.toNat / total * entry.pull :=
    mul_nonneg (by positivity) (pull_pos entry).le
  rw [satisfied, metAt, share_eq_floor, decide_eq_decide]
  exact Nat.le_floor_iff hnonneg

theorem share_le_capacity {capacity : UInt64} {active : List Entry} {entry : Entry}
    (h : entry ∈ active) : share capacity (totalWeight active) entry ≤ capacity.toNat :=
  Nat.div_le_of_le_mul (by
    rw [Nat.mul_comm]
    exact Nat.mul_le_mul_right _ (weight_le_total h))

section
variable {rate : Entry → UInt64} {entries : List Entry}

theorem get?_insertAll_of_not_mem {result : Rates} {id : ParticipantId}
    (h : id ∉ entries.map (·.id)) : (insertAll rate entries result).get? id = result.get? id := by
  induction entries generalizing result with
  | nil => rfl
  | cons entry rest ih =>
    simp only [List.map_cons, List.mem_cons, not_or] at h
    rw [insertAll, List.foldl_cons]
    exact (ih h.2).trans (OrdMap.get?_insert_ne _ (Ne.symm h.1) _)

theorem get?_insertAll_of_mem {result : Rates} (hids : (entries.map (·.id)).Nodup)
    {entry : Entry} (h : entry ∈ entries) :
    (insertAll rate entries result).get? entry.id = some (rate entry) := by
  induction entries generalizing result with
  | nil => simp at h
  | cons head rest ih =>
    obtain ⟨hhead, hrest⟩ := List.nodup_cons.mp hids
    rw [insertAll, List.foldl_cons]
    rcases List.mem_cons.mp h with rfl | h
    · exact (get?_insertAll_of_not_mem hhead).trans (OrdMap.get?_insert_self _ _ _)
    · exact ih hrest h

end

theorem handOut_spec {active : List Entry} {result : Rates} {remainder : ℕ} (handedOut : ℕ)
    (hids : (active.map (·.id)).Nodup)
    (hroom : ∀ entry ∈ active, ∃ allocation, result.get? entry.id = some allocation ∧
      allocation < entry.demand)
    (hle : remainder ≤ active.length) :
    (handOut active result remainder handedOut).2 = (0, handedOut + remainder) ∧
    (∀ id, id ∉ (active.take remainder).map (·.id) →
      (handOut active result remainder handedOut).1.get? id = result.get? id) ∧
    ∀ entry ∈ active.take remainder,
      (handOut active result remainder handedOut).1.get? entry.id =
        (result.get? entry.id).map (· + 1) := by
  induction active generalizing result remainder handedOut with
  | nil =>
    obtain rfl : remainder = 0 := by simpa using hle
    simp [handOut]
  | cons entry rest ih =>
    cases remainder with
    | zero => simp [handOut]
    | succ remainder =>
      obtain ⟨hentry, hrest⟩ := List.nodup_cons.mp hids
      obtain ⟨allocation, hget, hlt⟩ := hroom entry (by simp)
      have hne : ∀ other ∈ rest, entry.id ≠ other.id :=
        fun other ho heq => hentry (List.mem_map.mpr ⟨other, ho, heq.symm⟩)
      have hroom' : ∀ other ∈ rest, ∃ a,
          (result.insert entry.id (allocation + 1)).get? other.id = some a ∧ a < other.demand := by
        intro other ho
        rw [OrdMap.get?_insert_ne _ (hne other ho)]
        exact hroom other (List.mem_cons_of_mem _ ho)
      have hlen : remainder ≤ rest.length := by simpa using hle
      obtain ⟨hcount, hframe, hgain⟩ := ih (handedOut + 1) hrest hroom' hlen
      have hstep : handOut (entry :: rest) result (remainder + 1) handedOut =
          handOut rest (result.insert entry.id (allocation + 1)) remainder (handedOut + 1) := by
        simp [handOut, hget, hlt]
      have hsub : ∀ id, id ∈ (rest.take remainder).map (·.id) → id ∈ rest.map (·.id) :=
        fun id hid => ((List.take_sublist _ _).map _).subset hid
      rw [hstep]
      refine ⟨by rw [hcount]; congr 1; omega, ?_, ?_⟩
      · intro id hid
        simp only [List.take_succ_cons, List.map_cons, List.mem_cons, not_or] at hid
        rw [hframe id hid.2, OrdMap.get?_insert_ne _ (Ne.symm hid.1)]
      · intro other ho
        rcases List.mem_cons.mp (by simpa using ho) with rfl | ho
        · rw [hframe _ (fun h => hentry (hsub _ h)), OrdMap.get?_insert_self, hget]
          rfl
        · rw [hgain other ho, OrdMap.get?_insert_ne _ (hne other (List.mem_of_mem_take ho))]

theorem spreadRemainder_eq {active : List Entry} {result : Rates} {remainder : ℕ}
    (hids : (active.map (·.id)).Nodup)
    (hroom : ∀ entry ∈ active, ∃ allocation, result.get? entry.id = some allocation ∧
      allocation < entry.demand)
    (hle : remainder ≤ active.length) :
    spreadRemainder remainder active remainder result = (handOut active result remainder 0).1 := by
  cases remainder with
  | zero => cases active <;> rfl
  | succ remainder =>
    have hcount := (handOut_spec 0 hids hroom hle).1
    rw [spreadRemainder, if_pos (Nat.succ_pos _)]
    rcases hout : handOut active result (remainder + 1) 0 with ⟨after, left, handed⟩
    rw [hout] at hcount
    obtain ⟨rfl, rfl⟩ : left = 0 ∧ handed = remainder + 1 := by simpa using hcount
    cases remainder <;> simp [spreadRemainder]

end SpiderNet.Fair
