import Mathlib.Order.Basic
import Mathlib.Order.Lattice
import Mathlib.Algebra.BigOperators.Group.List.Basic
import Mathlib.Algebra.GroupWithZero.Nat
import Mathlib.Data.UInt

namespace SpiderNet

structure NonZero (bits : Nat) where
  value : Nat
  pos : 0 < value
  lt : value < 2 ^ bits

namespace NonZero
variable {bits : Nat}

theorem value_injective : Function.Injective (value : NonZero bits → Nat) := by
  rintro ⟨a, _, _⟩ ⟨b, _, _⟩ h
  simpa using h

instance : LinearOrder (NonZero bits) := LinearOrder.lift' value value_injective

-- numerals wrap around to 1
instance (n : Nat) : OfNat (NonZero (bits + 1)) (n + 1) where
  ofNat := {
    value := n % (2 ^ (bits + 1) - 1) + 1
    pos := Nat.succ_pos _
    lt := by
      have hwide := Nat.one_lt_two_pow (Nat.succ_ne_zero bits)
      have hmod := Nat.mod_lt n (by omega : 0 < 2 ^ (bits + 1) - 1)
      omega
  }

@[simp] theorem value_one : (1 : NonZero (bits + 1)).value = 1 :=
  congrArg (· + 1) (Nat.zero_mod _)

end NonZero

theorem bind_eq_ok {ε α β : Type} {x : Except ε α} {f : α → Except ε β} {result : β} :
    x >>= f = .ok result ↔ ∃ value, x = .ok value ∧ f value = .ok result := by
  cases x with
  | error error => simp [bind, Except.bind]
  | ok value => simp [bind, Except.bind]

theorem map_eq_ok {ε α β : Type} {x : Except ε α} {f : α → β} {result : β} :
    x.map f = .ok result ↔ ∃ value, x = .ok value ∧ f value = result := by
  cases x with
  | error error => simp [Except.map]
  | ok value => simp [Except.map]

theorem ok_bind {ε α β : Type} (value : α) (f : α → Except ε β) :
    (Except.ok value >>= f) = f value := rfl

theorem mapError_eq_ok {ε ε' α : Type} {x : Except ε α} {f : ε → ε'} {value : α} :
    x.mapError f = .ok value ↔ x = .ok value := by
  cases x with
  | error error => simp [Except.mapError]
  | ok given => simp [Except.mapError]

theorem mapM_ok_iff {α β ε : Type} {parse : β → Except ε α} {inputs : List β} {values : List α} :
    inputs.mapM parse = .ok values ↔
      List.Forall₂ (fun input value => parse input = .ok value) inputs values := by
  induction inputs generalizing values with
  | nil =>
    rw [List.mapM_nil, List.forall₂_nil_left_iff]
    exact ⟨fun h => (Except.ok.inj h).symm, fun h => h ▸ rfl⟩
  | cons input rest ih =>
    rw [List.mapM_cons, bind_eq_ok, List.forall₂_cons_left_iff]
    constructor
    · rintro ⟨value, hvalue, h⟩
      obtain ⟨later, hlater, heq⟩ := bind_eq_ok.mp h
      exact ⟨value, later, hvalue, ih.mp hlater, (Except.ok.inj heq).symm⟩
    · rintro ⟨value, later, hvalue, hlater, rfl⟩
      exact ⟨value, hvalue, bind_eq_ok.mpr ⟨later, ih.mpr hlater, rfl⟩⟩

def saturatingSub (a b : UInt64) : UInt64 := if b ≤ a then a - b else 0

theorem toNat_saturatingSub (a b : UInt64) :
    (saturatingSub a b).toNat = a.toNat - b.toNat := by
  unfold saturatingSub
  split_ifs with h
  · exact UInt64.toNat_sub_of_le a b h
  · have hlt : a.toNat < b.toNat := by simpa [UInt64.le_iff_toNat_le] using h
    simp [Nat.sub_eq_zero_of_le hlt.le]

def toU64 (value : Nat) : UInt64 :=
  if value < 2 ^ 64 then UInt64.ofNat value else UInt64.ofNat (2 ^ 64 - 1)

theorem toNat_toU64 {value : Nat} (h : value < 2 ^ 64) : (toU64 value).toNat = value := by
  rw [toU64, if_pos h]
  exact UInt64.toNat_ofNat_of_lt' h

theorem toNat_toU64_min (value : Nat) : (toU64 value).toNat = min value (2 ^ 64 - 1) := by
  rcases Nat.lt_or_ge value (2 ^ 64) with hlt | hge
  · rw [toNat_toU64 hlt]
    omega
  · have hlast : (UInt64.ofNat (2 ^ 64 - 1)).toNat = 2 ^ 64 - 1 := rfl
    rw [toU64, if_neg (not_lt.mpr hge), hlast]
    omega

theorem toNat_sum {xs : List UInt64} (h : (xs.map UInt64.toNat).sum < 2 ^ 64) :
    xs.sum.toNat = (xs.map UInt64.toNat).sum := by
  induction xs with
  | nil => rfl
  | cons x xs ih =>
    simp only [List.map_cons, List.sum_cons] at h ⊢
    rw [UInt64.toNat_add, ih (by omega), Nat.mod_eq_of_lt h]

end SpiderNet
