import Mathlib.Algebra.GroupWithZero.Nat
import Mathlib.Algebra.Order.BigOperators.Group.List
import Mathlib.Algebra.Order.Group.Nat

-- unsigned arithmetic of a fixed width; `none` is a step that leaves its type
namespace Machine

def fit (bits n : ℕ) : Option ℕ := if n < 2 ^ bits then some n else none

def add (bits a b : ℕ) : Option ℕ := fit bits (a + b)

def mul (bits a b : ℕ) : Option ℕ := fit bits (a * b)

def sub (a b : ℕ) : Option ℕ := if b ≤ a then some (a - b) else none

def div (a b : ℕ) : Option ℕ := if b = 0 then none else some (a / b)

def rem (a b : ℕ) : Option ℕ := if b = 0 then none else some (a % b)

def sum (bits : ℕ) (xs : List ℕ) : Option ℕ := xs.foldlM (add bits) 0

theorem fit_some {bits n : ℕ} (h : n < 2 ^ bits) : fit bits n = some n := if_pos h

theorem add_some {bits a b : ℕ} (h : a + b < 2 ^ bits) : add bits a b = some (a + b) := fit_some h

theorem mul_some {bits a b : ℕ} (h : a * b < 2 ^ bits) : mul bits a b = some (a * b) := fit_some h

theorem mul_none {bits a b : ℕ} (h : 2 ^ bits ≤ a * b) : mul bits a b = none := if_neg (not_lt.mpr h)

theorem sub_some {a b : ℕ} (h : b ≤ a) : sub a b = some (a - b) := if_pos h

theorem div_some {a b : ℕ} (h : 0 < b) : div a b = some (a / b) := if_neg h.ne'

theorem rem_some {a b : ℕ} (h : 0 < b) : rem a b = some (a % b) := if_neg h.ne'

theorem foldlM_add {bits start : ℕ} {xs : List ℕ} (h : start + xs.sum < 2 ^ bits) :
    xs.foldlM (add bits) start = some (start + xs.sum) := by
  induction xs generalizing start with
  | nil => rfl
  | cons x rest ih =>
    rw [List.sum_cons, ← Nat.add_assoc] at h ⊢
    have hstep : add bits start x = some (start + x) := add_some (by omega)
    rw [List.foldlM_cons, hstep]
    exact ih h

theorem sum_some {bits : ℕ} {xs : List ℕ} (h : xs.sum < 2 ^ bits) : sum bits xs = some xs.sum := by
  have hfold := @foldlM_add bits 0 xs (by rwa [Nat.zero_add])
  rwa [Nat.zero_add] at hfold

theorem sum_lt {bits width count : ℕ} {xs : List ℕ} (hlength : xs.length ≤ 2 ^ count)
    (h : ∀ x ∈ xs, x < 2 ^ width) (hbits : count + width < bits) : xs.sum < 2 ^ bits := by
  have hbound := List.sum_le_card_nsmul xs (2 ^ width) fun x hx => (h x hx).le
  calc xs.sum ≤ xs.length * 2 ^ width := hbound
    _ ≤ 2 ^ count * 2 ^ width := Nat.mul_le_mul_right _ hlength
    _ = 2 ^ (count + width) := (Nat.pow_add ..).symm
    _ < 2 ^ bits := Nat.pow_lt_pow_right (by decide) hbits

end Machine
