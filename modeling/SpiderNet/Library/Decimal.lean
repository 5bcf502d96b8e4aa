import Mathlib.Algebra.Group.Nat.Defs
import Mathlib.Data.Char
import Mathlib.Data.List.Lex
import Mathlib.Order.Basic

namespace Decimal

def digit (c : Char) : ℕ := c.toNat - '0'.toNat

def value (cs : List Char) : ℕ := Nat.ofDigitChars 10 cs 0

def padded (width n : ℕ) : List Char := (Nat.toDigits 10 n).leftpad width '0'

-- the grammar of an unsigned integer: an optional plus sign, then at least one digit
def parse (limit : ℕ) (text : List Char) : Option ℕ :=
  let digits := if text.head? = some '+' then text.tail else text
  if digits ≠ [] ∧ digits.all Char.isDigit ∧ value digits < limit then some (value digits) else none

theorem value_cons (c : Char) (cs : List Char) :
    value (c :: cs) = 10 ^ cs.length * digit c + value cs := by
  rw [value, Nat.ofDigitChars_cons, Nat.ofDigitChars_eq_ofDigitChars_zero, Nat.mul_zero, Nat.zero_add]
  rfl

theorem isDigit_bounds {c : Char} (h : c.isDigit) : '0'.toNat ≤ c.toNat ∧ c.toNat ≤ '9'.toNat := by
  simp only [Char.isDigit, Bool.and_eq_true, decide_eq_true_eq, UInt32.le_iff_toNat_le] at h
  exact h

theorem digit_lt {c : Char} (h : c.isDigit) : digit c < 10 := by
  obtain ⟨_, hle⟩ := isDigit_bounds h
  have hnine : '9'.toNat = 57 := rfl
  have hzero : '0'.toNat = 48 := rfl
  unfold digit
  omega

theorem lt_iff_digit_lt {c d : Char} (hc : c.isDigit) (hd : d.isDigit) : c < d ↔ digit c < digit d := by
  obtain ⟨hc, _⟩ := isDigit_bounds hc
  obtain ⟨hd, _⟩ := isDigit_bounds hd
  have hlt : c < d ↔ c.toNat < d.toNat := Iff.rfl
  rw [hlt]
  unfold digit
  omega

theorem eq_of_digit_eq {c d : Char} (hc : c.isDigit) (hd : d.isDigit) (h : digit c = digit d) :
    c = d := by
  obtain ⟨hc, _⟩ := isDigit_bounds hc
  obtain ⟨hd, _⟩ := isDigit_bounds hd
  unfold digit at h
  refine Char.toNat_inj.mp ?_
  omega

theorem value_lt {cs : List Char} (h : ∀ c ∈ cs, c.isDigit) : value cs < 10 ^ cs.length := by
  induction cs with
  | nil => exact Nat.one_pos
  | cons c cs ih =>
    have hdigit := digit_lt (h c (by simp))
    have hrest := ih fun d hd => h d (List.mem_cons_of_mem _ hd)
    have hmul := Nat.mul_le_mul_left (10 ^ cs.length) (Nat.le_of_lt_succ hdigit)
    rw [value_cons, List.length_cons, Nat.pow_succ]
    omega

theorem lt_iff_value_lt {xs ys : List Char} (hlength : xs.length = ys.length)
    (hxs : ∀ c ∈ xs, c.isDigit) (hys : ∀ c ∈ ys, c.isDigit) : xs < ys ↔ value xs < value ys := by
  induction xs generalizing ys with
  | nil =>
    obtain rfl : ys = [] := List.length_eq_zero_iff.mp hlength.symm
    simp
  | cons c cs ih =>
    cases ys with
    | nil => cases hlength
    | cons d ds =>
      have hlengths : cs.length = ds.length := Nat.succ.inj hlength
      have hcs : ∀ c ∈ cs, c.isDigit := fun e he => hxs e (List.mem_cons_of_mem _ he)
      have hds : ∀ c ∈ ds, c.isDigit := fun e he => hys e (List.mem_cons_of_mem _ he)
      have hc := hxs c (by simp)
      have hd := hys d (by simp)
      have hcv := value_lt hcs
      have hdv := value_lt hds
      rw [List.cons_lt_cons_iff, lt_iff_digit_lt hc hd, ih hlengths hcs hds, value_cons, value_cons,
        hlengths]
      rw [hlengths] at hcv
      constructor
      · rintro (hlt | ⟨rfl, hlt⟩)
        · have hmul := Nat.mul_le_mul_left (10 ^ ds.length) (Nat.succ_le_of_lt hlt)
          rw [Nat.mul_succ] at hmul
          omega
        · omega
      · intro hlt
        rcases Nat.lt_trichotomy (digit c) (digit d) with hcd | hcd | hcd
        · exact Or.inl hcd
        · rw [hcd] at hlt
          exact Or.inr ⟨eq_of_digit_eq hc hd hcd, by omega⟩
        · have hmul := Nat.mul_le_mul_left (10 ^ ds.length) (Nat.succ_le_of_lt hcd)
          rw [Nat.mul_succ] at hmul
          omega

theorem padded_isDigit (width n : ℕ) : ∀ c ∈ padded width n, c.isDigit := by
  intro c hc
  rcases List.mem_append.mp hc with hc | hc
  · rw [List.eq_of_mem_replicate hc]
    rfl
  · exact Nat.isDigit_of_mem_toDigits (by decide) (by decide) hc

theorem value_padded (width n : ℕ) : value (padded width n) = n := by
  rw [value, padded, List.leftpad, Nat.ofDigitChars_append, Nat.ofDigitChars_replicate_zero,
    Nat.mul_zero, Nat.ofDigitChars_ten_toDigits]

theorem length_padded {width n : ℕ} (hwidth : 0 < width) (h : n < 10 ^ width) :
    (padded width n).length = width := by
  have hle := (Nat.length_toDigits_le_iff (by decide : 1 < 10) hwidth).mpr h
  rw [padded, List.length_leftpad]
  omega

theorem padded_ne_nil (width n : ℕ) : padded width n ≠ [] :=
  List.append_ne_nil_of_right_ne_nil _ Nat.toDigits_ne_nil

theorem padded_lt_padded {width n m : ℕ} (hwidth : 0 < width) (hn : n < 10 ^ width)
    (hm : m < 10 ^ width) : padded width n < padded width m ↔ n < m := by
  rw [lt_iff_value_lt ((length_padded hwidth hn).trans (length_padded hwidth hm).symm)
    (padded_isDigit _ _) (padded_isDigit _ _), value_padded, value_padded]

theorem parse_padded {limit : ℕ} (width : ℕ) {n : ℕ} (h : n < limit) :
    parse limit (padded width n) = some n := by
  have hplus : (padded width n).head? ≠ some '+' := by
    intro hhead
    have hdigit := padded_isDigit width n '+' (List.mem_of_head? hhead)
    exact absurd hdigit (by decide)
  have hall : (padded width n).all Char.isDigit := List.all_eq_true.mpr (padded_isDigit width n)
  rw [parse, if_neg hplus]
  simp only [ne_eq, padded_ne_nil, not_false_eq_true, hall, value_padded, h, and_self, if_true]

theorem eq_of_value_eq {xs ys : List Char} (hlength : xs.length = ys.length)
    (hxs : ∀ c ∈ xs, c.isDigit) (hys : ∀ c ∈ ys, c.isDigit) (h : value xs = value ys) : xs = ys := by
  rcases lt_trichotomy xs ys with hlt | heq | hgt
  · exact absurd ((lt_iff_value_lt hlength hxs hys).mp hlt) (by omega)
  · exact heq
  · exact absurd ((lt_iff_value_lt hlength.symm hys hxs).mp hgt) (by omega)

theorem toDigits_isDigit {n : ℕ} : ∀ c ∈ Nat.toDigits 10 n, c.isDigit := fun _ hc =>
  Nat.isDigit_of_mem_toDigits (by decide) (by decide) hc

theorem value_toDigits (n : ℕ) : value (Nat.toDigits 10 n) = n := Nat.ofDigitChars_ten_toDigits

-- no sign, and no zero in front of another digit
def Plain (text : List Char) : Prop :=
  text.head? ≠ some '+' ∧ (text.head? = some '0' → text = ['0'])

theorem toDigits_plain (n : ℕ) : Plain (Nat.toDigits 10 n) := by
  refine ⟨fun hplus => ?_, fun hzero => ?_⟩
  · exact absurd (toDigits_isDigit _ (List.mem_of_head? hplus)) (by decide)
  · obtain ⟨rest, hdigits⟩ := List.head?_eq_some_iff.mp hzero
    rcases Nat.eq_zero_or_pos rest.length with hrest | hrest
    · rw [hdigits, List.length_eq_zero_iff.mp hrest]
    · -- the zero in front adds nothing, so one digit less would do
      have hvalue := value_toDigits n
      have hsmall : value rest < 10 ^ rest.length :=
        value_lt fun c hc => toDigits_isDigit (n := n) c (by rw [hdigits]; exact List.mem_cons_of_mem _ hc)
      rw [hdigits, value_cons, show digit '0' = 0 from rfl, Nat.mul_zero, Nat.zero_add] at hvalue
      rw [hvalue] at hsmall
      have hshort := (Nat.length_toDigits_le_iff (by decide : 1 < 10) hrest).mpr hsmall
      rw [hdigits, List.length_cons] at hshort
      omega

theorem length_toDigits_value {c : Char} {rest : List Char} (hdigits : ∀ d ∈ c :: rest, d.isDigit)
    (hlead : c = '0' → rest = []) :
    (Nat.toDigits 10 (value (c :: rest))).length = (c :: rest).length := by
  have hupper := (Nat.length_toDigits_le_iff (by decide : 1 < 10) (Nat.succ_pos rest.length)).mpr
    (value_lt hdigits)
  have hpos := List.length_pos_iff.mpr (Nat.toDigits_ne_nil (b := 10) (n := value (c :: rest)))
  rw [List.length_cons]
  rcases Nat.eq_zero_or_pos rest.length with hrest | hrest
  · omega
  · have hzero : digit c ≠ 0 := fun hzero => by
      have hc := eq_of_digit_eq (hdigits c (by simp)) (by decide : '0'.isDigit) hzero
      rw [hlead hc, List.length_nil] at hrest
      omega
    have hlower : ¬value (c :: rest) < 10 ^ rest.length := by
      rw [value_cons, Nat.not_lt]
      exact (Nat.le_mul_of_pos_right _ (Nat.pos_of_ne_zero hzero)).trans (Nat.le_add_right _ _)
    rw [← Nat.length_toDigits_le_iff (by decide : 1 < 10) hrest] at hlower
    omega

theorem parse_toDigits {limit n : ℕ} (h : n < limit) : parse limit (Nat.toDigits 10 n) = some n := by
  rw [parse, if_neg (toDigits_plain n).1, if_pos ⟨Nat.toDigits_ne_nil,
    List.all_eq_true.mpr toDigits_isDigit, (value_toDigits n).symm ▸ h⟩, value_toDigits]

theorem parse_digits {limit : ℕ} {text : List Char} {n : ℕ} (h : parse limit text = some n) :
    (∀ c ∈ text, c = '+' ∨ c.isDigit) ∧ text ≠ [] := by
  rw [parse] at h
  split_ifs at h with hplus hdigits hdigits
  · obtain ⟨rest, rfl⟩ := List.head?_eq_some_iff.mp hplus
    refine ⟨fun c hc => ?_, List.cons_ne_nil _ _⟩
    exact (List.mem_cons.mp hc).imp id fun hc => List.all_eq_true.mp hdigits.2.1 c hc
  · exact ⟨fun c hc => Or.inr (List.all_eq_true.mp hdigits.2.1 c hc), hdigits.1⟩

-- a text that reads as a number is that number's decimal text exactly if it is plain
theorem eq_toDigits_iff {limit : ℕ} {text : List Char} {n : ℕ} (h : parse limit text = some n) :
    text = Nat.toDigits 10 n ↔ Plain text := by
  refine ⟨fun heq => heq ▸ toDigits_plain n, fun hplain => ?_⟩
  rw [parse, if_neg hplain.1] at h
  split_ifs at h with hdigits
  obtain ⟨hne, hall, _⟩ := hdigits
  have hall := List.all_eq_true.mp hall
  obtain rfl := Option.some.inj h
  obtain ⟨c, rest, rfl⟩ := List.exists_cons_of_ne_nil hne
  have hlead : c = '0' → rest = [] := fun hc => (List.cons.inj (hplain.2 (hc ▸ rfl))).2
  exact eq_of_value_eq (length_toDigits_value hall hlead).symm hall toDigits_isDigit
    (value_toDigits _).symm

end Decimal
