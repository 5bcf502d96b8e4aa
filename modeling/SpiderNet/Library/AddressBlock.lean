import Mathlib.Data.Nat.Bitwise

-- the numbers of a fixed width that share their leading bits
structure AddressBlock (width : ℕ) where
  base : ℕ
  length : ℕ
  length_le : length ≤ width
  aligned : 2 ^ (width - length) ∣ base

namespace AddressBlock
variable {width : ℕ}

def size (block : AddressBlock width) : ℕ := 2 ^ (width - block.length)

def Has (block : AddressBlock width) (n : ℕ) : Prop := block.base ≤ n ∧ n < block.base + block.size

instance (block : AddressBlock width) (n : ℕ) : Decidable (block.Has n) :=
  inferInstanceAs (Decidable (_ ∧ _))

def single (n : ℕ) : AddressBlock width where
  base := n
  length := width
  length_le := Nat.le_refl _
  aligned := by
    rw [Nat.sub_self]
    exact one_dvd n

-- the block of the same leading bits among wider numbers
def widen (block : AddressBlock width) (more : ℕ) : AddressBlock (width + more) where
  base := block.base * 2 ^ more
  length := block.length
  length_le := block.length_le.trans (Nat.le_add_right _ _)
  aligned := by
    rw [Nat.sub_add_comm block.length_le, Nat.pow_add]
    exact Nat.mul_dvd_mul_right block.aligned _

theorem size_pos (block : AddressBlock width) : 0 < block.size := Nat.two_pow_pos _

theorem has_iff_div (block : AddressBlock width) (n : ℕ) :
    block.Has n ↔ n / block.size * block.size = block.base := by
  obtain ⟨lead, hbase⟩ := block.aligned
  have hpos := block.size_pos
  have hdivision := Nat.div_add_mod n block.size
  have hmod := Nat.mod_lt n hpos
  have hlead : block.base = lead * block.size := by rw [hbase, Nat.mul_comm, size]
  rw [Has, hlead]
  constructor
  · rintro ⟨hle, hlt⟩
    rw [← Nat.succ_mul] at hlt
    have hquotient : n / block.size = lead := by
      apply Nat.div_eq_of_lt_le
      · exact hle
      · exact hlt
    rw [hquotient]
  · intro h
    rw [← h]
    rw [Nat.mul_comm] at hdivision
    omega

theorem size_widen (block : AddressBlock width) (more : ℕ) :
    (block.widen more).size = block.size * 2 ^ more := by
  rw [size, size, widen, ← Nat.pow_add, Nat.sub_add_comm block.length_le]

theorem has_widen (block : AddressBlock width) (more n : ℕ) :
    (block.widen more).Has n ↔ block.Has (n / 2 ^ more) := by
  have hpos := Nat.two_pow_pos more
  have hbase : (block.widen more).base = block.base * 2 ^ more := rfl
  rw [Has, Has, size_widen, hbase, ← Nat.add_mul, Nat.le_div_iff_mul_le hpos,
    Nat.div_lt_iff_lt_mul hpos]

@[simp] theorem has_single (n m : ℕ) : (single n : AddressBlock width).Has m ↔ m = n := by
  have hsize : (single n : AddressBlock width).size = 1 := by rw [size, single, Nat.sub_self, Nat.pow_zero]
  have hbase : (single n : AddressBlock width).base = n := rfl
  rw [Has, hsize, hbase]
  omega

-- the mask that keeps the bits above the lowest `low`
theorem and_highMask {low n : ℕ} (hlow : low ≤ width) (hn : n < 2 ^ width) :
    n &&& (2 ^ width - 2 ^ low) = n / 2 ^ low * 2 ^ low := by
  have hmask : 2 ^ width - 2 ^ low = (2 ^ (width - low) - 1) <<< low := by
    rw [Nat.shiftLeft_eq, Nat.sub_mul, Nat.one_mul, ← Nat.pow_add, Nat.sub_add_cancel hlow]
  apply Nat.eq_of_testBit_eq
  intro i
  rw [hmask, Nat.testBit_and, Nat.testBit_shiftLeft, Nat.testBit_two_pow_sub_one, Nat.testBit_mul_two_pow,
    Nat.testBit_div_two_pow]
  rcases Nat.lt_or_ge i low with hi | hi
  · simp [not_le.mpr hi]
  · rcases Nat.lt_or_ge i width with hwidth | hwidth
    · have hshift : i - low < width - low := by omega
      simp [hi, hshift, Nat.sub_add_cancel hi]
    · have hbit := Nat.testBit_lt_two_pow (hn.trans_le (Nat.pow_le_pow_right (by decide) hwidth))
      simp [hbit, Nat.sub_add_cancel hi]

theorem has_iff_mask (block : AddressBlock width) {n : ℕ} (hn : n < 2 ^ width) :
    block.Has n ↔ n &&& (2 ^ width - block.size) = block.base := by
  rw [has_iff_div, size, and_highMask (Nat.sub_le _ _) hn]

end AddressBlock
