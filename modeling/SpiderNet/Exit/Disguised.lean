import SpiderNet.Exit.PublicOrigin

namespace SpiderNet.Exit

-- the ways to write an IPv4 destination as an IPv6 address
inductive Embedding where
  | mapped
  | compatible
  | nat64
  | sixToFour
  deriving DecidableEq

namespace Embedding

-- ::ffff:0:0/96, ::/96, 64:ff9b::/96 and 2002::/16
def block : Embedding → AddressBlock 128
  | mapped => V6.ipv4Mapped
  | compatible => (.single 0 : AddressBlock 96).widen 32
  | nat64 => (.single (0x0064ff9b * 2 ^ 64) : AddressBlock 96).widen 32
  | sixToFour => (.single 0x2002 : AddressBlock 16).widen 112

-- how many bits follow the embedded address
def trailing : Embedding → ℕ
  | mapped | compatible | nat64 => 0
  | sixToFour => 80

def Carries (embedding : Embedding) (v6 : Ipv6Addr) (v4 : Ipv4Addr) : Prop :=
  embedding.block.Has v6.toBits ∧ v6.toBits / 2 ^ embedding.trailing % 2 ^ 32 = v4.toBits

instance (embedding : Embedding) (v6 : Ipv6Addr) (v4 : Ipv4Addr) :
    Decidable (embedding.Carries v6 v4) :=
  inferInstanceAs (Decidable (_ ∧ _))

end Embedding

section
variable {bits : ℕ}

theorem not_mapped {embedding : Embedding} (h : embedding.block.Has bits) (hne : embedding ≠ .mapped) :
    ¬V6.ipv4Mapped.Has bits := by
  rw [V6.has_ipv4Mapped]
  cases embedding with
  | mapped => exact absurd rfl hne
  | compatible | nat64 | sixToFour =>
    simp only [Embedding.block, AddressBlock.has_widen, AddressBlock.has_single] at h
    omega

theorem compatible_refused_iff (h : Embedding.compatible.block.Has bits) :
    V6.Refused bits ↔ bits ≤ 1 := by
  rw [V6.refused_unmapped (not_mapped h (by decide)), V6.has_refused_iff]
  simp only [Embedding.block, AddressBlock.has_widen, AddressBlock.has_single] at h
  omega

theorem nat64_not_refused (h : Embedding.nat64.block.Has bits) : ¬V6.Refused bits := by
  rw [V6.refused_unmapped (not_mapped h (by decide)), V6.has_refused_iff]
  simp only [Embedding.block, AddressBlock.has_widen, AddressBlock.has_single] at h
  omega

theorem sixToFour_not_refused (h : Embedding.sixToFour.block.Has bits) : ¬V6.Refused bits := by
  rw [V6.refused_unmapped (not_mapped h (by decide)), V6.has_refused_iff]
  simp only [Embedding.block, AddressBlock.has_widen, AddressBlock.has_single] at h
  omega

end

theorem disguised_refused_iff (embedding : Embedding) (v4 : Ipv4Addr) (v6 : Ipv6Addr)
    (hrefused : isPublicOrigin (.v4 v4) = false) (hcarries : embedding.Carries v6 v4) :
    isPublicOrigin (.v6 v6) = false ↔
      embedding = .mapped ∨ embedding = .compatible ∧ v4.toBits ≤ 1 := by
  obtain ⟨hblock, hbits⟩ := hcarries
  rw [isPublicOrigin_v6_iff]
  cases embedding with
  | mapped =>
    rw [Embedding.trailing, Nat.pow_zero, Nat.div_one] at hbits
    rw [V6.refused_mapped hblock, hbits]
    exact iff_of_true ((isPublicV4_iff v4).mp hrefused) (Or.inl rfl)
  | compatible =>
    have hlead := hblock
    simp only [Embedding.block, AddressBlock.has_widen, AddressBlock.has_single] at hlead
    rw [Embedding.trailing, Nat.pow_zero, Nat.div_one, Nat.mod_eq_of_lt (by omega)] at hbits
    rw [compatible_refused_iff hblock, hbits]
    simp
  | nat64 => exact iff_of_false (nat64_not_refused hblock) (by simp)
  | sixToFour => exact iff_of_false (sixToFour_not_refused hblock) (by simp)

def homeRouter : Ipv4Addr := .ofOctets 192 168 1 1

theorem disguised_refused_iff_homeRouter :
    isPublicOrigin (.v6 ⟨#v[0, 0, 0, 0, 0, 0xffff, 0xc0a8, 0x0101]⟩) = false :=
  (disguised_refused_iff .mapped homeRouter ⟨#v[0, 0, 0, 0, 0, 0xffff, 0xc0a8, 0x0101]⟩ (by decide)
    (by decide)).mpr (Or.inl rfl)

-- `64:ff9b::c0a8:101`
theorem disguised_homeRouter_public :
    isPublicOrigin (.v4 homeRouter) = false ∧
    Embedding.nat64.Carries ⟨#v[0x64, 0xff9b, 0, 0, 0, 0, 0xc0a8, 0x0101]⟩ homeRouter ∧
    isPublicOrigin (.v6 ⟨#v[0x64, 0xff9b, 0, 0, 0, 0, 0xc0a8, 0x0101]⟩) = true := by
  decide

end SpiderNet.Exit
