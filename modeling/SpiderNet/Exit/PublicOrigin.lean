import SpiderNet.Exit.Config
import SpiderNet.Library.AddressBlock

namespace SpiderNet.Exit

def dotted (a b c d : ℕ) : ℕ := Nat.ofDigits (2 ^ 8) [d, c, b, a]

theorem dotted_eq (a b c d : ℕ) : dotted a b c d = a * 2 ^ 24 + b * 2 ^ 16 + c * 2 ^ 8 + d := by
  simp only [dotted, Nat.ofDigits_cons, Nat.ofDigits_nil]
  omega

namespace V4

def thisNetwork : AddressBlock 32 := ⟨dotted 0 0 0 0, 8, by decide, by decide⟩

def private8 : AddressBlock 32 := ⟨dotted 10 0 0 0, 8, by decide, by decide⟩

def cgnat : AddressBlock 32 := ⟨dotted 100 64 0 0, 10, by decide, by decide⟩

-- what the second octet of `cgnat` may be
def cgnatOctet : AddressBlock 8 := ⟨64, 2, by decide, by decide⟩

def loopback : AddressBlock 32 := ⟨dotted 127 0 0 0, 8, by decide, by decide⟩

def linkLocal : AddressBlock 32 := ⟨dotted 169 254 0 0, 16, by decide, by decide⟩

def private12 : AddressBlock 32 := ⟨dotted 172 16 0 0, 12, by decide, by decide⟩

def private16 : AddressBlock 32 := ⟨dotted 192 168 0 0, 16, by decide, by decide⟩

def documentation1 : AddressBlock 32 := ⟨dotted 192 0 2 0, 24, by decide, by decide⟩

def documentation2 : AddressBlock 32 := ⟨dotted 198 51 100 0, 24, by decide, by decide⟩

def documentation3 : AddressBlock 32 := ⟨dotted 203 0 113 0, 24, by decide, by decide⟩

def multicast : AddressBlock 32 := ⟨dotted 224 0 0 0, 4, by decide, by decide⟩

def broadcast : AddressBlock 32 := .single (dotted 255 255 255 255)

def refused : List (AddressBlock 32) :=
  [thisNetwork, private8, cgnat, loopback, linkLocal, private12, private16, documentation1,
    documentation2, documentation3, multicast, broadcast]

def Refused (bits : ℕ) : Prop := ∃ block ∈ refused, block.Has bits

end V4

namespace V6

def unspecified : AddressBlock 128 := .single 0

def loopback : AddressBlock 128 := .single 1

-- blocks of the first segment

def linkLocal : AddressBlock 16 := ⟨0xfe80, 10, by decide, by decide⟩

def uniqueLocal : AddressBlock 16 := ⟨0xfc00, 7, by decide, by decide⟩

def multicast : AddressBlock 16 := ⟨0xff00, 8, by decide, by decide⟩

def overlay : AddressBlock 16 := ⟨0x0200, 7, by decide, by decide⟩

def refused : List (AddressBlock 128) :=
  [loopback, unspecified, multicast.widen 112, linkLocal.widen 112, uniqueLocal.widen 112,
    overlay.widen 112]

-- ::ffff:0:0/96
def ipv4Mapped : AddressBlock 128 := (.single 0xffff : AddressBlock 96).widen 32

def Refused (bits : ℕ) : Prop :=
  (∃ block ∈ refused, block.Has bits) ∨ ipv4Mapped.Has bits ∧ V4.Refused (bits % 2 ^ 32)

theorem has_ipv4Mapped (bits : ℕ) : ipv4Mapped.Has bits ↔ bits / 2 ^ 32 = 0xffff :=
  (AddressBlock.has_widen _ _ _).trans (AddressBlock.has_single _ _)

end V6

namespace Ipv4Addr
variable (addr : Ipv4Addr)

theorem toBits_lt : addr.toBits < 2 ^ 32 := by
  have h0 := addr.octets[0].toNat_lt
  have h1 := addr.octets[1].toNat_lt
  have h2 := addr.octets[2].toNat_lt
  have h3 := addr.octets[3].toNat_lt
  rw [toBits_eq]
  omega

theorem toBits_injective : Function.Injective toBits := by
  intro addr other h
  obtain ⟨h0, h1, h2, h3⟩ := addr.octets_toNat
  obtain ⟨h0', h1', h2', h3'⟩ := other.octets_toNat
  rw [h] at h0 h1 h2 h3
  obtain ⟨octets⟩ := addr
  obtain ⟨octets'⟩ := other
  refine congrArg mk (Vector.ext fun i hi => UInt8.toNat_inj.mp ?_)
  match i, hi with
  | 0, _ => exact h0.trans h0'.symm
  | 1, _ => exact h1.trans h1'.symm
  | 2, _ => exact h2.trans h2'.symm
  | 3, _ => exact h3.trans h3'.symm

theorem eq_iff_toBits (other : Ipv4Addr) : addr = other ↔ addr.toBits = other.toBits :=
  toBits_injective.eq_iff.symm

section
variable {addr}

theorem isUnspecified_iff : addr.isUnspecified = true ↔ addr.toBits = 0 := by
  rw [isUnspecified, decide_eq_true_eq, eq_iff_toBits]
  rfl

theorem isBroadcast_iff : addr.isBroadcast = true ↔ V4.broadcast.Has addr.toBits := by
  have hbits : (ofOctets 255 255 255 255).toBits = dotted 255 255 255 255 := rfl
  rw [isBroadcast, decide_eq_true_eq, eq_iff_toBits, hbits]
  exact (AddressBlock.has_single _ _).symm

theorem isLoopback_iff : addr.isLoopback = true ↔ V4.loopback.Has addr.toBits := by
  obtain ⟨h0, _, _, _⟩ := addr.octets_toNat
  simp only [isLoopback, decide_eq_true_eq, ← UInt8.toNat_inj, h0, UInt8.reduceToNat,
    AddressBlock.Has, AddressBlock.size, V4.loopback, dotted_eq]
  omega

theorem isLinkLocal_iff : addr.isLinkLocal = true ↔ V4.linkLocal.Has addr.toBits := by
  obtain ⟨h0, h1, _, _⟩ := addr.octets_toNat
  simp only [isLinkLocal, Bool.and_eq_true, decide_eq_true_eq, ← UInt8.toNat_inj, h0, h1,
    UInt8.reduceToNat, AddressBlock.Has, AddressBlock.size, V4.linkLocal, dotted_eq]
  omega

theorem isMulticast_iff : addr.isMulticast = true ↔ V4.multicast.Has addr.toBits := by
  obtain ⟨h0, _, _, _⟩ := addr.octets_toNat
  simp only [isMulticast, Bool.and_eq_true, decide_eq_true_eq, UInt8.le_iff_toNat_le, h0,
    UInt8.reduceToNat, AddressBlock.Has, AddressBlock.size, V4.multicast, dotted_eq]
  omega

theorem isPrivate_iff : addr.isPrivate = true ↔ V4.private8.Has addr.toBits ∨
    V4.private12.Has addr.toBits ∨ V4.private16.Has addr.toBits := by
  obtain ⟨h0, h1, _, _⟩ := addr.octets_toNat
  simp only [isPrivate, Bool.or_eq_true, Bool.and_eq_true, decide_eq_true_eq, ← UInt8.toNat_inj,
    UInt8.le_iff_toNat_le, h0, h1, UInt8.reduceToNat, AddressBlock.Has, AddressBlock.size, V4.private8,
    V4.private12, V4.private16, dotted_eq]
  omega

theorem isDocumentation_iff : addr.isDocumentation = true ↔ V4.documentation1.Has addr.toBits ∨
    V4.documentation2.Has addr.toBits ∨ V4.documentation3.Has addr.toBits := by
  obtain ⟨h0, h1, h2, _⟩ := addr.octets_toNat
  simp only [isDocumentation, Bool.or_eq_true, Bool.and_eq_true, decide_eq_true_eq, ← UInt8.toNat_inj,
    h0, h1, h2, UInt8.reduceToNat, AddressBlock.Has, AddressBlock.size, V4.documentation1,
    V4.documentation2, V4.documentation3, dotted_eq]
  omega

end

end Ipv4Addr

section
variable {first second : UInt8} {bits : ℕ} (hfirst : first.toNat = bits / 2 ^ 24)
include hfirst

theorem cgnat_iff (hsecond : second.toNat = bits / 2 ^ 16 % 2 ^ 8) :
    (first = 100 ∧ second &&& 0xc0 = 64) ↔ V4.cgnat.Has bits := by
  have hmask : second &&& 0xc0 = 64 ↔ 64 ≤ second.toNat ∧ second.toNat < 128 := by
    rw [← UInt8.toNat_inj, UInt8.toNat_and]
    exact (V4.cgnatOctet.has_iff_mask second.toNat_lt).symm
  rw [hmask, ← UInt8.toNat_inj, hfirst, hsecond]
  simp only [UInt8.reduceToNat, AddressBlock.Has, AddressBlock.size, V4.cgnat, dotted_eq]
  omega

theorem thisNetwork_iff : first = 0 ↔ V4.thisNetwork.Has bits := by
  rw [← UInt8.toNat_inj, hfirst]
  simp only [UInt8.reduceToNat, AddressBlock.Has, AddressBlock.size, V4.thisNetwork, dotted_eq]
  omega

end

theorem isPublicV4_iff (addr : Ipv4Addr) : isPublicV4 addr = false ↔ V4.Refused addr.toBits := by
  have hzero : addr.toBits = 0 → V4.thisNetwork.Has addr.toBits := fun h => by
    rw [h]
    decide
  obtain ⟨h0, h1, _, _⟩ := addr.octets_toNat
  simp only [isPublicV4, Bool.not_eq_false', Bool.or_eq_true, Bool.and_eq_true, decide_eq_true_eq,
    Ipv4Addr.isLoopback_iff, Ipv4Addr.isPrivate_iff, Ipv4Addr.isLinkLocal_iff,
    Ipv4Addr.isUnspecified_iff, Ipv4Addr.isBroadcast_iff, Ipv4Addr.isMulticast_iff,
    Ipv4Addr.isDocumentation_iff, cgnat_iff h0 h1, thisNetwork_iff h0, V4.Refused, V4.refused,
    List.mem_cons, List.not_mem_nil, or_false, exists_eq_or_imp, exists_eq_left]
  grind

namespace Ipv6Addr
variable (addr : Ipv6Addr)

theorem toBits_injective : Function.Injective toBits := by
  intro addr other h
  obtain ⟨h0, h1, h2, h3, h4, h5, h6, h7⟩ := addr.segments_toNat
  obtain ⟨h0', h1', h2', h3', h4', h5', h6', h7'⟩ := other.segments_toNat
  rw [h] at h0 h1 h2 h3 h4 h5 h6 h7
  obtain ⟨segments⟩ := addr
  obtain ⟨segments'⟩ := other
  refine congrArg mk (Vector.ext fun i hi => UInt16.toNat_inj.mp ?_)
  match i, hi with
  | 0, _ => exact h0.trans h0'.symm
  | 1, _ => exact h1.trans h1'.symm
  | 2, _ => exact h2.trans h2'.symm
  | 3, _ => exact h3.trans h3'.symm
  | 4, _ => exact h4.trans h4'.symm
  | 5, _ => exact h5.trans h5'.symm
  | 6, _ => exact h6.trans h6'.symm
  | 7, _ => exact h7.trans h7'.symm

theorem eq_iff_toBits (other : Ipv6Addr) : addr = other ↔ addr.toBits = other.toBits :=
  toBits_injective.eq_iff.symm

section
variable {addr}

theorem isUnspecified_iff : addr.isUnspecified = true ↔ V6.unspecified.Has addr.toBits := by
  have hbits : toBits ⟨#v[0, 0, 0, 0, 0, 0, 0, 0]⟩ = 0 := rfl
  rw [isUnspecified, decide_eq_true_eq, eq_iff_toBits, hbits]
  exact (AddressBlock.has_single _ _).symm

theorem isLoopback_iff : addr.isLoopback = true ↔ V6.loopback.Has addr.toBits := by
  have hbits : toBits ⟨#v[0, 0, 0, 0, 0, 0, 0, 1]⟩ = 1 := rfl
  rw [isLoopback, decide_eq_true_eq, eq_iff_toBits, hbits]
  exact (AddressBlock.has_single _ _).symm

theorem segment_mask_iff (block : AddressBlock 16) {segment mask value : UInt16} {bits : ℕ}
    (hmask : mask.toNat = 2 ^ 16 - block.size) (hvalue : value.toNat = block.base)
    (hsegment : segment.toNat = bits / 2 ^ 112) :
    segment &&& mask = value ↔ (block.widen 112).Has bits := by
  rw [AddressBlock.has_widen, ← hsegment, block.has_iff_mask segment.toNat_lt, ← UInt16.toNat_inj,
    UInt16.toNat_and, hmask, hvalue]

theorem highOctet (segment : UInt16) : (segment >>> 8).toUInt8.toNat = segment.toNat / 2 ^ 8 := by
  have hlt := segment.toNat_lt
  have hshift : (8 : UInt16).toNat % 16 = 8 := rfl
  rw [UInt16.toNat_toUInt8, UInt16.toNat_shiftRight, hshift, Nat.shiftRight_eq_div_pow]
  omega

theorem lowOctet (segment : UInt16) : (segment &&& 0xff).toUInt8.toNat = segment.toNat % 2 ^ 8 := by
  have hmask : (0xff : UInt16).toNat = 2 ^ 8 - 1 := rfl
  rw [UInt16.toNat_toUInt8, UInt16.toNat_and, hmask, Nat.and_two_pow_sub_one_eq_mod, Nat.mod_mod]

theorem toBits_mappedV4 : (mappedV4 addr).toBits = addr.toBits % 2 ^ 32 := by
  obtain ⟨_, _, _, _, _, _, h6, h7⟩ := addr.segments_toNat
  have hoctets : (mappedV4 addr).toBits = (addr.segments[6] >>> 8).toUInt8.toNat * 2 ^ 24 +
      (addr.segments[6] &&& 0xff).toUInt8.toNat * 2 ^ 16 +
      (addr.segments[7] >>> 8).toUInt8.toNat * 2 ^ 8 + (addr.segments[7] &&& 0xff).toUInt8.toNat :=
    (mappedV4 addr).toBits_eq
  rw [hoctets, highOctet, lowOctet, highOctet, lowOctet, h6, h7]
  omega

end

end Ipv6Addr

theorem isPublicOrigin_v6_iff (addr : Ipv6Addr) :
    isPublicOrigin (.v6 addr) = false ↔ V6.Refused addr.toBits := by
  obtain ⟨h0, h1, h2, h3, h4, h5, _, _⟩ := addr.segments_toNat
  have hmapped : (addr.segments[0] = 0 ∧ addr.segments[1] = 0 ∧ addr.segments[2] = 0 ∧
      addr.segments[3] = 0 ∧ addr.segments[4] = 0 ∧ addr.segments[5] = 0xffff) ↔
      V6.ipv4Mapped.Has addr.toBits := by
    rw [V6.has_ipv4Mapped]
    simp only [← UInt16.toNat_inj, h0, h1, h2, h3, h4, h5, UInt16.reduceToNat]
    omega
  have hrefused := isPublicV4_iff (mappedV4 addr)
  rw [Ipv6Addr.toBits_mappedV4] at hrefused
  have hmulticast := @Ipv6Addr.segment_mask_iff V6.multicast _ 0xff00 0xff00 _ rfl rfl h0
  have hlinkLocal := @Ipv6Addr.segment_mask_iff V6.linkLocal _ 0xffc0 0xfe80 _ rfl rfl h0
  have huniqueLocal := @Ipv6Addr.segment_mask_iff V6.uniqueLocal _ 0xfe00 0xfc00 _ rfl rfl h0
  have hoverlay := @Ipv6Addr.segment_mask_iff V6.overlay _ 0xfe00 0x0200 _ rfl rfl h0
  simp only [isPublicOrigin, Bool.not_eq_false', Bool.not_eq_true', Bool.or_eq_true, Bool.and_eq_true,
    decide_eq_true_eq, Ipv6Addr.isMulticast, Ipv6Addr.isLoopback_iff, Ipv6Addr.isUnspecified_iff,
    hmulticast, hlinkLocal, huniqueLocal, hoverlay, hrefused, V6.Refused, V6.refused, List.mem_cons,
    List.not_mem_nil, or_false, exists_eq_or_imp, exists_eq_left, ← hmapped, and_assoc, or_assoc]

-- the blocks of IPv6 other than the mapped one, as intervals of the number and its first segment
theorem V6.has_refused_iff (bits : ℕ) : (∃ block ∈ V6.refused, block.Has bits) ↔
    bits ≤ 1 ∨ 0xff00 ≤ bits / 2 ^ 112 ∧ bits / 2 ^ 112 < 0x10000 ∨
      0xfe80 ≤ bits / 2 ^ 112 ∧ bits / 2 ^ 112 < 0xfec0 ∨
      0xfc00 ≤ bits / 2 ^ 112 ∧ bits / 2 ^ 112 < 0xfe00 ∨
      0x0200 ≤ bits / 2 ^ 112 ∧ bits / 2 ^ 112 < 0x0400 := by
  simp only [V6.refused, List.mem_cons, List.not_mem_nil, or_false, exists_eq_or_imp, exists_eq_left,
    AddressBlock.has_widen, V6.loopback, V6.unspecified, AddressBlock.has_single]
  generalize bits / 2 ^ 112 = lead
  simp only [AddressBlock.Has, AddressBlock.size, V6.multicast, V6.linkLocal, V6.uniqueLocal, V6.overlay]
  omega

theorem V6.refused_unmapped {bits : ℕ} (h : ¬V6.ipv4Mapped.Has bits) :
    V6.Refused bits ↔ ∃ block ∈ V6.refused, block.Has bits := by
  rw [V6.Refused, or_iff_left fun hrefused => h hrefused.1]

theorem V6.refused_mapped {bits : ℕ} (h : V6.ipv4Mapped.Has bits) :
    V6.Refused bits ↔ V4.Refused (bits % 2 ^ 32) := by
  have hnone : ¬∃ block ∈ V6.refused, block.Has bits := by
    rw [V6.has_refused_iff]
    rw [V6.has_ipv4Mapped] at h
    omega
  rw [V6.Refused, or_iff_right hnone, and_iff_right h]

theorem toNat_octetPair (high low : UInt8) :
    (high.toUInt16 <<< 8 ||| low.toUInt16).toNat = high.toNat * 2 ^ 8 + low.toNat := by
  have hhigh := high.toNat_lt
  have hlow := low.toNat_lt
  have hshift : (8 : UInt16).toNat % 16 = 8 := rfl
  have hfits : high.toNat * 2 ^ 8 % 2 ^ 16 = high.toNat * 2 ^ 8 := Nat.mod_eq_of_lt (by omega)
  rw [UInt16.toNat_or, UInt16.toNat_shiftLeft, hshift, UInt8.toNat_toUInt16, UInt8.toNat_toUInt16,
    Nat.shiftLeft_eq, hfits, ← Nat.shiftLeft_eq, ← Nat.shiftLeft_add_eq_or_of_lt hlow]

theorem Ipv4Addr.toBits_toIpv6Mapped (addr : Ipv4Addr) :
    addr.toIpv6Mapped.toBits = 0xffff * 2 ^ 32 + addr.toBits := by
  have hdigits : addr.toIpv6Mapped.toBits = Nat.ofDigits (2 ^ 16)
      [(addr.octets[2].toUInt16 <<< 8 ||| addr.octets[3].toUInt16).toNat,
        (addr.octets[0].toUInt16 <<< 8 ||| addr.octets[1].toUInt16).toNat, 0xffff, 0, 0, 0, 0, 0] := rfl
  rw [hdigits, toNat_octetPair, toNat_octetPair, toBits_eq]
  simp only [Nat.ofDigits_cons, Nat.ofDigits_nil]
  omega

theorem public_origin_blocks :
    (∀ addr : Ipv4Addr, isPublicOrigin (.v4 addr) = false ↔ V4.Refused addr.toBits) ∧
    (∀ addr : Ipv6Addr, isPublicOrigin (.v6 addr) = false ↔ V6.Refused addr.toBits) ∧
    ∀ addr : Ipv4Addr, isPublicOrigin (.v4 addr) = isPublicOrigin (.v6 addr.toIpv6Mapped) := by
  refine ⟨isPublicV4_iff, isPublicOrigin_v6_iff, fun addr => ?_⟩
  have hlt := addr.toBits_lt
  have hmapped : V6.ipv4Mapped.Has addr.toIpv6Mapped.toBits := by
    rw [V6.has_ipv4Mapped, Ipv4Addr.toBits_toIpv6Mapped]
    omega
  have hlow : addr.toIpv6Mapped.toBits % 2 ^ 32 = addr.toBits := by
    rw [Ipv4Addr.toBits_toIpv6Mapped]
    omega
  have hsame : isPublicOrigin (.v4 addr) = false ↔ isPublicOrigin (.v6 addr.toIpv6Mapped) = false := by
    rw [isPublicOrigin_v6_iff, V6.refused_mapped hmapped, hlow]
    exact isPublicV4_iff addr
  exact Bool.eq_iff_iff.mpr (by simpa using not_congr hsame)

end SpiderNet.Exit
