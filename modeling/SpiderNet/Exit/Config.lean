import SpiderNet.Basic
import Mathlib.Data.Finset.Basic
import Mathlib.Data.Finset.Dedup
import Mathlib.Data.Nat.Digits.Defs

namespace SpiderNet.Exit

structure Ipv4Addr where
  octets : Vector UInt8 4
  deriving DecidableEq

structure Ipv6Addr where
  segments : Vector UInt16 8
  deriving DecidableEq

inductive IpAddr where
  | v4 (addr : Ipv4Addr)
  | v6 (addr : Ipv6Addr)
  deriving DecidableEq

structure SocketAddr where
  ip : IpAddr
  port : UInt16
  deriving DecidableEq

inductive IoErrorKind where
  | timedOut
  | other
  deriving DecidableEq

inductive ExitError where
  | io (kind : IoErrorKind)
  | invalidBind (input : String)
  | invalidSource (input : String)
  | invalidQuota (reason : String)
  | protocolViolation (reason : String)
  deriving DecidableEq

namespace Ipv4Addr

def ofOctets (a b c d : UInt8) : Ipv4Addr := ⟨#v[a, b, c, d]⟩

def isUnspecified (addr : Ipv4Addr) : Bool := addr = ofOctets 0 0 0 0

def isLoopback (addr : Ipv4Addr) : Bool := addr.octets[0] = 127

def isPrivate (addr : Ipv4Addr) : Bool :=
  addr.octets[0] = 10 || (addr.octets[0] = 172 && (16 : UInt8) ≤ addr.octets[1] && addr.octets[1] ≤ (31 : UInt8)) ||
    (addr.octets[0] = 192 && addr.octets[1] = 168)

def isLinkLocal (addr : Ipv4Addr) : Bool := addr.octets[0] = 169 && addr.octets[1] = 254

def isMulticast (addr : Ipv4Addr) : Bool := (224 : UInt8) ≤ addr.octets[0] && addr.octets[0] ≤ (239 : UInt8)

def isBroadcast (addr : Ipv4Addr) : Bool := addr = ofOctets 255 255 255 255

def isDocumentation (addr : Ipv4Addr) : Bool :=
  (addr.octets[0] = 192 && addr.octets[1] = 0 && addr.octets[2] = 2) ||
    (addr.octets[0] = 198 && addr.octets[1] = 51 && addr.octets[2] = 100) ||
    (addr.octets[0] = 203 && addr.octets[1] = 0 && addr.octets[2] = 113)

-- the number whose digits, most significant first, are the octets
def toBits (addr : Ipv4Addr) : ℕ :=
  Nat.ofDigits (2 ^ 8) [addr.octets[3].toNat, addr.octets[2].toNat, addr.octets[1].toNat,
    addr.octets[0].toNat]

theorem toBits_eq (addr : Ipv4Addr) : addr.toBits = addr.octets[0].toNat * 2 ^ 24 +
    addr.octets[1].toNat * 2 ^ 16 + addr.octets[2].toNat * 2 ^ 8 + addr.octets[3].toNat := by
  simp only [toBits, Nat.ofDigits_cons, Nat.ofDigits_nil]
  omega

theorem octets_toNat (addr : Ipv4Addr) : addr.octets[0].toNat = addr.toBits / 2 ^ 24 ∧
    addr.octets[1].toNat = addr.toBits / 2 ^ 16 % 2 ^ 8 ∧
    addr.octets[2].toNat = addr.toBits / 2 ^ 8 % 2 ^ 8 ∧
    addr.octets[3].toNat = addr.toBits % 2 ^ 8 := by
  have h1 := addr.octets[1].toNat_lt
  have h2 := addr.octets[2].toNat_lt
  have h3 := addr.octets[3].toNat_lt
  rw [toBits_eq]
  omega

end Ipv4Addr

namespace Ipv6Addr

def isUnspecified (addr : Ipv6Addr) : Bool := addr = ⟨#v[0, 0, 0, 0, 0, 0, 0, 0]⟩

def isLoopback (addr : Ipv6Addr) : Bool := addr = ⟨#v[0, 0, 0, 0, 0, 0, 0, 1]⟩

def lead (addr : Ipv6Addr) : UInt16 := addr.segments[0]

def isMulticast (addr : Ipv6Addr) : Bool := addr.segments[0] &&& 0xff00 = 0xff00

def toBits (addr : Ipv6Addr) : ℕ :=
  Nat.ofDigits (2 ^ 16) [addr.segments[7].toNat, addr.segments[6].toNat, addr.segments[5].toNat,
    addr.segments[4].toNat, addr.segments[3].toNat, addr.segments[2].toNat, addr.segments[1].toNat,
    addr.segments[0].toNat]

theorem toBits_eq (addr : Ipv6Addr) : addr.toBits = addr.segments[0].toNat * 2 ^ 112 +
    addr.segments[1].toNat * 2 ^ 96 +
    addr.segments[2].toNat * 2 ^ 80 + addr.segments[3].toNat * 2 ^ 64 +
    addr.segments[4].toNat * 2 ^ 48 + addr.segments[5].toNat * 2 ^ 32 +
    addr.segments[6].toNat * 2 ^ 16 + addr.segments[7].toNat := by
  simp only [toBits, Nat.ofDigits_cons, Nat.ofDigits_nil]
  omega

theorem segments_toNat (addr : Ipv6Addr) : addr.segments[0].toNat = addr.toBits / 2 ^ 112 ∧
    addr.segments[1].toNat = addr.toBits / 2 ^ 96 % 2 ^ 16 ∧
    addr.segments[2].toNat = addr.toBits / 2 ^ 80 % 2 ^ 16 ∧
    addr.segments[3].toNat = addr.toBits / 2 ^ 64 % 2 ^ 16 ∧
    addr.segments[4].toNat = addr.toBits / 2 ^ 48 % 2 ^ 16 ∧
    addr.segments[5].toNat = addr.toBits / 2 ^ 32 % 2 ^ 16 ∧
    addr.segments[6].toNat = addr.toBits / 2 ^ 16 % 2 ^ 16 ∧
    addr.segments[7].toNat = addr.toBits % 2 ^ 16 := by
  have h1 := addr.segments[1].toNat_lt
  have h2 := addr.segments[2].toNat_lt
  have h3 := addr.segments[3].toNat_lt
  have h4 := addr.segments[4].toNat_lt
  have h5 := addr.segments[5].toNat_lt
  have h6 := addr.segments[6].toNat_lt
  have h7 := addr.segments[7].toNat_lt
  rw [toBits_eq]
  omega

end Ipv6Addr

-- `to_ipv6_mapped`
def Ipv4Addr.toIpv6Mapped (addr : Ipv4Addr) : Ipv6Addr :=
  ⟨#v[0, 0, 0, 0, 0, 0xffff, addr.octets[0].toUInt16 <<< 8 ||| addr.octets[1].toUInt16,
    addr.octets[2].toUInt16 <<< 8 ||| addr.octets[3].toUInt16]⟩

def IpAddr.isLoopback : IpAddr → Bool
  | .v4 addr => addr.isLoopback
  | .v6 addr => addr.isLoopback

def isPublicV4 (v4 : Ipv4Addr) : Bool :=
  !(v4.isLoopback || v4.isPrivate || v4.isLinkLocal || v4.isUnspecified || v4.isBroadcast ||
    v4.isMulticast || v4.isDocumentation || (v4.octets[0] = 100 && v4.octets[1] &&& 0xc0 = 64) ||
    v4.octets[0] = 0)

def mappedV4 (v6 : Ipv6Addr) : Ipv4Addr :=
  .ofOctets (v6.segments[6] >>> 8).toUInt8 (v6.segments[6] &&& 0xff).toUInt8
    (v6.segments[7] >>> 8).toUInt8 (v6.segments[7] &&& 0xff).toUInt8

def isPublicOrigin : IpAddr → Bool
  | .v4 v4 => isPublicV4 v4
  | .v6 v6 =>
    let segments := v6.segments
    !(v6.isLoopback || v6.isUnspecified || v6.isMulticast || segments[0] &&& 0xffc0 = 0xfe80 ||
      segments[0] &&& 0xfe00 = 0xfc00 || segments[0] &&& 0xfe00 = 0x0200 ||
      (segments[0] = 0 && segments[1] = 0 && segments[2] = 0 && segments[3] = 0 &&
        segments[4] = 0 && segments[5] = 0xffff && !isPublicV4 (mappedV4 v6)))

-- nanoseconds
abbrev Duration := Nat

abbrev Instant := Nat

structure QuotaPolicy where
  maxBytes : UInt64
  window : Duration
  maxBytes_ne : maxBytes ≠ 0
  window_ne : window ≠ 0

def QuotaPolicy.tryNew (maxBytes : UInt64) (window : Duration) : Except ExitError QuotaPolicy :=
  if hbytes : maxBytes = 0 then .error (.invalidQuota "max_bytes must be non-zero")
  else if hwindow : window = 0 then .error (.invalidQuota "window must be non-zero")
  else .ok ⟨maxBytes, window, hbytes, hwindow⟩

structure SourceAllowlist where
  allowed : Finset IpAddr
  allowLoopback : Bool

namespace SourceAllowlist

def loopbackOnly : SourceAllowlist := ⟨∅, true⟩

def new (allowed : List IpAddr) : SourceAllowlist := ⟨allowed.toFinset, false⟩

def isAllowed (allowlist : SourceAllowlist) (source : IpAddr) : Bool :=
  source.isLoopback && allowlist.allowLoopback || source ∈ allowlist.allowed

end SourceAllowlist

inductive OriginPolicy where
  | publicOnly
  | anyForTesting
  deriving DecidableEq

structure ExitConfig where
  bind : SocketAddr
  allowlist : SourceAllowlist
  quota : Option QuotaPolicy
  originPolicy : OriginPolicy

def ExitConfig.new (bind : SocketAddr) (allowlist : SourceAllowlist) (quota : Option QuotaPolicy) :
    ExitConfig := ⟨bind, allowlist, quota, .publicOnly⟩

def ExitConfig.withOriginPolicy (config : ExitConfig) (policy : OriginPolicy) : ExitConfig :=
  { config with originPolicy := policy }

end SpiderNet.Exit
