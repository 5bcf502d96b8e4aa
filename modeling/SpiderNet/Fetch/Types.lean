import SpiderNet.Basic

namespace SpiderNet.Fetch

abbrev ExitId := NonZero 8

abbrev ExitWeight := NonZero 32

-- usize in the source, 64 bits wide on the targets it builds for
abbrev SegmentsPerExit := NonZero 64

abbrev MinSegmentBytes := NonZero 64

abbrev FileSize := NonZero 64

structure SegmentIndex where
  value : Nat
  lt : value < 2 ^ 32
  deriving DecidableEq

instance (n : Nat) : OfNat SegmentIndex n := ⟨n % 2 ^ 32, Nat.mod_lt n (Nat.two_pow_pos 32)⟩

structure ByteRange where
  start : Nat
  endInclusive : Nat
  le : start ≤ endInclusive
  deriving DecidableEq

structure TargetUrl where
  url : String
  deriving DecidableEq

inductive Egress where
  | direct
  | proxy (url : String)
  deriving DecidableEq

inductive HttpError where
  | transport
  | status (code : Nat)
  deriving DecidableEq

structure Sha256Digest where
  bytes : Vector UInt8 32
  deriving DecidableEq

def hexDigit (value : Nat) : Char := Nat.digitChar value

def Sha256Digest.toHex (digest : Sha256Digest) : String :=
  .ofList (digest.bytes.toList.flatMap fun byte =>
    [hexDigit (byte.toNat / 16), hexDigit (byte.toNat % 16)])

inductive FetchError where
  | http (error : HttpError)
  | io
  | invalidUrl (input : String)
  | zeroFileSize
  | segmentLengthMismatch (index : SegmentIndex) (got expected : Nat)
  | rangeRejected (exit : ExitId) (index : SegmentIndex) (status : Nat)
  | totalLengthMismatch (got expected : Nat)
  | hashMismatch (expected got : String)
  | invalidPlan (reason : String)
  | unknownExit (exit : ExitId)
  | corruptPart (name : String)
  | invalidDigest
  | segmentAttemptsExhausted (index : SegmentIndex) (attempts : Nat) (lastError : FetchError)

namespace ByteRange

def tryNew (start endInclusive : Nat) : Except FetchError ByteRange :=
  if h : endInclusive < start then
    .error (.invalidPlan s!"range start {start} is after end {endInclusive}")
  else .ok ⟨start, endInclusive, not_lt.mp h⟩

def len (range : ByteRange) : Nat := range.endInclusive - range.start + 1

def isEmpty (_ : ByteRange) : Bool := false

def httpValue (range : ByteRange) : String := s!"bytes={range.start}-{range.endInclusive}"

theorem tryNew_ok {start endInclusive : Nat} (h : start ≤ endInclusive) :
    tryNew start endInclusive = .ok ⟨start, endInclusive, h⟩ := by
  simp [tryNew, not_lt.mpr h]

theorem tryNew_error {start endInclusive : Nat} (h : ¬start ≤ endInclusive) :
    ∃ error, tryNew start endInclusive = .error error := by
  rw [tryNew, dif_pos (not_le.mp h)]
  exact ⟨_, rfl⟩

theorem tryNew_endInclusive {start endInclusive : Nat} {range : ByteRange}
    (h : tryNew start endInclusive = .ok range) : range.endInclusive = endInclusive := by
  by_cases hle : start ≤ endInclusive
  · rw [tryNew_ok hle] at h
    rw [← Except.ok.inj h]
  · obtain ⟨error, herror⟩ := tryNew_error hle
    rw [herror] at h
    cases h

theorem len_eq (range : ByteRange) : range.start + range.len = range.endInclusive + 1 := by
  have hle := range.le
  unfold len
  omega

theorem len_pos (range : ByteRange) : 0 < range.len := Nat.succ_pos _

end ByteRange
end SpiderNet.Fetch
