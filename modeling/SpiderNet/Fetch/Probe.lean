import SpiderNet.Fetch.Runner

namespace SpiderNet.Fetch

-- what `probe` looks at; a header that is not visible ASCII counts as absent
structure HeadHeaders where
  contentLength : Option Text
  acceptRanges : Option Text

-- the reply to the HEAD request, and the status of the one to a GET of `bytes=0-0`
structure ProbeReplies where
  head : Option (Nat × HeadHeaders)
  ranged : Option Nat

def advertised (acceptRanges : Option Text) : Option RangeSupport :=
  match acceptRanges.map trim with
  | none => none
  | some value =>
    if value = "bytes".toList then some .supported
    else if value = "none".toList then some .unsupported
    else none

def rangeAnswer (status : Nat) : RangeSupport :=
  if status = 206 then .supported else if status = 200 then .unsupported else .unknown

def announcedLength (contentLength : Option Text) : Option FileSize :=
  (contentLength.bind (Decimal.parse (2 ^ 64))).bind fun len => (FileSize.tryNew len).toOption

def probe (replies : ProbeReplies) : Except FetchError ProbeInfo :=
  match replies.head with
  | none => .error (.http .transport)
  | some (status, headers) =>
    if 400 ≤ status ∧ status < 600 then .error (.http (.status status))
    else
      match advertised headers.acceptRanges with
      | some support => .ok ⟨support, announcedLength headers.contentLength⟩
      | none =>
        match replies.ranged with
        | none => .error (.http .transport)
        | some status => .ok ⟨rangeAnswer status, announcedLength headers.contentLength⟩

theorem tryNew_value {value : ℕ} {size : FileSize} (h : FileSize.tryNew value = .ok size) :
    size.value = value := by
  rw [FileSize.tryNew] at h
  split_ifs at h
  rw [← Except.ok.inj h]

theorem probe_length {replies : ProbeReplies} {info : ProbeInfo} (h : probe replies = .ok info) :
    ∃ status headers, replies.head = some (status, headers) ∧
      info.contentLength = announcedLength headers.contentLength := by
  rw [probe] at h
  cases hhead : replies.head with
  | none =>
    rw [hhead] at h
    cases h
  | some reply =>
    obtain ⟨status, headers⟩ := reply
    simp only [hhead] at h
    split_ifs at h with hstatus
    refine ⟨status, headers, rfl, ?_⟩
    cases hadvertised : advertised headers.acceptRanges with
    | some support =>
      rw [hadvertised] at h
      rw [← Except.ok.inj h]
    | none =>
      rw [hadvertised] at h
      cases hranged : replies.ranged with
      | none =>
        rw [hranged] at h
        cases h
      | some answered =>
        rw [hranged] at h
        rw [← Except.ok.inj h]

end SpiderNet.Fetch
