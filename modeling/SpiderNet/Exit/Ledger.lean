import SpiderNet.Exit.Config

namespace SpiderNet.Exit

structure ClientWindow where
  windowStarted : Instant
  usedBytes : UInt64

abbrev QuotaLedger := IpAddr → Option ClientWindow

inductive AdmitDecision where
  | allowed
  | quotaExhausted (retryAfterSecs : Nat)
  deriving DecidableEq

def saturatingAdd (a b : UInt64) : UInt64 :=
  if a.toNat + b.toNat < 2 ^ 64 then a + b else UInt64.ofNat (2 ^ 64 - 1)

theorem toNat_saturatingAdd_le (a b : UInt64) : (saturatingAdd a b).toNat ≤ a.toNat + b.toNat := by
  unfold saturatingAdd
  split_ifs with h
  · rw [UInt64.toNat_add]
    exact Nat.mod_le _ _
  · have hmax : (UInt64.ofNat (2 ^ 64 - 1)).toNat = 2 ^ 64 - 1 := rfl
    omega

def rollWindow (entry : Option ClientWindow) (policy : QuotaPolicy) (now : Instant) : ClientWindow :=
  let window := entry.getD ⟨now, 0⟩
  if policy.window ≤ now - window.windowStarted then ⟨now, 0⟩ else window

theorem window_over_iff {started width time : ℕ} (hwidth : width ≠ 0) :
    width ≤ time - started ↔ started + width ≤ time := by omega

theorem rollWindow_none {policy : QuotaPolicy} {now : Instant} : rollWindow none policy now = ⟨now, 0⟩ := by
  rw [rollWindow]
  split_ifs <;> rfl

theorem rollWindow_some {policy : QuotaPolicy} {now : Instant} {window : ClientWindow} :
    rollWindow (some window) policy now =
      if window.windowStarted + policy.window ≤ now then ⟨now, 0⟩ else window := by
  simp only [rollWindow, Option.getD_some, window_over_iff policy.window_ne]

namespace QuotaLedger

def new : QuotaLedger := fun _ => none

def set (ledger : QuotaLedger) (source : IpAddr) (window : ClientWindow) : QuotaLedger :=
  fun other => if other = source then some window else ledger other

-- `QuotaLedger::admit`; `later` is the clock when `elapsed` reads it again
def admitSource (ledger : QuotaLedger) (source : IpAddr) (quota : Option QuotaPolicy)
    (now later : Instant) : AdmitDecision × QuotaLedger :=
  match quota with
  | none => (.allowed, ledger)
  | some policy =>
    let window := rollWindow (ledger source) policy now
    let ledger := ledger.set source window
    if policy.maxBytes ≤ window.usedBytes then
      let elapsed := later - window.windowStarted
      let remaining := policy.window - elapsed
      (.quotaExhausted (max (remaining / 10 ^ 9) 1), ledger)
    else (.allowed, ledger)

def record (ledger : QuotaLedger) (source : IpAddr) (bytes : UInt64) (quota : Option QuotaPolicy)
    (now : Instant) : QuotaLedger :=
  match quota with
  | none => ledger
  | some policy =>
    let window := rollWindow (ledger source) policy now
    ledger.set source { window with usedBytes := saturatingAdd window.usedBytes bytes }

def usedBytes (ledger : QuotaLedger) (source : IpAddr) : UInt64 :=
  ((ledger source).map ClientWindow.usedBytes).getD 0

@[simp] theorem set_self (ledger : QuotaLedger) (source : IpAddr) (window : ClientWindow) :
    ledger.set source window source = some window := if_pos rfl

theorem set_other (ledger : QuotaLedger) {source other : IpAddr} (window : ClientWindow)
    (h : other ≠ source) : ledger.set source window other = ledger other := if_neg h

theorem rollWindow_used_le (ledger : QuotaLedger) (source : IpAddr) (policy : QuotaPolicy)
    (now : Instant) :
    (rollWindow (ledger source) policy now).usedBytes.toNat ≤ (ledger.usedBytes source).toNat := by
  rw [usedBytes]
  cases ledger source with
  | none =>
    rw [rollWindow_none]
    exact le_rfl
  | some window =>
    rw [rollWindow_some]
    split_ifs
    · exact Nat.zero_le _
    · exact le_rfl

section
variable {ledger : QuotaLedger} {source other : IpAddr} {policy : QuotaPolicy} {now later : Instant}

theorem admitSource_other (quota : Option QuotaPolicy) (h : other ≠ source) :
    (ledger.admitSource source quota now later).2 other = ledger other := by
  cases quota with
  | none => rfl
  | some policy =>
    simp only [admitSource]
    split_ifs <;> exact set_other ledger _ h

theorem record_other (bytes : UInt64) (quota : Option QuotaPolicy) (h : other ≠ source) :
    ledger.record source bytes quota now other = ledger other := by
  cases quota with
  | none => rfl
  | some policy => exact set_other ledger _ h

theorem admitSource_self : (ledger.admitSource source (some policy) now later).2 source =
    some (rollWindow (ledger source) policy now) := by
  simp only [admitSource]
  split_ifs <;> exact set_self ledger source _

theorem admitSource_used_le : ((ledger.admitSource source (some policy) now later).2.usedBytes source).toNat ≤
    (ledger.usedBytes source).toNat := by
  have hused := rollWindow_used_le ledger source policy now
  rwa [usedBytes, admitSource_self, Option.map_some, Option.getD_some]

theorem admitSource_allowed_lt (h : (ledger.admitSource source (some policy) now later).1 = .allowed) :
    ((ledger.admitSource source (some policy) now later).2.usedBytes source).toNat <
      policy.maxBytes.toNat := by
  rw [usedBytes, admitSource_self, Option.map_some, Option.getD_some]
  simp only [admitSource] at h
  split_ifs at h with hfull
  exact not_le.mp hfull

theorem record_used_le (bytes : UInt64) :
    ((ledger.record source bytes (some policy) now).usedBytes source).toNat ≤
      (ledger.usedBytes source).toNat + bytes.toNat := by
  have hused := rollWindow_used_le ledger source policy now
  have hadd := toNat_saturatingAdd_le (rollWindow (ledger source) policy now).usedBytes bytes
  rw [usedBytes, record, set_self, Option.map_some, Option.getD_some]
  exact hadd.trans (Nat.add_le_add_right hused _)

end

theorem usedBytes_congr {ledger ledger' : QuotaLedger} {source : IpAddr}
    (h : ledger' source = ledger source) : ledger'.usedBytes source = ledger.usedBytes source := by
  rw [usedBytes, usedBytes, h]

end QuotaLedger
def samplePolicy : QuotaPolicy := ⟨10, 60, by decide, by decide⟩

end SpiderNet.Exit
