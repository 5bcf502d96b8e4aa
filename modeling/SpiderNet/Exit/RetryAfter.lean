import SpiderNet.Exit.Traffic
import SpiderNet.Exit.Windows

namespace SpiderNet.Exit
open FixedWindow

def nanosPerSec : ℕ := 10 ^ 9

-- a remainder in whole units, at least one, falls short unless it is exact or at most one
theorem le_floored_iff {remaining unit : ℕ} :
    remaining ≤ max (remaining / unit) 1 * unit ↔ remaining ≤ unit ∨ unit ∣ remaining := by
  rw [max_mul, one_mul, le_max_iff, or_comm]
  refine or_congr_right ?_
  rw [Nat.dvd_iff_div_mul_eq]
  have := Nat.div_mul_le_self remaining unit
  omega

theorem wait_reaches_iff {started width later unit : ℕ} (hstarted : started ≤ later) :
    started + width ≤ later + max ((width - (later - started)) / unit) 1 * unit ↔
      started + width ≤ later + unit ∨ unit ∣ started + width - later := by
  have hremaining : width - (later - started) = started + width - later := by omega
  rw [hremaining, ← Nat.sub_le_iff_le_add', le_floored_iff, Nat.sub_le_iff_le_add']

section
variable {policy : QuotaPolicy} {ledger : QuotaLedger} {source : IpAddr} {window : ClientWindow}
  {now later : Instant}

def Exhausted (policy : QuotaPolicy) (window : ClientWindow) (now : Instant) : Prop :=
  policy.maxBytes ≤ window.usedBytes ∧ now < window.windowStarted + policy.window

def retryAfterSecs (policy : QuotaPolicy) (window : ClientWindow) (later : Instant) : ℕ :=
  max ((policy.window - (later - window.windowStarted)) / nanosPerSec) 1

theorem maxBytes_pos (policy : QuotaPolicy) : ¬policy.maxBytes ≤ 0 := fun hle =>
  policy.maxBytes_ne (UInt64.le_antisymm hle UInt64.zero_le)

theorem admitSource_exhausted (hledger : ledger source = some window) (h : Exhausted policy window now) :
    (ledger.admitSource source (some policy) now later).1 =
        .quotaExhausted (retryAfterSecs policy window later) ∧
      (ledger.admitSource source (some policy) now later).2 source = some window := by
  have hroll : rollWindow (ledger source) policy now = window := by
    rw [hledger, rollWindow_some, if_neg (Nat.not_le.mpr h.2)]
  refine ⟨?_, QuotaLedger.admitSource_self.trans (congrArg some hroll)⟩
  simp only [QuotaLedger.admitSource, hroll, h.1, if_true]
  rfl

theorem exhausted_of_refused {secs : ℕ}
    (h : (ledger.admitSource source (some policy) now later).1 = .quotaExhausted secs) :
    ∃ window, ledger source = some window ∧ Exhausted policy window now := by
  simp only [QuotaLedger.admitSource] at h
  split_ifs at h with hfull
  cases hledger : ledger source with
  | none =>
    rw [hledger, rollWindow_none] at hfull
    exact absurd hfull (maxBytes_pos policy)
  | some window =>
    rw [hledger, rollWindow_some] at hfull
    split_ifs at hfull with hover
    · exact absurd hfull (maxBytes_pos policy)
    · exact ⟨window, rfl, hfull, Nat.not_le.mp hover⟩

theorem admitSource_after (hledger : ledger source = some window)
    (hfull : policy.maxBytes ≤ window.usedBytes) :
    (ledger.admitSource source (some policy) now later).1 = .allowed ↔
      window.windowStarted + policy.window ≤ now := by
  by_cases hover : window.windowStarted + policy.window ≤ now
  · refine iff_of_true ?_ hover
    simp only [QuotaLedger.admitSource, hledger, rollWindow_some, if_pos hover,
      if_neg (maxBytes_pos policy)]
  · refine iff_of_false ?_ hover
    rw [(admitSource_exhausted hledger ⟨hfull, Nat.not_le.mp hover⟩).1]
    intro hanswer
    cases hanswer

theorem foldl_apply_other {between : List LedgerOp} (h : ∀ op ∈ between, op.source ≠ source) :
    between.foldl (LedgerOp.apply policy) ledger source = ledger source := by
  induction between generalizing ledger with
  | nil => rfl
  | cons op rest ih =>
    rw [List.foldl_cons, ih fun other hother => h other (List.mem_cons_of_mem _ hother)]
    exact LedgerOp.apply_other (h op List.mem_cons_self).symm

theorem windowStarted_le {ops : List LedgerOp}
    (hsorted : NonDecreasing (ops ++ [.admitSource source now later]))
    (h : ledgerAfter policy ops source = some window) : window.windowStarted ≤ now := by
  rw [ledgerAfter_stored, stored, Option.map_eq_some_iff] at h
  obtain ⟨⟨first, block⟩, hcurrent, rfl⟩ := h
  have hfirst : first ∈ ops :=
    List.mem_of_mem_filter ((current_suffix hcurrent).1.subset List.mem_cons_self)
  exact (List.pairwise_append.mp hsorted).2.2 first hfirst _ (List.mem_singleton_self _)

end

-- no operation of the source between the refusal and the next attempt
def HonestRetry (policy : QuotaPolicy) (ops : List LedgerOp) (source : IpAddr) (now later : Instant) :
    Prop :=
  ∀ secs, answer policy ops source now later = .quotaExhausted secs →
    ∀ between : List LedgerOp, (∀ op ∈ between, op.source ≠ source) → ∀ now' later' : Instant,
      later + secs * nanosPerSec ≤ now' →
      answer policy (ops ++ .admitSource source now later :: between) source now' later' = .allowed

def WholeSecondsLeft (policy : QuotaPolicy) (window : ClientWindow) (later : Instant) : Prop :=
  window.windowStarted + policy.window ≤ later + nanosPerSec ∨
    nanosPerSec ∣ window.windowStarted + policy.window - later

theorem answer_retried {policy : QuotaPolicy} {ops between : List LedgerOp} {source : IpAddr}
    {now later now' later' : Instant} {window : ClientWindow}
    (hledger : ledgerAfter policy ops source = some window) (h : Exhausted policy window now)
    (hbetween : ∀ op ∈ between, op.source ≠ source) :
    answer policy (ops ++ .admitSource source now later :: between) source now' later' = .allowed ↔
      window.windowStarted + policy.window ≤ now' := by
  have hkept : ledgerAfter policy (ops ++ .admitSource source now later :: between) source =
      some window := by
    rw [ledgerAfter, List.foldl_append, List.foldl_cons, foldl_apply_other hbetween]
    exact (admitSource_exhausted hledger h).2
  exact admitSource_after hkept h.1

theorem retryAfter_honest_iff {policy : QuotaPolicy} {ops : List LedgerOp} {source : IpAddr}
    {now later : Instant} (hsorted : NonDecreasing (ops ++ [.admitSource source now later]))
    (hlater : now ≤ later) : HonestRetry policy ops source now later ↔
      ∀ window, ledgerAfter policy ops source = some window → Exhausted policy window now →
        WholeSecondsLeft policy window later := by
  have hreaches : ∀ window, ledgerAfter policy ops source = some window →
      (window.windowStarted + policy.window ≤ later + retryAfterSecs policy window later * nanosPerSec ↔
        WholeSecondsLeft policy window later) := fun window hledger =>
    wait_reaches_iff ((windowStarted_le hsorted hledger).trans hlater)
  constructor
  · intro h window hledger hexhausted
    refine (hreaches window hledger).mp ?_
    have hallowed := h _ (admitSource_exhausted hledger hexhausted).1 [] (by simp) _ 0 le_rfl
    exact (answer_retried hledger hexhausted (by simp)).mp hallowed
  · intro h secs hrefused between hbetween now' later' hwait
    obtain ⟨window, hledger, hexhausted⟩ := exhausted_of_refused hrefused
    obtain rfl := AdmitDecision.quotaExhausted.inj
      (hrefused.symm.trans (admitSource_exhausted hledger hexhausted).1)
    refine (answer_retried hledger hexhausted hbetween).mpr (le_trans ?_ hwait)
    exact (hreaches window hledger).mpr (h window hledger hexhausted)

theorem retryAfter_honest_whole : HonestRetry tightQuota [.record neighbor 10 0] neighbor
    (1800 * 10 ^ 9) (1800 * 10 ^ 9) := by
  refine (retryAfter_honest_iff (by simp [NonDecreasing, LedgerOp.now]) le_rfl).mpr ?_
  intro window hledger _
  obtain rfl : (⟨0, 10⟩ : ClientWindow) = window := Option.some.inj hledger
  exact Or.inr (by decide)

theorem retryAfter_early : ¬HonestRetry tightQuota [.record neighbor 10 0] neighbor
    (5 * 10 ^ 8) (5 * 10 ^ 8) := by
  intro h
  have hallowed := h 3599 (by decide) [] (by simp) (35995 * 10 ^ 8) 0 (by decide)
  exact absurd hallowed (by decide)

end SpiderNet.Exit
