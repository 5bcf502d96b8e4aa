import SpiderNet.Exit.Ledger
import SpiderNet.Library.FixedWindow
import Mathlib.Algebra.Order.BigOperators.Group.List
import Mathlib.Algebra.Order.Group.Nat

namespace SpiderNet.Exit
open FixedWindow

inductive LedgerOp where
  | admitSource (source : IpAddr) (now later : Instant)
  | record (source : IpAddr) (bytes : UInt64) (now : Instant)
  deriving DecidableEq

namespace LedgerOp

def source : LedgerOp → IpAddr
  | .admitSource source _ _ => source
  | .record source _ _ => source

def now : LedgerOp → Instant
  | .admitSource _ now _ => now
  | .record _ _ now => now

def bytes : LedgerOp → UInt64
  | .admitSource _ _ _ => 0
  | .record _ bytes _ => bytes

def apply (policy : QuotaPolicy) (ledger : QuotaLedger) : LedgerOp → QuotaLedger
  | .admitSource source now later => (ledger.admitSource source (some policy) now later).2
  | .record source bytes now => ledger.record source bytes (some policy) now

end LedgerOp

def ledgerAfter (policy : QuotaPolicy) (ops : List LedgerOp) : QuotaLedger :=
  ops.foldl (LedgerOp.apply policy) .new

def answer (policy : QuotaPolicy) (ops : List LedgerOp) (source : IpAddr) (now later : Instant) :
    AdmitDecision :=
  ((ledgerAfter policy ops).admitSource source (some policy) now later).1

def NonDecreasing (ops : List LedgerOp) : Prop :=
  ops.Pairwise fun earlier later => earlier.now ≤ later.now

def ownOps (source : IpAddr) (ops : List LedgerOp) : List LedgerOp :=
  ops.filter fun op => op.source = source

def recorded (ops : List LedgerOp) : ℕ := (ops.map fun op => op.bytes.toNat).sum

-- the source's window that holds its `admit` at `now`
def windowAt (policy : QuotaPolicy) (ops : List LedgerOp) (source : IpAddr) (now later : Instant) :
    List LedgerOp :=
  match current LedgerOp.now policy.window (ownOps source ops ++ [.admitSource source now later]) with
  | none => []
  | some (first, block) => first :: block

-- histories that leave the source a window opened at the same instant with the same records
def SameWindow (policy : QuotaPolicy) (source : IpAddr) (ops ops' : List LedgerOp) : Prop :=
  match current LedgerOp.now policy.window (ownOps source ops),
    current LedgerOp.now policy.window (ownOps source ops') with
  | none, none => True
  | some (first, block), some (first', block') => first.now = first'.now ∧
      ((first :: block).map LedgerOp.bytes).Perm ((first' :: block').map LedgerOp.bytes)
  | _, _ => False

structure WindowLaw (policy : QuotaPolicy) (ops : List LedgerOp) (source : IpAddr)
    (now later : Instant) : Prop where
  own : ∀ ops', ownOps source ops' = ownOps source ops →
    answer policy ops' source now later = answer policy ops source now later
  allowed : answer policy ops source now later = .allowed ↔
    recorded (windowAt policy ops source now later) < policy.maxBytes.toNat
  order : ∀ before before' after, ops = before ++ after → SameWindow policy source before before' →
    answer policy (before' ++ after) source now later = answer policy ops source now later
  refused : answer policy ops source now later ≠ .allowed → policy.maxBytes.toNat ≤
    recorded ((ownOps source ops).filter fun op => now < op.now + policy.window)

def capped (total : ℕ) : UInt64 := UInt64.ofNat (min total (2 ^ 64 - 1))

theorem toNat_capped (total : ℕ) : (capped total).toNat = min total (2 ^ 64 - 1) :=
  UInt64.toNat_ofNat_of_lt' (lt_of_le_of_lt (min_le_right _ _) (by decide))

theorem saturatingAdd_capped (total : ℕ) (bytes : UInt64) :
    saturatingAdd (capped total) bytes = capped (total + bytes.toNat) := by
  have hbytes := bytes.toNat_lt
  apply UInt64.toNat_inj.mp
  rw [toNat_capped, saturatingAdd]
  split_ifs with hfits
  · rw [UInt64.toNat_add, toNat_capped, Nat.mod_eq_of_lt (by rwa [toNat_capped] at hfits)]
    rw [toNat_capped] at hfits
    omega
  · rw [toNat_capped] at hfits
    have hmax : (UInt64.ofNat (2 ^ 64 - 1)).toNat = 2 ^ 64 - 1 := rfl
    omega

def stored (window : Option (LedgerOp × List LedgerOp)) : Option ClientWindow :=
  window.map fun (first, block) => ⟨first.now, capped (recorded (first :: block))⟩

theorem recorded_append (xs ys : List LedgerOp) : recorded (xs ++ ys) = recorded xs + recorded ys := by
  rw [recorded, List.map_append, List.sum_append]
  rfl

theorem recorded_le_of_sublist {xs ys : List LedgerOp} (h : List.Sublist xs ys) :
    recorded xs ≤ recorded ys := by
  have hmap : List.Sublist (xs.map fun op => op.bytes.toNat) (ys.map fun op => op.bytes.toNat) := h.map _
  exact hmap.sum_le_sum fun _ _ => Nat.zero_le _

section
variable {policy : QuotaPolicy}

theorem rollWindow_stored (window : Option (LedgerOp × List LedgerOp)) (op : LedgerOp) :
    rollWindow (stored window) policy op.now =
      match window with
      | none => ⟨op.now, 0⟩
      | some (first, block) =>
        if During LedgerOp.now policy.window first op then
          ⟨first.now, capped (recorded (first :: block))⟩
        else ⟨op.now, 0⟩ := by
  cases window with
  | none => exact rollWindow_none
  | some opened =>
    obtain ⟨first, block⟩ := opened
    refine rollWindow_some.trans ?_
    by_cases hduring : op.now < first.now + policy.window
    · rw [if_neg (Nat.not_le.mpr hduring)]
      exact (if_pos (decide_eq_true hduring)).symm
    · rw [if_pos (Nat.not_lt.mp hduring)]
      exact (if_neg fun h => hduring (of_decide_eq_true h)).symm

theorem LedgerOp.apply_other {ledger : QuotaLedger} {op : LedgerOp} {source : IpAddr}
    (h : source ≠ op.source) : op.apply policy ledger source = ledger source := by
  cases op with
  | admitSource other now later =>
    have hother : source ≠ other := h
    exact QuotaLedger.admitSource_other (some policy) hother
  | record other bytes now =>
    have hother : source ≠ other := h
    exact QuotaLedger.record_other bytes (some policy) hother

theorem saturatingAdd_zero (bytes : UInt64) : saturatingAdd bytes 0 = bytes := by
  have hfits : bytes.toNat + (0 : UInt64).toNat < 2 ^ 64 := bytes.toNat_lt
  rw [saturatingAdd, if_pos hfits, UInt64.add_zero]

theorem LedgerOp.apply_asked (ledger : QuotaLedger) (source : IpAddr) (now later : Instant) :
    (LedgerOp.admitSource source now later).apply policy ledger source =
      some (rollWindow (ledger source) policy now) := QuotaLedger.admitSource_self

theorem LedgerOp.apply_self (ledger : QuotaLedger) (op : LedgerOp) :
    op.apply policy ledger op.source = some { rollWindow (ledger op.source) policy op.now with
      usedBytes := saturatingAdd (rollWindow (ledger op.source) policy op.now).usedBytes op.bytes } := by
  cases op with
  | admitSource source now later =>
    rw [LedgerOp.bytes, saturatingAdd_zero]
    exact LedgerOp.apply_asked ledger source now later
  | record source bytes now => exact QuotaLedger.set_self _ _ _

theorem LedgerOp.apply_congr {ledger ledger' : QuotaLedger} {source : IpAddr} (op : LedgerOp)
    (h : ledger source = ledger' source) :
    op.apply policy ledger source = op.apply policy ledger' source := by
  by_cases hsource : source = op.source
  · subst hsource
    rw [op.apply_self, op.apply_self, h]
  · rw [LedgerOp.apply_other hsource, LedgerOp.apply_other hsource, h]

theorem foldl_apply_congr {ledger ledger' : QuotaLedger} {source : IpAddr} (ops : List LedgerOp)
    (h : ledger source = ledger' source) :
    ops.foldl (LedgerOp.apply policy) ledger source =
      ops.foldl (LedgerOp.apply policy) ledger' source := by
  induction ops generalizing ledger ledger' with
  | nil => exact h
  | cons op rest ih => exact ih (op.apply_congr h)

theorem saturatingAdd_empty (bytes : UInt64) : saturatingAdd 0 bytes = capped bytes.toNat := by
  have hzero : (0 : UInt64) = capped 0 := rfl
  rw [hzero, saturatingAdd_capped, Nat.zero_add]

-- the ledger keeps, for each source, when its current window opened and the sum of its records
theorem ledgerAfter_stored (ops : List LedgerOp) (source : IpAddr) :
    ledgerAfter policy ops source =
      stored (current LedgerOp.now policy.window (ownOps source ops)) := by
  induction ops using List.reverseRecOn with
  | nil =>
    rw [ownOps, List.filter_nil, current_nil]
    rfl
  | append_singleton ops op ih =>
    have hlast : ledgerAfter policy (ops ++ [op]) = op.apply policy (ledgerAfter policy ops) := by
      rw [ledgerAfter, List.foldl_append]
      rfl
    rw [hlast, ownOps, List.filter_append]
    by_cases hsource : source = op.source
    · subst hsource
      have hown : [op].filter (fun other => other.source = op.source) = [op] := by simp
      rw [op.apply_self, ih, rollWindow_stored, hown, ← ownOps, current_snoc]
      cases current LedgerOp.now policy.window (ownOps op.source ops) with
      | none =>
        simp [stored, recorded, saturatingAdd_empty]
      | some opened =>
        obtain ⟨first, block⟩ := opened
        simp only
        split_ifs with hduring
        · simp only [stored, Option.map_some, saturatingAdd_capped]
          rw [← List.cons_append, recorded_append]
          simp [recorded]
        · simp [stored, recorded, saturatingAdd_empty]
    · have hnone : [op].filter (fun other => other.source = source) = [] := by
        simp [Ne.symm hsource]
      rw [LedgerOp.apply_other hsource, ih, hnone, List.append_nil, ownOps]

theorem answer_congr {ops ops' : List LedgerOp} {source : IpAddr} {now later : Instant}
    (h : ledgerAfter policy ops' source = ledgerAfter policy ops source) :
    answer policy ops' source now later = answer policy ops source now later := by
  simp only [answer, QuotaLedger.admitSource, h]
  split_ifs <;> rfl

theorem SameWindow.stored_eq {source : IpAddr} {ops ops' : List LedgerOp}
    (h : SameWindow policy source ops ops') :
    ledgerAfter policy ops' source = ledgerAfter policy ops source := by
  rw [ledgerAfter_stored, ledgerAfter_stored]
  rw [SameWindow] at h
  cases hcurrent : current LedgerOp.now policy.window (ownOps source ops) with
  | none =>
    cases hcurrent' : current LedgerOp.now policy.window (ownOps source ops') with
    | none => rfl
    | some opened =>
      rw [hcurrent, hcurrent'] at h
      exact h.elim
  | some opened =>
    cases hcurrent' : current LedgerOp.now policy.window (ownOps source ops') with
    | none =>
      rw [hcurrent, hcurrent'] at h
      exact h.elim
    | some opened' =>
      rw [hcurrent, hcurrent'] at h
      obtain ⟨hnow, hperm⟩ := h
      have hsum : recorded (opened.1 :: opened.2) = recorded (opened'.1 :: opened'.2) := by
        have hbytes := (hperm.map UInt64.toNat).sum_eq
        rwa [List.map_map, List.map_map] at hbytes
      simp only [stored, Option.map_some, hnow, hsum]

theorem answer_allowed_iff (ops : List LedgerOp) (source : IpAddr) (now later : Instant) :
    answer policy ops source now later = .allowed ↔
      recorded (windowAt policy ops source now later) < policy.maxBytes.toNat := by
  have hmax := policy.maxBytes.toNat_lt
  have hledger := @ledgerAfter_stored policy (ops ++ [.admitSource source now later]) source
  have hown : ownOps source (ops ++ [.admitSource source now later]) =
      ownOps source ops ++ [.admitSource source now later] := by
    rw [ownOps, List.filter_append]
    simp [ownOps, LedgerOp.source]
  rw [ledgerAfter, List.foldl_append, ← ledgerAfter, hown] at hledger
  have hrolled := (LedgerOp.apply_asked (ledgerAfter policy ops) source now later).symm.trans hledger
  have hused : (rollWindow (ledgerAfter policy ops source) policy now).usedBytes =
      capped (recorded (windowAt policy ops source now later)) := by
    rw [windowAt]
    cases hcurrent : current LedgerOp.now policy.window
      (ownOps source ops ++ [.admitSource source now later]) with
    | none =>
      rw [hcurrent] at hrolled
      cases hrolled
    | some opened =>
      rw [hcurrent] at hrolled
      rw [Option.some.inj hrolled]
  simp only [answer, QuotaLedger.admitSource]
  rw [hused]
  split_ifs with hfull
  · have hle := UInt64.le_iff_toNat_le.mp hfull
    rw [toNat_capped] at hle
    refine ⟨fun hanswer => ?_, fun hlt => by omega⟩
    cases hanswer
  · have hlt := Nat.lt_of_not_le fun hle => hfull (UInt64.le_iff_toNat_le.mpr hle)
    rw [toNat_capped] at hlt
    exact ⟨fun _ => by omega, fun _ => rfl⟩

theorem windowAt_recorded_le {ops : List LedgerOp} {source : IpAddr} {now later : Instant}
    (hsorted : NonDecreasing (ops ++ [.admitSource source now later])) :
    recorded (windowAt policy ops source now later) ≤
      recorded ((ownOps source ops).filter fun op => now < op.now + policy.window) := by
  have hown : NonDecreasing (ownOps source ops ++ [.admitSource source now later]) :=
    List.Pairwise.sublist (List.filter_sublist.append_right _) hsorted
  rw [windowAt]
  cases hcurrent : current LedgerOp.now policy.window
    (ownOps source ops ++ [.admitSource source now later]) with
  | none => exact Nat.zero_le _
  | some opened =>
    obtain ⟨first, block⟩ := opened
    have hrecent := current_recent (Nat.pos_of_ne_zero policy.window_ne) hown hcurrent
    have hsub : List.Sublist (first :: block) ((ownOps source ops ++
        [LedgerOp.admitSource source now later]).filter fun op => now < op.now + policy.window) := by
      have hall : (first :: block).filter (fun op => now < op.now + policy.window) = first :: block :=
        List.filter_eq_self.mpr fun op hop => decide_eq_true (hrecent op hop)
      rw [← hall]
      exact (current_suffix hcurrent).1.sublist.filter _
    have hle := recorded_le_of_sublist hsub
    rw [List.filter_append, recorded_append] at hle
    have hlast : recorded ([LedgerOp.admitSource source now later].filter
        fun op => now < op.now + policy.window) = 0 := by
      rw [List.filter_cons]
      split_ifs <;> rfl
    rwa [hlast, Nat.add_zero] at hle

end

theorem quota_windows (policy : QuotaPolicy) {ops : List LedgerOp} {source : IpAddr}
    {now later : Instant} (hsorted : NonDecreasing (ops ++ [.admitSource source now later])) :
    WindowLaw policy ops source now later := by
  refine ⟨fun ops' hown => ?_, answer_allowed_iff ops source now later,
    fun before before' after hops hsame => ?_, fun hrefused => ?_⟩
  · apply answer_congr
    rw [ledgerAfter_stored, ledgerAfter_stored, hown]
  · subst hops
    apply answer_congr
    rw [ledgerAfter, ledgerAfter, List.foldl_append, List.foldl_append]
    exact foldl_apply_congr after hsame.stored_eq
  · have hfull := not_lt.mp fun hlt => hrefused ((answer_allowed_iff ops source now later).mpr hlt)
    exact hfull.trans (windowAt_recorded_le hsorted)

def sampleSource : IpAddr := .v4 (.ofOctets 10 0 0 1)

theorem quota_windows_sample : WindowLaw samplePolicy
    [.record sampleSource 4 0, .record sampleSource 8 59] sampleSource 60 60 :=
  quota_windows samplePolicy (by simp [NonDecreasing, LedgerOp.now])

end SpiderNet.Exit
