import SpiderNet.Exit.Windows
import SpiderNet.Library.Transition
import SpiderNet.Library.ListFacts

namespace SpiderNet.Exit
open Transition ListFacts

inductive Stage where
  | waiting
  | inFlight
  | over
  deriving DecidableEq

structure Connection where
  source : IpAddr
  bytes : UInt64
  stage : Stage
  deriving DecidableEq

-- `ops` keeps what was done to the ledger, in order
structure Traffic where
  ledger : QuotaLedger
  ops : List LedgerOp
  connections : List Connection
  clock : Instant

def Traffic.start (connections : List (IpAddr × UInt64)) (clock : Instant) : Traffic :=
  ⟨.new, [], connections.map fun connection => ⟨connection.1, connection.2, .waiting⟩, clock⟩

def stageAfter : AdmitDecision → Stage
  | .allowed => .inFlight
  | .quotaExhausted _ => .over

-- `admit` and `record` each hold the ledger's lock; a connection may also end without `record`
inductive TrafficStep (policy : QuotaPolicy) : Traffic → Traffic → Prop
  | admitted {t : Traffic} {pos : ℕ} {connection : Connection} {now later : Instant}
      (hget : t.connections[pos]? = some connection) (hstage : connection.stage = .waiting)
      (hnow : t.clock ≤ now) (hlater : now ≤ later) :
      TrafficStep policy t
        ⟨(t.ledger.admitSource connection.source (some policy) now later).2,
          t.ops ++ [.admitSource connection.source now later],
          t.connections.set pos { connection with
            stage := stageAfter (t.ledger.admitSource connection.source (some policy) now later).1 },
          later⟩
  | record {t : Traffic} {pos : ℕ} {connection : Connection} {now : Instant}
      (hget : t.connections[pos]? = some connection) (hstage : connection.stage = .inFlight)
      (hnow : t.clock ≤ now) :
      TrafficStep policy t
        ⟨t.ledger.record connection.source connection.bytes (some policy) now,
          t.ops ++ [.record connection.source connection.bytes now],
          t.connections.set pos { connection with stage := .over }, now⟩
  | leave {t : Traffic} {pos : ℕ} {connection : Connection}
      (hget : t.connections[pos]? = some connection) (hstage : connection.stage = .inFlight) :
      TrafficStep policy t
        { t with connections := t.connections.set pos { connection with stage := .over } }

def load (source : IpAddr) (connection : Connection) : ℕ :=
  if connection.source = source ∧ connection.stage = .inFlight then connection.bytes.toNat else 0

def inFlightBytes (source : IpAddr) (connections : List Connection) : ℕ :=
  (connections.map (load source)).sum

theorem inFlightBytes_set_other {source : IpAddr} {connections : List Connection} {pos : ℕ}
    {connection : Connection} {stage : Stage} (hget : connections[pos]? = some connection)
    (h : connection.source ≠ source) :
    inFlightBytes source (connections.set pos { connection with stage := stage }) =
      inFlightBytes source connections := by
  have hsum := sum_map_set (load source) { connection with stage := stage } hget
  have hbefore : load source connection = 0 := if_neg fun hand => h hand.1
  have hafter : load source { connection with stage := stage } = 0 := if_neg fun hand => h hand.1
  unfold inFlightBytes
  omega

theorem inFlightBytes_set_over {source : IpAddr} {connections : List Connection} {pos : ℕ}
    {connection : Connection} (hget : connections[pos]? = some connection)
    (hstage : connection.stage = .inFlight) (hsource : connection.source = source) :
    inFlightBytes source (connections.set pos { connection with stage := .over }) +
      connection.bytes.toNat = inFlightBytes source connections := by
  have hsum := sum_map_set (load source) { connection with stage := .over } hget
  have hbefore : load source connection = connection.bytes.toNat := if_pos ⟨hsource, hstage⟩
  have hafter : load source { connection with stage := .over } = 0 := if_neg fun hand => by
    cases hand.2
  unfold inFlightBytes
  omega

def charge (source : IpAddr) (t : Traffic) : ℕ :=
  (t.ledger.usedBytes source).toNat + inFlightBytes source t.connections

-- only an admission of `source` can raise what it is or will be charged
theorem TrafficStep.charge_cases {policy : QuotaPolicy} {t t' : Traffic} (h : TrafficStep policy t t')
    (source : IpAddr) :
    charge source t' ≤ charge source t ∨
      (t'.ledger.usedBytes source).toNat < policy.maxBytes.toNat := by
  cases h with
  | admitted hget hstage hnow hlater =>
    rename_i pos connection now later
    by_cases hsource : connection.source = source
    · subst hsource
      cases hdecision : (t.ledger.admitSource connection.source (some policy) now later).1 with
      | allowed => exact Or.inr (QuotaLedger.admitSource_allowed_lt hdecision)
      | quotaExhausted retryAfterSecs =>
        refine Or.inl (Nat.add_le_add QuotaLedger.admitSource_used_le (Nat.le_of_eq ?_))
        have hsum := sum_map_set (load connection.source) { connection with stage := .over } hget
        have hbefore : load connection.source connection = 0 := if_neg fun hand => by
          rw [hstage] at hand
          cases hand.2
        have hafter : load connection.source { connection with stage := .over } = 0 :=
          if_neg fun hand => by cases hand.2
        simp only [stageAfter, inFlightBytes]
        omega
    · refine Or.inl (Nat.le_of_eq ?_)
      rw [charge, charge, inFlightBytes_set_other hget hsource,
        QuotaLedger.usedBytes_congr (QuotaLedger.admitSource_other _ (Ne.symm hsource))]
  | record hget hstage hnow =>
    rename_i pos connection now
    left
    by_cases hsource : connection.source = source
    · subst hsource
      have hover := inFlightBytes_set_over hget hstage rfl
      have hused := @QuotaLedger.record_used_le t.ledger connection.source policy now connection.bytes
      simp only [charge]
      omega
    · refine Nat.le_of_eq ?_
      rw [charge, charge, inFlightBytes_set_other hget hsource,
        QuotaLedger.usedBytes_congr (QuotaLedger.record_other _ _ (Ne.symm hsource))]
  | leave hget hstage =>
    rename_i pos connection
    left
    by_cases hsource : connection.source = source
    · have hover := inFlightBytes_set_over hget hstage hsource
      simp only [charge]
      omega
    · refine Nat.le_of_eq ?_
      rw [charge, charge, inFlightBytes_set_other hget hsource]

theorem charge_bounded {policy : QuotaPolicy} {connections : List (IpAddr × UInt64)} {clock : Instant}
    {states : List Traffic} {t : Traffic}
    (hrun : Run (TrafficStep policy) (.start connections clock) states t) (source : IpAddr) :
    ∃ mid ∈ states, charge source t ≤ policy.maxBytes.toNat - 1 + inFlightBytes source mid.connections := by
  induction hrun with
  | start => exact ⟨_, List.mem_cons_self, Nat.add_le_add_right (Nat.zero_le _) _⟩
  | next hrun hstep ih =>
    rcases hstep.charge_cases source with hless | hadmitted
    · obtain ⟨mid, hmid, hbound⟩ := ih
      exact ⟨mid, List.mem_append_left _ hmid, hless.trans hbound⟩
    · refine ⟨_, (hrun.next hstep).last_mem, Nat.add_le_add_right ?_ _⟩
      exact Nat.le_sub_one_of_lt hadmitted

def AtMostOneInFlight (source : IpAddr) (connections : List Connection) : Prop :=
  ∀ (i j : ℕ) (first second : Connection), connections[i]? = some first →
    connections[j]? = some second → first.source = source → second.source = source →
    first.stage = .inFlight → second.stage = .inFlight → i = j

theorem inFlightBytes_le_one {source : IpAddr} {connections : List Connection} {largest : ℕ}
    (hone : AtMostOneInFlight source connections)
    (hlargest : ∀ connection ∈ connections, connection.source = source →
      connection.bytes.toNat ≤ largest) : inFlightBytes source connections ≤ largest := by
  induction connections with
  | nil => exact Nat.zero_le _
  | cons first rest ih =>
    have hrest := ih (fun i j first second hi hj => by
        simpa using hone (i + 1) (j + 1) first second (by simpa using hi) (by simpa using hj))
      fun connection hin => hlargest connection (List.mem_cons_of_mem _ hin)
    rw [inFlightBytes, List.map_cons, List.sum_cons]
    by_cases hfirst : first.source = source ∧ first.stage = .inFlight
    · have hzero : inFlightBytes source rest = 0 := by
        refine List.sum_eq_zero_iff.mpr fun bytes hbytes => ?_
        obtain ⟨other, hother, rfl⟩ := List.mem_map.mp hbytes
        obtain ⟨j, hj⟩ := List.mem_iff_getElem?.mp hother
        refine if_neg fun hand => ?_
        have hsame := hone 0 (j + 1) first other rfl (by simpa using hj) hfirst.1 hand.1 hfirst.2 hand.2
        cases hsame
      have hload : load source first = first.bytes.toNat := if_pos hfirst
      have hbytes := hlargest first List.mem_cons_self hfirst.1
      unfold inFlightBytes at hzero
      omega
    · have hload : load source first = 0 := if_neg hfirst
      unfold inFlightBytes at hrest
      omega

theorem TrafficStep.kept {policy : QuotaPolicy} {t t' : Traffic} (h : TrafficStep policy t t') :
    t'.connections.map (fun connection => (connection.source, connection.bytes)) =
      t.connections.map fun connection => (connection.source, connection.bytes) := by
  have hset {pos : ℕ} {connection : Connection} {stage : Stage}
      (hget : t.connections[pos]? = some connection) :
      (t.connections.set pos { connection with stage := stage }).map
        (fun connection => (connection.source, connection.bytes)) =
        t.connections.map fun connection => (connection.source, connection.bytes) := by
    obtain ⟨hi, rfl⟩ := List.getElem?_eq_some_iff.mp hget
    refine List.ext_getElem (by simp) fun i hi hi' => ?_
    simp only [List.getElem_map, List.getElem_set]
    split_ifs with heq
    · subst heq
      rfl
    · rfl
  cases h with
  | admitted hget hstage hnow hlater => exact hset hget
  | record hget hstage hnow => exact hset hget
  | leave hget hstage => exact hset hget

theorem reachable_kept {policy : QuotaPolicy} {t t' : Traffic}
    (h : Reachable (TrafficStep policy) t t') :
    t'.connections.map (fun connection => (connection.source, connection.bytes)) =
      t.connections.map fun connection => (connection.source, connection.bytes) := by
  induction h with
  | refl => rfl
  | tail _ hstep ih => exact hstep.kept.trans ih

theorem used_bounded_by_inFlight {policy : QuotaPolicy} {connections : List (IpAddr × UInt64)}
    {clock : Instant} {states : List Traffic} {t : Traffic}
    (hrun : Run (TrafficStep policy) (.start connections clock) states t) (source : IpAddr) :
    (∃ mid ∈ states, (t.ledger.usedBytes source).toNat ≤
      policy.maxBytes.toNat - 1 + inFlightBytes source mid.connections) ∧
    ((∀ mid ∈ states, AtMostOneInFlight source mid.connections) →
      ∀ largest : ℕ, (∀ connection ∈ connections, connection.1 = source →
        connection.2.toNat ≤ largest) →
      (t.ledger.usedBytes source).toNat ≤ policy.maxBytes.toNat - 1 + largest) := by
  obtain ⟨mid, hmid, hbound⟩ := charge_bounded hrun source
  have hused : (t.ledger.usedBytes source).toNat ≤
      policy.maxBytes.toNat - 1 + inFlightBytes source mid.connections :=
    (Nat.le_add_right _ _).trans hbound
  refine ⟨⟨mid, hmid, hused⟩, fun hone largest hlargest => ?_⟩
  refine hused.trans (Nat.add_le_add_left (inFlightBytes_le_one (hone mid hmid) ?_) _)
  intro connection hin hsource
  have hpair := List.mem_map_of_mem (f := fun connection : Connection =>
    (connection.source, connection.bytes)) hin
  rw [reachable_kept (hrun.through hmid).1, Traffic.start, List.map_map] at hpair
  obtain ⟨pair, hpair, heq⟩ := List.mem_map.mp hpair
  have hsame : pair = (connection.source, connection.bytes) := heq
  have hle := hlargest pair hpair (by rw [hsame]; exact hsource)
  rwa [hsame] at hle

def neighbor : IpAddr := .v6 ⟨#v[0x200, 1, 0, 0, 0, 0, 0, 1]⟩

def tightQuota : QuotaPolicy :=
  { samplePolicy with window := 3600 * 10 ^ 9, window_ne := by decide }

def twoDownloads : Traffic := .start [(neighbor, 100), (neighbor, 100)] 0

theorem twoDownloads_overlap : ∃ t, Reachable (TrafficStep tightQuota) twoDownloads t ∧
    t.ledger neighbor = some ⟨0, 200⟩ ∧ t.clock = 3 ∧
    t.connections = [⟨neighbor, 100, .over⟩, ⟨neighbor, 100, .over⟩] :=
  ⟨_, ((((Reachable.refl twoDownloads).tail
    (@TrafficStep.admitted _ _ 0 ⟨neighbor, 100, .waiting⟩ 0 0 rfl rfl le_rfl le_rfl)).tail
    (@TrafficStep.admitted _ _ 1 ⟨neighbor, 100, .waiting⟩ 1 1 rfl rfl (by decide) le_rfl)).tail
    (@TrafficStep.record _ _ 0 ⟨neighbor, 100, .inFlight⟩ 2 rfl rfl (by decide))).tail
    (@TrafficStep.record _ _ 1 ⟨neighbor, 100, .inFlight⟩ 3 rfl rfl (by decide)), rfl, rfl, rfl⟩

theorem overlapping_connections_overshoot : ∃ t window,
    Reachable (TrafficStep tightQuota) twoDownloads t ∧
    t.ledger neighbor = some window ∧ t.clock - window.windowStarted < tightQuota.window ∧
    ∀ connection ∈ t.connections, tightQuota.maxBytes.toNat - 1 + connection.bytes.toNat <
      (t.ledger.usedBytes neighbor).toNat := by
  obtain ⟨t, hrun, hwindow, hclock, hconnections⟩ := twoDownloads_overlap
  refine ⟨t, _, hrun, hwindow, by rw [hclock]; decide, ?_⟩
  rw [hconnections, QuotaLedger.usedBytes, hwindow]
  decide

theorem atMostOneInFlight_pair {source : IpAddr} {connections : List Connection}
    {first second : Connection} (h : connections = [first, second])
    (hover : first.stage ≠ .inFlight ∨ second.stage ≠ .inFlight) : AtMostOneInFlight source connections := by
  subst h
  intro i j left right hi hj _ _ hleft hright
  have hat {k : ℕ} {found : Connection} (hget : [first, second][k]? = some found) :
      k = 0 ∧ found = first ∨ k = 1 ∧ found = second := by
    rcases k with _ | _ | k
    · exact Or.inl ⟨rfl, (Option.some.inj hget).symm⟩
    · exact Or.inr ⟨rfl, (Option.some.inj hget).symm⟩
    · cases hget
  rcases hat hi with ⟨rfl, rfl⟩ | ⟨rfl, rfl⟩ <;> rcases hat hj with ⟨rfl, rfl⟩ | ⟨rfl, rfl⟩
  · rfl
  · rcases hover with hfirst | hsecond
    · exact absurd hleft hfirst
    · exact absurd hright hsecond
  · rcases hover with hfirst | hsecond
    · exact absurd hright hfirst
    · exact absurd hleft hsecond
  · rfl

def oneAfterAnother : Traffic := .start [(neighbor, 9), (neighbor, 100)] 0

theorem oneAfterAnother_run : ∃ states t, Run (TrafficStep tightQuota) oneAfterAnother states t ∧
    (∀ mid ∈ states, AtMostOneInFlight neighbor mid.connections) ∧
    (t.ledger.usedBytes neighbor).toNat = 109 := by
  have hrun : Reachable (fun a b => TrafficStep tightQuota a b ∧
      AtMostOneInFlight neighbor b.connections) oneAfterAnother _ :=
    ((((Reachable.refl oneAfterAnother).tail
      ⟨@TrafficStep.admitted _ _ 0 ⟨neighbor, 9, .waiting⟩ 0 0 rfl rfl le_rfl le_rfl,
        atMostOneInFlight_pair rfl (.inr (by decide))⟩).tail
      ⟨@TrafficStep.record _ _ 0 ⟨neighbor, 9, .inFlight⟩ 1 rfl rfl (by decide),
        atMostOneInFlight_pair rfl (.inr (by decide))⟩).tail
      ⟨@TrafficStep.admitted _ _ 1 ⟨neighbor, 100, .waiting⟩ 2 2 rfl rfl (by decide) le_rfl,
        atMostOneInFlight_pair rfl (.inl (by decide))⟩).tail
      ⟨@TrafficStep.record _ _ 1 ⟨neighbor, 100, .inFlight⟩ 3 rfl rfl (by decide),
        atMostOneInFlight_pair rfl (.inl (by decide))⟩
  have hstart : AtMostOneInFlight neighbor oneAfterAnother.connections :=
    atMostOneInFlight_pair rfl (.inl (by decide))
  obtain ⟨states, hrun, hone⟩ :=
    @Reachable.run_all Traffic _ _ _ (fun t : Traffic => AtMostOneInFlight neighbor t.connections) hstart hrun
  exact ⟨states, _, hrun, hone, rfl⟩

-- two downloads that overlap, and two of which the second starts when the first is over
theorem used_bounded_by_inFlight_downloads :
    (∃ states t, Run (TrafficStep tightQuota) twoDownloads states t ∧
      (t.ledger.usedBytes neighbor).toNat = 200 ∧
      ∃ mid ∈ states, 200 ≤ tightQuota.maxBytes.toNat - 1 + inFlightBytes neighbor mid.connections) ∧
    ∃ states t, Run (TrafficStep tightQuota) oneAfterAnother states t ∧
      (t.ledger.usedBytes neighbor).toNat = 109 ∧
      (t.ledger.usedBytes neighbor).toNat ≤ tightQuota.maxBytes.toNat - 1 + 100 := by
  constructor
  · obtain ⟨t, hreach, hwindow, _, _⟩ := twoDownloads_overlap
    obtain ⟨states, hrun⟩ := hreach.run
    have hused : (t.ledger.usedBytes neighbor).toNat = 200 := by
      rw [QuotaLedger.usedBytes, hwindow]
      rfl
    obtain ⟨mid, hmid, hbound⟩ := (used_bounded_by_inFlight hrun neighbor).1
    exact ⟨states, t, hrun, hused, mid, hmid, hused ▸ hbound⟩
  · obtain ⟨states, t, hrun, hone, hused⟩ := oneAfterAnother_run
    refine ⟨states, t, hrun, hused, (used_bounded_by_inFlight hrun neighbor).2 hone 100 ?_⟩
    decide

end SpiderNet.Exit
