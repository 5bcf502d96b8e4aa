import SpiderNet.Exit.Metering
import SpiderNet.Exit.Traffic

namespace SpiderNet.Exit
open Transition ListFacts

def QuotaLedger.only (source : IpAddr) (ledger : QuotaLedger) : QuotaLedger :=
  fun other => if other = source then ledger source else none

-- the second service has only what the first has to do with the source
structure Shadow (source : IpAddr) (s t : Service) : Prop where
  loop : t.loop = s.loop
  ledger : t.ledger = s.ledger.only source
  ops : t.ops = ownOps source s.ops
  clock : t.clock ≤ s.clock
  sessions : t.sessions = s.sessions.filter (ofSource source)

section
variable {source other : IpAddr} {ledger ledger' : QuotaLedger}

@[simp] theorem only_self (source : IpAddr) (ledger : QuotaLedger) :
    ledger.only source source = ledger source := if_pos rfl

theorem only_congr (h : ledger source = ledger' source) : ledger.only source = ledger'.only source := by
  funext other
  simp only [QuotaLedger.only, h]

theorem admitSource_congr (quota : Option QuotaPolicy) (now later : Instant)
    (h : ledger source = ledger' source) :
    (ledger.admitSource source quota now later).1 = (ledger'.admitSource source quota now later).1 ∧
      (ledger.admitSource source quota now later).2 source =
        (ledger'.admitSource source quota now later).2 source := by
  cases quota with
  | none => exact ⟨rfl, h⟩
  | some policy =>
    rw [QuotaLedger.admitSource_self, QuotaLedger.admitSource_self, h]
    refine ⟨?_, rfl⟩
    simp only [QuotaLedger.admitSource, h]
    split_ifs <;> rfl

theorem record_congr (quota : Option QuotaPolicy) (now : Instant) (bytes : UInt64) (h : ledger source = ledger' source) :
    ledger.record source bytes quota now source = ledger'.record source bytes quota now source := by
  cases quota with
  | none => exact h
  | some policy =>
    simp only [QuotaLedger.record, QuotaLedger.set_self, h]

-- a ledger that knows one source only keeps to it
theorem only_of_other (h : ∀ other, other ≠ source → ledger other = none) :
    ledger = ledger.only source := by
  funext other
  by_cases hother : other = source
  · rw [hother, only_self]
  · rw [h other hother]
    exact (if_neg hother).symm

theorem only_admitSource (quota : Option QuotaPolicy) (now later : Instant) : ((ledger.only source).admitSource source quota now later).2 =
    (ledger.admitSource source quota now later).2.only source := by
  have hsame := (admitSource_congr quota now later (only_self source ledger)).2
  rw [← only_congr hsame]
  refine only_of_other fun other hother => ?_
  rw [QuotaLedger.admitSource_other quota hother]
  exact if_neg hother

theorem only_record (quota : Option QuotaPolicy) (now : Instant) (bytes : UInt64) : (ledger.only source).record source bytes quota now =
    (ledger.record source bytes quota now).only source := by
  have hsame := record_congr quota now bytes (only_self source ledger)
  rw [← only_congr hsame]
  refine only_of_other fun other hother => ?_
  rw [QuotaLedger.record_other bytes quota hother]
  exact if_neg hother

theorem handleConnection_congr {config : ExitConfig} {env : Surroundings} (now later : Instant)
    (h : ledger source = ledger' source) :
    handleConnection config source (env.at ledger now later) =
      handleConnection config source (env.at ledger' now later) := by
  have hdecision := (admitSource_congr config.quota now later h).1
  simp only [handleConnection, Surroundings.at, hdecision]
  rfl

theorem ownOps_append (ops ops' : List LedgerOp) :
    ownOps source (ops ++ ops') = ownOps source ops ++ ownOps source ops' := List.filter_append _ _

theorem ownOps_logged_self (quota : Option QuotaPolicy) (op : LedgerOp) :
    ownOps op.source (logged quota op) = logged quota op := by
  cases quota with
  | none => rfl
  | some policy => simp [ownOps, logged]

theorem ownOps_logged_other (quota : Option QuotaPolicy) {op : LedgerOp} (h : op.source ≠ source) :
    ownOps source (logged quota op) = [] := by
  cases quota with
  | none => rfl
  | some policy => simp [ownOps, logged, h]

end

section
variable {source : IpAddr} {s t : Service} {session : Session}

theorem Shadow.ask_own (config : ExitConfig) (now later : Instant) (h : Shadow source s t)
    (hsource : session.source = source) :
    Shadow source (s.ask config session now later) (t.ask config session now later) := by
  subst hsource
  unfold Service.ask
  split_ifs
  · refine ⟨h.loop, ?_, ?_, le_rfl, h.sessions⟩
    · rw [h.ledger]
      exact only_admitSource config.quota now later
    · have hown := ownOps_logged_self config.quota (.admitSource session.source now later)
      rw [LedgerOp.source] at hown
      simp only [h.ops, ownOps_append, hown]
  · exact ⟨h.loop, h.ledger, h.ops, le_rfl, h.sessions⟩

theorem Shadow.ask_other (config : ExitConfig) (now : Instant) {later : Instant}
    (h : Shadow source s t) (hsource : session.source ≠ source) (hnow : s.clock ≤ later) :
    Shadow source (s.ask config session now later) t := by
  have hclock : t.clock ≤ later := h.clock.trans hnow
  unfold Service.ask
  split_ifs
  · refine ⟨h.loop, ?_, ?_, hclock, h.sessions⟩
    · rw [h.ledger]
      exact only_congr (QuotaLedger.admitSource_other config.quota (Ne.symm hsource)).symm
    · have hnone : ownOps source (logged config.quota (.admitSource session.source now later)) = [] :=
        ownOps_logged_other config.quota hsource
      rw [ownOps_append, hnone, List.append_nil]
      exact h.ops
  · exact ⟨h.loop, h.ledger, h.ops, hclock, h.sessions⟩

theorem Shadow.charge_own (config : ExitConfig) (effect : Effect) (now : Instant)
    (h : Shadow source s t) :
    Shadow source (s.charge config source effect now) (t.charge config source effect now) := by
  cases effect with
  | record bytes =>
    refine ⟨h.loop, ?_, ?_, le_rfl, h.sessions⟩
    · simp only [Service.charge]
      rw [h.ledger]
      exact only_record config.quota now _
    · have hown := ownOps_logged_self config.quota (.record source (.ofNat bytes) now)
      rw [LedgerOp.source] at hown
      simp only [Service.charge, h.ops, ownOps_append, hown]
  | _ => exact ⟨h.loop, h.ledger, h.ops, le_rfl, h.sessions⟩

theorem Shadow.charge_other (config : ExitConfig) (effect : Effect) {now : Instant} {other : IpAddr}
    (h : Shadow source s t) (hother : other ≠ source) (hnow : s.clock ≤ now) :
    Shadow source (s.charge config other effect now) t := by
  have hclock : t.clock ≤ now := h.clock.trans hnow
  cases effect with
  | record bytes =>
    refine ⟨h.loop, ?_, ?_, hclock, h.sessions⟩
    · rw [h.ledger]
      exact only_congr (QuotaLedger.record_other _ config.quota (Ne.symm hother)).symm
    · have hnone : ownOps source (logged config.quota (.record other (.ofNat bytes) now)) = [] :=
        ownOps_logged_other config.quota hother
      simp only [Service.charge]
      rw [ownOps_append, hnone, List.append_nil]
      exact h.ops
  | _ => exact ⟨h.loop, h.ledger, h.ops, hclock, h.sessions⟩

theorem Shadow.replace_other (h : Shadow source s t) {pos : ℕ} (session' : Session)
    (hget : s.sessions[pos]? = some session) (hsource : session.source ≠ source)
    (hsource' : session'.source = session.source) : Shadow source (s.replace pos session') t := by
  refine ⟨h.loop, h.ledger, h.ops, h.clock, h.sessions.trans (filter_set_out _ hget ?_ ?_).symm⟩
  · simpa [ofSource] using hsource
  · simpa [ofSource, hsource'] using hsource

theorem Shadow.replace_own (h : Shadow source s t) {pos : ℕ} (session' : Session)
    (hget : s.sessions[pos]? = some session) (hsource : session.source = source)
    (hsource' : session'.source = session.source) : ∃ pos', t.sessions[pos']? = some session ∧
      Shadow source (s.replace pos session') (t.replace pos' session') := by
  have hold : ofSource source session = true := decide_eq_true hsource
  have hnew : ofSource source session' = true := decide_eq_true (hsource'.trans hsource)
  obtain ⟨pos', hget', hset⟩ := filter_set_in (ofSource source) hget hold hnew
  refine ⟨pos', by rw [h.sessions, hget'], h.loop, h.ledger, h.ops, h.clock, ?_⟩
  simp only [Service.replace, h.sessions, hset]

-- a step of the source's own is matched, any other step is not noticed
theorem Shadow.step {config : ExitConfig} {s' : Service} (h : Shadow source s t) (hstep : ServiceStep config s s') :
    ∃ t', Reachable (ServiceStep config) t t' ∧ Shadow source s' t' := by
  cases hstep with
  | accepted other env hloop =>
    by_cases hsource : other = source
    · subst hsource
      refine ⟨_, (Reachable.refl t).tail (.accepted other env (h.loop.trans hloop)), h.loop, h.ledger,
        h.ops, h.clock, ?_⟩
      simp [h.sessions, List.filter_append, ofSource]
    · refine ⟨t, .refl t, h.loop, h.ledger, h.ops, h.clock, ?_⟩
      simp [h.sessions, List.filter_append, ofSource, hsource]
  | shutdown hloop =>
    exact ⟨_, (Reachable.refl t).tail (.shutdown (h.loop.trans hloop)), rfl, h.ledger, h.ops, h.clock,
      h.sessions⟩
  | acceptFails kind hloop =>
    exact ⟨_, (Reachable.refl t).tail (.acceptFails kind (h.loop.trans hloop)), rfl, h.ledger, h.ops,
      h.clock, h.sessions⟩
  | decided hget hrest hnow hlater =>
    rename_i pos session now later
    by_cases hsource : session.source = source
    · have hasked := Shadow.ask_own config now later h hsource
      have hget' : (s.ask config session now later).sessions[pos]? = some session := by
        rwa [Service.ask_sessions]
      obtain ⟨pos', hgetT, hshadow⟩ :=
        hasked.replace_own (s.answered config session now later) hget' hsource rfl
      rw [Service.ask_sessions] at hgetT
      have hsame : t.answered config session now later = s.answered config session now later := by
        have hledger : t.ledger session.source = s.ledger session.source := by
          rw [h.ledger, hsource, only_self]
        simp only [Service.answered, handleConnection_congr now later hledger]
      have hstepT : ServiceStep config t _ := .decided hgetT hrest (h.clock.trans hnow) hlater
      rw [hsame] at hstepT
      exact ⟨_, (Reachable.refl t).tail hstepT, hshadow⟩
    · have hasked := Shadow.ask_other config now h hsource (hnow.trans hlater)
      have hget' : (s.ask config session now later).sessions[pos]? = some session := by
        rwa [Service.ask_sessions]
      exact ⟨t, .refl t, hasked.replace_other _ hget' hsource rfl⟩
  | performed hget hrest hnow =>
    rename_i pos session effect rest now
    have hget' : (s.charge config session.source effect now).sessions[pos]? = some session := by
      rwa [Service.charge_sessions]
    by_cases hsource : session.source = source
    · subst hsource
      obtain ⟨pos', hgetT, hshadow⟩ := (Shadow.charge_own config effect now h).replace_own
        (session.perform effect rest) hget' rfl rfl
      rw [Service.charge_sessions] at hgetT
      exact ⟨_, (Reachable.refl t).tail (.performed hgetT hrest (h.clock.trans hnow)), hshadow⟩
    · exact ⟨t, .refl t,
        (Shadow.charge_other config effect h hsource hnow).replace_other _ hget' hsource rfl⟩

end

theorem service_isolation {config : ExitConfig} {clock : Instant} {s : Service}
    (hrun : serveUntil config clock s) (source : IpAddr) :
    ∃ t, serveUntil config clock t ∧ Shadow source s t := by
  have hstart : Shadow source (.start clock) (.start clock) :=
    ⟨rfl, only_of_other fun _ _ => rfl, rfl, le_rfl, rfl⟩
  exact Reachable.simulate_star (fun h hstep => h.step hstep) hstart hrun

def sharedExit : ExitConfig :=
  .new ⟨localhost, 3128⟩ (.new [localhost, neighbor]) meteredExit.quota

def otherSession : Session := { busySession with source := neighbor }

def twoNeighbors : Service := { busyStart with sessions := [busySession, otherSession] }

def firstDecided : Service :=
  (twoNeighbors.ask sharedExit busySession 0 0).replace 0
    (twoNeighbors.answered sharedExit busySession 0 0)

-- both have asked the ledger before either is charged
def bothDecided : Service :=
  (firstDecided.ask sharedExit otherSession 0 0).replace 1
    (firstDecided.answered sharedExit otherSession 0 0)

theorem bothDecided_served : serveUntil sharedExit 0 bothDecided :=
  (((((Reachable.refl _).tail (.accepted localhost busySurroundings rfl)).tail
    (.accepted neighbor busySurroundings rfl)).tail
    (@ServiceStep.decided sharedExit twoNeighbors 0 busySession 0 0 rfl rfl le_rfl le_rfl)).tail
    (@ServiceStep.decided sharedExit firstDecided 1 otherSession 0 0 rfl rfl le_rfl le_rfl))

theorem bothDecided_sessions : bothDecided.sessions =
    [twoNeighbors.answered sharedExit busySession 0 0, firstDecided.answered sharedExit otherSession 0 0] := by
  simp only [bothDecided, firstDecided, Service.replace, Service.ask_sessions]
  rfl

theorem twoNeighbors_charged : ∃ s, serveUntil sharedExit 0 s ∧
    s.sessions.map Session.source = [localhost, neighbor] ∧ s.sessions.map Session.charged = [5, 5] := by
  have hother : (firstDecided.ledger.admitSource neighbor sharedExit.quota 0 0).1 = .allowed := by decide
  obtain ⟨s, hrun, _, hsessions⟩ := @performs_all sharedExit bothDecided 0 _ _
    (by rw [bothDecided_sessions]; rfl) rfl
  rw [bothDecided_sessions] at hsessions
  obtain ⟨s', hrun', _, hsessions'⟩ := @performs_all sharedExit s 1 _ _ (by rw [hsessions]; rfl) rfl
  rw [hsessions] at hsessions'
  refine ⟨s', (bothDecided_served.trans hrun).trans hrun', ?_, ?_⟩
  · rw [hsessions']
    rfl
  · rw [hsessions']
    exact congrArg₂ (fun first second => [first, second])
      (@busy_charged sharedExit localhost .new 0 0 rfl rfl rfl)
      (@busy_charged sharedExit neighbor _ 0 0 rfl rfl hother)

theorem service_isolation_twoNeighbors : ∃ s t, serveUntil sharedExit 0 s ∧
    s.sessions.map Session.charged = [5, 5] ∧ serveUntil sharedExit 0 t ∧ Shadow localhost s t ∧
    t.sessions.map Session.charged = [5] := by
  obtain ⟨s, hrun, hsources, hcharged⟩ := twoNeighbors_charged
  obtain ⟨t, hrun', hshadow⟩ := service_isolation hrun localhost
  refine ⟨s, t, hrun, hcharged, hrun', hshadow, ?_⟩
  rw [hshadow.sessions]
  obtain ⟨first, second, hsessions⟩ := List.length_eq_two.mp
    ((List.length_map Session.charged).symm.trans (congrArg List.length hcharged))
  rw [hsessions] at hsources hcharged ⊢
  simp only [List.map_cons, List.map_nil, List.cons.injEq, and_true] at hsources hcharged
  have hother : ofSource localhost second = false := by
    rw [ofSource, hsources.2]
    decide
  have hown : ofSource localhost first = true := decide_eq_true hsources.1
  simp [hown, hother, hcharged.1]

end SpiderNet.Exit
