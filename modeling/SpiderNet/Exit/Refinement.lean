import SpiderNet.Exit.Metering
import SpiderNet.Exit.Traffic

namespace SpiderNet.Exit
open Transition ListFacts

-- what a connection's task costs its source, once it is decided
def Session.bytes (session : Session) : UInt64 :=
  match session.rest with
  | none => 0
  | some rest => .ofNat ((session.performed ++ rest).filterMap Effect.charge).sum

def stageLeft (rest : List Effect) : Stage :=
  match rest.filterMap Effect.charge with
  | [] => .over
  | _ :: _ => .inFlight

def Session.stage (config : ExitConfig) (session : Session) : Stage :=
  match session.rest with
  | none => .waiting
  | some rest => bif asksLedger config session.source session.env then stageLeft rest else .waiting

theorem stageLeft_over {rest : List Effect} (h : rest.filterMap Effect.charge = []) :
    stageLeft rest = .over := by
  rw [stageLeft, h]

theorem stageLeft_inFlight {rest : List Effect} (h : rest.filterMap Effect.charge ≠ []) :
    stageLeft rest = .inFlight := by
  obtain ⟨first, others, heq⟩ := List.exists_cons_of_ne_nil h
  rw [stageLeft, heq]

def Session.connection (config : ExitConfig) (session : Session) : Connection :=
  ⟨session.source, session.bytes, session.stage config⟩

-- the traffic's clock only moves when the ledger is used
structure Mapped (config : ExitConfig) (s : Service) (t : Traffic) : Prop where
  ledger : t.ledger = s.ledger
  ops : t.ops = s.ops
  connections : t.connections = s.sessions.map (Session.connection config)
  clock : t.clock ≤ s.clock

-- what the traffic could as well have started with, as far as it has got
inductive Revised (t : Traffic) : Traffic → Prop
  | same : Revised t t
  | joined (source : IpAddr) :
      Revised t { t with connections := t.connections ++ [⟨source, 0, .waiting⟩] }
  | resized {pos : ℕ} {connection : Connection} (bytes : UInt64)
      (hget : t.connections[pos]? = some connection) (hstage : connection.stage = .waiting) :
      Revised t { t with connections := t.connections.set pos { connection with bytes := bytes } }

theorem stageAfter_ne_waiting (decision : AdmitDecision) : stageAfter decision ≠ .waiting := by
  cases decision <;> simp [stageAfter]

section
variable {policy : QuotaPolicy} {t t' u : Traffic}

theorem TrafficStep.joined (h : TrafficStep policy t t') (connection : Connection) :
    TrafficStep policy { t with connections := t.connections ++ [connection] }
      { t' with connections := t'.connections ++ [connection] } := by
  have hfar {pos : ℕ} {moved : Connection} (hget : t.connections[pos]? = some moved) :
      pos < t.connections.length ∧ (t.connections ++ [connection])[pos]? = some moved := by
    have hlt := (List.getElem?_eq_some_iff.mp hget).1
    exact ⟨hlt, (List.getElem?_append_left hlt).trans hget⟩
  cases h with
  | admitted hget hstage hnow hlater =>
    obtain ⟨hlt, hget⟩ := hfar hget
    have hstep := @TrafficStep.admitted policy { t with connections := t.connections ++ [connection] }
      _ _ _ _ hget hstage hnow hlater
    rwa [List.set_append_left _ _ hlt] at hstep
  | record hget hstage hnow =>
    obtain ⟨hlt, hget⟩ := hfar hget
    have hstep := @TrafficStep.record policy { t with connections := t.connections ++ [connection] }
      _ _ _ hget hstage hnow
    rwa [List.set_append_left _ _ hlt] at hstep
  | leave hget hstage =>
    obtain ⟨hlt, hget⟩ := hfar hget
    have hstep := @TrafficStep.leave policy { t with connections := t.connections ++ [connection] }
      _ _ hget hstage
    simp only at hstep
    rwa [List.set_append_left _ _ hlt] at hstep

-- a connection that waits after a step has waited before it, and the step does not look at it
theorem TrafficStep.resized (h : TrafficStep policy t t') {pos : ℕ} {connection : Connection}
    (hget : t'.connections[pos]? = some connection) (hstage : connection.stage = .waiting)
    (other : Connection) : t.connections[pos]? = some connection ∧
      TrafficStep policy { t with connections := t.connections.set pos other }
        { t' with connections := t'.connections.set pos other } := by
  have hapart {place : ℕ} {moved : Connection} {stage : Stage}
      (hget : (t.connections.set place { moved with stage := stage })[pos]? = some connection)
      (hmoved : stage ≠ .waiting) : pos ≠ place ∧ t.connections[pos]? = some connection := by
    rcases getElem?_set_cases hget with ⟨rfl, rfl, _⟩ | hapart
    · exact absurd hstage hmoved
    · exact hapart
  cases h with
  | admitted hfound hwaiting hnow hlater =>
    obtain ⟨hne, hkept⟩ := hapart hget (stageAfter_ne_waiting _)
    refine ⟨hkept, ?_⟩
    have hstep := @TrafficStep.admitted policy { t with connections := t.connections.set pos other }
      _ _ _ _ ((List.getElem?_set_ne hne).trans hfound) hwaiting hnow hlater
    rwa [List.set_comm _ _ hne] at hstep
  | record hfound hflying hnow =>
    obtain ⟨hne, hkept⟩ := hapart hget (fun hover => by cases hover)
    refine ⟨hkept, ?_⟩
    have hstep := @TrafficStep.record policy { t with connections := t.connections.set pos other }
      _ _ _ ((List.getElem?_set_ne hne).trans hfound) hflying hnow
    rwa [List.set_comm _ _ hne] at hstep
  | leave hfound hflying =>
    obtain ⟨hne, hkept⟩ := hapart hget (fun hover => by cases hover)
    refine ⟨hkept, ?_⟩
    have hstep := @TrafficStep.leave policy { t with connections := t.connections.set pos other }
      _ _ ((List.getElem?_set_ne hne).trans hfound) hflying
    simp only at hstep
    rwa [List.set_comm _ _ hne] at hstep

theorem Revised.reachable {connections : List (IpAddr × UInt64)} {clock : Instant}
    (h : Revised t u) (hrun : Reachable (TrafficStep policy) (.start connections clock) t) :
    ∃ connections', Reachable (TrafficStep policy) (.start connections' clock) u := by
  cases h with
  | same => exact ⟨connections, hrun⟩
  | joined source =>
    refine ⟨connections ++ [(source, 0)], ?_⟩
    induction hrun with
    | refl =>
      rw [Traffic.start, List.map_append]
      exact .refl _
    | tail _ hstep ih => exact ih.tail (hstep.joined _)
  | resized bytes hget hstage =>
    rename_i pos connection
    refine ⟨connections.set pos (connection.source, bytes), ?_⟩
    induction hrun with
    | refl =>
      have hwaiting : (⟨connection.source, bytes, .waiting⟩ : Connection) =
          { connection with bytes := bytes } := by rw [← hstage]
      rw [Traffic.start, List.map_set, ← hwaiting]
      exact .refl _
    | tail _ hstep ih =>
      obtain ⟨hkept, hstep⟩ := hstep.resized hget hstage { connection with bytes := bytes }
      exact (ih hkept).tail hstep

theorem Revised.charge_eq (h : Revised t u) (source : IpAddr) : charge source u = charge source t := by
  cases h with
  | same => rfl
  | joined other =>
    have hload : load source ⟨other, 0, .waiting⟩ = 0 := if_neg fun hand => by cases hand.2
    simp only [charge, inFlightBytes, List.map_append, List.map_singleton, List.sum_append,
      List.sum_singleton, hload, Nat.add_zero]
  | resized bytes hget hstage =>
    rename_i pos connection
    have hsum := sum_map_set (load source) { connection with bytes := bytes } hget
    have hbefore : load source connection = 0 := if_neg fun hand => by
      rw [hstage] at hand
      cases hand.2
    have hafter : load source { connection with bytes := bytes } = 0 := if_neg fun hand => by
      rw [hstage] at hand
      cases hand.2
    simp only [charge, inFlightBytes]
    omega

-- an admitted connection that never records leaves right away
theorem Traffic.admits {pos : ℕ} {connection : Connection} {now later : Instant} {stage : Stage}
    (hget : t.connections[pos]? = some connection) (hwaiting : connection.stage = .waiting)
    (hnow : t.clock ≤ now) (hlater : now ≤ later)
    (hstage : stage = stageAfter (t.ledger.admitSource connection.source (some policy) now later).1 ∨
      stage = .over)
    (ht' : t' = ⟨(t.ledger.admitSource connection.source (some policy) now later).2,
      t.ops ++ [.admitSource connection.source now later],
      t.connections.set pos { connection with stage := stage }, later⟩) :
    Reachable (TrafficStep policy) t t' ∧ ∀ source, charge source t' ≤ charge source t ∨
      (t'.ledger.usedBytes source).toNat < policy.maxBytes.toNat := by
  have hadmitted := @TrafficStep.admitted policy t _ _ now later hget hwaiting hnow hlater
  have honce (h : stage = stageAfter
      (t.ledger.admitSource connection.source (some policy) now later).1) :
      TrafficStep policy t t' := by rwa [ht', h]
  rcases hstage with hafter | hover
  · exact ⟨(Reachable.refl t).tail (honce hafter), (honce hafter).charge_cases⟩
  · cases hdecision : (t.ledger.admitSource connection.source (some policy) now later).1 with
    | quotaExhausted retryAfterSecs =>
      have hstep := honce (by rw [hdecision, hover]; rfl)
      exact ⟨(Reachable.refl t).tail hstep, hstep.charge_cases⟩
    | allowed =>
      rw [hdecision] at hadmitted
      have hflying := @List.getElem?_set_self _ _ _ ({ connection with stage := .inFlight } : Connection)
        (List.getElem?_eq_some_iff.mp hget).1
      have hleft := @TrafficStep.leave policy ⟨(t.ledger.admitSource connection.source (some policy)
        now later).2, t.ops ++ [.admitSource connection.source now later],
        t.connections.set pos { connection with stage := .inFlight }, later⟩ _ _ hflying rfl
      simp only [List.set_set] at hleft
      rw [ht', hover]
      refine ⟨((Reachable.refl t).tail hadmitted).tail hleft, fun source => ?_⟩
      rcases hadmitted.charge_cases source with hless | hlow
      · rcases hleft.charge_cases source with hless' | hlow
        · exact Or.inl (hless'.trans hless)
        · exact Or.inr hlow
      · exact Or.inr hlow

end

theorem charges_of_asked {config : ExitConfig} {source : IpAddr} {env : Surroundings}
    (h : (handleConnection config source env).1.filterMap Effect.charge ≠ []) :
    asksLedger config source env = true ∧
      (env.ledger.admitSource source config.quota env.now env.later).1 = .allowed := by
  have hcourse := handleConnection_course config source env
  generalize (handleConnection config source env).1 = effects at hcourse h
  cases hcourse with
  | served haccepted hresolve hserved =>
    refine ⟨?_, haccepted.admitted⟩
    rw [asksLedger, haccepted.read]
    exact haccepted.allowed
  | _ => exact absurd rfl h

-- a record still to come is the last thing left to do, and all there is to charge
theorem Begun.record_last {config : ExitConfig} {taken : Service → Service → Prop} {pos : ℕ}
    {mid : Service} {session : Session} {bytes : ℕ} {rest : List Effect} {now later : Instant}
    (h : Begun config taken pos session (.record bytes :: rest) mid now later) :
    rest = [] ∧ session.performed.filterMap Effect.charge = [] ∧
      asksLedger config session.source session.env = true := by
  have hcourse := h.course
  have hcharges : (handleConnection config session.source
      (session.env.at mid.ledger now later)).1.filterMap Effect.charge ≠ [] := by
    rw [← hcourse, List.filterMap_append]
    exact List.append_ne_nil_of_right_ne_nil _ (List.cons_ne_nil _ _)
  rw [List.append_cons] at hcourse
  have hlast := handleConnection_chargedAtEnd hcourse
  rw [ChargedAtEnd, List.filterMap_append] at hlast
  rcases hlast with hnone | ⟨hrest, hcharged⟩
  · cases (List.append_eq_nil_iff.mp hnone).2
  · refine ⟨hrest, ?_, (charges_of_asked hcharges).1⟩
    have hlength := congrArg List.length hcharged
    rw [List.length_append] at hlength
    exact List.length_eq_zero_iff.mp (Nat.succ.inj hlength)

-- the traffic goes along with a step of the service, and is not charged more than admissions allow
structure Followed (config : ExitConfig) (policy : QuotaPolicy) (s' : Service) (t t' : Traffic) :
    Prop where
  mapped : Mapped config s' t'
  run : ∃ u, Revised t u ∧ Reachable (TrafficStep policy) u t'
  charge : ∀ source, charge source t' ≤ charge source t ∨
    (t'.ledger.usedBytes source).toNat < policy.maxBytes.toNat

section
variable {config : ExitConfig} {policy : QuotaPolicy} {clock : Instant}
  {taken : Service → Service → Prop} {s s' : Service} {t : Traffic}

theorem Mapped.get (h : Mapped config s t) {pos : ℕ} {session : Session}
    (hget : s.sessions[pos]? = some session) :
    t.connections[pos]? = some (session.connection config) := by
  rw [h.connections, List.getElem?_map, hget]
  rfl

theorem Mapped.decided (h : Mapped config s t) (hquota : config.quota = some policy) {pos : ℕ}
    {session : Session} {now later : Instant} (hget : s.sessions[pos]? = some session)
    (hrest : session.rest = none) (hnow : s.clock ≤ now) (hlater : now ≤ later) :
    ∃ t', Followed config policy
      ((s.ask config session now later).replace pos (s.answered config session now later)) t t' := by
  have hwaiting : session.connection config = ⟨session.source, session.bytes, .waiting⟩ := by
    rw [Session.connection, Session.stage, hrest]
  have hfound := h.get hget
  rw [hwaiting] at hfound
  generalize hanswered : s.answered config session now later = answered
  have hsource : answered.source = session.source := by
    rw [← hanswered]
    rfl
  have hresized := Revised.resized answered.bytes hfound rfl
  have hconnections {stage : Stage} (hstage : answered.stage config = stage) :
      t.connections.set pos ⟨session.source, answered.bytes, stage⟩ =
        (s.sessions.set pos answered).map (Session.connection config) := by
    rw [List.map_set, h.connections, ← hstage, ← hsource]
    rfl
  by_cases hasks : asksLedger config session.source session.env
  · have hledger : (s.ask config session now later).ledger =
        (t.ledger.admitSource session.source (some policy) now later).2 := by
      rw [Service.ask, if_pos hasks, hquota, h.ledger]
    have hops : (s.ask config session now later).ops =
        t.ops ++ [.admitSource session.source now later] := by
      rw [Service.ask, if_pos hasks, hquota, h.ops]
      rfl
    have hset := @List.getElem?_set_self _ _ _ (⟨session.source, answered.bytes, .waiting⟩ : Connection)
      (List.getElem?_eq_some_iff.mp hfound).1
    have hstage : answered.stage config = stageLeft (handleConnection config session.source
        (session.env.at s.ledger now later)).1 := by
      rw [← hanswered]
      simp only [Session.stage, Service.answered, hasks, cond_true]
    have hafter : answered.stage config = stageAfter
          (t.ledger.admitSource session.source (some policy) now later).1 ∨
        answered.stage config = .over := by
      by_cases hcharges : (handleConnection config session.source
          (session.env.at s.ledger now later)).1.filterMap Effect.charge = []
      · exact Or.inr (hstage.trans (stageLeft_over hcharges))
      · have hallowed := (charges_of_asked hcharges).2
        rw [hquota] at hallowed
        rw [hstage, stageLeft_inFlight hcharges, h.ledger]
        exact Or.inl (congrArg stageAfter hallowed).symm
    obtain ⟨hrun, hcharge⟩ := @Traffic.admits policy
      { t with connections := t.connections.set pos ⟨session.source, answered.bytes, .waiting⟩ }
      _ _ _ _ _ _ hset rfl (h.clock.trans hnow) hlater hafter rfl
    simp only [List.set_set] at hrun hcharge
    have hmapped : Mapped config ((s.ask config session now later).replace pos answered)
        ⟨(t.ledger.admitSource session.source (some policy) now later).2,
          t.ops ++ [.admitSource session.source now later],
          t.connections.set pos ⟨session.source, answered.bytes, answered.stage config⟩, later⟩ := by
      refine ⟨hledger.symm, hops.symm, ?_, ?_⟩
      · simp only [Service.replace, Service.ask_sessions]
        exact hconnections rfl
      · simp only [Service.replace, Service.ask_clock, le_refl]
    refine ⟨_, hmapped, ⟨_, hresized, hrun⟩, fun source => ?_⟩
    rw [← hresized.charge_eq source]
    exact hcharge source
  · have hstage : answered.stage config = .waiting := by
      rw [← hanswered]
      simp only [Session.stage, Service.answered, Bool.eq_false_iff.mpr hasks, cond_false]
    refine ⟨_, ⟨?_, ?_, ?_, ?_⟩, ⟨_, hresized, .refl _⟩,
      fun source => Or.inl (hresized.charge_eq source).le⟩
    · rw [Service.ask, if_neg hasks]
      exact h.ledger
    · rw [Service.ask, if_neg hasks]
      exact h.ops
    · simp only [Service.replace, Service.ask_sessions]
      exact hconnections hstage
    · rw [Service.replace, Service.ask_clock]
      exact h.clock.trans (hnow.trans hlater)

theorem Mapped.performed (h : Mapped config s t) (hquota : config.quota = some policy)
    (hstories : Stories config taken s) {pos : ℕ}
    {session : Session} {effect : Effect} {rest : List Effect} {now : Instant}
    (hget : s.sessions[pos]? = some session) (hrest : session.rest = some (effect :: rest))
    (hnow : s.clock ≤ now) : ∃ t', Followed config policy
      ((s.charge config session.source effect now).replace pos (session.perform effect rest)) t t' := by
  have hquiet (hcharge : effect.charge = none)
      (heq : s.charge config session.source effect now = { s with clock := now }) :
      ∃ t', Followed config policy
        ((s.charge config session.source effect now).replace pos (session.perform effect rest)) t t' := by
    have hstage : stageLeft (effect :: rest) = stageLeft rest := by
      rw [stageLeft, List.filterMap_cons_none hcharge, stageLeft]
    have hsame : (session.perform effect rest).connection config = session.connection config := by
      simp only [Session.connection, Session.perform, Session.bytes, Session.stage, hrest, hstage,
        List.append_assoc, List.singleton_append]
    rw [heq]
    refine ⟨t, ⟨h.ledger, h.ops, ?_, h.clock.trans hnow⟩, ⟨t, .same, .refl t⟩,
      fun source => Or.inl le_rfl⟩
    rw [h.connections]
    exact (map_set_same _ _ hget hsame).symm
  cases effect with
  | record bytes =>
    have hstory := hstories pos session hget
    rw [SessionStory, hrest] at hstory
    obtain ⟨mid, before, later, hbegun⟩ := hstory
    obtain ⟨rfl, hnone, hasks⟩ := hbegun.record_last
    have hflying : stageLeft [.record bytes] = .inFlight := rfl
    have hconnection : session.connection config = ⟨session.source, .ofNat bytes, .inFlight⟩ := by
      simp [Session.connection, Session.bytes, Session.stage, hrest, hasks, hnone, hflying,
        Effect.charge]
    have hover : (session.perform (.record bytes) []).connection config =
        ⟨session.source, .ofNat bytes, .over⟩ := by
      simp [Session.connection, Session.perform, Session.bytes, Session.stage, hasks, hnone,
        @stageLeft_over [] rfl, Effect.charge]
    have hfound := h.get hget
    rw [hconnection] at hfound
    have hstep := @TrafficStep.record policy t _ _ now hfound rfl (h.clock.trans hnow)
    refine ⟨_, ⟨?_, ?_, ?_, le_rfl⟩, ⟨t, .same, (Reachable.refl t).tail hstep⟩, hstep.charge_cases⟩
    · simp only [Service.charge, Service.replace, hquota, h.ledger]
    · simp only [Service.charge, Service.replace, hquota, h.ops, logged]
    · simp only [Service.replace, Service.charge_sessions, List.map_set, hover, h.connections]
  | _ => exact hquiet rfl rfl

theorem Mapped.step (h : Mapped config s t) (hquota : config.quota = some policy)
    (hstories : Stories config taken s) (hstep : ServiceStep config s s') : ∃ t', Followed config policy s' t t' := by
  cases hstep with
  | accepted source env hloop =>
    have hjoined := @Revised.joined t source
    refine ⟨{ t with connections := t.connections ++ [⟨source, 0, .waiting⟩] },
      ⟨h.ledger, h.ops, ?_, h.clock⟩, ⟨_, hjoined, .refl _⟩,
      fun other => Or.inl (hjoined.charge_eq other).le⟩
    rw [List.map_append, h.connections]
    rfl
  | shutdown hloop =>
    exact ⟨t, ⟨h.ledger, h.ops, h.connections, h.clock⟩, ⟨t, .same, .refl t⟩,
      fun source => Or.inl le_rfl⟩
  | acceptFails kind hloop =>
    exact ⟨t, ⟨h.ledger, h.ops, h.connections, h.clock⟩, ⟨t, .same, .refl t⟩,
      fun source => Or.inl le_rfl⟩
  | decided hget hrest hnow hlater => exact h.decided hquota hget hrest hnow hlater
  | performed hget hrest hnow => exact h.performed hquota hstories hget hrest hnow

theorem run_mapped {states : List Service} (hquota : config.quota = some policy)
    (hrun : Run (ServiceStep config) (.start clock) states s) :
    ∃ connections t, Reachable (TrafficStep policy) (.start connections clock) t ∧ Mapped config s t := by
  induction hrun with
  | start => exact ⟨[], .start [] clock, .refl _, rfl, rfl, rfl, le_rfl⟩
  | next hrun hstep ih =>
    obtain ⟨connections, t, hreach, hmapped⟩ := ih
    obtain ⟨t', hfollowed⟩ := hmapped.step hquota (service_stories hrun) hstep
    obtain ⟨u, hrevised, hlater⟩ := hfollowed.run
    obtain ⟨connections', hreach'⟩ := hrevised.reachable hreach
    exact ⟨connections', t', hreach'.trans hlater, hfollowed.mapped⟩

-- what the source's connections that have been let through have still to record
def owedBytes (config : ExitConfig) (source : IpAddr) (s : Service) : ℕ :=
  inFlightBytes source (s.sessions.map (Session.connection config))

theorem run_owed {states : List Service} (hquota : config.quota = some policy)
    (hrun : Run (ServiceStep config) (.start clock) states s) (source : IpAddr) : ∃ mid ∈ states,
      (s.ledger.usedBytes source).toNat + owedBytes config source s ≤
        policy.maxBytes.toNat - 1 + owedBytes config source mid := by
  induction hrun with
  | start => exact ⟨_, List.mem_cons_self, Nat.add_le_add_right (Nat.zero_le _) _⟩
  | @next states s s' hrun hstep ih =>
    obtain ⟨mid, hmid, hbound⟩ := ih
    have hmapped : Mapped config s
        ⟨s.ledger, s.ops, s.sessions.map (Session.connection config), s.clock⟩ := ⟨rfl, rfl, rfl, le_rfl⟩
    obtain ⟨t', hfollowed⟩ := hmapped.step hquota (service_stories hrun) hstep
    have hcharge := hfollowed.charge source
    rw [charge, charge, hfollowed.mapped.ledger, hfollowed.mapped.connections] at hcharge
    rcases hcharge with hless | hlow
    · exact ⟨mid, List.mem_append_left _ hmid, hless.trans hbound⟩
    · refine ⟨s', (hrun.next hstep).last_mem, Nat.add_le_add_right ?_ _⟩
      exact Nat.le_sub_one_of_lt hlow

end

-- the ledger's traffic that the service's run amounts to, with the same use of the ledger
structure TrafficOf (config : ExitConfig) (policy : QuotaPolicy) (clock : Instant)
    (states : List Service) (s : Service) : Prop where
  run : ∃ now ≤ s.clock, Reachable (TrafficStep policy)
    (.start (s.sessions.map fun session => (session.source, session.bytes)) clock)
    ⟨s.ledger, s.ops, s.sessions.map (Session.connection config), now⟩
  bounded : ∀ source, ∃ mid ∈ states,
    (s.ledger.usedBytes source).toNat ≤ policy.maxBytes.toNat - 1 + owedBytes config source mid

theorem service_refines_traffic {config : ExitConfig} {policy : QuotaPolicy} {clock : Instant}
    {states : List Service} {s : Service} (hquota : config.quota = some policy)
    (hrun : Run (ServiceStep config) (.start clock) states s) :
    TrafficOf config policy clock states s := by
  refine ⟨?_, fun source => ?_⟩
  · obtain ⟨connections, t, hreach, hmapped⟩ := run_mapped hquota hrun
    have hkept := reachable_kept hreach
    have hstart : connections = s.sessions.map fun session => (session.source, session.bytes) := by
      rw [hmapped.connections, List.map_map, Traffic.start, List.map_map] at hkept
      exact (List.map_id connections).symm.trans hkept.symm
    refine ⟨t.clock, hmapped.clock, ?_⟩
    rw [← hmapped.ledger, ← hmapped.ops, ← hmapped.connections, ← hstart]
    exact hreach
  · obtain ⟨mid, hmid, hbound⟩ := run_owed hquota hrun source
    exact ⟨mid, hmid, (Nat.le_add_right _ _).trans hbound⟩

theorem service_refines_traffic_busy : ∃ policy states s session,
    TrafficOf meteredExit policy 0 states s ∧ session ∈ s.sessions ∧
      session.connection meteredExit = ⟨localhost, 5, .over⟩ := by
  obtain ⟨s, hserved, _, hget⟩ := busyService meteredExit
  obtain ⟨states, hrun⟩ := Reachable.run hserved
  rw [busySurroundings_effects rfl rfl rfl] at hget
  exact ⟨_, states, s, _, service_refines_traffic rfl hrun, List.mem_of_getElem? hget, by decide⟩

end SpiderNet.Exit
