import SpiderNet.Exit.Service

namespace SpiderNet.Exit
open Transition ListFacts

def Session.charged (session : Session) : ℕ :=
  ((session.performed.filterMap Effect.charge).map fun bytes => (UInt64.ofNat bytes).toNat).sum

def ofSource (source : IpAddr) (session : Session) : Bool := session.source = source

-- what the source's connections have been charged, over all of the service's life
def chargedTo (source : IpAddr) (sessions : List Session) : ℕ :=
  ((sessions.filter (ofSource source)).map Session.charged).sum

structure MeterInv (policy : QuotaPolicy) (s : Service) : Prop where
  ledger : s.ledger = ledgerAfter policy s.ops
  ordered : NonDecreasing s.ops
  past : ∀ op ∈ s.ops, op.now ≤ s.clock
  charged : ∀ source, recorded (ownOps source s.ops) = chargedTo source s.sessions

theorem ledgerAfter_snoc (policy : QuotaPolicy) (ops : List LedgerOp) (op : LedgerOp) :
    ledgerAfter policy (ops ++ [op]) = op.apply policy (ledgerAfter policy ops) := by
  rw [ledgerAfter, List.foldl_append]
  rfl

theorem ownOps_snoc (source : IpAddr) (ops : List LedgerOp) (op : LedgerOp) :
    ownOps source (ops ++ [op]) = ownOps source ops ++ if op.source = source then [op] else [] := by
  rw [ownOps, List.filter_append, ownOps]
  congr 1
  by_cases h : op.source = source <;> simp [h]

theorem NonDecreasing.snoc {ops : List LedgerOp} {op : LedgerOp} (h : NonDecreasing ops)
    (hlast : ∀ earlier ∈ ops, earlier.now ≤ op.now) : NonDecreasing (ops ++ [op]) := by
  refine List.pairwise_append.mpr ⟨h, List.pairwise_singleton _ _, fun earlier hearlier later hlater => ?_⟩
  rw [List.mem_singleton.mp hlater]
  exact hlast earlier hearlier

theorem chargedTo_set {sessions : List Session} {pos : ℕ} {session : Session} (session' : Session)
    (hget : sessions[pos]? = some session) (hsource : session'.source = session.source)
    (source : IpAddr) : chargedTo source (sessions.set pos session') +
      (if session.source = source then session.charged else 0) =
    chargedTo source sessions + if session.source = source then session'.charged else 0 := by
  have hsum := sum_map_set (fun session => if ofSource source session then session.charged else 0)
    session' hget
  rw [← sum_map_filter, ← sum_map_filter] at hsum
  simpa [chargedTo, ofSource, hsource] using hsum

theorem Session.charged_perform (session : Session) (effect : Effect) (rest : List Effect) :
    (session.perform effect rest).charged =
      session.charged + (effect.charge.map fun bytes => (UInt64.ofNat bytes).toNat).getD 0 := by
  rw [Session.charged, Session.perform, List.filterMap_append, List.map_append, List.sum_append,
    Session.charged]
  cases effect <;> rfl

section
variable {config : ExitConfig} {policy : QuotaPolicy} {s s' : Service}

theorem MeterInv.ask (h : MeterInv policy s) (hquota : config.quota = some policy)
    (session : Session) {now later : Instant} (hnow : s.clock ≤ now) (hlater : now ≤ later) :
    MeterInv policy (s.ask config session now later) := by
  have hpast : ∀ op ∈ s.ops, op.now ≤ now := fun op hop => (h.past op hop).trans hnow
  by_cases hasks : asksLedger config session.source session.env
  · have heq : s.ask config session now later = { s with
        ledger := (s.ledger.admitSource session.source (some policy) now later).2
        ops := s.ops ++ [.admitSource session.source now later]
        clock := later } := by
      rw [Service.ask, if_pos hasks, hquota]
      rfl
    rw [heq]
    refine ⟨?_, h.ordered.snoc hpast, fun op hop => ?_, fun source => ?_⟩
    · rw [ledgerAfter_snoc, ← h.ledger]
      rfl
    · rcases List.mem_append.mp hop with hop | hop
      · exact (hpast op hop).trans hlater
      · rw [List.mem_singleton.mp hop]
        exact hlater
    · rw [ownOps_snoc, recorded_append, h.charged source]
      split_ifs <;> rfl
  · rw [Service.ask, if_neg hasks]
    exact ⟨h.ledger, h.ordered, fun op hop => (hpast op hop).trans hlater, h.charged⟩

theorem MeterInv.performed (h : MeterInv policy s) (hquota : config.quota = some policy)
    {pos : ℕ} {session : Session} {effect : Effect} {rest : List Effect} {now : Instant}
    (hget : s.sessions[pos]? = some session) (hnow : s.clock ≤ now) :
    MeterInv policy
      ((s.charge config session.source effect now).replace pos (session.perform effect rest)) := by
  have hpast : ∀ op ∈ s.ops, op.now ≤ now := fun op hop => (h.past op hop).trans hnow
  have hset := chargedTo_set (session.perform effect rest) hget rfl
  rw [Session.charged_perform] at hset
  have hquiet (hcharge : effect.charge = none)
      (heq : s.charge config session.source effect now = { s with clock := now }) :
      MeterInv policy
        ((s.charge config session.source effect now).replace pos (session.perform effect rest)) := by
    rw [heq]
    refine ⟨h.ledger, h.ordered, hpast, fun source => ?_⟩
    have hsource := hset source
    rw [hcharge, Option.map_none, Option.getD_none, Nat.add_zero] at hsource
    exact (h.charged source).trans (Nat.add_right_cancel hsource).symm
  cases effect with
  | record bytes =>
    have heq : s.charge config session.source (.record bytes) now = { s with
        ledger := s.ledger.record session.source (.ofNat bytes) (some policy) now
        ops := s.ops ++ [.record session.source (.ofNat bytes) now]
        clock := now } := by
      rw [Service.charge, hquota]
      rfl
    rw [heq]
    refine ⟨?_, h.ordered.snoc hpast, fun op hop => ?_, fun source => ?_⟩
    · simp only [Service.replace]
      rw [ledgerAfter_snoc, ← h.ledger]
      rfl
    · rcases List.mem_append.mp hop with hop | hop
      · exact hpast op hop
      · rw [List.mem_singleton.mp hop]
        exact le_rfl
    · have hsource := hset source
      simp only [Service.replace]
      rw [ownOps_snoc, recorded_append, h.charged source]
      by_cases hown : session.source = source
      · simp only [hown, if_true] at hsource
        simp only [LedgerOp.source, hown, if_true, recorded, List.map_cons, List.map_nil,
          List.sum_cons, List.sum_nil, LedgerOp.bytes]
        simp only [Effect.charge, Option.map_some, Option.getD_some] at hsource
        omega
      · simp only [hown, if_false] at hsource
        simp only [LedgerOp.source, hown, if_false]
        exact hsource.symm
  | _ => exact hquiet rfl rfl

theorem MeterInv.step (hquota : config.quota = some policy) (h : MeterInv policy s)
    (hstep : ServiceStep config s s') : MeterInv policy s' := by
  cases hstep with
  | accepted source env hloop =>
    refine ⟨h.ledger, h.ordered, h.past, fun other => (h.charged other).trans ?_⟩
    rw [chargedTo, chargedTo, List.filter_append, List.map_append, List.sum_append]
    by_cases hsource : ofSource other ⟨source, env, [], none⟩ <;> simp [hsource, Session.charged]
  | shutdown hloop => exact ⟨h.ledger, h.ordered, h.past, h.charged⟩
  | acceptFails kind hloop => exact ⟨h.ledger, h.ordered, h.past, h.charged⟩
  | decided hget hrest hnow hlater =>
    rename_i pos session now later
    have hasked := h.ask hquota session hnow hlater
    refine ⟨hasked.ledger, hasked.ordered, hasked.past, fun source => (hasked.charged source).trans ?_⟩
    have hset := chargedTo_set (s.answered config session now later) hget rfl source
    rw [Service.ask_sessions]
    simp only [Service.replace, Service.ask_sessions]
    exact (Nat.add_right_cancel hset).symm
  | performed hget hrest hnow => exact h.performed hquota hget hnow

theorem meterInv_start (policy : QuotaPolicy) (clock : Instant) : MeterInv policy (.start clock) := by
  refine ⟨rfl, List.Pairwise.nil, fun op hop => ?_, fun source => rfl⟩
  cases hop

theorem serveUntil_meterInv {clock : Instant} (hquota : config.quota = some policy)
    (hrun : serveUntil config clock s) : MeterInv policy s :=
  hrun.invariant (fun h hstep => h.step hquota hstep) (meterInv_start policy clock)

end

def Session.fresh (session : Session) : Session := ⟨session.source, session.env, [], none⟩

-- in one of the steps taken the connection read its head and, if it got that far, asked the ledger
structure Begun (config : ExitConfig) (taken : Service → Service → Prop) (pos : ℕ) (session : Session)
    (rest : List Effect) (mid : Service) (now later : Instant) : Prop where
  waiting : mid.sessions[pos]? = some session.fresh
  clocked : mid.clock ≤ now
  ordered : now ≤ later
  decided : taken mid ((mid.ask config session.fresh now later).replace pos
    (mid.answered config session.fresh now later))
  course : session.performed ++ rest =
    (handleConnection config session.source (session.env.at mid.ledger now later)).1

def SessionStory (config : ExitConfig) (taken : Service → Service → Prop) (pos : ℕ)
    (session : Session) : Prop :=
  match session.rest with
  | none => session.performed = []
  | some rest => ∃ mid now later, Begun config taken pos session rest mid now later

def Stories (config : ExitConfig) (taken : Service → Service → Prop) (s : Service) : Prop :=
  ∀ (pos : ℕ) (session : Session), s.sessions[pos]? = some session → SessionStory config taken pos session

section
variable {config : ExitConfig} {taken taken' : Service → Service → Prop} {s s' : Service}

theorem SessionStory.later {pos : ℕ} {session : Session} (h : SessionStory config taken pos session)
    (hkept : ∀ {a b}, taken a b → taken' a b) : SessionStory config taken' pos session := by
  unfold SessionStory at h ⊢
  cases hrest : session.rest with
  | none => rwa [hrest] at h
  | some rest =>
    rw [hrest] at h
    obtain ⟨mid, now, later, hbegun⟩ := h
    exact ⟨mid, now, later, hbegun.waiting, hbegun.clocked, hbegun.ordered, hkept hbegun.decided,
      hbegun.course⟩

theorem Stories.later (h : Stories config taken s) (hkept : ∀ {a b}, taken a b → taken' a b) :
    Stories config taken' s := fun pos session hget => (h pos session hget).later hkept

theorem Stories.step (h : Stories config taken s) (hkept : ∀ {a b}, taken a b → taken' a b)
    (hlast : taken' s s') (hstep : ServiceStep config s s') : Stories config taken' s' := by
  have hlater := h.later hkept
  intro place session hsession
  cases hstep with
  | accepted source env hloop =>
    rcases getElem?_snoc_cases hsession with hsession | ⟨_, rfl⟩
    · exact hlater place session hsession
    · exact rfl
  | shutdown hloop => exact hlater place session hsession
  | acceptFails kind hloop => exact hlater place session hsession
  | decided hget hrest hnow hordered =>
    rename_i pos decided now later
    simp only [Service.replace, Service.ask_sessions] at hsession
    rcases getElem?_set_cases hsession with ⟨rfl, rfl, _⟩ | ⟨_, hsession⟩
    · have hnone := h place decided hget
      rw [SessionStory, hrest] at hnone
      have hfresh : decided = (s.answered config decided now later).fresh := by
        cases decided
        simp only at hrest hnone
        subst hrest hnone
        rfl
      refine ⟨s, now, later, hget.trans (congrArg some hfresh), hnow, hordered, ?_, ?_⟩
      · rw [← hfresh]
        exact hlast
      · simp only [Service.answered, hnone, List.nil_append]
    · exact hlater place session hsession
  | performed hget hrest hnow =>
    rename_i pos running effect rest now
    simp only [Service.replace, Service.charge_sessions] at hsession
    rcases getElem?_set_cases hsession with ⟨rfl, rfl, _⟩ | ⟨_, hsession⟩
    · have hsome := hlater place running hget
      rw [SessionStory, hrest] at hsome
      obtain ⟨mid, now', later', hbegun⟩ := hsome
      refine ⟨mid, now', later', hbegun.waiting, hbegun.clocked, hbegun.ordered, hbegun.decided, ?_⟩
      simp only [Session.perform]
      rw [List.append_assoc]
      exact hbegun.course
    · exact hlater place session hsession

theorem stories_start (config : ExitConfig) (taken : Service → Service → Prop) (clock : Instant) :
    Stories config taken (.start clock) := by
  intro pos session hget
  cases hget

theorem service_stories {clock : Instant} {states : List Service}
    (hrun : Run (ServiceStep config) (.start clock) states s) : Stories config (Takes states) s := by
  induction hrun with
  | start => exact stories_start config _ clock
  | next hrun hstep ih => exact ih.step (fun htaken => htaken.later _) (hrun.takes_last _) hstep

end

-- the record is the last thing a connection does
theorem charge_last {front seen rest : List Effect} {bytes : ℕ}
    (hfront : front.filterMap Effect.charge = []) (h : seen ++ rest = front ++ [.record bytes]) :
    seen.filterMap Effect.charge = [] ∨ rest = [] := by
  rcases List.eq_nil_or_concat rest with hrest | ⟨before, last, rfl⟩
  · exact Or.inr hrest
  · rw [List.concat_eq_append, ← List.append_assoc] at h
    obtain ⟨hfrontEq, _⟩ := List.append_inj' h rfl
    rw [← hfrontEq, List.filterMap_append] at hfront
    exact Or.inl (List.append_eq_nil_iff.mp hfront).1

theorem uncharged_front {effects seen rest : List Effect}
    (hnone : effects.filterMap Effect.charge = []) (h : seen ++ rest = effects) :
    seen.filterMap Effect.charge = [] := by
  rw [← h, List.filterMap_append] at hnone
  exact (List.append_eq_nil_iff.mp hnone).1

def ChargedAtEnd (seen rest : List Effect) : Prop :=
  seen.filterMap Effect.charge = [] ∨
    rest = [] ∧ seen.filterMap Effect.charge = [streamedBytes seen]

theorem Served.chargedAtEnd {head : RequestHead} {rawHead : Bytes} {addrs : List SocketAddr}
    {env : Surroundings} {effects seen rest : List Effect}
    (h : Served head rawHead addrs env effects) (hsplit : seen ++ rest = effects) :
    ChargedAtEnd seen rest := by
  have hcharged : ∀ addr, .connected addr ∈ effects →
      (effects.filterMap Effect.charge = [streamedBytes effects] ↔
        ¬(head.target = .forward ∧ ∃ written, env.forwarded = .failed written)) :=
    fun addr hopened => h.charged_iff hopened
  cases h with
  | unacknowledged htunnel hack => exact Or.inl (uncharged_front rfl hsplit)
  | unconnected hacked hconnect =>
    obtain ⟨tried, rfl⟩ := connectOrigin_unopened hconnect
    refine Or.inl (uncharged_front ?_ hsplit)
    rw [List.filterMap_append, charges_ackEffects, charges_tried]
    rfl
  | unforwarded hconnect hforward hforwarded =>
    obtain ⟨tried, rfl⟩ := connectOrigin_opened hconnect
    refine Or.inl (uncharged_front ?_ hsplit)
    rw [List.filterMap_append, List.filterMap_append, charges_tried]
    rfl
  | relayed hacked hconnect hforwarded =>
    rename_i attempts addr
    obtain ⟨tried, rfl⟩ := connectOrigin_opened hconnect
    have hfront : (ackEffects head ++ (tried.map Effect.connect ++ [Effect.connected addr]) ++
        relayEffects head rawHead addr env).filterMap Effect.charge = [] := by
      rw [List.filterMap_append, List.filterMap_append, List.filterMap_append, charges_ackEffects,
        charges_tried, charges_relayEffects]
      rfl
    rw [← List.append_assoc] at hsplit
    rcases charge_last hfront hsplit with hnone | rfl
    · exact Or.inl hnone
    · rw [List.append_nil, List.append_assoc] at hsplit
      refine Or.inr ⟨rfl, ?_⟩
      rw [hsplit]
      refine (hcharged addr (by simp)).mpr ?_
      rintro ⟨hforward, written, hfailed⟩
      rw [hforwarded hforward] at hfailed
      cases hfailed

theorem handleConnection_chargedAtEnd {config : ExitConfig} {source : IpAddr} {env : Surroundings}
    {seen rest : List Effect} (h : seen ++ rest = (handleConnection config source env).1) :
    ChargedAtEnd seen rest := by
  have hcourse := handleConnection_course config source env
  rw [← h] at hcourse
  generalize heffects : seen ++ rest = effects at hcourse
  cases hcourse with
  | served haccepted hresolve hserved =>
    cases seen with
    | nil => exact Or.inl rfl
    | cons first seen =>
      obtain ⟨rfl, hsplit⟩ := List.cons.inj heffects
      have htail : ChargedAtEnd seen rest := hserved.chargedAtEnd hsplit
      exact htail
  | _ => exact Or.inl (uncharged_front rfl heffects)

-- `window` holds when the source's window opened and the sum of what was recorded in it since
structure Metering (policy : QuotaPolicy) (source : IpAddr) (s : Service) : Prop where
  ledger : s.ledger = ledgerAfter policy s.ops
  window : s.ledger source =
    stored (FixedWindow.current LedgerOp.now policy.window (ownOps source s.ops))
  used : (s.ledger.usedBytes source).toNat ≤ chargedTo source s.sessions
  total : recorded (ownOps source s.ops) = chargedTo source s.sessions
  once : ∀ session ∈ s.sessions, session.performed.filterMap Effect.charge = [] ∨
    session.rest = some [] ∧
      session.performed.filterMap Effect.charge = [streamedBytes session.performed]

theorem usedBytes_le_recorded (policy : QuotaPolicy) (ops : List LedgerOp) (source : IpAddr) :
    ((ledgerAfter policy ops).usedBytes source).toNat ≤ recorded (ownOps source ops) := by
  rw [QuotaLedger.usedBytes, ledgerAfter_stored]
  cases hcurrent : FixedWindow.current LedgerOp.now policy.window (ownOps source ops) with
  | none => exact Nat.zero_le _
  | some opened =>
    obtain ⟨first, block⟩ := opened
    simp only [stored, Option.map_some, Option.getD_some]
    rw [toNat_capped]
    exact (min_le_left _ _).trans
      (recorded_le_of_sublist (FixedWindow.current_suffix hcurrent).1.sublist)

theorem service_metering {config : ExitConfig} {policy : QuotaPolicy} {clock : Instant} {s : Service}
    (hquota : config.quota = some policy) (hrun : serveUntil config clock s) (source : IpAddr) :
    Metering policy source s := by
  have hmeter := serveUntil_meterInv hquota hrun
  obtain ⟨states, hstates⟩ := Reachable.run hrun
  refine ⟨hmeter.ledger, ?_, ?_, hmeter.charged source, fun session hsession => ?_⟩
  · rw [hmeter.ledger]
    exact ledgerAfter_stored s.ops source
  · rw [hmeter.ledger, ← hmeter.charged source]
    exact usedBytes_le_recorded policy s.ops source
  · obtain ⟨pos, hget⟩ := List.mem_iff_getElem?.mp hsession
    have hstory := service_stories hstates pos session hget
    unfold SessionStory at hstory
    cases hrest : session.rest with
    | none =>
      rw [hrest] at hstory
      rw [hstory]
      exact Or.inl rfl
    | some rest =>
      rw [hrest] at hstory
      obtain ⟨mid, now, later, hbegun⟩ := hstory
      rcases handleConnection_chargedAtEnd hbegun.course with hnone | ⟨rfl, hcharged⟩
      · exact Or.inl hnone
      · exact Or.inr ⟨rfl, hcharged⟩

-- an effect that asks the resolver or touches an origin
def Effect.reachesOut (effect : Effect) : Bool := effect.isLookup || effect.origin.isSome

theorem handleConnection_reachesOut {config : ExitConfig} {source : IpAddr} {env : Surroundings}
    {effect : Effect} (hmem : effect ∈ (handleConnection config source env).1)
    (hout : effect.reachesOut = true) : config.allowlist.isAllowed source ∧
      (env.ledger.admitSource source config.quota env.now env.later).1 = .allowed := by
  have hcourse := handleConnection_course config source env
  generalize (handleConnection config source env).1 = effects at hcourse hmem
  have hanswer {bytes : Bytes} (hanswered : effect ∈ [Effect.toNeighbor bytes]) : False := by
    rw [List.mem_singleton.mp hanswered] at hout
    cases hout
  cases hcourse with
  | unread hread => cases hmem
  | forbidden hallowed => exact (hanswer hmem).elim
  | exhausted hdecision => exact (hanswer hmem).elim
  | unparseable hread hparse => exact (hanswer hmem).elim
  | unresolved haccepted hresolve => exact ⟨haccepted.allowed, haccepted.admitted⟩
  | served haccepted hresolve hserved => exact ⟨haccepted.allowed, haccepted.admitted⟩

theorem serveUntil_allowed_iff {config : ExitConfig} {policy : QuotaPolicy} {clock : Instant}
    {s : Service} (hrun : serveUntil config clock s) (hquota : config.quota = some policy)
    (source : IpAddr) (now later : Instant) :
    (s.ledger.admitSource source (some policy) now later).1 = .allowed ↔
      recorded (windowAt policy s.ops source now later) < policy.maxBytes.toNat := by
  rw [(serveUntil_meterInv hquota hrun).ledger]
  exact answer_allowed_iff s.ops source now later

-- `mid` is the state of the run in which the connection at `pos` was decided
structure QuotaKept (config : ExitConfig) (policy : QuotaPolicy) (taken : Service → Service → Prop)
    (pos : ℕ) (session : Session) (rest : List Effect) (mid : Service) (now later : Instant) :
    Prop where
  begun : Begun config taken pos session rest mid now later
  ledger : mid.ledger = ledgerAfter policy mid.ops
  law : (mid.ledger.admitSource session.source (some policy) now later).1 = .allowed ↔
    recorded (windowAt policy mid.ops session.source now later) < policy.maxBytes.toNat
  contact : (∃ effect ∈ session.performed, effect.reachesOut = true) →
    config.allowlist.isAllowed session.source ∧
      recorded (windowAt policy mid.ops session.source now later) < policy.maxBytes.toNat

theorem service_quota_kept {config : ExitConfig} {policy : QuotaPolicy} {clock : Instant}
    {states : List Service} {s : Service} (hquota : config.quota = some policy)
    (hrun : Run (ServiceStep config) (.start clock) states s) {pos : ℕ} {session : Session}
    (hget : s.sessions[pos]? = some session) {rest : List Effect} (hrest : session.rest = some rest) :
    ∃ mid now later, QuotaKept config policy (Takes states) pos session rest mid now later := by
  have hstory := service_stories hrun pos session hget
  rw [SessionStory, hrest] at hstory
  obtain ⟨mid, now, later, hbegun⟩ := hstory
  have hmid : serveUntil config clock mid := (hrun.through hbegun.decided.mem).1
  have hlaw := serveUntil_allowed_iff hmid hquota session.source now later
  refine ⟨mid, now, later, hbegun, (serveUntil_meterInv hquota hmid).ledger, hlaw, ?_⟩
  rintro ⟨effect, heffect, hout⟩
  have hmem : effect ∈ (handleConnection config session.source
      (session.env.at mid.ledger now later)).1 := hbegun.course ▸ List.mem_append_left rest heffect
  obtain ⟨hallowed, hadmitted⟩ := handleConnection_reachesOut hmem hout
  rw [hquota] at hadmitted
  exact ⟨hallowed, hlaw.mp hadmitted⟩

theorem replace_ask_get {config : ExitConfig} {s : Service} {pos : ℕ} {session : Session}
    (hget : s.sessions[pos]? = some session) (now later : Instant) (session' : Session) :
    ((s.ask config session now later).replace pos session').sessions[pos]? = some session' := by
  simp only [Service.replace, Service.ask_sessions]
  exact List.getElem?_set_self (List.getElem?_eq_some_iff.mp hget).1

-- nothing keeps a connection that has begun from going through with it
theorem performs_all {config : ExitConfig} {s : Service} {pos : ℕ} {session : Session}
    {rest : List Effect} (hget : s.sessions[pos]? = some session) (hrest : session.rest = some rest) :
    ∃ s', Reachable (ServiceStep config) s s' ∧ s'.loop = s.loop ∧ s'.sessions = s.sessions.set pos
      { session with performed := session.performed ++ rest, rest := some [] } := by
  induction rest generalizing s session with
  | nil =>
    refine ⟨s, .refl s, rfl, (List.ext_getElem? fun place => ?_).symm⟩
    rw [List.append_nil, ← hrest]
    by_cases hplace : pos = place
    · subst hplace
      rw [List.getElem?_set_self (List.getElem?_eq_some_iff.mp hget).1, hget]
    · rw [List.getElem?_set_ne hplace]
  | cons effect rest ih =>
    have hlt := (List.getElem?_eq_some_iff.mp hget).1
    have hnext : ((s.charge config session.source effect s.clock).replace pos
        (session.perform effect rest)).sessions[pos]? = some (session.perform effect rest) := by
      simp only [Service.replace, Service.charge_sessions]
      exact List.getElem?_set_self hlt
    obtain ⟨s', hrun, hloop, hsessions⟩ := ih hnext rfl
    refine ⟨s', ((Reachable.refl s).tail (.performed hget hrest le_rfl)).trans hrun,
      hloop.trans Service.charge_loop, ?_⟩
    rw [hsessions]
    simp only [Service.replace, Service.charge_sessions, List.set_set, Session.perform,
      List.append_assoc, List.singleton_append]

theorem busy_charged {config : ExitConfig} {source : IpAddr} {ledger : QuotaLedger} {now later : Instant}
    (hpolicy : config.originPolicy = .publicOnly) (hallowed : config.allowlist.isAllowed source)
    (hadmitted : (ledger.admitSource source config.quota now later).1 = .allowed) :
    Session.charged ⟨source, busySurroundings,
      (handleConnection config source (busySurroundings.at ledger now later)).1, some []⟩ = 5 := by
  rw [Session.charged, busySurroundings_effects hpolicy hallowed hadmitted]
  rfl

def busySession : Session := ⟨localhost, busySurroundings, [], none⟩

def busyStart : Service := { Service.start 0 with sessions := [busySession] }

theorem busyService (config : ExitConfig) : ∃ s, serveUntil config 0 s ∧ s.loop = .accepting ∧
    s.sessions[0]? = some { busySession with
      performed := (handleConnection config localhost (busySurroundings.at .new 0 0)).1
      rest := some [] } := by
  have haccepted : serveUntil config 0 busyStart :=
    (Reachable.refl _).tail (.accepted localhost busySurroundings rfl)
  have hdecided := haccepted.tail
    (@ServiceStep.decided config _ 0 busySession 0 0 rfl rfl le_rfl le_rfl)
  have hget := @replace_ask_get config busyStart 0 busySession rfl 0 0
    (busyStart.answered config busySession 0 0)
  obtain ⟨s, hrun, hloop, hsessions⟩ := @performs_all config _ _ _ _ hget rfl
  refine ⟨s, hdecided.trans hrun, hloop.trans Service.ask_loop, ?_⟩
  rw [hsessions]
  exact List.getElem?_set_self (List.getElem?_eq_some_iff.mp hget).1

theorem service_metering_busy : ∃ policy s session, session ∈ s.sessions ∧
    Metering policy localhost s ∧ session.charged = 5 := by
  obtain ⟨s, hrun, _, hget⟩ := busyService meteredExit
  exact ⟨_, s, _, List.mem_of_getElem? hget, service_metering rfl hrun localhost,
    @busy_charged meteredExit localhost .new 0 0 rfl rfl rfl⟩

theorem service_quota_kept_busy : ∃ policy states session mid now later,
    QuotaKept meteredExit policy (Takes states) 0 session [] mid now later ∧
      ∃ effect ∈ session.performed, effect.reachesOut = true := by
  obtain ⟨s, hserved, _, hget⟩ := busyService meteredExit
  obtain ⟨states, hrun⟩ := Reachable.run hserved
  obtain ⟨mid, now, later, hkept⟩ := service_quota_kept rfl hrun hget rfl
  refine ⟨_, states, _, mid, now, later, hkept, .connected exampleOrigin, ?_, rfl⟩
  rw [busySurroundings_effects rfl rfl rfl]
  simp

end SpiderNet.Exit
