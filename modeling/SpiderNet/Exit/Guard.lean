import SpiderNet.Exit.Course

namespace SpiderNet.Exit

def Effect.origin : Effect → Option SocketAddr
  | .connect addr => some addr
  | .connected addr => some addr
  | .toOrigin addr _ => some addr
  | _ => none

def Effect.isLookup : Effect → Bool
  | .lookup _ _ => true
  | _ => false

structure Permitted (config : ExitConfig) (source : IpAddr) (env : Surroundings) (addr : SocketAddr) :
    Prop where
  allowed : config.allowlist.isAllowed source
  admitted : (env.ledger.admitSource source config.quota env.now env.later).1 = .allowed
  checked : ∃ rawHead head answer,
    readHead env.stop (env.neighbor.take env.arrived) = .ok rawHead ∧
    parseRequestHead rawHead = .ok head ∧ env.resolve 0 head.host head.port = some answer ∧
    (∀ candidate ∈ answer, isPublicOrigin candidate.ip) ∧ addr ∈ answer

-- an effect that touches no origin but `addrs` and asks no resolver
def Within (addrs : List SocketAddr) (effect : Effect) : Prop :=
  effect.isLookup = false ∧ ∀ addr, effect.origin = some addr → addr ∈ addrs

section
variable {addrs : List SocketAddr}

theorem within_toNeighbor (bytes : Bytes) : Within addrs (.toNeighbor bytes) := ⟨rfl, nofun⟩

theorem within_record (bytes : ℕ) : Within addrs (.record bytes) := ⟨rfl, nofun⟩

theorem within_of_origin {addr : SocketAddr} {effect : Effect} (haddr : addr ∈ addrs)
    (hlookup : effect.isLookup = false) (horigin : effect.origin = some addr) :
    Within addrs effect := by
  refine ⟨hlookup, fun other hother => ?_⟩
  rw [horigin] at hother
  exact Option.some.inj hother ▸ haddr

theorem connectOrigin_within {outcome : ℕ → ConnectOutcome} (attempt : ℕ) :
    (∀ effect ∈ (connectOrigin outcome attempt addrs).1, Within addrs effect) ∧
      ∀ addr, (connectOrigin outcome attempt addrs).2 = .ok addr → addr ∈ addrs := by
  obtain ⟨tried, hinitial, htried, hopened⟩ := connectOrigin_tried outcome attempt addrs
  refine ⟨fun effect heffect => ?_, fun addr haddr => hinitial.subset (hopened addr haddr)⟩
  rw [htried] at heffect
  rcases List.mem_append.mp heffect with heffect | heffect
  · obtain ⟨addr, haddr, rfl⟩ := List.mem_map.mp heffect
    exact within_of_origin (hinitial.subset haddr) rfl rfl
  · cases hresult : (connectOrigin outcome attempt addrs).2 with
    | ok addr =>
      rw [hresult] at heffect
      rw [List.mem_singleton.mp heffect]
      exact within_of_origin (hinitial.subset (hopened addr hresult)) rfl rfl
    | error error =>
      rw [hresult] at heffect
      cases heffect

theorem relayFrom_within {addr : SocketAddr} (haddr : addr ∈ addrs) {relay : List Relayed}
    {uplink downlink : Bytes} :
    ∀ effect ∈ relayFrom addr relay uplink downlink, Within addrs effect := by
  induction relay generalizing uplink downlink with
  | nil => exact nofun
  | cons step rest ih =>
    intro effect heffect
    cases step with
    | up count =>
      rcases List.mem_cons.mp heffect with rfl | heffect
      · exact within_of_origin haddr rfl rfl
      · exact ih effect heffect
    | down count =>
      rcases List.mem_cons.mp heffect with rfl | heffect
      · exact within_toNeighbor _
      · exact ih effect heffect

variable {head : RequestHead} {rawHead : Bytes} {env : Surroundings}

theorem ackEffects_within : ∀ effect ∈ ackEffects head, Within addrs effect := by
  intro effect heffect
  unfold ackEffects at heffect
  split_ifs at heffect
  · rw [List.mem_singleton.mp heffect]
    exact within_toNeighbor _
  · cases heffect

theorem relayEffects_within {addr : SocketAddr} (haddr : addr ∈ addrs) :
    ∀ effect ∈ relayEffects head rawHead addr env, Within addrs effect := by
  intro effect heffect
  rcases List.mem_append.mp heffect with heffect | heffect
  · unfold headEffects at heffect
    split_ifs at heffect
    · rw [List.mem_singleton.mp heffect]
      exact within_of_origin haddr rfl rfl
    · cases heffect
  · exact relayFrom_within haddr effect heffect

theorem Served.within {effects : List Effect} (h : Served head rawHead addrs env effects) :
    ∀ effect ∈ effects, Within addrs effect := by
  obtain ⟨hattempts, hopened⟩ := @connectOrigin_within addrs env.connect 0
  intro effect heffect
  cases h with
  | unacknowledged htunnel hack =>
    rw [List.mem_singleton.mp heffect]
    exact within_toNeighbor _
  | unconnected hacked hconnect =>
    rw [hconnect] at hattempts
    rcases List.mem_append.mp heffect with heffect | heffect
    · exact ackEffects_within effect heffect
    · exact hattempts effect heffect
  | unforwarded hconnect hforward hforwarded =>
    rw [hconnect] at hattempts hopened
    rcases List.mem_append.mp heffect with heffect | heffect
    · exact hattempts effect heffect
    · rw [List.mem_singleton.mp heffect]
      exact within_of_origin (hopened _ rfl) rfl rfl
  | relayed hacked hconnect hforwarded =>
    rw [hconnect] at hattempts hopened
    simp only [List.mem_append, List.mem_singleton] at heffect
    rcases heffect with (heffect | heffect) | heffect | rfl
    · exact ackEffects_within effect heffect
    · exact hattempts effect heffect
    · exact relayEffects_within (hopened _ rfl) effect heffect
    · exact within_record _

end

theorem resolvePublicOrigin_ok {answer : Option (List SocketAddr)} {addrs : List SocketAddr}
    (h : resolvePublicOrigin answer .publicOnly = .ok addrs) :
    answer = some addrs ∧ ∀ candidate ∈ addrs, isPublicOrigin candidate.ip := by
  cases answer with
  | none => cases h
  | some resolved =>
    simp only [resolvePublicOrigin] at h
    split_ifs at h with hempty hprivate
    obtain rfl := Except.ok.inj h
    simp only [ne_eq, reduceCtorEq, not_false_eq_true, true_and, not_not] at hprivate
    exact ⟨rfl, List.all_eq_true.mp hprivate⟩

-- how far a connection got: refused before anything was asked, stopped at the resolver, or served
theorem handleConnection_cases {config : ExitConfig} (hpolicy : config.originPolicy = .publicOnly)
    (source : IpAddr) (env : Surroundings) :
    (∀ effect ∈ (handleConnection config source env).1, Within [] effect) ∨
    (∃ host port, (handleConnection config source env).1 = [.lookup host port]) ∨
    ∃ host port effects addrs, (handleConnection config source env).1 = .lookup host port :: effects ∧
      (∀ effect ∈ effects, Within addrs effect) ∧
      ∀ addr ∈ addrs, Permitted config source env addr := by
  have hanswer {bytes : Bytes} : ∀ effect ∈ [Effect.toNeighbor bytes], Within [] effect := by
    intro effect heffect
    rw [List.mem_singleton.mp heffect]
    exact within_toNeighbor bytes
  have hcourse := handleConnection_course config source env
  generalize (handleConnection config source env).1 = effects at hcourse
  cases hcourse with
  | unread hread => exact Or.inl nofun
  | forbidden hallowed => exact Or.inl hanswer
  | exhausted hdecision => exact Or.inl hanswer
  | unparseable hread hparse => exact Or.inl hanswer
  | unresolved haccepted hresolve => exact Or.inr (Or.inl ⟨_, _, rfl⟩)
  | served haccepted hresolve hserved =>
    rw [hpolicy] at hresolve
    obtain ⟨hanswered, hpublic⟩ := resolvePublicOrigin_ok hresolve
    refine Or.inr (Or.inr ⟨_, _, _, _, rfl, hserved.within, fun addr haddr => ?_⟩)
    exact ⟨haccepted.allowed, haccepted.admitted, _, _, _, haccepted.read, haccepted.parsed, hanswered,
      hpublic, haddr⟩

theorem Within.length_lookups {addrs : List SocketAddr} {effects : List Effect}
    (h : ∀ effect ∈ effects, Within addrs effect) : (effects.filter Effect.isLookup).length = 0 := by
  rw [List.length_eq_zero_iff, List.filter_eq_nil_iff]
  intro effect heffect
  simp [(h effect heffect).1]

theorem origin_contact_permitted {config : ExitConfig} (hpolicy : config.originPolicy = .publicOnly)
    (source : IpAddr) (env : Surroundings) :
    (∀ effect ∈ (handleConnection config source env).1, ∀ addr, effect.origin = some addr →
      Permitted config source env addr) ∧
    ((handleConnection config source env).1.filter Effect.isLookup).length ≤ 1 := by
  rcases handleConnection_cases hpolicy source env with hrefused | ⟨host, port, hasked⟩ |
    ⟨host, port, effects, addrs, hserved, hwithin, hpermitted⟩
  · refine ⟨fun effect heffect addr haddr => ?_, (Within.length_lookups hrefused).trans_le (Nat.zero_le 1)⟩
    have hnone := (hrefused effect heffect).2 addr haddr
    cases hnone
  · rw [hasked]
    refine ⟨fun effect heffect addr haddr => ?_, le_rfl⟩
    rw [List.mem_singleton.mp heffect] at haddr
    cases haddr
  · rw [hserved]
    refine ⟨fun effect heffect addr haddr => ?_, ?_⟩
    · rcases List.mem_cons.mp heffect with rfl | heffect
      · cases haddr
      · exact hpermitted addr ((hwithin effect heffect).2 addr haddr)
    · rw [List.filter_cons_of_pos rfl, List.length_cons, Within.length_lookups hwithin]

def localhost : IpAddr := .v4 (.ofOctets 127 0 0 1)

def exampleOrigin : SocketAddr := ⟨.v4 (.ofOctets 93 184 216 34), 443⟩

theorem exampleOrigin_resolves :
    resolvePublicOrigin (some [exampleOrigin]) .publicOnly = .ok [exampleOrigin] := rfl

def loopbackExit : ExitConfig := .new ⟨localhost, 3128⟩ .loopbackOnly none

def tunnelRequest : Text := "CONNECT example.com:443 HTTP/1.1\r\n\r\n".toList

def tunnelSurroundings : Surroundings where
  neighbor := toUtf8 tunnelRequest
  arrived := 1000
  stop := .timedOut
  ledger := .new
  now := 0
  later := 0
  refusal := .done
  resolve := fun call _ _ => if call = 0 then some [exampleOrigin] else none
  ack := .done
  connect := fun _ => .accepted
  forwarded := .done
  origin := []
  relay := []
  relayFails := false

theorem tunnelSurroundings_connects :
    .connected exampleOrigin ∈ (handleConnection loopbackExit localhost tunnelSurroundings).1 := by
  have hread : readHead .timedOut ((toUtf8 tunnelRequest).take 1000) = .ok (toUtf8 tunnelRequest) := by
    decide
  have hparse : parseRequestHead (toUtf8 tunnelRequest) =
      .ok ⟨.tunnel, "example.com".toList, 443⟩ := by
    rw [parseRequestHead_toUtf8]
    decide
  simp only [handleConnection, tunnelSurroundings, hread, hparse]
  decide

theorem origin_contact_permitted_tunnel :
    Permitted loopbackExit localhost tunnelSurroundings exampleOrigin :=
  (origin_contact_permitted rfl localhost tunnelSurroundings).1 _ tunnelSurroundings_connects _ rfl

end SpiderNet.Exit
