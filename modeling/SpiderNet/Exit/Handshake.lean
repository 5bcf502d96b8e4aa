import SpiderNet.Exit.Relay

namespace SpiderNet.Exit

-- a connection to an address the resolver gave and the policy let pass is open
def Opened (config : ExitConfig) (source : IpAddr) (env : Surroundings) (seen : List Effect) : Prop :=
  ∃ rawHead head addrs addr, Accepted config source env rawHead head ∧
    resolvePublicOrigin (env.resolve 0 head.host head.port) config.originPolicy = .ok addrs ∧
    addr ∈ addrs ∧ .connected addr ∈ seen

structure AckAfterConnect (config : ExitConfig) (source : IpAddr) (env : Surroundings) : Prop where
  after : ∀ seen, seen <+: (handleConnection config source env).1 →
    respTunnelOk <+: neighborBytes seen → Opened config source env seen
  never : (∀ addr, .connected addr ∉ (handleConnection config source env).1) →
    ¬respTunnelOk <+: neighborBytes (handleConnection config source env).1

structure AckSent (config : ExitConfig) (source : IpAddr) (env : Surroundings) : Prop where
  tunnel : ∃ rawHead head addrs, Accepted config source env rawHead head ∧ head.target = .tunnel ∧
    resolvePublicOrigin (env.resolve 0 head.host head.port) config.originPolicy = .ok addrs
  whole : env.ack.sent respTunnelOk = respTunnelOk

theorem WriteOutcome.sent_prefix (outcome : WriteOutcome) (bytes : Bytes) :
    outcome.sent bytes <+: bytes := by
  cases outcome with
  | done => exact List.prefix_refl _
  | failed written => exact List.take_prefix _ _

theorem respQuotaExhausted_start (retryAfterSecs : ℕ) :
    toUtf8 "HTTP/1.1 503 Service Unavailable\r\nRetry-After: ".toList <+:
      respQuotaExhausted retryAfterSecs := by
  simp only [respQuotaExhausted, String.toList_append, toUtf8_append, String.append_assoc, toString]
  exact List.prefix_append _ _

theorem respQuotaExhausted_not_ack (retryAfterSecs : ℕ) :
    ¬respTunnelOk <+: respQuotaExhausted retryAfterSecs := by
  intro h
  rcases List.prefix_or_prefix_of_prefix h (respQuotaExhausted_start retryAfterSecs) with h | h
  · revert h
    decide
  · revert h
    decide

theorem respTunnelOk_ne : respTunnelOk ≠ [] := by decide

section
variable {head : RequestHead} {rawHead : Bytes} {addrs : List SocketAddr} {env : Surroundings}
  {effects : List Effect}

-- before the connection is open, only the acknowledgement goes to the neighbor
theorem Served.acked_early {seen : List Effect} (h : Served head rawHead addrs env effects)
    (hseen : seen <+: effects) (hack : respTunnelOk <+: neighborBytes seen) :
    (head.target = .tunnel ∧ env.ack.sent respTunnelOk = respTunnelOk) ∨
      ∃ addr ∈ addrs, .connected addr ∈ seen := by
  have hbytes : respTunnelOk <+: neighborBytes effects := hack.trans (hseen.flatMap _)
  have hsilent {tried : List SocketAddr}
      (h : respTunnelOk <+: neighborBytes (tried.map Effect.connect)) : False := by
    rw [neighborBytes_tried] at h
    exact respTunnelOk_ne (List.prefix_nil.mp h)
  have hafter {attempts rest : List Effect} {addr : SocketAddr}
      (hconnect : connectOrigin env.connect 0 addrs = (attempts, .ok addr))
      (hseen : seen <+: attempts ++ rest) : ∃ addr ∈ addrs, .connected addr ∈ seen := by
    obtain ⟨tried, rfl⟩ := connectOrigin_opened hconnect
    have haddr : addr ∈ addrs := (@connectOrigin_within addrs env.connect 0).2 addr (by rw [hconnect])
    rw [List.append_assoc] at hseen
    rcases List.prefix_or_prefix_of_prefix hseen
      (List.prefix_append (tried.map Effect.connect) ([.connected addr] ++ rest)) with hearly | hlate
    · exact (hsilent (hack.trans (hearly.flatMap _))).elim
    · obtain ⟨more, rfl⟩ := hlate
      rw [List.prefix_append_right_inj] at hseen
      cases more with
      | nil =>
        rw [List.append_nil] at hack
        exact (hsilent hack).elim
      | cons first more =>
        obtain ⟨rfl, _⟩ := List.cons_prefix_cons.mp hseen
        exact ⟨addr, haddr, List.mem_append_right _ List.mem_cons_self⟩
  cases h with
  | unacknowledged htunnel hfailed =>
    rw [neighborBytes_single] at hbytes
    refine Or.inl ⟨htunnel, ?_⟩
    rw [hfailed]
    exact (List.take_prefix _ _).eq_of_length_le hbytes.length_le
  | unconnected hacked hconnect =>
    obtain ⟨tried, rfl⟩ := connectOrigin_unopened hconnect
    unfold ackEffects at hbytes
    split_ifs at hbytes with htunnel
    · exact Or.inl ⟨htunnel, by rw [hacked htunnel]; rfl⟩
    · exact (hsilent hbytes).elim
  | unforwarded hconnect hforward hforwarded => exact Or.inr (hafter hconnect hseen)
  | relayed hacked hconnect hforwarded =>
    unfold ackEffects at hseen
    split_ifs at hseen with htunnel
    · exact Or.inl ⟨htunnel, by rw [hacked htunnel]; rfl⟩
    · exact Or.inr (hafter hconnect hseen)

theorem Served.starts_with_ack (h : Served head rawHead addrs env effects)
    (htunnel : head.target = .tunnel) (hwhole : env.ack.sent respTunnelOk = respTunnelOk) :
    [.toNeighbor respTunnelOk] <+: effects := by
  have hack : ackEffects head = [.toNeighbor respTunnelOk] := if_pos htunnel
  cases h with
  | unacknowledged htunnel hfailed =>
    rw [hfailed] at hwhole
    rw [show respTunnelOk.take _ = respTunnelOk from hwhole]
  | unconnected hacked hconnect =>
    rw [hack]
    exact List.prefix_append _ _
  | unforwarded hconnect hforward hforwarded =>
    rw [htunnel] at hforward
    cases hforward
  | relayed hacked hconnect hforwarded =>
    rw [hack, List.append_assoc]
    exact List.prefix_append _ _

end

section
variable {config : ExitConfig} {source : IpAddr} {env : Surroundings}

theorem Course.acked_early {effects seen : List Effect} (h : Course config source env effects)
    (hseen : seen <+: effects) (hack : respTunnelOk <+: neighborBytes seen) :
    AckSent config source env ∨ Opened config source env seen := by
  have hbytes : respTunnelOk <+: neighborBytes effects := hack.trans (hseen.flatMap _)
  have hrefusal {bytes : Bytes}
      (h : respTunnelOk <+: neighborBytes [.toNeighbor (env.refusal.sent bytes)]) :
      respTunnelOk <+: bytes := by
    rw [neighborBytes_single] at h
    exact h.trans (env.refusal.sent_prefix bytes)
  cases h with
  | unread hread => exact absurd (List.prefix_nil.mp hbytes) respTunnelOk_ne
  | forbidden hallowed => exact absurd (hrefusal hbytes) (by decide)
  | exhausted hdecision => exact absurd (hrefusal hbytes) (respQuotaExhausted_not_ack _)
  | unparseable hread hparse => exact absurd (hrefusal hbytes) (by decide)
  | unresolved haccepted hresolve =>
    rw [neighborBytes_single] at hbytes
    exact absurd (List.prefix_nil.mp hbytes) respTunnelOk_ne
  | served haccepted hresolve hserved =>
    cases seen with
    | nil => exact absurd (List.prefix_nil.mp hack) respTunnelOk_ne
    | cons first seen =>
      obtain ⟨rfl, hrest⟩ := List.cons_prefix_cons.mp hseen
      rcases hserved.acked_early hrest hack with ⟨htunnel, hwhole⟩ | ⟨addr, haddr, hconnected⟩
      · exact Or.inl ⟨⟨_, _, _, haccepted, htunnel, hresolve⟩, hwhole⟩
      · exact Or.inr ⟨_, _, _, addr, haccepted, hresolve, haddr, List.mem_cons_of_mem _ hconnected⟩

theorem Course.starts_with_ack {effects : List Effect} (h : Course config source env effects)
    (hsent : AckSent config source env) :
    ∃ host port, [.lookup host port, .toNeighbor respTunnelOk] <+: effects := by
  obtain ⟨⟨rawHead, head, addrs, haccepted, htunnel, hresolve⟩, hwhole⟩ := hsent
  rcases h.of_accepted haccepted with ⟨error, hrefused, rfl⟩ | ⟨addrs', served, _, hserved, rfl⟩
  · rw [hresolve] at hrefused
    cases hrefused
  · exact ⟨_, _, List.cons_prefix_cons.mpr ⟨rfl, hserved.starts_with_ack htunnel hwhole⟩⟩

end

theorem ack_after_connect_iff (config : ExitConfig) (source : IpAddr) (env : Surroundings) :
    AckAfterConnect config source env ↔ ¬AckSent config source env := by
  have hcourse := handleConnection_course config source env
  constructor
  · intro hlaw hsent
    obtain ⟨host, port, hseen⟩ := hcourse.starts_with_ack hsent
    have hack : respTunnelOk <+:
        neighborBytes [.lookup host port, .toNeighbor respTunnelOk] := List.prefix_append _ _
    obtain ⟨_, _, _, _, _, _, _, hconnected⟩ := hlaw.after _ hseen hack
    simp at hconnected
  · intro hunsent
    refine ⟨fun seen hseen hack => ?_, fun hnone hack => ?_⟩
    · exact (hcourse.acked_early hseen hack).resolve_left hunsent
    · obtain ⟨_, _, _, addr, _, _, _, hconnected⟩ :=
        (hcourse.acked_early (List.prefix_refl _) hack).resolve_left hunsent
      exact hnone addr hconnected

def downOriginSurroundings : Surroundings := { tunnelSurroundings with connect := fun _ => .refused }

theorem downOriginSurroundings_accepted : Accepted loopbackExit localhost downOriginSurroundings
    (toUtf8 tunnelRequest) ⟨.tunnel, "example.com".toList, 443⟩ :=
  ⟨tunnelSurroundings_accepted.read, by decide, by decide, tunnelSurroundings_accepted.parsed⟩

theorem downOriginSurroundings_effects :
    (handleConnection loopbackExit localhost downOriginSurroundings).1 =
      [.lookup "example.com".toList 443, .toNeighbor respTunnelOk, .connect exampleOrigin] := by
  rw [downOriginSurroundings_accepted.handleConnection_eq exampleOrigin_resolves]
  rfl

theorem unreachable_origin_acknowledged :
    ¬AckAfterConnect loopbackExit localhost downOriginSurroundings := by
  intro hlaw
  refine hlaw.never ?_ ?_
  · intro addr
    rw [downOriginSurroundings_effects]
    simp
  · rw [downOriginSurroundings_effects]
    exact List.prefix_append _ _

end SpiderNet.Exit
