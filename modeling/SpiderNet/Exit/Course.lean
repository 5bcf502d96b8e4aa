import SpiderNet.Exit.Proxy

namespace SpiderNet.Exit

structure Accepted (config : ExitConfig) (source : IpAddr) (env : Surroundings) (rawHead : Bytes)
    (head : RequestHead) : Prop where
  read : readHead env.stop (env.neighbor.take env.arrived) = .ok rawHead
  allowed : config.allowlist.isAllowed source
  admitted : (env.ledger.admitSource source config.quota env.now env.later).1 = .allowed
  parsed : parseRequestHead rawHead = .ok head

def ackEffects (head : RequestHead) : List Effect :=
  if head.target = .tunnel then [.toNeighbor respTunnelOk] else []

def headEffects (head : RequestHead) (rawHead : Bytes) (addr : SocketAddr) : List Effect :=
  if head.target = .forward then [.toOrigin addr rawHead] else []

def relayEffects (head : RequestHead) (rawHead : Bytes) (addr : SocketAddr) (env : Surroundings) :
    List Effect :=
  headEffects head rawHead addr ++
    relayFrom addr env.relay (env.neighbor.drop rawHead.length) env.origin

theorem connectOrigin_tried (outcome : ℕ → ConnectOutcome) (attempt : ℕ) (addrs : List SocketAddr) :
    ∃ tried : List SocketAddr, tried <+: addrs ∧
      ((connectOrigin outcome attempt addrs).1 = tried.map Effect.connect ++
        match (connectOrigin outcome attempt addrs).2 with
        | .ok addr => [.connected addr]
        | .error _ => []) ∧
      ∀ addr, (connectOrigin outcome attempt addrs).2 = .ok addr → addr ∈ tried := by
  induction addrs generalizing attempt with
  | nil => exact ⟨[], List.prefix_refl _, rfl, nofun⟩
  | cons addr rest ih =>
    have hfirst : [addr] <+: addr :: rest := List.prefix_append [addr] rest
    rw [connectOrigin]
    cases outcome attempt with
    | accepted => exact ⟨[addr], hfirst, rfl, fun other hother => Except.ok.inj hother ▸ List.mem_cons_self⟩
    | silent => exact ⟨[addr], hfirst, rfl, nofun⟩
    | refused =>
      obtain ⟨tried, hinitial, htried, hopened⟩ := ih (attempt + 1)
      refine ⟨addr :: tried, List.cons_prefix_cons.mpr ⟨rfl, hinitial⟩,
        congrArg (Effect.connect addr :: ·) htried, fun other hother => ?_⟩
      exact List.mem_cons_of_mem _ (hopened other hother)

theorem connectOrigin_opened {outcome : ℕ → ConnectOutcome} {addrs : List SocketAddr}
    {attempts : List Effect} {addr : SocketAddr}
    (h : connectOrigin outcome 0 addrs = (attempts, .ok addr)) :
    ∃ tried : List SocketAddr, attempts = tried.map Effect.connect ++ [.connected addr] := by
  obtain ⟨tried, _, htried, _⟩ := connectOrigin_tried outcome 0 addrs
  rw [h] at htried
  exact ⟨tried, htried⟩

theorem connectOrigin_unopened {outcome : ℕ → ConnectOutcome} {addrs : List SocketAddr}
    {attempts : List Effect} {error : ExitError}
    (h : connectOrigin outcome 0 addrs = (attempts, .error error)) :
    ∃ tried : List SocketAddr, attempts = tried.map Effect.connect := by
  obtain ⟨tried, _, htried, _⟩ := connectOrigin_tried outcome 0 addrs
  rw [h] at htried
  exact ⟨tried, htried.trans (List.append_nil _)⟩

inductive Served (head : RequestHead) (rawHead : Bytes) (addrs : List SocketAddr)
    (env : Surroundings) : List Effect → Prop
  | unacknowledged {written : ℕ} (htunnel : head.target = .tunnel) (hack : env.ack = .failed written) :
      Served head rawHead addrs env [.toNeighbor (respTunnelOk.take written)]
  | unconnected {attempts : List Effect} {error : ExitError}
      (hacked : head.target = .tunnel → env.ack = .done)
      (hconnect : connectOrigin env.connect 0 addrs = (attempts, .error error)) :
      Served head rawHead addrs env (ackEffects head ++ attempts)
  | unforwarded {attempts : List Effect} {addr : SocketAddr} {written : ℕ}
      (hconnect : connectOrigin env.connect 0 addrs = (attempts, .ok addr))
      (hforward : head.target = .forward) (hforwarded : env.forwarded = .failed written) :
      Served head rawHead addrs env (attempts ++ [.toOrigin addr (rawHead.take written)])
  | relayed {attempts : List Effect} {addr : SocketAddr}
      (hacked : head.target = .tunnel → env.ack = .done)
      (hconnect : connectOrigin env.connect 0 addrs = (attempts, .ok addr))
      (hforwarded : head.target = .forward → env.forwarded = .done) :
      Served head rawHead addrs env (ackEffects head ++ attempts ++
        (relayEffects head rawHead addr env ++
          [.record ((relayEffects head rawHead addr env).map Effect.counted).sum]))

theorem relayOrigin_forwarded {head : RequestHead} {rawHead : Bytes} {addr : SocketAddr}
    {env : Surroundings} (h : head.target = .forward → env.forwarded = .done) :
    (relayOrigin head rawHead addr env).1 = relayEffects head rawHead addr env ++
      [.record ((relayEffects head rawHead addr env).map Effect.counted).sum] := by
  simp only [relayOrigin, relayEffects, headEffects]
  cases htarget : head.target with
  | tunnel => rfl
  | forward =>
    rw [h htarget]
    rfl

theorem relayOrigin_unforwarded {head : RequestHead} {rawHead : Bytes} {addr : SocketAddr}
    {env : Surroundings} {written : ℕ} (hforward : head.target = .forward)
    (hforwarded : env.forwarded = .failed written) :
    (relayOrigin head rawHead addr env).1 = [.toOrigin addr (rawHead.take written)] := by
  simp only [relayOrigin, hforward, hforwarded, if_true]
  rfl

theorem serveOrigin_served (head : RequestHead) (rawHead : Bytes) (addrs : List SocketAddr)
    (env : Surroundings) : Served head rawHead addrs env (serveOrigin head rawHead addrs env).1 := by
  by_cases hunacked : head.target = .tunnel ∧ env.ack ≠ .done
  · obtain ⟨htunnel, hack⟩ := hunacked
    cases hfailed : env.ack with
    | done => exact absurd hfailed hack
    | failed written =>
      have hacknowledge : acknowledge head env =
          ([.toNeighbor (respTunnelOk.take written)], some (.io .other)) := by
        simp only [acknowledge, htunnel, hfailed, if_true]
        rfl
      simp only [serveOrigin, hacknowledge]
      exact .unacknowledged htunnel hfailed
  · have hacked : head.target = .tunnel → env.ack = .done := by
      intro htunnel
      by_contra hack
      exact hunacked ⟨htunnel, hack⟩
    have hacknowledge : acknowledge head env = (ackEffects head, none) := by
      simp only [acknowledge, ackEffects]
      split_ifs with htunnel
      · rw [hacked htunnel]
        rfl
      · rfl
    cases hconnect : connectOrigin env.connect 0 addrs with
    | mk attempts opened =>
      cases opened with
      | error error =>
        simp only [serveOrigin, hacknowledge, hconnect]
        exact .unconnected hacked hconnect
      | ok addr =>
        simp only [serveOrigin, hacknowledge, hconnect]
        cases hforwarded : env.forwarded with
        | done =>
          rw [relayOrigin_forwarded fun _ => hforwarded]
          exact .relayed hacked hconnect fun _ => hforwarded
        | failed written =>
          cases htarget : head.target with
          | tunnel =>
            have hnever : head.target = .forward → env.forwarded = .done := by
              rw [htarget]
              exact nofun
            rw [relayOrigin_forwarded hnever]
            exact .relayed hacked hconnect hnever
          | forward =>
            have hnone : ackEffects head = [] := by simp [ackEffects, htarget]
            rw [relayOrigin_unforwarded htarget hforwarded, hnone]
            exact .unforwarded hconnect htarget hforwarded

inductive Course (config : ExitConfig) (source : IpAddr) (env : Surroundings) : List Effect → Prop
  | unread {error : ExitError}
      (hread : readHead env.stop (env.neighbor.take env.arrived) = .error error) :
      Course config source env []
  | forbidden (hallowed : config.allowlist.isAllowed source = false) :
      Course config source env [.toNeighbor (env.refusal.sent respForbidden)]
  | exhausted {retryAfterSecs : ℕ} (hdecision : (env.ledger.admitSource source config.quota env.now
      env.later).1 = .quotaExhausted retryAfterSecs) :
      Course config source env [.toNeighbor (env.refusal.sent (respQuotaExhausted retryAfterSecs))]
  | unparseable {rawHead : Bytes} {error : ExitError}
      (hread : readHead env.stop (env.neighbor.take env.arrived) = .ok rawHead)
      (hparse : parseRequestHead rawHead = .error error) :
      Course config source env [.toNeighbor (env.refusal.sent respBadRequest)]
  | unresolved {rawHead : Bytes} {head : RequestHead} {error : ExitError}
      (haccepted : Accepted config source env rawHead head)
      (hresolve : resolvePublicOrigin (env.resolve 0 head.host head.port) config.originPolicy =
        .error error) :
      Course config source env [.lookup head.host head.port]
  | served {rawHead : Bytes} {head : RequestHead} {addrs : List SocketAddr} {effects : List Effect}
      (haccepted : Accepted config source env rawHead head)
      (hresolve : resolvePublicOrigin (env.resolve 0 head.host head.port) config.originPolicy =
        .ok addrs) (hserved : Served head rawHead addrs env effects) :
      Course config source env (.lookup head.host head.port :: effects)

theorem handleConnection_course (config : ExitConfig) (source : IpAddr) (env : Surroundings) :
    Course config source env (handleConnection config source env).1 := by
  simp only [handleConnection]
  split
  · rename_i error hread
    exact .unread hread
  · rename_i rawHead hread
    split_ifs with hallowed
    · split
      · rename_i retryAfterSecs hdecision
        exact .exhausted hdecision
      · rename_i hdecision
        split
        · rename_i error hparse
          exact .unparseable hread hparse
        · rename_i head hparse
          have haccepted : Accepted config source env rawHead head := ⟨hread, hallowed, hdecision, hparse⟩
          split
          · rename_i error hresolve
            exact .unresolved haccepted hresolve
          · rename_i addrs hresolve
            exact .served haccepted hresolve (serveOrigin_served head rawHead addrs env)
    · exact .forbidden (by simpa using hallowed)

section
variable {config : ExitConfig} {source : IpAddr} {env : Surroundings} {rawHead : Bytes}
  {head : RequestHead}

theorem Accepted.unique {rawHead' : Bytes} {head' : RequestHead}
    (h : Accepted config source env rawHead head) (h' : Accepted config source env rawHead' head') :
    rawHead' = rawHead ∧ head' = head := by
  obtain rfl := Except.ok.inj (h.read.symm.trans h'.read)
  exact ⟨rfl, Except.ok.inj (h'.parsed.symm.trans h.parsed)⟩

theorem Accepted.handleConnection_eq {addrs : List SocketAddr}
    (h : Accepted config source env rawHead head)
    (hresolve : resolvePublicOrigin (env.resolve 0 head.host head.port) config.originPolicy = .ok addrs) :
    (handleConnection config source env).1 =
      .lookup head.host head.port :: (serveOrigin head rawHead addrs env).1 := by
  simp only [handleConnection, h.read, h.allowed, h.admitted, h.parsed, hresolve, not_true_eq_false,
    if_false]

-- an accepted head leaves a connection only the resolver's refusal and serving the origin
theorem Course.of_accepted {effects : List Effect} (h : Course config source env effects)
    (haccepted : Accepted config source env rawHead head) :
    (∃ error, resolvePublicOrigin (env.resolve 0 head.host head.port) config.originPolicy =
        .error error ∧ effects = [.lookup head.host head.port]) ∨
      ∃ addrs served, resolvePublicOrigin (env.resolve 0 head.host head.port) config.originPolicy =
        .ok addrs ∧ Served head rawHead addrs env served ∧
        effects = .lookup head.host head.port :: served := by
  cases h with
  | unread hread =>
    rw [haccepted.read] at hread
    cases hread
  | forbidden hallowed =>
    rw [haccepted.allowed] at hallowed
    cases hallowed
  | exhausted hdecision =>
    rw [haccepted.admitted] at hdecision
    cases hdecision
  | unparseable hread hparse =>
    obtain rfl := Except.ok.inj (haccepted.read.symm.trans hread)
    rw [haccepted.parsed] at hparse
    cases hparse
  | unresolved haccepted' hresolve =>
    obtain ⟨rfl, rfl⟩ := haccepted.unique haccepted'
    exact Or.inl ⟨_, hresolve, rfl⟩
  | served haccepted' hresolve hserved =>
    obtain ⟨rfl, rfl⟩ := haccepted.unique haccepted'
    exact Or.inr ⟨_, _, hresolve, hserved, rfl⟩

end

end SpiderNet.Exit
