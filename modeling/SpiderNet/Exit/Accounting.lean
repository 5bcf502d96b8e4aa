import SpiderNet.Exit.Relay

namespace SpiderNet.Exit

def Effect.charge : Effect → Option ℕ
  | .record bytes => some bytes
  | _ => none

-- without a quota `QuotaLedger::record` returns at once
def charges (quota : Option QuotaPolicy) (effects : List Effect) : List ℕ :=
  match quota with
  | none => []
  | some _ => effects.filterMap Effect.charge

-- what goes through the counted streams: they wrap the sockets once the origin is connected
def afterOpen : List Effect → List Effect
  | [] => []
  | .connected _ :: rest => rest
  | _ :: rest => afterOpen rest

def streamedBytes (effects : List Effect) : ℕ :=
  (originBytes (afterOpen effects)).length + (neighborBytes (afterOpen effects)).length

def ChargedOnce (config : ExitConfig) (source : IpAddr) (env : Surroundings) : Prop :=
  charges config.quota (handleConnection config source env).1 =
    [streamedBytes (handleConnection config source env).1]

-- writing the head to the connected origin fails
def HeadCut (config : ExitConfig) (source : IpAddr) (env : Surroundings) : Prop :=
  ∃ rawHead head written, Accepted config source env rawHead head ∧ head.target = .forward ∧
    env.forwarded = .failed written

theorem sum_counted (effects : List Effect) : (effects.map Effect.counted).sum =
    (originBytes effects).length + (neighborBytes effects).length := by
  induction effects with
  | nil => rfl
  | cons effect rest ih =>
    have hcons : effect.counted = effect.originBytes.length + effect.neighborBytes.length := by
      cases effect <;> simp [Effect.counted, Effect.originBytes, Effect.neighborBytes]
    rw [List.map_cons, List.sum_cons, ih, hcons, originBytes, originBytes, neighborBytes,
      neighborBytes, List.flatMap_cons, List.flatMap_cons, List.length_append, List.length_append]
    omega

theorem afterOpen_tried (tried : List SocketAddr) (addr : SocketAddr) (rest : List Effect) :
    afterOpen (tried.map Effect.connect ++ .connected addr :: rest) = rest := by
  induction tried with
  | nil => rfl
  | cons first tried ih => exact ih

theorem afterOpen_ack (head : RequestHead) (rest : List Effect) :
    afterOpen (ackEffects head ++ rest) = afterOpen rest := by
  unfold ackEffects
  split_ifs <;> rfl

theorem charges_tried (tried : List SocketAddr) :
    (tried.map Effect.connect).filterMap Effect.charge = [] := by
  induction tried with
  | nil => rfl
  | cons addr rest ih => exact ih

theorem charges_relayFrom (addr : SocketAddr) (relay : List Relayed) (uplink downlink : Bytes) :
    (relayFrom addr relay uplink downlink).filterMap Effect.charge = [] := by
  induction relay generalizing uplink downlink with
  | nil => rfl
  | cons step rest ih =>
    cases step with
    | up count => exact ih (uplink.drop count) downlink
    | down count => exact ih uplink (downlink.drop count)

section
variable {head : RequestHead} {rawHead : Bytes} {addrs : List SocketAddr} {env : Surroundings}

theorem charges_ackEffects : (ackEffects head).filterMap Effect.charge = [] := by
  unfold ackEffects
  split_ifs <;> rfl

theorem charges_relayEffects (addr : SocketAddr) :
    (relayEffects head rawHead addr env).filterMap Effect.charge = [] := by
  rw [relayEffects, List.filterMap_append, charges_relayFrom, List.append_nil]
  unfold headEffects
  split_ifs <;> rfl

-- once the origin is connected, the head that is not forwarded is the one way past `record`
theorem Served.charged_iff {effects : List Effect} {addr : SocketAddr}
    (h : Served head rawHead addrs env effects) (hopened : .connected addr ∈ effects) :
    effects.filterMap Effect.charge = [streamedBytes effects] ↔
      ¬(head.target = .forward ∧ ∃ written, env.forwarded = .failed written) := by
  cases h with
  | unacknowledged htunnel hack => simp at hopened
  | unconnected hacked hconnect =>
    obtain ⟨tried, rfl⟩ := connectOrigin_unopened hconnect
    unfold ackEffects at hopened
    split_ifs at hopened <;> simp at hopened
  | unforwarded hconnect hforward hforwarded =>
    rename_i addr written
    obtain ⟨tried, rfl⟩ := connectOrigin_opened hconnect
    have hcharges : (tried.map Effect.connect ++ [Effect.connected addr] ++
        [Effect.toOrigin addr (rawHead.take written)]).filterMap Effect.charge = [] := by
      rw [List.filterMap_append, List.filterMap_append, charges_tried]
      rfl
    rw [hcharges]
    refine ⟨fun hnone => ?_, fun hnot => absurd ⟨hforward, _, hforwarded⟩ hnot⟩
    cases hnone
  | relayed hacked hconnect hforwarded =>
    rename_i addr
    obtain ⟨tried, rfl⟩ := connectOrigin_opened hconnect
    have hcharges : (ackEffects head ++ (tried.map Effect.connect ++ [Effect.connected addr]) ++
        (relayEffects head rawHead addr env ++
          [Effect.record ((relayEffects head rawHead addr env).map Effect.counted).sum])).filterMap
        Effect.charge = [((relayEffects head rawHead addr env).map Effect.counted).sum] := by
      rw [List.filterMap_append, List.filterMap_append, List.filterMap_append, List.filterMap_append,
        charges_ackEffects, charges_tried, charges_relayEffects]
      rfl
    have hstreamed : streamedBytes (ackEffects head ++ (tried.map Effect.connect ++
        [.connected addr]) ++ (relayEffects head rawHead addr env ++
          [.record ((relayEffects head rawHead addr env).map Effect.counted).sum])) =
        ((relayEffects head rawHead addr env).map Effect.counted).sum := by
      rw [streamedBytes, List.append_assoc, afterOpen_ack, List.append_assoc, List.singleton_append,
        afterOpen_tried, originBytes_append, neighborBytes_append, sum_counted]
      simp [Effect.originBytes, Effect.neighborBytes]
    rw [hcharges, hstreamed]
    refine ⟨fun _ => ?_, fun _ => rfl⟩
    rintro ⟨hforward, written, hfailed⟩
    rw [hforwarded hforward] at hfailed
    cases hfailed

end

theorem charged_once_iff (config : ExitConfig) (source : IpAddr) (env : Surroundings)
    {policy : QuotaPolicy} {addr : SocketAddr} (hquota : config.quota = some policy)
    (hopened : .connected addr ∈ (handleConnection config source env).1) :
    ChargedOnce config source env ↔ ¬HeadCut config source env := by
  have hcourse := handleConnection_course config source env
  rw [ChargedOnce, hquota]
  generalize (handleConnection config source env).1 = effects at hcourse hopened
  cases hcourse with
  | served haccepted hresolve hserved =>
    rename_i rawHead head addrs effects
    have hopened' : .connected addr ∈ effects := (List.mem_cons.mp hopened).resolve_left nofun
    refine (hserved.charged_iff hopened').trans (not_congr ⟨?_, ?_⟩)
    · rintro ⟨hforward, written, hfailed⟩
      exact ⟨rawHead, head, written, haccepted, hforward, hfailed⟩
    · rintro ⟨rawHead', head', written, haccepted', hforward, hfailed⟩
      obtain ⟨rfl, rfl⟩ := haccepted.unique haccepted'
      exact ⟨hforward, written, hfailed⟩
  | _ => simp at hopened

def meteredExit : ExitConfig :=
  .new ⟨localhost, 3128⟩ .loopbackOnly (some ⟨1000, 60 * 10 ^ 9, by decide, by decide⟩)

theorem charged_once_iff_tunnel :
    (ChargedOnce meteredExit localhost busySurroundings ↔
      ¬HeadCut meteredExit localhost busySurroundings) ∧
    charges meteredExit.quota (handleConnection meteredExit localhost busySurroundings).1 = [5] := by
  have heffects := @busySurroundings_effects meteredExit localhost .new 0 0 rfl rfl rfl
  have hopened : .connected exampleOrigin ∈
      (handleConnection meteredExit localhost busySurroundings).1 := by
    refine heffects ▸ ?_
    decide
  refine ⟨charged_once_iff meteredExit localhost busySurroundings rfl hopened, ?_⟩
  exact (congrArg (charges meteredExit.quota) heffects).trans rfl

def plainRequest : Text := "GET http://example.com/ HTTP/1.1\r\nHost: example.com\r\n\r\n".toList

def plainOrigin : SocketAddr := ⟨.v4 (.ofOctets 93 184 216 34), 80⟩

def cutHeadSurroundings : Surroundings :=
  { tunnelSurroundings with
    neighbor := toUtf8 plainRequest
    resolve := fun _ _ _ => some [plainOrigin]
    forwarded := .failed 5 }

theorem cutHeadSurroundings_effects :
    (handleConnection meteredExit localhost cutHeadSurroundings).1 =
      [.lookup "example.com".toList 80, .connect plainOrigin, .connected plainOrigin,
        .toOrigin plainOrigin (toUtf8 "GET h".toList)] := by
  have haccepted : Accepted meteredExit localhost cutHeadSurroundings (toUtf8 plainRequest)
      ⟨.forward, "example.com".toList, 80⟩ := by
    refine ⟨by decide, by decide, by decide, ?_⟩
    rw [parseRequestHead_toUtf8]
    decide
  have hresolve : resolvePublicOrigin (some [plainOrigin]) .publicOnly = .ok [plainOrigin] := by rfl
  rw [haccepted.handleConnection_eq hresolve]
  decide

theorem cut_head_uncharged : .connected plainOrigin ∈
      (handleConnection meteredExit localhost cutHeadSurroundings).1 ∧
    ¬ChargedOnce meteredExit localhost cutHeadSurroundings := by
  rw [ChargedOnce, cutHeadSurroundings_effects]
  decide

end SpiderNet.Exit
