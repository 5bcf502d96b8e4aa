import SpiderNet.Exit.Guard
import SpiderNet.Library.Terminator

namespace SpiderNet.Exit
open Terminator

-- `read_head` with the bytes it has not taken from the stream
def readStream (stop : ReadStop) (head : Bytes) : Bytes → Except ExitError Bytes × Bytes
  | [] =>
    (if maxHeadBytes ≤ head.length then .error (.protocolViolation "request head too large")
      else .error stop.error, [])
  | byte :: rest =>
    if maxHeadBytes ≤ head.length then
      (.error (.protocolViolation "request head too large"), byte :: rest)
    else if headEnd.isSuffixOf (head ++ [byte]) then (.ok (head ++ [byte]), rest)
    else readStream stop (head ++ [byte]) rest

theorem readStream_fst (stop : ReadStop) (head stream : Bytes) :
    (readStream stop head stream).1 = readHeadFrom stop head stream := by
  induction stream generalizing head with
  | nil => rfl
  | cons byte rest ih =>
    rw [readStream, readHeadFrom]
    split_ifs
    · rfl
    · rfl
    · exact ih _

inductive Reads (stream : Bytes) : Except ExitError Bytes × Bytes → Prop
  | found {n : ℕ} (hle : n ≤ maxHeadBytes) (hends : EndsAt headEnd stream n) :
      Reads stream (.ok (stream.take n), stream.drop n)
  | refused {error : ExitError} {taken : ℕ} (hle : taken ≤ maxHeadBytes)
      (hlength : taken ≤ stream.length) (hnone : ∀ n ≤ maxHeadBytes, ¬EndsAt headEnd stream n) :
      Reads stream (.error error, stream.drop taken)

theorem reads_refused {head rest : Bytes} (error : ExitError) (hle : head.length ≤ maxHeadBytes)
    (hnone : ∀ n ≤ maxHeadBytes, ¬EndsAt headEnd (head ++ rest) n) :
    Reads (head ++ rest) (.error error, rest) := by
  have hlength : head.length ≤ (head ++ rest).length := by simp
  have hrefused := @Reads.refused (head ++ rest) error head.length hle hlength hnone
  rwa [List.drop_left] at hrefused

theorem readStream_reads_from (stop : ReadStop) {head rest : Bytes} (hle : head.length ≤ maxHeadBytes)
    (hclear : Clear headEnd (head ++ rest) head.length) :
    Reads (head ++ rest) (readStream stop head rest) := by
  induction rest generalizing head with
  | nil =>
    have hnone : ∀ n ≤ maxHeadBytes, ¬EndsAt headEnd (head ++ []) n := by
      intro n _
      rw [List.append_nil] at hclear ⊢
      exact hclear.none n
    rw [readStream]
    split_ifs
    · exact reads_refused _ hle hnone
    · exact reads_refused _ hle hnone
  | cons byte rest ih =>
    have hlength : (head ++ [byte]).length = head.length + 1 := by simp
    have htake : (head ++ byte :: rest).take (head.length + 1) = head ++ [byte] := by
      rw [List.take_length_add_append]
      rfl
    have hdrop : (head ++ byte :: rest).drop (head.length + 1) = rest := by
      rw [List.drop_length_add_append]
      rfl
    rw [readStream]
    split_ifs with hlarge hend
    · have hfull : head.length = maxHeadBytes := le_antisymm hle hlarge
      exact reads_refused _ hle fun n hn => hclear.not_endsAt (hn.trans_eq hfull.symm)
    · have hends : EndsAt headEnd (head ++ byte :: rest) (head.length + 1) := by
        refine hclear.endsAt (by simp) ?_
        rw [htake]
        exact List.isSuffixOf_iff_suffix.mp hend
      have hfound := Reads.found (not_le.mp hlarge) hends
      rwa [htake, hdrop] at hfound
    · have hclear' : Clear headEnd (head ++ byte :: rest) (head.length + 1) := by
        refine hclear.succ ?_
        rw [htake]
        exact fun hsuffix => hend (List.isSuffixOf_iff_suffix.mpr hsuffix)
      rw [← hlength] at hclear'
      have hrest := @ih (head ++ [byte]) (hlength ▸ not_le.mp hlarge) (by
        rwa [List.append_assoc])
      rwa [List.append_assoc] at hrest

theorem headEnd_ne : headEnd ≠ [] := by decide

theorem readStream_reads (stop : ReadStop) (stream : Bytes) :
    Reads stream (readStream stop [] stream) :=
  @readStream_reads_from stop [] stream (Nat.zero_le _) (clear_zero headEnd_ne _)

structure ReadsHead (stop : ReadStop) (stream : Bytes) : Prop where
  found_iff : ∀ head rest, readStream stop [] stream = (.ok head, rest) ↔
    ∃ n ≤ maxHeadBytes, EndsAt headEnd stream n ∧ head = stream.take n ∧ rest = stream.drop n
  refused_iff : (∃ error, (readStream stop [] stream).1 = .error error) ↔
    ∀ n ≤ maxHeadBytes, ¬EndsAt headEnd stream n
  refused : ∀ error rest, readStream stop [] stream = (.error error, rest) →
    ∃ taken ≤ maxHeadBytes, taken ≤ stream.length ∧ rest = stream.drop taken

theorem readStream_readsHead (stop : ReadStop) (stream : Bytes) : ReadsHead stop stream := by
  have hreads := readStream_reads stop stream
  generalize hresult : readStream stop [] stream = result at hreads
  cases hreads with
  | found hle hends =>
    rename_i n
    refine ⟨fun head rest => ?_, ?_, fun error rest h => ?_⟩
    · rw [hresult]
      constructor
      · intro h
        obtain ⟨hhead, rfl⟩ := Prod.ext_iff.mp h
        exact ⟨n, hle, hends, (Except.ok.inj hhead).symm, rfl⟩
      · rintro ⟨m, _, hm, rfl, rfl⟩
        rw [hends.unique hm]
    · rw [hresult]
      exact ⟨nofun, fun hnone => absurd hends (hnone n hle)⟩
    · rw [hresult] at h
      cases h
  | refused hle hlength hnone =>
    rename_i error taken
    refine ⟨fun head rest => ?_, ?_, fun error' rest h => ?_⟩
    · rw [hresult]
      exact ⟨nofun, fun ⟨n, hn, hends, _⟩ => absurd hends (hnone n hn)⟩
    · rw [hresult]
      exact ⟨fun _ => hnone, fun _ => ⟨error, rfl⟩⟩
    · rw [hresult] at h
      exact ⟨taken, hle, hlength, (Prod.ext_iff.mp h).2.symm⟩

theorem readHead_ok {stop : ReadStop} {stream rawHead : Bytes} (h : readHead stop stream = .ok rawHead) :
    ∃ n ≤ maxHeadBytes, EndsAt headEnd stream n ∧ rawHead = stream.take n := by
  have hresult : readStream stop [] stream = (.ok rawHead, (readStream stop [] stream).2) := by
    rw [← h, readHead, ← readStream_fst]
  obtain ⟨n, hle, hends, hhead, _⟩ := ((readStream_readsHead stop stream).found_iff _ _).mp hresult
  exact ⟨n, hle, hends, hhead⟩

def Effect.originBytes : Effect → Bytes
  | .toOrigin _ bytes => bytes
  | _ => []

def Effect.neighborBytes : Effect → Bytes
  | .toNeighbor bytes => bytes
  | _ => []

def originBytes (effects : List Effect) : Bytes := effects.flatMap Effect.originBytes

def neighborBytes (effects : List Effect) : Bytes := effects.flatMap Effect.neighborBytes

theorem originBytes_append (xs ys : List Effect) :
    originBytes (xs ++ ys) = originBytes xs ++ originBytes ys := List.flatMap_append

theorem neighborBytes_append (xs ys : List Effect) :
    neighborBytes (xs ++ ys) = neighborBytes xs ++ neighborBytes ys := List.flatMap_append

@[simp] theorem originBytes_single (effect : Effect) : originBytes [effect] = effect.originBytes :=
  List.flatMap_singleton _ _

@[simp] theorem neighborBytes_single (effect : Effect) :
    neighborBytes [effect] = effect.neighborBytes := List.flatMap_singleton _ _

theorem originBytes_tried (tried : List SocketAddr) : originBytes (tried.map Effect.connect) = [] := by
  simp [originBytes, Effect.originBytes]

theorem neighborBytes_tried (tried : List SocketAddr) :
    neighborBytes (tried.map Effect.connect) = [] := by
  simp [neighborBytes, Effect.neighborBytes]

theorem connectOrigin_silent (outcome : ℕ → ConnectOutcome) (attempt : ℕ) (addrs : List SocketAddr) :
    originBytes (connectOrigin outcome attempt addrs).1 = [] ∧
      neighborBytes (connectOrigin outcome attempt addrs).1 = [] := by
  obtain ⟨tried, _, htried, _⟩ := connectOrigin_tried outcome attempt addrs
  rw [htried, originBytes_append, neighborBytes_append, originBytes_tried, neighborBytes_tried]
  cases (connectOrigin outcome attempt addrs).2 with
  | ok addr => exact ⟨rfl, rfl⟩
  | error error => exact ⟨rfl, rfl⟩

theorem take_append_prefix {α : Type} {xs ys : List α} {count : ℕ} (h : ys <+: xs.drop count) :
    xs.take count ++ ys <+: xs := by
  have happend := (List.prefix_append_right_inj (xs.take count)).mpr h
  rwa [List.take_append_drop] at happend

theorem relayFrom_originBytes (addr : SocketAddr) (relay : List Relayed) (uplink downlink : Bytes) :
    originBytes (relayFrom addr relay uplink downlink) <+: uplink := by
  induction relay generalizing uplink downlink with
  | nil => exact List.nil_prefix
  | cons step rest ih =>
    cases step with
    | up count => exact take_append_prefix (ih (uplink.drop count) downlink)
    | down count => exact ih uplink (downlink.drop count)

theorem relayFrom_neighborBytes (addr : SocketAddr) (relay : List Relayed) (uplink downlink : Bytes) :
    neighborBytes (relayFrom addr relay uplink downlink) <+: downlink := by
  induction relay generalizing uplink downlink with
  | nil => exact List.nil_prefix
  | cons step rest ih =>
    cases step with
    | up count => exact ih (uplink.drop count) downlink
    | down count => exact take_append_prefix (ih uplink (downlink.drop count))

def ackBytes (head : RequestHead) : Bytes := if head.target = .tunnel then respTunnelOk else []

def uplinkBytes (head : RequestHead) (rawHead : Bytes) (env : Surroundings) : Bytes :=
  (if head.target = .forward then rawHead else []) ++ env.neighbor.drop rawHead.length

section
variable {head : RequestHead} {rawHead : Bytes} {addrs : List SocketAddr} {env : Surroundings}
  {effects : List Effect}

theorem ackEffects_originBytes : originBytes (ackEffects head) = [] := by
  unfold ackEffects
  split_ifs <;> rfl

theorem ackEffects_neighborBytes : neighborBytes (ackEffects head) = ackBytes head := by
  unfold ackEffects ackBytes
  split_ifs
  · exact neighborBytes_single _
  · rfl

theorem relayEffects_originBytes (addr : SocketAddr) :
    originBytes (relayEffects head rawHead addr env) <+: uplinkBytes head rawHead env := by
  have hrelay := relayFrom_originBytes addr env.relay (env.neighbor.drop rawHead.length) env.origin
  have hfirst : originBytes (headEffects head rawHead addr) =
      if head.target = .forward then rawHead else [] := by
    unfold headEffects
    split_ifs
    · exact originBytes_single _
    · rfl
  rw [relayEffects, originBytes_append, hfirst, uplinkBytes]
  exact (List.prefix_append_right_inj _).mpr hrelay

theorem relayEffects_neighborBytes (addr : SocketAddr) :
    neighborBytes (relayEffects head rawHead addr env) <+: env.origin := by
  have hrelay := relayFrom_neighborBytes addr env.relay (env.neighbor.drop rawHead.length) env.origin
  have hfirst : neighborBytes (headEffects head rawHead addr) = [] := by
    unfold headEffects
    split_ifs <;> rfl
  rw [relayEffects, neighborBytes_append, hfirst]
  exact hrelay

theorem Served.originBytes_prefix (h : Served head rawHead addrs env effects) :
    originBytes effects <+: uplinkBytes head rawHead env := by
  have hsilent := (connectOrigin_silent env.connect 0 addrs).1
  cases h with
  | unacknowledged htunnel hack => exact List.nil_prefix
  | unconnected hacked hconnect =>
    rw [hconnect] at hsilent
    rw [originBytes_append, ackEffects_originBytes, hsilent]
    exact List.nil_prefix
  | unforwarded hconnect hforward hforwarded =>
    rw [hconnect] at hsilent
    rw [originBytes_append, hsilent, List.nil_append, originBytes_single, uplinkBytes, if_pos hforward]
    exact (List.take_prefix _ _).trans (List.prefix_append _ _)
  | relayed hacked hconnect hforwarded =>
    rw [hconnect] at hsilent
    rw [originBytes_append, originBytes_append, originBytes_append, ackEffects_originBytes, hsilent,
      originBytes_single]
    simpa [Effect.originBytes] using relayEffects_originBytes _

theorem Served.neighborBytes_prefix (h : Served head rawHead addrs env effects) :
    neighborBytes effects <+: ackBytes head ++ env.origin := by
  have hsilent := (connectOrigin_silent env.connect 0 addrs).2
  cases h with
  | unacknowledged htunnel hack =>
    rw [neighborBytes_single, ackBytes, if_pos htunnel]
    exact (List.take_prefix _ _).trans (List.prefix_append _ _)
  | unconnected hacked hconnect =>
    rw [hconnect] at hsilent
    rw [neighborBytes_append, ackEffects_neighborBytes, hsilent, List.append_nil]
    exact List.prefix_append _ _
  | unforwarded hconnect hforward hforwarded =>
    rw [hconnect] at hsilent
    rw [neighborBytes_append, hsilent, neighborBytes_single]
    exact List.nil_prefix
  | relayed hacked hconnect hforwarded =>
    rw [hconnect] at hsilent
    rw [neighborBytes_append, neighborBytes_append, neighborBytes_append, ackEffects_neighborBytes,
      hsilent, neighborBytes_single, List.append_nil]
    refine (List.prefix_append_right_inj _).mpr ?_
    simpa [Effect.neighborBytes] using relayEffects_neighborBytes _

end

section
variable {config : ExitConfig} {source : IpAddr} {env : Surroundings} {rawHead : Bytes}
  {head : RequestHead}

theorem Accepted.endsAt (h : Accepted config source env rawHead head) :
    rawHead.length ≤ maxHeadBytes ∧ EndsAt headEnd env.neighbor rawHead.length ∧
      rawHead = env.neighbor.take rawHead.length := by
  obtain ⟨n, hle, hends, rfl⟩ := readHead_ok h.read
  rw [hends.take_eq, List.length_take_of_le hends.of_take.le]
  exact ⟨hle, hends.of_take, rfl⟩

theorem Accepted.uplink (h : Accepted config source env rawHead head) :
    rawHead ++ env.neighbor.drop rawHead.length = env.neighbor := by
  obtain ⟨_, _, heq⟩ := h.endsAt
  conv_lhs =>
    lhs
    rw [heq]
  exact List.take_append_drop _ _

-- the relay goes on where reading the head stopped
theorem Accepted.unread (h : Accepted config source env rawHead head) :
    (readStream env.stop [] (env.neighbor.take env.arrived)).2 ++ env.neighbor.drop env.arrived =
      env.neighbor.drop rawHead.length := by
  have hresult : readStream env.stop [] (env.neighbor.take env.arrived) =
      (.ok rawHead, (readStream env.stop [] (env.neighbor.take env.arrived)).2) := by
    rw [← h.read, readHead, ← readStream_fst]
  obtain ⟨n, _, hends, hhead, hrest⟩ := ((readStream_readsHead _ _).found_iff _ _).mp hresult
  have hlength : rawHead.length = n := by rw [hhead, List.length_take_of_le hends.le]
  rw [hrest, hlength, ← List.drop_append_of_le_length hends.le, List.take_append_drop]

end

structure Admitted (config : ExitConfig) (source : IpAddr) (env : Surroundings) : Prop where
  allowed : config.allowlist.isAllowed source
  admitted : (env.ledger.admitSource source config.quota env.now env.later).1 = .allowed

-- what has been written to either side when the effects `seen` have taken place
structure RelaysVerbatim (config : ExitConfig) (source : IpAddr) (env : Surroundings)
    (seen : List Effect) : Prop where
  head : ∀ rawHead head, Accepted config source env rawHead head →
    EndsAt headEnd env.neighbor rawHead.length ∧ rawHead = env.neighbor.take rawHead.length
  unread : ∀ rawHead head, Accepted config source env rawHead head →
    (readStream env.stop [] (env.neighbor.take env.arrived)).2 ++ env.neighbor.drop env.arrived =
      env.neighbor.drop rawHead.length
  forward : ∀ rawHead head, Accepted config source env rawHead head → head.target = .forward →
    originBytes seen <+: env.neighbor
  tunnel : ∀ rawHead head, Accepted config source env rawHead head → head.target = .tunnel →
    originBytes seen <+: env.neighbor.drop rawHead.length
  answer : ∀ rawHead head, Accepted config source env rawHead head →
    neighborBytes seen <+: ackBytes head ++ env.origin
  unparseable : Admitted config source env → ∀ rawHead error,
    readHead env.stop (env.neighbor.take env.arrived) = .ok rawHead →
    parseRequestHead rawHead = .error error → neighborBytes seen <+: respBadRequest
  refused : (∀ rawHead head, ¬Accepted config source env rawHead head) → originBytes seen = []

section
variable {config : ExitConfig} {source : IpAddr} {env : Surroundings}

theorem Course.originBytes_prefix {effects : List Effect} (h : Course config source env effects) :
    originBytes effects = [] ∨ ∃ rawHead head, Accepted config source env rawHead head ∧
      originBytes effects <+: uplinkBytes head rawHead env := by
  cases h with
  | served haccepted hresolve hserved =>
    exact Or.inr ⟨_, _, haccepted, hserved.originBytes_prefix⟩
  | _ => exact Or.inl rfl

theorem Course.neighborBytes_prefix {effects : List Effect} (h : Course config source env effects)
    {rawHead : Bytes} {head : RequestHead} (haccepted : Accepted config source env rawHead head) :
    neighborBytes effects <+: ackBytes head ++ env.origin := by
  rcases h.of_accepted haccepted with ⟨error, _, rfl⟩ | ⟨addrs, served, _, hserved, rfl⟩
  · exact List.nil_prefix
  · exact hserved.neighborBytes_prefix

theorem Course.unparseable_answer {effects : List Effect} (h : Course config source env effects)
    (hadmitted : Admitted config source env) {rawHead : Bytes} {error : ExitError}
    (hread : readHead env.stop (env.neighbor.take env.arrived) = .ok rawHead)
    (hparse : parseRequestHead rawHead = .error error) : neighborBytes effects <+: respBadRequest := by
  have hnot {head : RequestHead} {rawHead' : Bytes}
      (haccepted : Accepted config source env rawHead' head) : False := by
    obtain rfl := Except.ok.inj (hread.symm.trans haccepted.read)
    rw [haccepted.parsed] at hparse
    cases hparse
  cases h with
  | unread hread' => exact List.nil_prefix
  | forbidden hallowed =>
    rw [hadmitted.allowed] at hallowed
    cases hallowed
  | exhausted hdecision =>
    rw [hadmitted.admitted] at hdecision
    cases hdecision
  | unparseable hread' hparse' =>
    rw [neighborBytes_single]
    cases env.refusal with
    | done => exact List.prefix_refl _
    | failed written => exact List.take_prefix _ _
  | unresolved haccepted hresolve => exact (hnot haccepted).elim
  | served haccepted hresolve hserved => exact (hnot haccepted).elim

end

theorem relaysVerbatim {config : ExitConfig} {source : IpAddr} {env : Surroundings}
    {seen : List Effect} (hseen : seen <+: (handleConnection config source env).1) :
    RelaysVerbatim config source env seen := by
  have hcourse := handleConnection_course config source env
  have hup := hseen.flatMap Effect.originBytes
  have hdown := hseen.flatMap Effect.neighborBytes
  have huplink {rawHead : Bytes} {head : RequestHead}
      (haccepted : Accepted config source env rawHead head) :
      originBytes seen <+: uplinkBytes head rawHead env := by
    rcases hcourse.originBytes_prefix with hnone | ⟨rawHead', head', haccepted', hprefix⟩
    · rw [originBytes] at hnone
      rw [hnone] at hup
      exact hup.trans List.nil_prefix
    · obtain ⟨rfl, rfl⟩ := haccepted.unique haccepted'
      exact hup.trans hprefix
  refine ⟨fun rawHead head haccepted => haccepted.endsAt.2,
    fun rawHead head haccepted => haccepted.unread, fun rawHead head haccepted hforward => ?_,
    fun rawHead head haccepted htunnel => ?_,
    fun rawHead head haccepted => hdown.trans (hcourse.neighborBytes_prefix haccepted),
    fun hadmitted rawHead error hread hparse =>
      hdown.trans (hcourse.unparseable_answer hadmitted hread hparse), fun hnone => ?_⟩
  · have hprefix := huplink haccepted
    rwa [uplinkBytes, if_pos hforward, haccepted.uplink] at hprefix
  · have hprefix := huplink haccepted
    rwa [uplinkBytes, if_neg (by rw [htunnel]; exact nofun)] at hprefix
  · rcases hcourse.originBytes_prefix with hnothing | ⟨rawHead, head, haccepted, _⟩
    · rw [originBytes] at hnothing
      rw [hnothing] at hup
      exact List.prefix_nil.mp hup
    · exact absurd haccepted (hnone rawHead head)

theorem relay_verbatim :
    (∀ stop stream, ReadsHead stop stream) ∧
    ∀ config source env seen, seen <+: (handleConnection config source env).1 →
      RelaysVerbatim config source env seen :=
  ⟨readStream_readsHead, fun _ _ _ _ => relaysVerbatim⟩

theorem tunnelSurroundings_accepted : Accepted loopbackExit localhost tunnelSurroundings
    (toUtf8 tunnelRequest) ⟨.tunnel, "example.com".toList, 443⟩ := by
  refine ⟨by decide, by decide, by decide, ?_⟩
  rw [parseRequestHead_toUtf8]
  decide

-- the neighbor sends two bytes through the tunnel and gets three
def busySurroundings : Surroundings :=
  { tunnelSurroundings with
    neighbor := toUtf8 tunnelRequest ++ [7, 8]
    origin := [1, 2, 3]
    relay := [.up 2, .down 3] }

theorem busySurroundings_read : readHead busySurroundings.stop
    (busySurroundings.neighbor.take busySurroundings.arrived) = .ok (toUtf8 tunnelRequest) := by
  decide

theorem busySurroundings_accepted {config : ExitConfig} {source : IpAddr} {ledger : QuotaLedger}
    {now later : Instant} (hallowed : config.allowlist.isAllowed source)
    (hadmitted : (ledger.admitSource source config.quota now later).1 = .allowed) :
    Accepted config source (busySurroundings.at ledger now later)
      (toUtf8 tunnelRequest) ⟨.tunnel, "example.com".toList, 443⟩ :=
  ⟨busySurroundings_read, hallowed, hadmitted, tunnelSurroundings_accepted.parsed⟩

theorem busySurroundings_effects {config : ExitConfig} {source : IpAddr} {ledger : QuotaLedger}
    {now later : Instant} (hpolicy : config.originPolicy = .publicOnly)
    (hallowed : config.allowlist.isAllowed source)
    (hadmitted : (ledger.admitSource source config.quota now later).1 = .allowed) :
    (handleConnection config source (busySurroundings.at ledger now later)).1 =
      [.lookup "example.com".toList 443, .toNeighbor respTunnelOk, .connect exampleOrigin,
        .connected exampleOrigin, .toOrigin exampleOrigin [7, 8], .toNeighbor [1, 2, 3], .record 5] := by
  rw [(busySurroundings_accepted hallowed hadmitted).handleConnection_eq
    (hpolicy ▸ exampleOrigin_resolves)]
  rfl

theorem relay_verbatim_tunnel :
    RelaysVerbatim loopbackExit localhost busySurroundings
      (handleConnection loopbackExit localhost busySurroundings).1 ∧
    Accepted loopbackExit localhost busySurroundings (toUtf8 tunnelRequest)
      ⟨.tunnel, "example.com".toList, 443⟩ ∧
    originBytes (handleConnection loopbackExit localhost busySurroundings).1 = [7, 8] ∧
    neighborBytes (handleConnection loopbackExit localhost busySurroundings).1 =
      respTunnelOk ++ [1, 2, 3] := by
  have heffects := @busySurroundings_effects loopbackExit localhost .new 0 0 rfl rfl rfl
  refine ⟨relay_verbatim.2 loopbackExit localhost busySurroundings _ (List.prefix_refl _),
    busySurroundings_accepted rfl rfl, ?_, ?_⟩
  · exact (congrArg originBytes heffects).trans rfl
  · exact (congrArg neighborBytes heffects).trans rfl

def blankSurroundings : Surroundings := { tunnelSurroundings with neighbor := headEnd }

theorem blankSurroundings_unparseable :
    parseRequestHead headEnd = .error (.protocolViolation "unsupported method") := by
  rw [headEnd, parseRequestHead_toUtf8]
  decide

theorem blankSurroundings_answer :
    (handleConnection loopbackExit localhost blankSurroundings).1 = [.toNeighbor respBadRequest] := by
  have hread : readHead .timedOut (headEnd.take 1000) = .ok headEnd := by decide
  simp only [handleConnection, blankSurroundings, tunnelSurroundings, hread,
    blankSurroundings_unparseable]
  decide

theorem admitted_neighbor_answered_400 : Admitted loopbackExit localhost blankSurroundings ∧
    blankSurroundings.origin = [] ∧
    ∀ head, ¬neighborBytes (handleConnection loopbackExit localhost blankSurroundings).1 <+:
      ackBytes head ++ blankSurroundings.origin := by
  refine ⟨⟨by decide, by decide⟩, rfl, fun head => ?_⟩
  rw [blankSurroundings_answer, neighborBytes_single]
  unfold ackBytes
  split_ifs
  · decide
  · decide

end SpiderNet.Exit
