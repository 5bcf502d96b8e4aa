import SpiderNet.Exit.Relay

namespace SpiderNet.Exit
open Terminator

-- a complete absolute-URI request as the neighbor sends it
structure ForwardRequest where
  head : Bytes
  body : Bytes
  host : Text
  port : UInt16
  ends : EndsAt headEnd head head.length
  parsed : parseRequestHead head = .ok ⟨.forward, host, port⟩

namespace ForwardRequest

def bytes (request : ForwardRequest) : Bytes := request.head ++ request.body

def origin (request : ForwardRequest) : Text × UInt16 := (request.host, request.port)

end ForwardRequest

def streamOf (requests : List ForwardRequest) : Bytes := requests.flatMap ForwardRequest.bytes

-- position `p` of the stream is in the request at `i`
def InRequest (requests : List ForwardRequest) (i p : ℕ) : Prop :=
  (streamOf (requests.take i)).length ≤ p ∧ p < (streamOf (requests.take (i + 1))).length

-- where each byte written to an origin goes
def Effect.destinations : Effect → List SocketAddr
  | .toOrigin addr bytes => List.replicate bytes.length addr
  | _ => []

def destinations (effects : List Effect) : List SocketAddr := effects.flatMap Effect.destinations

-- the address is one the request's own origin has
def IsOriginOf (config : ExitConfig) (env : Surroundings) (request : ForwardRequest)
    (addr : SocketAddr) : Prop :=
  ∃ addrs, resolvePublicOrigin (env.resolve 0 request.host request.port) config.originPolicy =
    .ok addrs ∧ addr ∈ addrs

-- a byte of the request at `i` is written to an address that its origin does not have
def Misdelivered (config : ExitConfig) (env : Surroundings) (effects : List Effect)
    (requests : List ForwardRequest) (i : ℕ) : Prop :=
  ∃ request, requests[i]? = some request ∧ ∃ p addr, InRequest requests i p ∧
    (destinations effects)[p]? = some addr ∧ ¬IsOriginOf config env request addr

structure OneOrigin (config : ExitConfig) (env : Surroundings) (requests : List ForwardRequest)
    (effects : List Effect) : Prop where
  asked : ∀ host port, .lookup host port ∈ effects →
    ∃ first, requests[0]? = some first ∧ (host, port) = first.origin
  reached : ∀ effect ∈ effects, ∀ addr, effect.origin = some addr →
    ∃ first, requests[0]? = some first ∧ IsOriginOf config env first addr
  verbatim : originBytes effects <+: streamOf requests
  delivered : ∀ i first request, requests[0]? = some first → requests[i]? = some request →
    request.origin = first.origin → ¬Misdelivered config env effects requests i

section
variable {config : ExitConfig} {source : IpAddr} {env : Surroundings} {requests : List ForwardRequest}
  {rawHead : Bytes} {head : RequestHead}

theorem Accepted.first_request (h : Accepted config source env rawHead head)
    (hstream : env.neighbor = streamOf requests) :
    ∃ first, requests[0]? = some first ∧ head = ⟨.forward, first.host, first.port⟩ := by
  obtain ⟨_, hends, htake⟩ := h.endsAt
  cases requests with
  | nil =>
    rw [hstream] at hends
    have hfound := hends.found
    rw [streamOf, List.flatMap_nil, List.take_nil] at hfound
    exact absurd (List.suffix_nil.mp hfound) headEnd_ne
  | cons first rest =>
    have hneighbor : env.neighbor = first.head ++ (first.body ++ streamOf rest) := by
      rw [hstream, streamOf, List.flatMap_cons, ForwardRequest.bytes, List.append_assoc]
      rfl
    have hfirst : EndsAt headEnd env.neighbor first.head.length := by
      rw [hneighbor]
      exact first.ends.append _
    have hhead : rawHead = first.head := by
      rw [htake, hends.unique hfirst, hneighbor, List.take_left]
    have hparsed := h.parsed
    rw [hhead, first.parsed] at hparsed
    exact ⟨first, rfl, (Except.ok.inj hparsed).symm⟩

theorem Course.one_origin {effects : List Effect} (h : Course config source env effects)
    (hstream : env.neighbor = streamOf requests) :
    (∀ host port, .lookup host port ∈ effects →
      ∃ first, requests[0]? = some first ∧ (host, port) = first.origin) ∧
    ∀ effect ∈ effects, ∀ addr, effect.origin = some addr →
      ∃ first, requests[0]? = some first ∧ IsOriginOf config env first addr := by
  cases h with
  | unread hread => exact ⟨nofun, nofun⟩
  | forbidden hallowed => simp [Effect.origin]
  | exhausted hdecision => simp [Effect.origin]
  | unparseable hread hparse => simp [Effect.origin]
  | unresolved haccepted hresolve =>
    obtain ⟨first, hfirst, rfl⟩ := haccepted.first_request hstream
    simp [Effect.origin, hfirst, ForwardRequest.origin]
  | served haccepted hresolve hserved =>
    obtain ⟨first, hfirst, rfl⟩ := haccepted.first_request hstream
    refine ⟨fun host port hasked => ?_, fun effect heffect addr haddr => ?_⟩
    · rcases List.mem_cons.mp hasked with heq | hasked
      · cases heq
        exact ⟨first, hfirst, rfl⟩
      · have hlookup := (hserved.within _ hasked).1
        cases hlookup
    · rcases List.mem_cons.mp heffect with rfl | heffect
      · cases haddr
      · exact ⟨first, hfirst, _, hresolve, (hserved.within effect heffect).2 addr haddr⟩

end

theorem mem_destinations {effects : List Effect} {addr : SocketAddr} (h : addr ∈ destinations effects) :
    ∃ effect ∈ effects, effect.origin = some addr := by
  obtain ⟨effect, heffect, haddr⟩ := List.mem_flatMap.mp h
  cases effect with
  | toOrigin addr' bytes =>
    obtain rfl := List.eq_of_mem_replicate haddr
    exact ⟨_, heffect, rfl⟩
  | _ => cases haddr

theorem pipelined_one_origin (config : ExitConfig) (source : IpAddr) {env : Surroundings}
    {requests : List ForwardRequest} (hstream : env.neighbor = streamOf requests) :
    OneOrigin config env requests (handleConnection config source env).1 := by
  have hcourse := handleConnection_course config source env
  obtain ⟨hasked, hreached⟩ := hcourse.one_origin hstream
  refine ⟨hasked, hreached, ?_, fun i first request hfirst hrequest hsame => ?_⟩
  · rcases hcourse.originBytes_prefix with hnone | ⟨rawHead, head, haccepted, hprefix⟩
    · rw [hnone]
      exact List.nil_prefix
    · obtain ⟨first, _, rfl⟩ := haccepted.first_request hstream
      rwa [uplinkBytes, if_pos rfl, haccepted.uplink, hstream] at hprefix
  · rintro ⟨request', hrequest', p, addr, _, hwritten, helsewhere⟩
    rw [hrequest] at hrequest'
    cases hrequest'
    obtain ⟨effect, heffect, haddr⟩ := mem_destinations (List.mem_of_getElem? hwritten)
    obtain ⟨first', hfirst', addrs, hresolve, hin⟩ := hreached effect heffect addr haddr
    rw [hfirst] at hfirst'
    cases hfirst'
    obtain ⟨hhost, hport⟩ := Prod.mk.inj hsame
    refine helsewhere ⟨addrs, ?_, hin⟩
    rw [hhost, hport]
    exact hresolve

def headForA : Text := "GET http://a.example/ HTTP/1.1\r\n\r\n".toList

def headForB : Text := "GET http://b.example/ HTTP/1.1\r\n\r\n".toList

def requestForA : ForwardRequest where
  head := toUtf8 headForA
  body := []
  host := "a.example".toList
  port := 80
  ends := ⟨le_rfl, by decide, by decide⟩
  parsed := by
    rw [parseRequestHead_toUtf8]
    decide

def requestForB : ForwardRequest where
  head := toUtf8 headForB
  body := []
  host := "b.example".toList
  port := 80
  ends := ⟨le_rfl, by decide, by decide⟩
  parsed := by
    rw [parseRequestHead_toUtf8]
    decide

def originA : SocketAddr := ⟨.v4 (.ofOctets 93 184 216 34), 80⟩

def originB : SocketAddr := ⟨.v4 (.ofOctets 93 184 216 35), 80⟩

def reusedSurroundings : Surroundings :=
  { tunnelSurroundings with
    neighbor := streamOf [requestForA, requestForB]
    resolve := fun _ host _ => some [if host = "a.example".toList then originA else originB]
    relay := [.up 1000] }

theorem pipelined_one_origin_reused : OneOrigin loopbackExit reusedSurroundings
    [requestForA, requestForB] (handleConnection loopbackExit localhost reusedSurroundings).1 :=
  pipelined_one_origin loopbackExit localhost rfl

theorem reusedSurroundings_effects :
    (handleConnection loopbackExit localhost reusedSurroundings).1 =
      [.lookup "a.example".toList 80, .connect originA, .connected originA,
        .toOrigin originA (toUtf8 headForA), .toOrigin originA (toUtf8 headForB),
        .record 68] := by
  have haccepted : Accepted loopbackExit localhost reusedSurroundings (toUtf8 headForA)
      ⟨.forward, "a.example".toList, 80⟩ :=
    ⟨by decide, by decide, by decide, requestForA.parsed⟩
  have hresolve : resolvePublicOrigin (some [originA]) .publicOnly = .ok [originA] := by rfl
  rw [haccepted.handleConnection_eq hresolve]
  decide

theorem second_request_misdelivered : reusedSurroundings.neighbor = streamOf [requestForA, requestForB] ∧
    reusedSurroundings.resolve 0 requestForB.host requestForB.port = some [originB] ∧
    .toOrigin originA requestForB.bytes ∈
      (handleConnection loopbackExit localhost reusedSurroundings).1 ∧
    Misdelivered loopbackExit reusedSurroundings
      (handleConnection loopbackExit localhost reusedSurroundings).1 [requestForA, requestForB] 1 := by
  have hsecond : requestForB.bytes = toUtf8 headForB := List.append_nil _
  have hresolve : resolvePublicOrigin (reusedSurroundings.resolve 0 requestForB.host requestForB.port)
      loopbackExit.originPolicy = .ok [originB] := by rfl
  rw [reusedSurroundings_effects, hsecond]
  refine ⟨rfl, rfl, by simp, requestForB, rfl, 34, originA, ⟨by decide, by decide⟩, by decide, ?_⟩
  rintro ⟨addrs, haddrs, hin⟩
  obtain rfl := Except.ok.inj (hresolve.symm.trans haddrs)
  exact absurd hin (by decide)

end SpiderNet.Exit
