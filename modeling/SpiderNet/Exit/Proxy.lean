import SpiderNet.Exit.Parse
import SpiderNet.Exit.Ledger

namespace SpiderNet.Exit

def respForbidden : Bytes :=
  toUtf8 "HTTP/1.1 403 Forbidden\r\nContent-Length: 0\r\nConnection: close\r\n\r\n".toList

def respBadRequest : Bytes :=
  toUtf8 "HTTP/1.1 400 Bad Request\r\nContent-Length: 0\r\nConnection: close\r\n\r\n".toList

def respTunnelOk : Bytes := toUtf8 "HTTP/1.1 200 Connection established\r\n\r\n".toList

def respQuotaExhausted (retryAfterSecs : Nat) : Bytes :=
  toUtf8 (s!"HTTP/1.1 503 Service Unavailable\r\nRetry-After: {retryAfterSecs}\r\n" ++
    "Content-Length: 0\r\nConnection: close\r\n\r\n").toList

def headEnd : Bytes := toUtf8 "\r\n\r\n".toList

inductive ReadStop where
  | closed
  | failed
  | timedOut

def ReadStop.error : ReadStop → ExitError
  | .closed => .protocolViolation "connection closed before head ended"
  | .failed => .io .other
  | .timedOut => .io .timedOut

def readHeadFrom (stop : ReadStop) (head : Bytes) : Bytes → Except ExitError Bytes
  | [] =>
    if maxHeadBytes ≤ head.length then .error (.protocolViolation "request head too large")
    else .error stop.error
  | byte :: rest =>
    if maxHeadBytes ≤ head.length then .error (.protocolViolation "request head too large")
    else if headEnd.isSuffixOf (head ++ [byte]) then .ok (head ++ [byte])
    else readHeadFrom stop (head ++ [byte]) rest

def readHead (stop : ReadStop) (stream : Bytes) : Except ExitError Bytes := readHeadFrom stop [] stream

inductive Effect where
  | toNeighbor (bytes : Bytes)
  | lookup (host : Text) (port : UInt16)
  | connect (addr : SocketAddr)
  | connected (addr : SocketAddr)
  | toOrigin (addr : SocketAddr) (bytes : Bytes)
  | record (bytes : Nat)
  deriving DecidableEq

inductive WriteOutcome where
  | done
  | failed (written : Nat)

def WriteOutcome.sent : WriteOutcome → Bytes → Bytes
  | .done, bytes => bytes
  | .failed written, bytes => bytes.take written

inductive ConnectOutcome where
  | accepted
  | refused
  | silent

inductive Relayed where
  | up (count : Nat)
  | down (count : Nat)

-- one connection's surroundings: `neighbor` is all the neighbor sends, of which `arrived` bytes
-- come before `stop`; `resolve k` is the resolver's answer at its `k`-th call; `ledger`, `now`
-- and `later` are what `admit` finds
structure Surroundings where
  neighbor : Bytes
  arrived : Nat
  stop : ReadStop
  ledger : QuotaLedger
  now : Instant
  later : Instant
  refusal : WriteOutcome
  resolve : Nat → Text → UInt16 → Option (List SocketAddr)
  ack : WriteOutcome
  connect : Nat → ConnectOutcome
  forwarded : WriteOutcome
  origin : Bytes
  relay : List Relayed
  relayFails : Bool

def Surroundings.at (env : Surroundings) (ledger : QuotaLedger) (now later : Instant) : Surroundings :=
  { env with ledger := ledger, now := now, later := later }

abbrev Outcome := List Effect × Except ExitError Unit

def resolvePublicOrigin (answer : Option (List SocketAddr)) (policy : OriginPolicy) :
    Except ExitError (List SocketAddr) :=
  match answer with
  | none => .error (.io .other)
  | some resolved =>
    if resolved = [] then .error (.protocolViolation "origin could not be resolved")
    else if policy ≠ .anyForTesting ∧ ¬resolved.all fun addr => isPublicOrigin addr.ip then
      .error (.protocolViolation "origin is not a public address")
    else .ok resolved

-- the addresses are tried in order; the time budget covers all of them
def connectOrigin (outcome : Nat → ConnectOutcome) :
    Nat → List SocketAddr → List Effect × Except ExitError SocketAddr
  | _, [] => ([], .error (.io .other))
  | attempt, addr :: rest =>
    match outcome attempt with
    | .accepted => ([.connect addr, .connected addr], .ok addr)
    | .silent => ([.connect addr], .error (.io .timedOut))
    | .refused =>
      let (effects, result) := connectOrigin outcome (attempt + 1) rest
      (.connect addr :: effects, result)

-- `copy_bidirectional` moves what each side sends in order
def relayFrom (addr : SocketAddr) : List Relayed → Bytes → Bytes → List Effect
  | [], _, _ => []
  | .up count :: rest, uplink, downlink =>
    .toOrigin addr (uplink.take count) :: relayFrom addr rest (uplink.drop count) downlink
  | .down count :: rest, uplink, downlink =>
    .toNeighbor (downlink.take count) :: relayFrom addr rest uplink (downlink.drop count)

def Effect.counted : Effect → Nat
  | .toNeighbor bytes => bytes.length
  | .toOrigin _ bytes => bytes.length
  | _ => 0

-- the counted streams, from the forwarded head to the end of the relay
def relayOrigin (head : RequestHead) (rawHead : Bytes) (addr : SocketAddr) (env : Surroundings) :
    Outcome :=
  let sent := if head.target = .forward then env.forwarded.sent rawHead else []
  let first := if head.target = .forward then [Effect.toOrigin addr sent] else []
  match if head.target = .forward then env.forwarded else .done with
  | .failed _ => (first, .error (.io .other))
  | .done =>
    let uplink := env.neighbor.drop rawHead.length
    let counted := first ++ relayFrom addr env.relay uplink env.origin
    (counted ++ [.record (counted.map Effect.counted).sum],
      if env.relayFails then .error (.io .other) else .ok ())

def acknowledge (head : RequestHead) (env : Surroundings) : List Effect × Option ExitError :=
  if head.target = .tunnel then
    ([.toNeighbor (env.ack.sent respTunnelOk)],
      match env.ack with
      | .done => none
      | .failed _ => some (.io .other))
  else ([], none)

def serveOrigin (head : RequestHead) (rawHead : Bytes) (addrs : List SocketAddr)
    (env : Surroundings) : Outcome :=
  match acknowledge head env with
  | (acked, some error) => (acked, .error error)
  | (acked, none) =>
    match connectOrigin env.connect 0 addrs with
    | (attempts, .error error) => (acked ++ attempts, .error error)
    | (attempts, .ok addr) =>
      let (relayed, result) := relayOrigin head rawHead addr env
      (acked ++ attempts ++ relayed, result)

def handleConnection (config : ExitConfig) (source : IpAddr) (env : Surroundings) : Outcome :=
  match readHead env.stop (env.neighbor.take env.arrived) with
  | .error error => ([], .error error)
  | .ok rawHead =>
    if ¬config.allowlist.isAllowed source then ([.toNeighbor (env.refusal.sent respForbidden)], .ok ())
    else
      match (env.ledger.admitSource source config.quota env.now env.later).1 with
      | .quotaExhausted retryAfterSecs =>
        ([.toNeighbor (env.refusal.sent (respQuotaExhausted retryAfterSecs))], .ok ())
      | .allowed =>
        match parseRequestHead rawHead with
        | .error _ =>
          ([.toNeighbor (env.refusal.sent respBadRequest)],
            .error (.protocolViolation "unparseable request head"))
        | .ok head =>
          let asked := Effect.lookup head.host head.port
          match resolvePublicOrigin (env.resolve 0 head.host head.port) config.originPolicy with
          | .error error => ([asked], .error error)
          | .ok addrs =>
            let (effects, result) := serveOrigin head rawHead addrs env
            (asked :: effects, result)

end SpiderNet.Exit
