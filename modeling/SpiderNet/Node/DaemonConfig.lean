import SpiderNet.Node.Settings

namespace SpiderNet.Node
open Exit

def readIpAddr (text : Text) : Option (IpAddr × Text) :=
  match readIpv4Addr text with
  | some (v4, rest) => some (.v4 v4, rest)
  | none => (readIpv6Addr text).map fun (v6, rest) => (.v6 v6, rest)

def parseIpAddr (text : Text) : Option IpAddr :=
  match readIpAddr text with
  | some (addr, []) => some addr
  | _ => none

def readGivenChar (c : Char) : Text → Option Text
  | [] => none
  | first :: rest => if first = c then some rest else none

def readPort (text : Text) : Option (UInt16 × Text) := do
  let text ← readGivenChar ':' text
  let (port, text) ← readNumber 10 text.length (2 ^ 16) true text
  return (.ofNat port, text)

def readSocketAddrV4 (text : Text) : Option (SocketAddr × Text) := do
  let (ip, text) ← readIpv4Addr text
  let (port, text) ← readPort text
  return (⟨.v4 ip, port⟩, text)

-- an optional `%` and scope id; a reader that fails consumes nothing
def skipScopeId (text : Text) : Text :=
  match readGivenChar '%' text with
  | none => text
  | some rest =>
    match readNumber 10 rest.length (2 ^ 32) true rest with
    | none => text
    | some (_, rest) => rest

def readSocketAddrV6 (text : Text) : Option (SocketAddr × Text) := do
  let text ← readGivenChar '[' text
  let (ip, text) ← readIpv6Addr text
  let text ← readGivenChar ']' (skipScopeId text)
  let (port, text) ← readPort text
  return (⟨.v6 ip, port⟩, text)

def readSocketAddr (text : Text) : Option (SocketAddr × Text) :=
  (readSocketAddrV4 text).or (readSocketAddrV6 text)

def parseSocketAddr (text : Text) : Option SocketAddr :=
  match readSocketAddr text with
  | some (addr, []) => some addr
  | _ => none

def parseBind (input : Text) : Except ExitError SocketAddr :=
  match parseSocketAddr input with
  | some addr => .ok addr
  | none => .error (.invalidBind (.ofList input))

def parseSource (input : Text) : Except ExitError IpAddr :=
  match parseIpAddr input with
  | some addr => .ok addr
  | none => .error (.invalidSource (.ofList input))

def defaultStateDir : Text := "spidernet-state".toList

def defaultYggdrasilBinary : Text := "yggdrasil".toList

def nodeKeyFile : Text := "node.key".toList

def defaultAdminEndpoint : Text := "tcp://localhost:9001".toList

def defaultExitPort : UInt16 := 8080

def defaultQuotaMib : UInt64 := 1024

def defaultWindowHours : UInt64 := 24

def mib : UInt64 := 1024 * 1024

def saturatingMul (a b : UInt64) : UInt64 := toU64 (a.toNat * b.toNat)

def fromSecs (secs : UInt64) : Duration := secs.toNat * 10 ^ 9

inductive ExitBind where
  | explicit (addr : SocketAddr)
  | overlay (port : UInt16)
  deriving DecidableEq

def ExitBind.resolve (bind : ExitBind) (overlay : YggAddr) : SocketAddr :=
  match bind with
  | .explicit addr => addr
  | .overlay port => ⟨.v6 overlay.inner, port⟩

structure ExitServiceSettings where
  bind : ExitBind
  allowlist : SourceAllowlist
  quota : Option QuotaPolicy

def joinPath (dir name : Text) : Text :=
  if dir = [] ∨ dir.getLast? = some '/' then dir ++ name else dir ++ '/' :: name

structure RawNodeSection where
  adminEndpoint : Option Text
  stateDir : Option Text

structure RawYggdrasilSection where
  manage : Option Bool
  binary : Option Text
  peers : Option (List Text)
  listen : Option (List Text)
  allowKeys : Option (List Text)
  noMulticast : Option Bool
  ifname : Option Text

structure RawExitSection where
  enabled : Option Bool
  bind : Option Text
  port : Option UInt16
  allow : Option (List Text)
  quotaMib : Option UInt64
  windowHours : Option UInt64

structure RawDaemonConfig where
  node : RawNodeSection
  yggdrasil : RawYggdrasilSection
  exit : RawExitSection

def fieldError (path text : String) : NodeError := .daemonConfig (path ++ ": " ++ text)

def parseEntries {α ε : Type} (display : ε → String) (what : String) (parse : Text → Except ε α) :
    List Text → Except NodeError (List α)
  | [] => .ok []
  | input :: rest =>
    match parse input with
    | .error error => .error (fieldError what (display error))
    | .ok value => do
      let values ← parseEntries display what parse rest
      return value :: values

def parseEach {α ε : Type} (display : ε → String) (inputs : Option (List Text)) (what : String)
    (parse : Text → Except ε α) : Except NodeError (List α) :=
  parseEntries display what parse (inputs.getD [])

def explicitBind : Option Text → Except NodeError (Option SocketAddr)
  | none | some [] => .ok none
  | some value =>
    match parseBind value with
    | .error error => .error (fieldError "exit.bind" (displayExitError error))
    | .ok addr => .ok (some addr)

def noAllowlist : String :=
  "exit enabled but no neighbor allowlist: add `exit.allow` entries, " ++
    "or (dev only) set `exit.bind` to a loopback address"

def validateQuota (raw : RawExitSection) : Except NodeError (Option QuotaPolicy) :=
  let quotaMib := raw.quotaMib.getD defaultQuotaMib
  if quotaMib = 0 then .ok none
  else
    match QuotaPolicy.tryNew (saturatingMul quotaMib mib)
        (fromSecs (saturatingMul (raw.windowHours.getD defaultWindowHours) 3600)) with
    | .error error => .error (fieldError "exit.quota" (displayExitError error))
    | .ok quota => .ok (some quota)

def devMode (explicit : Option SocketAddr) : Bool := explicit.any fun addr => addr.ip.isLoopback

def validateExit (raw : RawExitSection) : Except NodeError (Option ExitServiceSettings) := do
  let enabled := raw.enabled.getD false
  let explicit ← explicitBind raw.bind
  let allowSources ← parseEach displayExitError raw.allow "exit.allow" parseSource
  if enabled && allowSources.isEmpty && !devMode explicit then throw (.daemonConfig noAllowlist)
  let allowlist :=
    if allowSources.isEmpty then SourceAllowlist.loopbackOnly else SourceAllowlist.new allowSources
  let quota ← validateQuota raw
  let bind := match explicit with
    | some addr => ExitBind.explicit addr
    | none => .overlay (raw.port.getD defaultExitPort)
  return if enabled then some ⟨bind, allowlist, quota⟩ else none

def validateEndpoint : Option Text → Except NodeError AdminEndpoint
  | none =>
    match AdminEndpoint.parse defaultAdminEndpoint with
    | .error error => .error (.daemonConfig error.display)
    | .ok endpoint => .ok endpoint
  | some value =>
    match AdminEndpoint.parse value with
    | .error error => .error (fieldError "node.admin_endpoint" error.display)
    | .ok endpoint => .ok endpoint

def validateIfname (ifname : Option Text) : Except NodeError IfName :=
  match parseIfname (ifname.getD "auto".toList) with
  | .error error => .error (fieldError "yggdrasil.ifname" error.display)
  | .ok name => .ok name

def nothingToDo : String :=
  "nothing to do: set `[yggdrasil] manage = true` or `[exit] enabled = true`"

structure ValidatedDaemonConfig where
  adminEndpoint : AdminEndpoint
  stateDir : Text
  manage : Bool
  yggdrasilBinary : Text
  peers : List PeerUri
  listen : List ListenUri
  allowedKeys : List PublicKeyHex
  noMulticast : Bool
  ifName : IfName
  exit : Option ExitServiceSettings

def validate (raw : RawDaemonConfig) : Except NodeError ValidatedDaemonConfig := do
  let adminEndpoint ← validateEndpoint raw.node.adminEndpoint
  let stateDir := raw.node.stateDir.getD defaultStateDir
  let manage := raw.yggdrasil.manage.getD true
  let yggdrasilBinary := raw.yggdrasil.binary.getD defaultYggdrasilBinary
  let peers ← parseEach NodeError.display raw.yggdrasil.peers "yggdrasil.peers" PeerUri.parse
  let listen ← parseEach NodeError.display raw.yggdrasil.listen "yggdrasil.listen" ListenUri.parse
  let allowedKeys ← parseEach NodeError.display raw.yggdrasil.allowKeys "yggdrasil.allow_keys"
    PublicKeyHex.parse
  let noMulticast := raw.yggdrasil.noMulticast.getD false
  let ifName ← validateIfname raw.yggdrasil.ifname
  let exit ← validateExit raw.exit
  if !manage && exit.isNone then throw (.daemonConfig nothingToDo)
  return ⟨adminEndpoint, stateDir, manage, yggdrasilBinary, peers, listen, allowedKeys, noMulticast,
    ifName, exit⟩

namespace ValidatedDaemonConfig

def keyPath (config : ValidatedDaemonConfig) : Text := joinPath config.stateDir nodeKeyFile

def nodeSettings (config : ValidatedDaemonConfig) : NodeSettings :=
  { peers := config.peers
    listen := config.listen
    multicast := some (if config.noMulticast then .disabled else .platformDefault)
    adminListen := some config.adminEndpoint
    ifName := some config.ifName
    allowedPublicKeys := config.allowedKeys
    privateKeyPath := some config.keyPath }

-- the config `run_daemon` hands to the exit once the overlay address is known
def exitConfig (exit : ExitServiceSettings) (overlay : YggAddr) : ExitConfig :=
  .new (exit.bind.resolve overlay) exit.allowlist exit.quota

end ValidatedDaemonConfig
end SpiderNet.Node
