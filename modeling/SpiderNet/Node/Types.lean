import SpiderNet.Exit.AddrText

namespace SpiderNet.Node
open Exit

-- a JSON text is represented by the value it denotes; the fields of an object are in the order
-- the map iterates them
inductive Json where
  | null
  | bool (value : Bool)
  | number (text : String)
  | str (text : Text)
  | arr (items : List Json)
  | obj (fields : List (Text × Json))

namespace Json

def asObject : Json → Option (List (Text × Json))
  | .obj fields => some fields
  | _ => none

def asStr : Json → Option Text
  | .str text => some text
  | _ => none

def lookup (name : Text) : List (Text × Json) → Option Json
  | [] => none
  | field :: rest => if field.1 = name then some field.2 else lookup name rest

def get (json : Json) (name : Text) : Option Json := json.asObject.bind (lookup name)

def getStr (json : Json) (name : Text) : Option Text := (json.get name).bind asStr

def insertField (name : Text) (value : Json) : List (Text × Json) → List (Text × Json)
  | [] => [(name, value)]
  | field :: rest =>
    if field.1 = name then (name, value) :: rest
    else if name < field.1 then (name, value) :: field :: rest
    else field :: insertField name value rest

theorem lookup_insertField (name other : Text) (value : Json) (fields : List (Text × Json)) :
    lookup other (insertField name value fields) =
      if name = other then some value else lookup other fields := by
  induction fields with
  | nil => simp [insertField, lookup]
  | cons field rest ih =>
    by_cases hsame : field.1 = name
    · rw [insertField, if_pos hsame, lookup, lookup, hsame]
      split_ifs <;> rfl
    · rw [insertField, if_neg hsame]
      by_cases hless : name < field.1
      · rw [if_pos hless, lookup]
      · rw [if_neg hless, lookup, lookup, ih]
        by_cases heq : name = other
        · subst heq
          simp [hsame]
        · simp [heq]

end Json

def joinText (sep : String) (parts : List String) : String := sep.intercalate parts

def displayV4 (addr : Ipv4Addr) : String :=
  joinText "." (addr.octets.toList.map fun octet => toString octet.toNat)

def displaySegments (segments : List UInt16) : String :=
  joinText ":" (segments.map fun segment => .ofList (Nat.toDigits 16 segment.toNat))

-- start and length of the first longest run of zero segments
def zeroRun : Nat → Nat × Nat → Nat × Nat → List UInt16 → Nat × Nat
  | _, _, longest, [] => longest
  | i, current, longest, segment :: rest =>
    if segment = 0 then
      let current := if current.2 = 0 then (i, 1) else (current.1, current.2 + 1)
      zeroRun (i + 1) current (if longest.2 < current.2 then current else longest) rest
    else zeroRun (i + 1) (0, 0) longest rest

def displayV6 (addr : Ipv6Addr) : String :=
  let segments := addr.segments.toList
  if segments.take 6 = [0, 0, 0, 0, 0, 0xffff] then "::ffff:" ++ displayV4 (mappedV4 addr)
  else
    let (start, length) := zeroRun 0 (0, 0) (0, 0) segments
    if 1 < length then
      displaySegments (segments.take start) ++ "::" ++
        displaySegments (segments.drop (start + length))
    else displaySegments segments

def displayAddr (addr : SocketAddr) : String :=
  match addr.ip with
  | .v4 ip => displayV4 ip ++ ":" ++ toString addr.port.toNat
  | .v6 ip => "[" ++ displayV6 ip ++ "]:" ++ toString addr.port.toNat

-- the text the operating system has for an error is not modelled
def ioText : IoErrorKind → String
  | .timedOut => "timed out"
  | .other => "other error"

def displayExitError : ExitError → String
  | .io kind => "io error: " ++ ioText kind
  | .invalidBind input => "invalid bind address `" ++ input ++ "`"
  | .invalidSource input => "invalid allowed source address `" ++ input ++ "`"
  | .invalidQuota reason => "invalid quota: " ++ reason
  | .protocolViolation reason => "protocol violation: " ++ reason

inductive NodeError where
  | io (kind : IoErrorKind)
  | json (reason : String)
  | yggdrasilBinary (binary stderr : String)
  | invalidUri (uri hint : String)
  | invalidAdminEndpoint (input : String)
  | invalidPublicKey (input : String)
  | unexpectedConfigShape
  | adminProtocol (reason : String)
  | adminFailed (error : String)
  | timeout
  | daemonConfig (reason : String)
  | overlayNotUp (endpoint : String) (timeoutSecs : Nat)
  | sidecarExited (status : String)
  | exitListen (addr : SocketAddr) (source : IoErrorKind)
  | exit (error : ExitError)
  | invalidIfName (input : String)
  deriving DecidableEq

def NodeError.display : NodeError → String
  | .io kind => "io error: " ++ ioText kind
  | .json reason => "json error: " ++ reason
  | .yggdrasilBinary binary stderr => "yggdrasil binary `" ++ binary ++ "` failed: " ++ stderr
  | .invalidUri uri hint => "invalid uri `" ++ uri ++ "`: " ++ hint
  | .invalidAdminEndpoint input => "invalid admin endpoint `" ++ input ++
      "`: expected `tcp://host:port` or `unix:///path`"
  | .invalidPublicKey input => "invalid public key `" ++ input ++ "`: expected 64 hex characters"
  | .unexpectedConfigShape =>
    "generated config base has unexpected shape (expected a JSON object)"
  | .adminProtocol reason => "admin protocol violation: " ++ reason
  | .adminFailed error => "admin socket answered with an error: " ++ error
  | .timeout => "admin socket operation timed out"
  | .daemonConfig reason => "invalid daemon config: " ++ reason
  | .overlayNotUp endpoint timeoutSecs => "overlay did not come up within " ++
      toString timeoutSecs ++ "s (admin endpoint " ++ endpoint ++ ")"
  | .sidecarExited status => "yggdrasil sidecar exited unexpectedly: " ++ status
  | .exitListen addr source => "exit service cannot listen on " ++ displayAddr addr ++ ": " ++
      ioText source
  | .exit error => "exit service error: " ++ displayExitError error
  | .invalidIfName input => "invalid interface name `" ++ input ++
      "`: expected `auto`, `none` or an interface name"

end SpiderNet.Node
