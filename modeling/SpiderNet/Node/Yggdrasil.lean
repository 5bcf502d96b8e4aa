import SpiderNet.Node.Types
import SpiderNet.Exit.Parse

namespace SpiderNet.Node
open Exit

inductive AdminEndpoint where
  | tcp (host : Text) (port : UInt16)
  | unix (path : Text)
  deriving DecidableEq

namespace AdminEndpoint

def parse (input : Text) : Except NodeError AdminEndpoint :=
  let trimmed := trim input
  let invalid := NodeError.invalidAdminEndpoint (.ofList trimmed)
  match stripPrefix "tcp://".toList trimmed with
  | some rest =>
    match rsplitOnce ':' rest with
    | none => .error invalid
    | some (host, port) =>
      match parsePort port with
      | none => .error invalid
      | some port => if host = [] then .error invalid else .ok (.tcp host port)
  | none =>
    match stripPrefix "unix://".toList trimmed with
    | some rest => if rest = [] then .error invalid else .ok (.unix rest)
    | none => .error invalid

def configValue : AdminEndpoint → Text
  | .tcp host port => "tcp://".toList ++ host ++ ':' :: (toString port.toNat).toList
  | .unix path => "unix://".toList ++ path

end AdminEndpoint

structure YggAddr where
  inner : Ipv6Addr
  deriving DecidableEq

def adminProtocol (verb detail : String) : NodeError := .adminProtocol (verb ++ ": " ++ detail)

def parseResponse (fromSlice : Bytes → Except String Json) (buffer : Bytes) (verb : String) :
    Except NodeError Json :=
  match fromSlice buffer with
  | .error reason => .error (.json reason)
  | .ok envelope =>
    match envelope.getStr "status".toList with
    | none => .error (adminProtocol verb "response has no `status` field")
    | some status =>
      if status ≠ "success".toList then
        .error (.adminFailed (.ofList ((envelope.getStr "error".toList).getD "unknown error".toList)))
      else
        match envelope.get "response".toList with
        | none => .error (adminProtocol verb "response has no data")
        | some response => .ok response

def notIpv6 (verb : String) (address : Text) : NodeError :=
  adminProtocol verb ("`" ++ .ofList address ++ "` is not an IPv6 address")

structure SelfInfo where
  address : YggAddr
  key : Text
  subnet : Option Text
  coords : Option Json
  buildName : Option Text
  buildVersion : Option Text

def SelfInfo.fromResponse (value : Json) : Except NodeError SelfInfo :=
  match value.asObject with
  | none => .error (adminProtocol "getSelf" "response section is not an object")
  | some [] => .error (adminProtocol "getSelf" "response contains no record")
  | some ((address, record) :: _) =>
    match parseIpv6Addr address with
    | none => .error (notIpv6 "getSelf" address)
    | some addr =>
      match record.getStr "key".toList with
      | none => .error (adminProtocol "getSelf" "record has no `key`")
      | some key => .ok ⟨⟨addr⟩, key, record.getStr "subnet".toList, record.get "coords".toList,
          record.getStr "build_name".toList, record.getStr "build_version".toList⟩

structure PeerInfo where
  address : YggAddr
  key : Option Text
  remote : Option Text
  coords : Option Json

def peersFrom : List (Text × Json) → Except NodeError (List PeerInfo)
  | [] => .ok []
  | (address, record) :: rest =>
    match parseIpv6Addr address with
    | none => .error (notIpv6 "getPeers" address)
    | some addr => do
      let peers ← peersFrom rest
      return ⟨⟨addr⟩, record.getStr "key".toList, record.getStr "remote".toList,
        record.get "coords".toList⟩ :: peers

def peersFromResponse (value : Json) : Except NodeError (List PeerInfo) :=
  match value.asObject with
  | none => .error (adminProtocol "getPeers" "response section is not an object")
  | some fields => peersFrom fields

-- what the buffer read from the admin socket is turned into
def selfAnswer (fromSlice : Bytes → Except String Json) (buffer : Bytes) : Except NodeError SelfInfo := do
  let value ← parseResponse fromSlice buffer "getself"
  SelfInfo.fromResponse value

end SpiderNet.Node
