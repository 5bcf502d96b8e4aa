import SpiderNet.Exit.AddrText
import SpiderNet.Library.Decimal

namespace SpiderNet.Exit

inductive RequestTarget where
  | tunnel
  | forward
  deriving DecidableEq

structure RequestHead where
  target : RequestTarget
  host : Text
  port : UInt16
  deriving DecidableEq

def maxHeadBytes : Nat := 16 * 1024

def parsePort (text : Text) : Option UInt16 := (Decimal.parse (2 ^ 16) text).map .ofNat

def bracketPort (text : Text) : Except ExitError UInt16 :=
  match stripPrefix [':'] text with
  | none => .ok 80
  | some port =>
    match parsePort port with
    | none => .error (.protocolViolation "bad port")
    | some port => .ok port

def parseAuthority (authority : Text) : Except ExitError (Text × UInt16) :=
  let authority := trim authority
  if authority = [] then .error (.protocolViolation "empty authority")
  else
    match stripPrefix ['['] authority with
    | some rest =>
      match splitOnce ']' rest with
      | none => .error (.protocolViolation "unterminated [ipv6] authority")
      | some (host, after) =>
        match parseIpv6Addr host with
        | none => .error (.protocolViolation "bad ipv6 authority")
        | some _ => (bracketPort after).map (host, ·)
    | none =>
      match rsplitOnce ':' authority with
      | none =>
        if ':' ∈ authority then .error (.protocolViolation "bare ipv6 needs brackets and a port")
        else .ok (authority, 80)
      | some (host, port) =>
        match parsePort port with
        | none => .error (.protocolViolation "bad port")
        | some port =>
          if host = [] then .error (.protocolViolation "empty host") else .ok (host, port)

def forwardMethods : List Text :=
  ["GET".toList, "HEAD".toList, "POST".toList, "PUT".toList, "DELETE".toList, "OPTIONS".toList]

def absoluteUriRequired : String :=
  "non-CONNECT requests must use absolute http:// URIs (proxy-capable client required)"

def parseRequestLine (line : Text) : Except ExitError RequestHead :=
  let parts := splitWhitespace line
  let method := (parts[0]?).getD []
  let rawTarget := (parts[1]?).getD []
  if method = "CONNECT".toList then
    (parseAuthority rawTarget).map fun (host, port) => ⟨.tunnel, host, port⟩
  else if method ∈ forwardMethods then
    match stripPrefix "http://".toList rawTarget with
    | none => .error (.protocolViolation absoluteUriRequired)
    | some rest =>
      (parseAuthority (rest.takeWhile (· ≠ '/'))).map fun (host, port) => ⟨.forward, host, port⟩
  else .error (.protocolViolation "unsupported method")

def parseRequestHead (head : Bytes) : Except ExitError RequestHead :=
  match fromUtf8 head with
  | none => .error (.protocolViolation "request head is not valid utf-8")
  | some headText =>
    match firstLine headText with
    | none => .error (.protocolViolation "empty request head")
    | some requestLine => parseRequestLine requestLine

theorem parseRequestHead_toUtf8 (text : Text) : parseRequestHead (toUtf8 text) =
    match firstLine text with
    | none => .error (.protocolViolation "empty request head")
    | some requestLine => parseRequestLine requestLine := by
  rw [parseRequestHead, fromUtf8_toUtf8]

example : parseRequestLine "CONNECT [200:1234::1]:8080 HTTP/1.1".toList =
    .ok ⟨.tunnel, "200:1234::1".toList, 8080⟩ := by decide

end SpiderNet.Exit
