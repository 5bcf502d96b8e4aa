import SpiderNet.Node.Yggdrasil
import SpiderNet.Library.Decimal
import Mathlib.Tactic.IntervalCases

namespace SpiderNet.Node
open Exit

def peerSchemes : List Text :=
  ["tcp://".toList, "tls://".toList, "quic://".toList, "socks://".toList]

inductive UriKind where
  | peering
  | listen
  deriving DecidableEq

def UriKind.hint : UriKind → String
  | .peering => "peer URIs must start with tcp://, tls://, quic:// or socks://"
  | .listen => "listen URIs must start with tcp://, tls:// or quic://"

def validateScheme (input : Text) (kind : UriKind) : Except NodeError Text :=
  let trimmed := trim input
  match peerSchemes.find? fun scheme => scheme.isPrefixOf trimmed with
  | some scheme =>
    if scheme.length < trimmed.length then .ok trimmed
    else .error (.invalidUri (.ofList input) kind.hint)
  | none => .error (.invalidUri (.ofList input) kind.hint)

structure PeerUri where
  uri : Text
  deriving DecidableEq

def PeerUri.parse (input : Text) : Except NodeError PeerUri := do
  let uri ← validateScheme input .peering
  return ⟨uri⟩

structure ListenUri where
  uri : Text
  deriving DecidableEq

def ListenUri.parse (input : Text) : Except NodeError ListenUri :=
  let trimmed := trim input
  if "socks://".toList.isPrefixOf trimmed then
    .error (.invalidUri (.ofList input) "listeners bind an address: use tcp://, tls:// or quic://")
  else do
    let uri ← validateScheme trimmed .listen
    return ⟨uri⟩

def isHexDigit (c : Char) : Bool := (toDigit 16 c).isSome

-- what is left of the text once trimmed and in lower case; the ASCII case map is enough, no other
-- character has a hex digit as its lower case
def keyText (input : Text) : Text := (trim input).map Char.toLower

def ValidKey (key : Text) : Prop := key.length = 64 ∧ key.all isHexDigit = true

instance (key : Text) : Decidable (ValidKey key) := inferInstanceAs (Decidable (_ ∧ _))

structure PublicKeyHex where
  key : Text
  valid : ValidKey key
  deriving DecidableEq

def PublicKeyHex.parse (input : Text) : Except NodeError PublicKeyHex :=
  if h : ValidKey (keyText input) then .ok ⟨keyText input, h⟩
  else .error (.invalidPublicKey (.ofList input))

theorem hexDigit_bounds {c : Char} (h : isHexDigit c = true) :
    (48 ≤ c.toNat ∧ c.toNat ≤ 57) ∨ (97 ≤ c.toNat ∧ c.toNat ≤ 102) ∨
      (65 ≤ c.toNat ∧ c.toNat ≤ 70) := by
  rw [isHexDigit, toDigit] at h
  by_cases hdigit : c.isDigit
  · exact Or.inl (Decimal.isDigit_bounds hdigit)
  by_cases hlower : 'a' ≤ c ∧ c ≤ 'z'
  · have hle : 97 ≤ c.toNat := Char.le_def.mp hlower.1
    have hvalue : c.toNat - 97 + 10 < 16 := by simpa [hdigit, hlower] using h
    exact Or.inr (Or.inl ⟨hle, by omega⟩)
  by_cases hupper : 'A' ≤ c ∧ c ≤ 'Z'
  · have hle : 65 ≤ c.toNat := Char.le_def.mp hupper.1
    have hvalue : c.toNat - 65 + 10 < 16 := by simpa [hdigit, hlower, hupper] using h
    exact Or.inr (Or.inr ⟨hle, by omega⟩)
  · simp [hdigit, hlower, hupper] at h

def hexDigits : Text := "0123456789abcdefABCDEF".toList

theorem mem_hexDigits {c : Char} (h : isHexDigit c = true) : c ∈ hexDigits := by
  have hofNat : c = Char.ofNat c.toNat := (Char.ofNat_toNat c).symm
  have hbounds := hexDigit_bounds h
  generalize c.toNat = n at hofNat hbounds
  subst hofNat
  rcases hbounds with ⟨hlow, hhigh⟩ | ⟨hlow, hhigh⟩ | ⟨hlow, hhigh⟩ <;> interval_cases n <;> decide

theorem hexDigits_clean {c : Char} (h : c ∈ hexDigits) :
    isHexDigit c.toLower = true ∧ isWhitespace c = false := by
  have hall : hexDigits.all (fun c => isHexDigit c.toLower && !isWhitespace c) = true := by decide
  simpa using List.all_eq_true.mp hall c h

theorem hexDigits_single {c : Char} (h : c ∈ hexDigits) :
    String.utf8EncodeChar c = [c.toNat.toUInt8] := by
  have hall : hexDigits.all (fun c => String.utf8EncodeChar c == [c.toNat.toUInt8]) = true := by decide
  simpa using List.all_eq_true.mp hall c h

theorem toUtf8_hexDigits {text : Text} (h : ∀ c ∈ text, c ∈ hexDigits) :
    toUtf8 text = text.map fun c => c.toNat.toUInt8 := by
  rw [toUtf8, List.map_eq_flatMap]
  exact List.flatMap_congr fun c hc => hexDigits_single (h c hc)

theorem PublicKeyHex.hex (key : PublicKeyHex) : ∀ c ∈ key.key, c ∈ hexDigits :=
  fun c hc => mem_hexDigits (List.all_eq_true.mp key.valid.2 c hc)

theorem PublicKeyHex.parse_key (key : PublicKeyHex) :
    ∃ parsed, PublicKeyHex.parse (trim key.key) = .ok parsed := by
  have hclean : ∀ c ∈ key.key, isHexDigit c.toLower = true ∧ isWhitespace c = false :=
    fun c hc => hexDigits_clean (key.hex c hc)
  have htrim : trim key.key = key.key := trim_clean fun c hc => (hclean c hc).2
  have hvalid : ValidKey (keyText (trim key.key)) := by
    rw [htrim, keyText, htrim]
    refine ⟨by rw [List.length_map, key.valid.1], ?_⟩
    rw [List.all_map, List.all_eq_true]
    exact fun c hc => (hclean c hc).1
  exact ⟨_, dif_pos hvalid⟩

theorem PublicKeyHex.toUtf8_take (key : PublicKeyHex) (n : ℕ) :
    toUtf8 (key.key.take n) = (toUtf8 key.key).take n := by
  have htake : ∀ c ∈ key.key.take n, c ∈ hexDigits := fun c hc => key.hex c (List.mem_of_mem_take hc)
  rw [toUtf8_hexDigits key.hex, toUtf8_hexDigits htake, List.map_take]

theorem PublicKeyHex.length_toUtf8 (key : PublicKeyHex) : (toUtf8 key.key).length = 64 := by
  rw [toUtf8_hexDigits key.hex, List.length_map, key.valid.1]

theorem PublicKeyHex.length_of_parse {text : Text} {key : PublicKeyHex}
    (h : PublicKeyHex.parse text = .ok key) : 64 ≤ text.length := by
  rw [PublicKeyHex.parse] at h
  by_cases hvalid : ValidKey (keyText text)
  · have hlength := hvalid.1
    rw [keyText, List.length_map] at hlength
    exact hlength ▸ length_trim_le text
  · rw [dif_neg hvalid] at h
    cases h

inductive IfName where
  | auto
  | headless
  | named (name : Text)
  deriving DecidableEq

structure MulticastInterface where
  regex : Text
  beacon : Bool
  listen : Bool
  port : UInt16

inductive MulticastMode where
  | platformDefault
  | disabled
  | interfaces (entries : List MulticastInterface)

structure NodeSettings where
  peers : List PeerUri
  listen : List ListenUri
  multicast : Option MulticastMode
  adminListen : Option AdminEndpoint
  ifName : Option IfName
  allowedPublicKeys : List PublicKeyHex
  privateKeyPath : Option Text

def parseIfname (input : Text) : Except NodeError IfName :=
  let name := trim input
  if name = "auto".toList then .ok .auto
  else if name = "none".toList then .ok .headless
  else if name ≠ [] then .ok (.named name)
  else .error (.invalidIfName (.ofList input))

def IfName.value : IfName → Text
  | .auto => "auto".toList
  | .headless => "none".toList
  | .named name => name

def MulticastInterface.entry (iface : MulticastInterface) : Json :=
  .obj [("Beacon".toList, .bool iface.beacon), ("Listen".toList, .bool iface.listen),
    ("Port".toList, .number (toString iface.port.toNat)), ("Regex".toList, .str iface.regex)]

def textList (texts : List Text) : Json := .arr (texts.map .str)

-- what the settings insert into the base config, in the order they insert it
def patches (settings : NodeSettings) : List (Text × Json) :=
  (if settings.peers ≠ [] then [("Peers".toList, textList (settings.peers.map (·.uri)))] else []) ++
  (if settings.listen ≠ [] then [("Listen".toList, textList (settings.listen.map (·.uri)))] else []) ++
  (match settings.multicast with
    | none | some .platformDefault => []
    | some .disabled => [("MulticastInterfaces".toList, .arr [])]
    | some (.interfaces entries) =>
      [("MulticastInterfaces".toList, .arr (entries.map MulticastInterface.entry))]) ++
  (settings.adminListen.map fun endpoint => ("AdminListen".toList, .str endpoint.configValue)).toList ++
  (settings.ifName.map fun name => ("IfName".toList, .str name.value)).toList ++
  (if settings.allowedPublicKeys ≠ [] then
    [("AllowedPublicKeys".toList, textList (settings.allowedPublicKeys.map (·.key)))] else []) ++
  (settings.privateKeyPath.map fun path => ("PrivateKeyPath".toList, .str path)).toList

def applyToBaseConfig (settings : NodeSettings) (base : Json) : Except NodeError Json :=
  match base.asObject with
  | none => .error .unexpectedConfigShape
  | some fields =>
    .ok (.obj ((patches settings).foldl (fun acc patch => Json.insertField patch.1 patch.2 acc) fields))

-- what running the binary with `-genconf -json` comes to
inductive Genconf where
  | notRun (kind : IoErrorKind)
  | failed (stderr : Text)
  | printed (stdout : Except String Json)

-- the pretty-printed text stands for the value it is parsed back to
def generateConfig (binary : Text) (output : Genconf) (settings : NodeSettings) :
    Except NodeError Json :=
  match output with
  | .notRun kind => .error (.io kind)
  | .failed stderr => .error (.yggdrasilBinary (.ofList binary) (.ofList (trim stderr)))
  | .printed (.error reason) => .error (.json reason)
  | .printed (.ok base) => applyToBaseConfig settings base

end SpiderNet.Node
