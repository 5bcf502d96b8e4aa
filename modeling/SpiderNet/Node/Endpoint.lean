import SpiderNet.Node.Yggdrasil
import SpiderNet.Exit.Authority

namespace SpiderNet.Node
open Exit

namespace AdminEndpoint

-- the endpoints whose text form can be read
def Readable : AdminEndpoint → Prop
  | tcp host _ => host ≠ []
  | unix path => path ≠ [] ∧ ∀ c ∈ path.getLast?, isWhitespace c = false

theorem configValue_tcp (host : Text) (port : UInt16) :
    (tcp host port).configValue = "tcp://".toList ++ (host ++ ':' :: portText port) := by
  have hport : (toString port.toNat).toList = portText port := by
    rw [Nat.toString_eq_repr, Nat.toList_repr, portText]
  change "tcp://".toList ++ host ++ ':' :: (toString port.toNat).toList = _
  rw [hport, List.append_assoc]

theorem configValue_unix (path : Text) : (unix path).configValue = "unix://".toList ++ path := rfl

theorem getLast_portText (front : Text) (port : UInt16) :
    ∀ c ∈ (front ++ ':' :: portText port).getLast?, isWhitespace c = false := by
  have hne : portText port ≠ [] := Nat.toDigits_ne_nil
  intro c hc
  rw [List.getLast?_append_cons, ← List.singleton_append, List.getLast?_append_of_ne_nil _ hne] at hc
  exact (portText_addrChar port c (List.mem_of_getLast? hc)).not_whitespace

theorem trim_configValue {endpoint : AdminEndpoint} (h : endpoint.Readable) :
    trim endpoint.configValue = endpoint.configValue := by
  cases endpoint with
  | tcp host port =>
    have hfirst : ∀ c ∈ ("tcp://".toList ++ (host ++ ':' :: portText port)).head?,
        isWhitespace c = false := by
      rintro c ⟨⟩
      decide
    rw [configValue_tcp]
    refine trim_ends hfirst ?_
    rw [← List.append_assoc]
    exact getLast_portText _ port
  | unix path =>
    obtain ⟨hne, hlast⟩ := h
    have hfirst : ∀ c ∈ ("unix://".toList ++ path).head?, isWhitespace c = false := by
      rintro c ⟨⟩
      decide
    rw [configValue_unix]
    refine trim_ends hfirst ?_
    rwa [List.getLast?_append_of_ne_nil _ hne]

theorem unix_not_tcp (path : Text) : stripPrefix "tcp://".toList ("unix://".toList ++ path) = none := by
  rw [stripPrefix, if_neg]
  exact Bool.false_ne_true

theorem parse_configValue {endpoint : AdminEndpoint} (h : endpoint.Readable) :
    parse endpoint.configValue = .ok endpoint := by
  rw [parse, trim_configValue h]
  cases endpoint with
  | tcp host port =>
    have hsplit : rsplitOnce ':' (host ++ ':' :: portText port) = some (host, portText port) :=
      rsplitOnce_eq_some.mpr ⟨rfl, parsePort_clean (parsePort_portText port)⟩
    simp only [configValue_tcp, stripPrefix_append, hsplit, parsePort_portText]
    rw [if_neg h]
  | unix path =>
    have htcp := unix_not_tcp path
    have hunix := stripPrefix_append "unix://".toList path
    rw [configValue_unix]
    generalize "unix://".toList ++ path = text at htcp hunix ⊢
    simp only [htcp, hunix]
    rw [if_neg h.1]

theorem readable_of_parse {input : Text} {endpoint : AdminEndpoint} (h : parse input = .ok endpoint) :
    endpoint.Readable := by
  rw [parse] at h
  cases htcp : stripPrefix "tcp://".toList (trim input) with
  | some rest =>
    simp only [htcp] at h
    cases hsplit : rsplitOnce ':' rest with
    | none => simp [hsplit] at h
    | some halves =>
      obtain ⟨host, digits⟩ := halves
      simp only [hsplit] at h
      cases hport : parsePort digits with
      | none => simp [hport] at h
      | some port =>
        simp only [hport] at h
        split_ifs at h with hempty
        obtain rfl := Except.ok.inj h
        exact hempty
  | none =>
    simp only [htcp] at h
    cases hunix : stripPrefix "unix://".toList (trim input) with
    | none =>
      rw [hunix] at h
      cases h
    | some rest =>
      simp only [hunix] at h
      split_ifs at h with hempty
      obtain rfl := Except.ok.inj h
      -- the path runs to the end of the trimmed input
      have hlast := @trim_getLast input
      rw [stripPrefix_eq_some.mp hunix, List.getLast?_append_of_ne_nil _ hempty] at hlast
      exact ⟨hempty, hlast⟩

end AdminEndpoint

theorem adminEndpoint_roundTrip :
    (∀ input endpoint, AdminEndpoint.parse input = .ok endpoint →
      AdminEndpoint.parse endpoint.configValue = .ok endpoint) ∧
    ∀ endpoint : AdminEndpoint,
      AdminEndpoint.parse endpoint.configValue = .ok endpoint ↔ endpoint.Readable := by
  refine ⟨fun input endpoint h => ?_, fun endpoint => ⟨?_, ?_⟩⟩
  · exact AdminEndpoint.parse_configValue (AdminEndpoint.readable_of_parse h)
  · exact AdminEndpoint.readable_of_parse
  · exact AdminEndpoint.parse_configValue

end SpiderNet.Node
