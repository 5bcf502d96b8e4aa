import SpiderNet.Exit.Parse

namespace SpiderNet.Exit

def methods : List Text := "CONNECT".toList :: forwardMethods

def versions : List Text := ["HTTP/1.0".toList, "HTTP/1.1".toList]

def Token (text : Text) : Prop := text ≠ [] ∧ ∀ c ∈ text, isWhitespace c = false

def requestLine (method target version : Text) : Text := method ++ ' ' :: (target ++ ' ' :: version)

def CleanLine (line : Text) : Prop := ∃ method target version,
  line = requestLine method target version ∧ method ∈ methods ∧ Token target ∧ version ∈ versions

-- what the parser takes as method and target
inductive LineRead : Text → Text → RequestHead → Prop
  | tunnel {target host : Text} {port : UInt16} (hread : parseAuthority target = .ok (host, port)) :
      LineRead "CONNECT".toList target ⟨.tunnel, host, port⟩
  | forward {method rest host : Text} {port : UInt16} (hmethod : method ∈ forwardMethods)
      (hread : parseAuthority (rest.takeWhile (· ≠ '/')) = .ok (host, port)) :
      LineRead method ("http://".toList ++ rest) ⟨.forward, host, port⟩

def lineMethod (line : Text) : Text := (splitWhitespace line)[0]?.getD []

def lineTarget (line : Text) : Text := (splitWhitespace line)[1]?.getD []

theorem connect_not_forward : "CONNECT".toList ∉ forwardMethods := by decide

theorem parseRequestLine_ok_iff {line : Text} {head : RequestHead} :
    parseRequestLine line = .ok head ↔ LineRead (lineMethod line) (lineTarget line) head := by
  simp only [parseRequestLine]
  rw [← lineMethod, ← lineTarget]
  generalize lineMethod line = method
  generalize lineTarget line = target
  constructor
  · intro h
    by_cases hconnect : method = "CONNECT".toList
    · rw [if_pos hconnect] at h
      obtain ⟨⟨host, port⟩, hread, rfl⟩ := map_eq_ok.mp h
      exact hconnect ▸ .tunnel hread
    · rw [if_neg hconnect] at h
      by_cases hmethod : method ∈ forwardMethods
      · rw [if_pos hmethod] at h
        split at h
        · cases h
        · rename_i rest hrest
          obtain ⟨⟨host, port⟩, hread, rfl⟩ := map_eq_ok.mp h
          exact stripPrefix_eq_some.mp hrest ▸ .forward hmethod hread
      · rw [if_neg hmethod] at h
        cases h
  · intro h
    cases h with
    | tunnel hread => rw [if_pos rfl, hread, Except.map]
    | forward hmethod hread =>
      have hconnect : method ≠ "CONNECT".toList := fun heq => connect_not_forward (heq ▸ hmethod)
      rw [if_neg hconnect, if_pos hmethod, stripPrefix_append]
      simp only [hread, Except.map]

theorem LineRead.method_mem {method target : Text} {head : RequestHead} (h : LineRead method target head) :
    method ∈ methods := by
  cases h with
  | tunnel => exact List.mem_cons_self
  | forward hmethod => exact List.mem_cons_of_mem _ hmethod

theorem token_of_all {texts : List Text}
    (h : texts.all (fun text => !text.isEmpty && text.all fun c => !isWhitespace c)) :
    ∀ text ∈ texts, Token text := by
  intro text htext
  have htoken := List.all_eq_true.mp h text htext
  simp only [Bool.and_eq_true, Bool.not_eq_true', List.isEmpty_eq_false_iff, List.all_eq_true] at htoken
  exact htoken

theorem methods_token : ∀ method ∈ methods, Token method := token_of_all (by decide)

theorem versions_token : ∀ version ∈ versions, Token version := token_of_all (by decide)

section
variable {method target version : Text} (hmethod : Token method) (htarget : Token target)
  (hversion : Token version)
include hmethod htarget hversion

theorem splitWhitespace_requestLine :
    splitWhitespace (requestLine method target version) = [method, target, version] := by
  have hspace : isWhitespace ' ' = true := by decide
  rw [splitWhitespace_eq, requestLine, Scan.words_append hmethod.1 hmethod.2 hspace,
    Scan.words_append htarget.1 htarget.2 hspace, Scan.words_single hversion.1 hversion.2]

theorem whitespace_requestLine :
    (requestLine method target version).filter isWhitespace = [' ', ' '] := by
  have hclean : ∀ text : Text, Token text → text.filter isWhitespace = [] := by
    intro text htext
    rw [List.filter_eq_nil_iff]
    exact fun c hc => Bool.eq_false_iff.mp (htext.2 c hc)
  rw [requestLine, List.filter_append, hclean method hmethod, List.nil_append,
    List.filter_cons_of_pos (by decide), List.filter_append, hclean target htarget, List.nil_append,
    List.filter_cons_of_pos (by decide), hclean version hversion]

end

-- three tokens with the version as the last of them, and two spaces for all whitespace
structure ThreeTokens (line : Text) : Prop where
  version : ∃ version ∈ versions, (splitWhitespace line)[2]? = some version
  tokens : (splitWhitespace line).length = 3
  spaces : line.filter isWhitespace = [' ', ' ']

theorem ThreeTokens.line {line : Text} (h : ThreeTokens line) : ∃ target version,
    line = requestLine (lineMethod line) target version ∧ Token target ∧ version ∈ versions := by
  obtain ⟨version, hversion, hlast⟩ := h.version
  obtain ⟨method, target, last, htokens⟩ := List.length_eq_three.mp h.tokens
  obtain rfl : last = version := by simpa [htokens] using hlast
  have hspell := @Scan.words_spell Char isWhitespace line (by
    rw [← splitWhitespace_eq, h.tokens, h.spaces]
    rfl)
  rw [← splitWhitespace_eq, htokens, h.spaces] at hspell
  have hmem : target ∈ Scan.words isWhitespace line := by
    rw [← splitWhitespace_eq, htokens]
    simp
  refine ⟨target, last, hspell.trans ?_, Scan.words_clean hmem, hversion⟩
  rw [lineMethod, htokens]
  simp [requestLine]

theorem CleanLine.threeTokens {line : Text} (h : CleanLine line) : ThreeTokens line := by
  obtain ⟨method, target, version, rfl, hmethod, htarget, hversion⟩ := h
  have hmethod := methods_token method hmethod
  have htokens := splitWhitespace_requestLine hmethod htarget (versions_token version hversion)
  refine ⟨⟨version, hversion, ?_⟩, ?_,
    whitespace_requestLine hmethod htarget (versions_token version hversion)⟩
  · rw [htokens]
    rfl
  · rw [htokens]
    rfl

-- the first two tokens are a method and a target that the proxy serves
def TargetNamed (line : Text) : Prop := ∃ head, LineRead (lineMethod line) (lineTarget line) head

theorem TargetNamed.clean {line : Text} (hnamed : TargetNamed line) (h : ThreeTokens line) :
    CleanLine line := by
  obtain ⟨_, hread⟩ := hnamed
  obtain ⟨target, version, hline, htarget, hversion⟩ := h.line
  exact ⟨lineMethod line, target, version, hline, hread.method_mem, htarget, hversion⟩

def RequestLineOf (head : Bytes) (line : Text) : Prop :=
  ∃ text, fromUtf8 head = some text ∧ firstLine text = some line

theorem parseRequestHead_ok_iff {head : Bytes} {parsed : RequestHead} :
    parseRequestHead head = .ok parsed ↔
      ∃ line, RequestLineOf head line ∧ LineRead (lineMethod line) (lineTarget line) parsed := by
  constructor
  · intro h
    rw [parseRequestHead] at h
    split at h
    · cases h
    · rename_i text htext
      split at h
      · cases h
      · rename_i line hline
        exact ⟨line, ⟨text, htext, hline⟩, parseRequestLine_ok_iff.mp h⟩
  · rintro ⟨line, ⟨text, htext, hline⟩, hread⟩
    simp only [parseRequestHead, htext, hline]
    exact parseRequestLine_ok_iff.mpr hread

theorem RequestLineOf.unique {head : Bytes} {line line' : Text} (h : RequestLineOf head line)
    (h' : RequestLineOf head line') : line = line' := by
  obtain ⟨text, htext, hline⟩ := h
  obtain ⟨text', htext', hline'⟩ := h'
  obtain rfl := Option.some.inj (htext.symm.trans htext')
  exact Option.some.inj (hline.symm.trans hline')

def StrictHead (head : Bytes) : Prop :=
  ∀ parsed, parseRequestHead head = .ok parsed → ∃ line, RequestLineOf head line ∧ CleanLine line

theorem parseRequestHead_strict_iff (head : Bytes) :
    StrictHead head ↔ ∀ line, RequestLineOf head line → TargetNamed line → ThreeTokens line := by
  constructor
  · rintro h line hline ⟨parsed, hread⟩
    obtain ⟨line', hline', hclean⟩ := h parsed (parseRequestHead_ok_iff.mpr ⟨line, hline, hread⟩)
    exact hline.unique hline' ▸ hclean.threeTokens
  · intro h parsed hok
    obtain ⟨line, hline, hread⟩ := parseRequestHead_ok_iff.mp hok
    exact ⟨line, hline, TargetNamed.clean ⟨parsed, hread⟩ (h line hline ⟨parsed, hread⟩)⟩

theorem parseRequestHead_lenient : ¬StrictHead (toUtf8 "CONNECT a:1\r\n\r\n".toList) := by
  intro h
  have hline : RequestLineOf (toUtf8 "CONNECT a:1\r\n\r\n".toList) "CONNECT a:1".toList :=
    ⟨_, fromUtf8_toUtf8 _, by decide⟩
  obtain ⟨line, hline', hclean⟩ := h ⟨.tunnel, "a".toList, 1⟩
    (parseRequestHead_ok_iff.mpr ⟨_, hline, .tunnel (by decide)⟩)
  obtain rfl := hline.unique hline'
  exact absurd hclean.threeTokens.tokens (by decide)

end SpiderNet.Exit
