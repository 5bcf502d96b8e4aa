import SpiderNet.Exit.Authority
import SpiderNet.Exit.RequestLine

namespace SpiderNet.Exit

def HostName (host : Text) : Prop :=
  host ≠ [] ∧ (∀ c ∈ host, isWhitespace c = false ∧ c ≠ ':' ∧ c ≠ '/') ∧ host.head? ≠ some '['

-- a character that ends neither a token of the request line nor the authority of a URI
def Inner (c : Char) : Prop := isWhitespace c = false ∧ c ≠ '/'

theorem AddrChar.inner {c : Char} (h : AddrChar c) : Inner c := ⟨h.not_whitespace, h.ne_slash⟩

theorem portText_inner (port : UInt16) : ∀ c ∈ portText port, Inner c := fun c hc =>
  (portText_addrChar port c hc).inner

section
variable {host text : Text} {port : UInt16} (hhost : HostName host ∨ (parseIpv6Addr host).isSome)
include hhost

theorem host_inner : ∀ c ∈ host, Inner c := by
  intro c hc
  rcases hhost with ⟨_, hclean, _⟩ | haddr
  · exact ⟨(hclean c hc).1, (hclean c hc).2.2⟩
  · exact (addrChar_of_parse haddr c hc).inner

theorem AuthorityText.inner (h : AuthorityText host port text) : ∀ c ∈ text, Inner c := by
  have hinner := host_inner hhost
  have hport := portText_inner port
  have hopen : Inner '[' := ⟨by decide, by decide⟩
  have hclose : Inner ']' := ⟨by decide, by decide⟩
  have hcolon : Inner ':' := ⟨by decide, by decide⟩
  cases h <;> grind

theorem AuthorityText.read (h : AuthorityText host port text) : AuthorityRead host port text := by
  have hname : ':' ∉ host → host ≠ [] ∧ host.head? ≠ some '[' := fun hcolon => by
    rcases hhost with ⟨hne, _, hopen⟩ | haddr
    · exact ⟨hne, hopen⟩
    · exact absurd (colon_mem_of_parse haddr) hcolon
  cases h with
  | name hcolon => exact .bare (hname hcolon).1 (hname hcolon).2 hcolon rfl
  | namePort hcolon => exact .ported (hname hcolon).1 (hname hcolon).2 (parsePort_portText port)
  | address haddr => exact .bracketed haddr bracketPort_nil
  | addressPort haddr => exact .bracketed haddr (bracketPort_colon.mpr (parsePort_portText port))

theorem AuthorityText.parse (h : AuthorityText host port text) : parseAuthority text = .ok (host, port) := by
  refine parseAuthority_ok_iff.mpr ?_
  rw [trim_clean fun c hc => (h.inner hhost c hc).1]
  exact h.read hhost

theorem AuthorityText.ne_nil (h : AuthorityText host port text) : text ≠ [] := by
  rintro rfl
  cases h.parse hhost

end

theorem parseRequestHead_render {method target version : Text} {head : RequestHead}
    (hmethod : Token method) (htarget : Token target) (hversion : Token version)
    (hread : LineRead method target head) (block : Text) :
    parseRequestHead (toUtf8 (requestLine method target version ++ '\r' :: '\n' :: block)) = .ok head := by
  have hlf : '\n' ∉ requestLine method target version := by
    intro hmem
    have hspaces := List.mem_filter.mpr ⟨hmem, (by decide : isWhitespace '\n' = true)⟩
    rw [whitespace_requestLine hmethod htarget hversion] at hspaces
    exact absurd hspaces (by decide)
  rw [parseRequestHead_toUtf8, firstLine_crlf hlf]
  refine parseRequestLine_ok_iff.mpr ?_
  rw [lineMethod, lineTarget, splitWhitespace_requestLine hmethod htarget hversion]
  exact hread

theorem takeWhile_authority {text path : Text} (htext : ∀ c ∈ text, Inner c)
    (hpath : path.head? = some '/') :
    (text ++ path).takeWhile (· ≠ '/') = text := by
  obtain ⟨rest, rfl⟩ := List.head?_eq_some_iff.mp hpath
  exact Scan.takeWhile_stops (fun c hc => decide_eq_true (htext c hc).2) (by simp)

theorem parseRequestHead_roundTrip {host text : Text} {port : UInt16}
    (hhost : HostName host ∨ (parseIpv6Addr host).isSome) (htext : AuthorityText host port text)
    (block : Text) :
    parseRequestHead (toUtf8 ("CONNECT ".toList ++ text ++ " HTTP/1.1\r\n".toList ++ block)) =
        .ok ⟨.tunnel, host, port⟩ ∧
      ∀ method ∈ forwardMethods, ∀ path : Text, path.head? = some '/' →
        (∀ c ∈ path, isWhitespace c = false) →
        parseRequestHead (toUtf8 (method ++ " http://".toList ++ text ++ path ++
          " HTTP/1.1\r\n".toList ++ block)) = .ok ⟨.forward, host, port⟩ := by
  have hversion : Token "HTTP/1.1".toList := versions_token _ (by decide)
  have hinner := htext.inner hhost
  have hread := htext.parse hhost
  refine ⟨?_, fun method hmethod path hslash hpath => ?_⟩
  · have hrender := parseRequestHead_render (methods_token "CONNECT".toList (by decide))
      ⟨htext.ne_nil hhost, fun c hc => (hinner c hc).1⟩ hversion (.tunnel hread) block
    simpa [requestLine] using hrender
  · have hscheme : Token "http://".toList := token_of_all (by decide) _ (List.mem_singleton_self _)
    have htarget : Token ("http://".toList ++ (text ++ path)) := by
      refine ⟨by simp, fun c hc => ?_⟩
      rcases List.mem_append.mp hc with hc | hc
      · exact hscheme.2 c hc
      · exact (List.mem_append.mp hc).elim (fun hc => (hinner c hc).1) (hpath c)
    have hrender := parseRequestHead_render (methods_token method (List.mem_cons_of_mem _ hmethod)) htarget
      hversion (.forward hmethod (by rw [takeWhile_authority hinner hslash]; exact hread)) block
    simpa [requestLine] using hrender

theorem parseRequestHead_roundTrip_address :
    parseRequestHead (toUtf8 ("CONNECT ".toList ++ "[200:1234::1]:8080".toList ++
        " HTTP/1.1\r\n".toList ++ [])) = .ok ⟨.tunnel, "200:1234::1".toList, 8080⟩ ∧
      parseRequestHead (toUtf8 ("GET".toList ++ " http://".toList ++ "[200:1234::1]:8080".toList ++
        "/a:b/[c]".toList ++ " HTTP/1.1\r\n".toList ++ [])) = .ok ⟨.forward, "200:1234::1".toList, 8080⟩ := by
  have haddr : (parseIpv6Addr "200:1234::1".toList).isSome := by decide
  have hpath : Token "/a:b/[c]".toList := token_of_all (by decide) _ (List.mem_singleton_self _)
  have hparsed := parseRequestHead_roundTrip (Or.inr haddr) (.addressPort haddr 8080) []
  exact ⟨hparsed.1, hparsed.2 "GET".toList (by decide) "/a:b/[c]".toList (by decide) hpath.2⟩

end SpiderNet.Exit
