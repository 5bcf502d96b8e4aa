import SpiderNet.Exit.AddrChars
import SpiderNet.Exit.Parse

namespace SpiderNet.Exit

def portText (port : UInt16) : Text := Nat.toDigits 10 port.toNat

-- host, host:digits, [host] and [host]:digits, with port 80 where none is written
inductive AuthorityText (host : Text) : UInt16 → Text → Prop
  | name (hcolon : ':' ∉ host) : AuthorityText host 80 host
  | namePort (hcolon : ':' ∉ host) (port : UInt16) :
      AuthorityText host port (host ++ ':' :: portText port)
  | address (haddr : (parseIpv6Addr host).isSome) : AuthorityText host 80 ('[' :: (host ++ [']']))
  | addressPort (haddr : (parseIpv6Addr host).isSome) (port : UInt16) :
      AuthorityText host port ('[' :: (host ++ ']' :: ':' :: portText port))

-- what the parser takes, branch by branch
inductive AuthorityRead (host : Text) (port : UInt16) : Text → Prop
  | bracketed {after : Text} (haddr : (parseIpv6Addr host).isSome) (hport : bracketPort after = .ok port) :
      AuthorityRead host port ('[' :: (host ++ ']' :: after))
  | bare (hne : host ≠ []) (hopen : host.head? ≠ some '[') (hcolon : ':' ∉ host) (hport : port = 80) :
      AuthorityRead host port host
  | ported {digits : Text} (hne : host ≠ []) (hopen : host.head? ≠ some '[')
      (hport : parsePort digits = some port) : AuthorityRead host port (host ++ ':' :: digits)

theorem parsePort_some {text : Text} {port : UInt16} (h : parsePort text = some port) :
    Decimal.parse (2 ^ 16) text = some port.toNat := by
  obtain ⟨n, hn, rfl⟩ := Option.map_eq_some_iff.mp h
  have hlt : n < 2 ^ 16 := by
    rw [Decimal.parse] at hn
    split_ifs at hn with _ hdigits hdigits <;> exact Option.some.inj hn ▸ hdigits.2.2
  rw [hn, UInt16.toNat_ofNat_of_lt' hlt]

theorem parsePort_portText (port : UInt16) : parsePort (portText port) = some port := by
  rw [parsePort, portText, Decimal.parse_toDigits port.toNat_lt, Option.map_some, UInt16.ofNat_toNat]

theorem digit_addrChar {c : Char} (h : c.isDigit) : AddrChar c := by
  have hvalue : c.toNat - '0'.toNat < 16 := (Decimal.digit_lt h).trans (by decide)
  refine Or.inl ?_
  rw [toDigit]
  simp only [h, if_true, hvalue, Option.isSome_some]

theorem portText_addrChar (port : UInt16) : ∀ c ∈ portText port, AddrChar c := fun c hc =>
  digit_addrChar (Decimal.toDigits_isDigit c hc)

theorem parsePort_clean {text : Text} {port : UInt16} (h : parsePort text = some port) : ':' ∉ text := by
  intro hcolon
  rcases (Decimal.parse_digits (parsePort_some h)).1 ':' hcolon with heq | hdigit
  · exact absurd heq (by decide)
  · exact absurd hdigit (by decide)

theorem portText_iff_plain {text : Text} {port : UInt16} (h : parsePort text = some port) :
    text = portText port ↔ Decimal.Plain text := Decimal.eq_toDigits_iff (parsePort_some h)

theorem colon_mem_of_parse {host : Text} (h : (parseIpv6Addr host).isSome) : ':' ∈ host := by
  have := colons_of_parse h
  exact List.count_pos_iff.mp (by omega)

theorem close_not_mem_of_parse {host : Text} (h : (parseIpv6Addr host).isSome) : ']' ∉ host :=
  fun hclose => (addrChar_of_parse h _ hclose).ne_close rfl

theorem AuthorityRead.of_parse {authority host : Text} {port : UInt16}
    (h : parseAuthority authority = .ok (host, port)) : AuthorityRead host port (trim authority) := by
  simp only [parseAuthority] at h
  generalize trim authority = text at h ⊢
  have hempty : text ≠ [] := by
    rintro rfl
    cases h
  rw [if_neg hempty] at h
  split at h
  · rename_i rest hrest
    obtain rfl := stripPrefix_eq_some.mp hrest
    split at h
    · cases h
    · rename_i inner after hsplit
      obtain ⟨rfl, _⟩ := splitOnce_eq_some.mp hsplit
      split at h
      · cases h
      · rename_i addr haddr
        obtain ⟨value, hport, heq⟩ := map_eq_ok.mp h
        obtain ⟨rfl, rfl⟩ := Prod.mk.inj heq
        exact .bracketed (Option.isSome_of_eq_some haddr) hport
  · rename_i hopen
    have hhead := stripPrefix_single_none.mp hopen
    split at h
    · rename_i hsplit
      split_ifs at h with hcolon
      obtain ⟨rfl, rfl⟩ := Prod.mk.inj (Except.ok.inj h)
      exact .bare hempty hhead hcolon rfl
    · rename_i front digits hsplit
      obtain ⟨rfl, _⟩ := rsplitOnce_eq_some.mp hsplit
      split at h
      · cases h
      · rename_i value hport
        split_ifs at h with hfront
        obtain ⟨rfl, rfl⟩ := Prod.mk.inj (Except.ok.inj h)
        refine .ported hfront ?_ hport
        rwa [List.head?_append_of_ne_nil _ hfront] at hhead

theorem AuthorityRead.parse {authority host : Text} {port : UInt16}
    (h : AuthorityRead host port (trim authority)) : parseAuthority authority = .ok (host, port) := by
  simp only [parseAuthority]
  generalize trim authority = text at h ⊢
  cases h with
  | @bracketed after haddr hport =>
    obtain ⟨addr, hparse⟩ := Option.isSome_iff_exists.mp haddr
    rw [if_neg (List.cons_ne_nil _ _), stripPrefix_cons]
    simp only [splitOnce_append (close_not_mem_of_parse haddr), hparse, hport, Except.map]
  | bare hne hopen hcolon hport =>
    rw [if_neg hne, stripPrefix_single_none.mpr hopen]
    simp only [rsplitOnce_eq_none.mpr hcolon, hcolon, if_false, hport]
  | @ported digits hne hopen hport =>
    have hhead : (host ++ ':' :: digits).head? ≠ some '[' := by
      rwa [List.head?_append_of_ne_nil _ hne]
    rw [if_neg (List.append_ne_nil_of_left_ne_nil hne _), stripPrefix_single_none.mpr hhead]
    simp only [rsplitOnce_eq_some.mpr ⟨rfl, parsePort_clean hport⟩, hport, hne, if_false]

theorem parseAuthority_ok_iff {authority host : Text} {port : UInt16} :
    parseAuthority authority = .ok (host, port) ↔ AuthorityRead host port (trim authority) :=
  ⟨AuthorityRead.of_parse, AuthorityRead.parse⟩

theorem bracketPort_nil : bracketPort [] = .ok 80 := rfl

theorem bracketPort_colon {digits : Text} {port : UInt16} :
    bracketPort (':' :: digits) = .ok port ↔ parsePort digits = some port := by
  rw [bracketPort, stripPrefix_cons]
  cases hport : parsePort digits with
  | none => simp [hport]
  | some value => simp [hport]

theorem AuthorityText.no_bare_address {host text : Text} {port : UInt16}
    (h : AuthorityText host port text) : (parseIpv6Addr text).isSome = false := by
  rw [Bool.eq_false_iff]
  intro haddr
  have hcolons := colons_of_parse haddr
  cases h with
  | name hcolon => exact hcolon (colon_mem_of_parse haddr)
  | namePort hcolon =>
    rw [List.count_append, List.count_cons_self, List.count_eq_zero.mpr hcolon,
      List.count_eq_zero.mpr (parsePort_clean (parsePort_portText port))] at hcolons
    omega
  | address => exact absurd (addrChar_of_parse haddr '[' (by simp)).code (by decide)
  | addressPort => exact absurd (addrChar_of_parse haddr '[' (by simp)).code (by decide)

theorem AuthorityText.bracketed_after {host after : Text} {port : UInt16}
    (haddr : (parseIpv6Addr host).isSome) (h : AuthorityText host port ('[' :: (host ++ ']' :: after))) :
    after = [] ∨ after = ':' :: portText port := by
  have hmem := colon_mem_of_parse haddr
  generalize htext : '[' :: (host ++ ']' :: after) = text at h
  cases h with
  | name hcolon => exact absurd hmem hcolon
  | namePort hcolon => exact absurd hmem hcolon
  | address => exact Or.inl (by simpa using htext)
  | addressPort => exact Or.inr (by simpa using htext)

theorem AuthorityText.ported_digits {host digits : Text} {port : UInt16} (hopen : host.head? ≠ some '[')
    (hne : host ≠ []) (h : AuthorityText host port (host ++ ':' :: digits)) :
    ':' ∉ host ∧ digits = portText port := by
  have hhead : (host ++ ':' :: digits).head? ≠ some '[' := by rwa [List.head?_append_of_ne_nil _ hne]
  generalize htext : host ++ ':' :: digits = text at h hhead
  cases h with
  | name => exact absurd (congrArg List.length htext) (by simp)
  | namePort hcolon => exact ⟨hcolon, by simpa using htext⟩
  | address => exact absurd rfl hhead
  | addressPort => exact absurd rfl hhead

def StrictAuthority (authority : Text) : Prop :=
  (∀ host port, parseAuthority authority = .ok (host, port) → AuthorityText host port (trim authority)) ∧
    ((parseIpv6Addr (trim authority)).isSome → ∃ error, parseAuthority authority = .error error)

-- behind a bracketed address nothing or a colon, elsewhere no colon but the one before the port,
-- and the port without sign and leading zeros
structure Unmistakable (text : Text) : Prop where
  address : ∀ host after, text = '[' :: (host ++ ']' :: after) → (parseIpv6Addr host).isSome →
    after = [] ∨ ∃ digits, after = ':' :: digits ∧ ((parsePort digits).isSome → Decimal.Plain digits)
  name : ∀ host digits, text = host ++ ':' :: digits → host ≠ [] → host.head? ≠ some '[' →
    (parsePort digits).isSome → ':' ∉ host ∧ Decimal.Plain digits

theorem AuthorityRead.text {host text : Text} {port : UInt16} (h : AuthorityRead host port text)
    (hmeant : Unmistakable text) : AuthorityText host port text := by
  cases h with
  | @bracketed after haddr hport =>
    rcases hmeant.address host after rfl haddr with rfl | ⟨digits, rfl, hplain⟩
    · obtain rfl := Except.ok.inj (bracketPort_nil.symm.trans hport)
      exact .address haddr
    · have hport := bracketPort_colon.mp hport
      rw [(portText_iff_plain hport).mpr (hplain (Option.isSome_of_eq_some hport))]
      exact .addressPort haddr port
  | bare _ _ hcolon hport =>
    rw [hport]
    exact .name hcolon
  | @ported digits hne hopen hport =>
    obtain ⟨hcolon, hplain⟩ := hmeant.name host digits rfl hne hopen (Option.isSome_of_eq_some hport)
    rw [(portText_iff_plain hport).mpr hplain]
    exact .namePort hcolon port

theorem unmistakable_of_strict {authority : Text}
    (h : ∀ host port, parseAuthority authority = .ok (host, port) →
      AuthorityText host port (trim authority)) : Unmistakable (trim authority) where
  address host after htext haddr := by
    cases hport : bracketPort after with
    | ok port =>
      have hread : AuthorityRead host port (trim authority) := htext ▸ .bracketed haddr hport
      rcases (htext ▸ h host port (parseAuthority_ok_iff.mpr hread)).bracketed_after haddr with rfl | rfl
      · exact Or.inl rfl
      · exact Or.inr ⟨_, rfl, fun _ => Decimal.toDigits_plain _⟩
    | error error =>
      rw [bracketPort] at hport
      split at hport
      · cases hport
      · rename_i digits hstrip
        refine Or.inr ⟨digits, stripPrefix_eq_some.mp hstrip, fun hsome => ?_⟩
        obtain ⟨port, hsome⟩ := Option.isSome_iff_exists.mp hsome
        rw [hsome] at hport
        cases hport
  name host digits htext hne hopen hsome := by
    obtain ⟨port, hport⟩ := Option.isSome_iff_exists.mp hsome
    have hread : AuthorityRead host port (trim authority) := htext ▸ .ported hne hopen hport
    obtain ⟨hcolon, rfl⟩ := (htext ▸ h host port (parseAuthority_ok_iff.mpr hread)).ported_digits hopen hne
    exact ⟨hcolon, Decimal.toDigits_plain _⟩

theorem parseAuthority_strict_iff (authority : Text) :
    StrictAuthority authority ↔ Unmistakable (trim authority) := by
  refine ⟨fun h => unmistakable_of_strict h.1, fun hmeant => ?_⟩
  have htext : ∀ host port, parseAuthority authority = .ok (host, port) →
      AuthorityText host port (trim authority) := fun host port hok =>
    (parseAuthority_ok_iff.mp hok).text hmeant
  refine ⟨htext, fun haddr => ?_⟩
  cases hparse : parseAuthority authority with
  | error error => exact ⟨error, rfl⟩
  | ok read => exact absurd haddr (by rw [(htext _ _ hparse).no_bare_address]; exact Bool.false_ne_true)

theorem parseAuthority_lenient : ¬StrictAuthority "::1".toList := by
  rintro ⟨_, hrefused⟩
  obtain ⟨error, herror⟩ := hrefused (by decide)
  exact absurd herror (by rw [show parseAuthority "::1".toList = .ok (":".toList, 1) by decide]; simp)

end SpiderNet.Exit
