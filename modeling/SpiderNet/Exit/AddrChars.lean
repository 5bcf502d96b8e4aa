import SpiderNet.Exit.AddrText
import SpiderNet.Library.Decimal
import SpiderNet.Library.Scan

namespace SpiderNet.Exit

open Scan

def AddrChar (c : Char) : Prop := (toDigit 16 c).isSome ∨ c = ':' ∨ c = '.'

theorem toDigit_mono {radix radix' : ℕ} (hle : radix ≤ radix') {c : Char}
    (h : (toDigit radix c).isSome) : (toDigit radix' c).isSome := by
  unfold toDigit at h ⊢
  split_ifs at h ⊢ <;> simp_all <;> omega

theorem le_code {c d : Char} : c ≤ d ↔ c.toNat ≤ d.toNat := UInt32.le_iff_toNat_le

theorem hexDigit_code {c : Char} (h : (toDigit 16 c).isSome) :
    (48 ≤ c.toNat ∧ c.toNat ≤ 57) ∨ (65 ≤ c.toNat ∧ c.toNat ≤ 70) ∨ (97 ≤ c.toNat ∧ c.toNat ≤ 102) := by
  have ha : 'a'.toNat = 97 := rfl
  have hA : 'A'.toNat = 65 := rfl
  have h0 : '0'.toNat = 48 := rfl
  have h9 : '9'.toNat = 57 := rfl
  unfold toDigit at h
  simp only [le_code] at h
  split_ifs at h with hdigit hvalue hlower hvalue hupper hvalue hnone
  · have := Decimal.isDigit_bounds hdigit
    omega
  · cases h
  · omega
  · cases h
  · omega
  · cases h
  · omega
  · cases h

theorem AddrChar.code {c : Char} (h : AddrChar c) : (46 ≤ c.toNat ∧ c.toNat ≤ 58 ∧ c.toNat ≠ 47) ∨
    (65 ≤ c.toNat ∧ c.toNat ≤ 70) ∨ (97 ≤ c.toNat ∧ c.toNat ≤ 102) := by
  rcases h with h | rfl | rfl
  · have := hexDigit_code h
    omega
  · exact Or.inl (by decide)
  · exact Or.inl (by decide)

theorem AddrChar.not_whitespace {c : Char} (h : AddrChar c) : isWhitespace c = false := by
  have := h.code
  simp only [isWhitespace, Bool.or_eq_false_iff, Bool.and_eq_false_iff, decide_eq_false_iff_not]
  omega

theorem AddrChar.ne_slash {c : Char} (h : AddrChar c) : c ≠ '/' := by
  rintro rfl
  exact absurd h.code (by decide)

theorem AddrChar.ne_close {c : Char} (h : AddrChar c) : c ≠ ']' := by
  rintro rfl
  exact absurd h.code (by decide)

theorem readNumber_takes {radix maxDigits limit : ℕ} {allowZeroPrefix : Bool} {text rest : Text}
    {number : ℕ} (hradix : radix ≤ 16)
    (h : readNumber radix maxDigits limit allowZeroPrefix text = some (number, rest)) :
    Takes AddrChar text rest := by
  rw [readNumber] at h
  split_ifs at h with _ _ hlimit
  obtain ⟨_, rfl⟩ := Prod.mk.inj (Option.some.inj h)
  exact (Takes.takeWhile _ _).mono fun c hc => Or.inl (toDigit_mono hradix hc)

theorem readSeparator_some {α : Type} {sep : Char} {i : ℕ} {inner : Text → Option (α × Text)}
    {text rest : Text} {a : α} (h : readSeparator sep i inner text = some (a, rest)) :
    ∃ mid, inner mid = some (a, rest) ∧ (i = 0 ∧ text = mid ∨ text = sep :: mid) := by
  unfold readSeparator at h
  split_ifs at h with hi
  · exact ⟨text, h, Or.inl ⟨hi, rfl⟩⟩
  · cases text with
    | nil => cases h
    | cons c mid =>
      simp only at h
      split_ifs at h with hc
      exact ⟨mid, h, Or.inr (by rw [hc])⟩

theorem readSeparator_takes {α : Type} {sep : Char} {i : ℕ} {inner : Text → Option (α × Text)}
    {text rest : Text} {a : α} (hsep : AddrChar sep)
    (hinner : ∀ mid, inner mid = some (a, rest) → Takes AddrChar mid rest)
    (h : readSeparator sep i inner text = some (a, rest)) : Takes AddrChar text rest := by
  obtain ⟨mid, hmid, ⟨_, rfl⟩ | rfl⟩ := readSeparator_some h
  · exact hinner text hmid
  · exact (hinner mid hmid).cons hsep

theorem readOctet_takes {i : ℕ} {text rest : Text} {octet : ℕ} (h : readOctet i text = some (octet, rest)) :
    Takes AddrChar text rest :=
  readSeparator_takes (Or.inr (Or.inr rfl)) (fun _ hmid => readNumber_takes (by decide) hmid) h

theorem readIpv4Addr_takes {text rest : Text} {v4 : Ipv4Addr} (h : readIpv4Addr text = some (v4, rest)) :
    Takes AddrChar text rest := by
  simp only [readIpv4Addr, Option.bind_eq_bind, Option.bind_eq_some_iff, Prod.exists] at h
  obtain ⟨_, one, ha, _, two, hb, _, three, hc, _, four, hd, h⟩ := h
  obtain ⟨_, rfl⟩ := Prod.mk.inj (Option.some.inj h)
  exact (readOctet_takes ha).trans <| (readOctet_takes hb).trans <| (readOctet_takes hc).trans <|
    readOctet_takes hd

theorem colon_addrChar : AddrChar ':' := Or.inr (Or.inl rfl)

theorem readGroups_takes (limit left : ℕ) (text : Text) :
    Takes AddrChar text (readGroups limit left text).2.2 := by
  induction left generalizing text with
  | zero => exact Takes.refl text
  | succ left ih =>
    rw [readGroups]
    split
    · rename_i v4 rest hv4
      split_ifs at hv4
      exact readSeparator_takes colon_addrChar (fun _ => readIpv4Addr_takes) hv4
    · split
      · exact Takes.refl text
      · rename_i group rest hgroup
        exact (readSeparator_takes colon_addrChar (fun _ => readNumber_takes le_rfl) hgroup).trans (ih rest)

theorem readSeparator_colons {α : Type} {i : ℕ} {inner : Text → Option (α × Text)} {text rest : Text}
    {a : α} (hinner : ∀ mid, inner mid = some (a, rest) → Takes AddrChar mid rest)
    (h : readSeparator ':' i inner text = some (a, rest)) :
    rest.count ':' + (if i = 0 then 0 else 1) ≤ text.count ':' := by
  obtain ⟨mid, hmid, hi⟩ := readSeparator_some h
  have hle := (hinner mid hmid).count_le ':'
  rcases hi with ⟨hi, rfl⟩ | rfl
  · rw [if_pos hi]
    exact hle
  · rw [List.count_cons_self]
    split_ifs <;> omega

-- each group after the first one takes a colon, and an embedded IPv4 address stands for two
theorem readGroups_colons {limit left : ℕ} (hle : left ≤ limit) (text : Text) :
    (readGroups limit left text).1.length + (readGroups limit left text).2.2.count ':' ≤
      text.count ':' + if left < limit then 1 else 2 := by
  induction left generalizing text with
  | zero => simp [readGroups]
  | succ left ih =>
    rw [readGroups]
    split
    · rename_i v4 rest hv4
      split_ifs at hv4
      have hcolons := readSeparator_colons (fun _ => readIpv4Addr_takes) hv4
      simp only [embeddedGroups, List.length_cons, List.length_nil]
      split_ifs at hcolons ⊢ <;> omega
    · split
      · simp
      · rename_i group rest hgroup
        have hcolons := readSeparator_colons (fun _ => readNumber_takes le_rfl) hgroup
        have hrest := ih (Nat.le_of_succ_le hle) rest
        rcases hgroups : readGroups limit left rest with ⟨groups, ipv4, remaining⟩
        rw [hgroups, if_pos (Nat.lt_of_succ_le hle)] at hrest
        simp only [List.length_cons] at hrest ⊢
        split_ifs at hcolons ⊢ <;> omega

theorem readIpv6Addr_takes {text rest : Text} {addr : Ipv6Addr}
    (h : readIpv6Addr text = some (addr, rest)) : Takes AddrChar text rest := by
  have hhead := readGroups_takes 8 8 text
  simp only [readIpv6Addr] at h
  split_ifs at h with hfull hipv4
  · obtain ⟨_, rfl⟩ := Prod.mk.inj (Option.some.inj h)
    exact hhead
  · split at h
    · rename_i tail hrest
      obtain ⟨_, rfl⟩ := Prod.mk.inj (Option.some.inj h)
      rw [hrest] at hhead
      exact hhead.trans (((readGroups_takes _ _ tail).cons colon_addrChar).cons colon_addrChar)
    · cases h

theorem readIpv6Addr_colons {text rest : Text} {addr : Ipv6Addr}
    (h : readIpv6Addr text = some (addr, rest)) : 2 ≤ text.count ':' := by
  simp only [readIpv6Addr] at h
  split_ifs at h with hfull hipv4
  · have hcolons := readGroups_colons (le_refl 8) text
    rw [if_neg (lt_irrefl 8)] at hcolons
    omega
  · split at h
    · rename_i tail hrest
      have hcolons := (readGroups_takes 8 8 text).count_le ':'
      rw [hrest, List.count_cons_self, List.count_cons_self] at hcolons
      omega
    · cases h

theorem readIpv6Addr_of_parse {text : Text} (h : (parseIpv6Addr text).isSome) :
    ∃ addr, readIpv6Addr text = some (addr, []) := by
  unfold parseIpv6Addr at h
  split at h
  · rename_i addr hread
    exact ⟨addr, hread⟩
  · cases h

theorem addrChar_of_parse {text : Text} (h : (parseIpv6Addr text).isSome) : ∀ c ∈ text, AddrChar c := by
  obtain ⟨_, hread⟩ := readIpv6Addr_of_parse h
  obtain ⟨used, hused, hall⟩ := readIpv6Addr_takes hread
  rw [hused, List.append_nil]
  exact hall

theorem colons_of_parse {text : Text} (h : (parseIpv6Addr text).isSome) : 2 ≤ text.count ':' := by
  obtain ⟨_, hread⟩ := readIpv6Addr_of_parse h
  exact readIpv6Addr_colons hread

end SpiderNet.Exit
