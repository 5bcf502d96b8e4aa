import SpiderNet.Basic
import SpiderNet.Library.Scan
import SpiderNet.Library.Utf8
import SpiderNet.Library.Decimal
import Mathlib.Data.Char

namespace SpiderNet

abbrev Bytes := List UInt8

abbrev Text := List Char

-- strict UTF-8, as `str::from_utf8`
def fromUtf8 (bytes : Bytes) : Option Text :=
  bytes.toByteArray.utf8Decode?.map Array.toList

def toUtf8 (text : Text) : Bytes := text.flatMap String.utf8EncodeChar

theorem fromUtf8_toUtf8 (text : Text) : fromUtf8 (toUtf8 text) = some text := by
  rw [fromUtf8, toUtf8, ← List.utf8Encode, List.utf8Decode?_utf8Encode]
  rfl

theorem toUtf8_append (xs ys : Text) : toUtf8 (xs ++ ys) = toUtf8 xs ++ toUtf8 ys :=
  List.flatMap_append

theorem toUtf8_eq (text : Text) : toUtf8 text = Utf8.encode text := rfl

theorem toUtf8_injective {text text' : Text} (h : toUtf8 text = toUtf8 text') : text = text' := by
  have hdecode := fromUtf8_toUtf8 text
  rw [h, fromUtf8_toUtf8] at hdecode
  exact (Option.some.inj hdecode).symm

theorem fromUtf8_eq_some {bytes : Bytes} {text : Text} :
    fromUtf8 bytes = some text ↔ bytes = toUtf8 text := by
  refine ⟨fun h => ?_, fun h => h ▸ fromUtf8_toUtf8 text⟩
  obtain ⟨_, hchars, _⟩ := Option.map_eq_some_iff.mp h
  obtain ⟨chars, hvalid⟩ := ByteArray.isSome_utf8Decode?_iff.mp (Option.isSome_of_eq_some hchars)
  have hbytes : bytes = toUtf8 chars := by
    have hlists := congrArg (fun array : ByteArray => array.data.toList) hvalid
    simpa [List.utf8Encode, toUtf8] using hlists
  rw [hbytes, fromUtf8_toUtf8] at h
  rw [hbytes, Option.some.inj h]

-- a line feed is one byte, and that byte is nothing else
theorem toUtf8_split {c : Char} {b : UInt8} (hc : toUtf8 [c] = [b]) (hb : b.toNat < 128) {text : Text}
    {front rest : Bytes} (h : toUtf8 text = front ++ b :: rest) : ∃ before after,
      text = before ++ c :: after ∧ toUtf8 before = front ∧ toUtf8 after = rest := by
  obtain ⟨before, d, after, rfl, hbefore, hd, hafter⟩ := Utf8.encode_split hb h
  have hsame : toUtf8 [d] = toUtf8 [c] := by
    rw [hc, toUtf8, List.flatMap_singleton, hd]
  obtain rfl : d = c := List.singleton_inj.mp (toUtf8_injective hsame)
  exact ⟨before, after, rfl, hbefore, hafter⟩

def stripSuffix (suffix text : Text) : Option Text :=
  if suffix.isSuffixOf text then some (text.take (text.length - suffix.length)) else none

def stripPrefix (lead text : Text) : Option Text :=
  if lead.isPrefixOf text then some (text.drop lead.length) else none

theorem stripPrefix_append (lead text : Text) : stripPrefix lead (lead ++ text) = some text := by
  rw [stripPrefix, if_pos (List.isPrefixOf_iff_prefix.mpr (List.prefix_append _ _)),
    List.drop_left]

theorem stripPrefix_eq_some {lead text rest : Text} :
    stripPrefix lead text = some rest ↔ text = lead ++ rest := by
  refine ⟨fun h => ?_, fun h => h ▸ stripPrefix_append lead rest⟩
  rw [stripPrefix] at h
  split_ifs at h with hlead
  obtain ⟨tail, rfl⟩ := List.isPrefixOf_iff_prefix.mp hlead
  rw [List.drop_left] at h
  rw [Option.some.inj h]

theorem stripPrefix_cons (c : Char) (rest : Text) : stripPrefix [c] (c :: rest) = some rest :=
  stripPrefix_append [c] rest

theorem stripPrefix_single_none {c : Char} {text : Text} :
    stripPrefix [c] text = none ↔ text.head? ≠ some c := by
  rw [Option.eq_none_iff_forall_ne_some, ne_eq, List.head?_eq_some_iff, not_exists]
  exact forall_congr' fun rest => not_congr stripPrefix_eq_some

theorem stripSuffix_append (suffix text : Text) : stripSuffix suffix (text ++ suffix) = some text := by
  rw [stripSuffix, if_pos (List.isSuffixOf_iff_suffix.mpr (List.suffix_append _ _)),
    List.length_append, Nat.add_sub_cancel, List.take_left]

-- the Unicode property White_Space
def isWhitespace (c : Char) : Bool :=
  (9 ≤ c.toNat && c.toNat ≤ 13) || c.toNat = 0x20 || c.toNat = 0x85 || c.toNat = 0xA0 ||
    c.toNat = 0x1680 || (0x2000 ≤ c.toNat && c.toNat ≤ 0x200A) || c.toNat = 0x2028 ||
    c.toNat = 0x2029 || c.toNat = 0x202F || c.toNat = 0x205F || c.toNat = 0x3000

def trim (text : Text) : Text :=
  (((text.dropWhile isWhitespace).reverse).dropWhile isWhitespace).reverse

theorem dropWhile_whitespace {text : Text} (h : ∀ c ∈ text.head?, isWhitespace c = false) :
    text.dropWhile isWhitespace = text := by
  cases text with
  | nil => rfl
  | cons c rest => rw [List.dropWhile_cons, h c rfl, if_neg Bool.false_ne_true]

theorem trim_ends {text : Text} (hfirst : ∀ c ∈ text.head?, isWhitespace c = false)
    (hlast : ∀ c ∈ text.getLast?, isWhitespace c = false) : trim text = text := by
  have hback : ∀ c ∈ text.reverse.head?, isWhitespace c = false := by
    rwa [List.head?_reverse]
  rw [trim, dropWhile_whitespace hfirst, dropWhile_whitespace hback, List.reverse_reverse]

theorem trim_clean {text : Text} (h : ∀ c ∈ text, isWhitespace c = false) : trim text = text :=
  trim_ends (fun c hc => h c (List.mem_of_head? hc)) fun c hc => h c (List.mem_of_getLast? hc)

theorem trim_getLast {text : Text} : ∀ c ∈ (trim text).getLast?, isWhitespace c = false := by
  intro c hc
  rw [trim, List.getLast?_reverse] at hc
  have hhead := List.head?_dropWhile_not isWhitespace (text.dropWhile isWhitespace).reverse
  rw [Option.mem_def.mp hc] at hhead
  exact hhead

theorem trim_head {text : Text} : ∀ c ∈ (trim text).head?, isWhitespace c = false := by
  intro c hc
  obtain ⟨rest, hrest⟩ := List.head?_eq_some_iff.mp hc
  have hprefix : trim text <+: text.dropWhile isWhitespace := by
    rw [trim, ← List.reverse_suffix, List.reverse_reverse]
    exact List.dropWhile_suffix _
  obtain ⟨tail, htail⟩ := hprefix
  have hhead := List.head?_dropWhile_not isWhitespace text
  rw [← htail, hrest] at hhead
  exact hhead

theorem trim_trim (text : Text) : trim (trim text) = trim text := trim_ends trim_head trim_getLast

theorem length_trim_le (text : Text) : (trim text).length ≤ text.length := by
  have hdrop : ∀ xs : Text, (xs.dropWhile isWhitespace).length ≤ xs.length :=
    fun xs => (List.dropWhile_suffix _).length_le
  have hinner := hdrop text
  have houter := hdrop (text.dropWhile isWhitespace).reverse
  rw [List.length_reverse] at houter
  rw [trim, List.length_reverse]
  exact houter.trans hinner

def splitWhitespace (text : Text) : List Text :=
  (text.splitOnP isWhitespace).filter fun token => !token.isEmpty

-- the first of `lines`: up to a line feed, less one carriage return right before it
def firstLine (text : Text) : Option Text :=
  if text = [] then none
  else
    let line := text.takeWhile (· ≠ '\n')
    if '\n' ∈ text then some ((stripSuffix ['\r'] line).getD line) else some line

def splitOnce (sep : Char) (text : Text) : Option (Text × Text) :=
  if sep ∈ text then
    let front := text.takeWhile (· ≠ sep)
    some (front, text.drop (front.length + 1))
  else none

def rsplitOnce (sep : Char) (text : Text) : Option (Text × Text) :=
  (splitOnce sep text.reverse).map fun halves => (halves.2.reverse, halves.1.reverse)

theorem splitWhitespace_eq (text : Text) : splitWhitespace text = Scan.words isWhitespace text := rfl

theorem splitOnce_append {sep : Char} {front : Text} (h : sep ∉ front) (rest : Text) :
    splitOnce sep (front ++ sep :: rest) = some (front, rest) := by
  have hfront : ∀ c ∈ front, decide (c ≠ sep) = true := by
    intro c hc
    exact decide_eq_true fun heq => h (heq ▸ hc)
  rw [splitOnce, if_pos (by simp), Scan.takeWhile_stops hfront (by simp)]
  simp

theorem splitOnce_eq_some {sep : Char} {text front rest : Text} :
    splitOnce sep text = some (front, rest) ↔ text = front ++ sep :: rest ∧ sep ∉ front := by
  refine ⟨fun h => ?_, fun ⟨htext, hfront⟩ => htext ▸ splitOnce_append hfront rest⟩
  have hmem : sep ∈ text := by
    by_contra hnot
    rw [splitOnce, if_neg hnot] at h
    cases h
  obtain ⟨as, bs, rfl, has⟩ := List.eq_append_cons_of_mem hmem
  rw [splitOnce_append has] at h
  obtain ⟨rfl, rfl⟩ := Prod.mk.inj (Option.some.inj h)
  exact ⟨rfl, has⟩

theorem splitOnce_eq_none {sep : Char} {text : Text} : splitOnce sep text = none ↔ sep ∉ text := by
  rw [splitOnce]
  split_ifs with h <;> simp [h]

theorem rsplitOnce_eq_some {sep : Char} {text front back : Text} :
    rsplitOnce sep text = some (front, back) ↔ text = front ++ sep :: back ∧ sep ∉ back := by
  rw [rsplitOnce, Option.map_eq_some_iff]
  constructor
  · rintro ⟨⟨a, b⟩, hsplit, heq⟩
    obtain ⟨rfl, rfl⟩ := Prod.mk.inj heq
    obtain ⟨htext, ha⟩ := splitOnce_eq_some.mp hsplit
    refine ⟨?_, by simpa using ha⟩
    rw [← List.reverse_reverse text, htext]
    simp
  · rintro ⟨rfl, hback⟩
    refine ⟨(back.reverse, front.reverse), splitOnce_eq_some.mpr ⟨?_, by simpa using hback⟩, by simp⟩
    simp

theorem rsplitOnce_eq_none {sep : Char} {text : Text} : rsplitOnce sep text = none ↔ sep ∉ text := by
  rw [rsplitOnce, Option.map_eq_none_iff, splitOnce_eq_none, List.mem_reverse]

theorem firstLine_lf {line : Text} (h : '\n' ∉ line) (rest : Text) :
    firstLine (line ++ '\n' :: rest) = some ((stripSuffix ['\r'] line).getD line) := by
  have hline : ∀ c ∈ line, decide (c ≠ '\n') = true := by
    intro c hc
    exact decide_eq_true fun heq => h (heq ▸ hc)
  rw [firstLine, if_neg (by simp), Scan.takeWhile_stops hline (by simp)]
  simp

theorem firstLine_crlf {line : Text} (h : '\n' ∉ line) (rest : Text) :
    firstLine (line ++ '\r' :: '\n' :: rest) = some line := by
  have hline : '\n' ∉ line ++ ['\r'] := by simpa using h
  have hfirst := firstLine_lf hline rest
  rw [stripSuffix_append, Option.getD_some, List.append_assoc] at hfirst
  exact hfirst

def numeral (n : ℕ) : Text := Nat.toDigits 10 n

-- what stands in one word of a line
def Clean (text : Text) : Prop := text ≠ [] ∧ ∀ c ∈ text, isWhitespace c = false

theorem not_whitespace_of_isDigit {c : Char} (h : c.isDigit) : isWhitespace c = false := by
  obtain ⟨hlow, hhigh⟩ := Decimal.isDigit_bounds h
  have hzero : '0'.toNat = 48 := rfl
  have hnine : '9'.toNat = 57 := rfl
  simp only [isWhitespace, Bool.or_eq_false_iff, Bool.and_eq_false_iff, decide_eq_false_iff_not]
  omega

theorem numeral_clean (n : ℕ) : Clean (numeral n) :=
  ⟨Nat.toDigits_ne_nil, fun _ hc => not_whitespace_of_isDigit (Decimal.toDigits_isDigit _ hc)⟩

theorem not_mem_numeral {c : Char} (h : c.isDigit = false) (n : ℕ) : c ∉ numeral n := by
  intro hc
  rw [Decimal.toDigits_isDigit _ hc] at h
  cases h

theorem clean_of_all {text : Text} (hne : text ≠ [])
    (h : (text.all fun c => !isWhitespace c) = true) : Clean text :=
  ⟨hne, fun c hc => by simpa using List.all_eq_true.mp h c hc⟩

theorem Clean.trim {text : Text} (h : Clean text) : trim text = text := trim_clean h.2

theorem Clean.no_newline {text : Text} (h : Clean text) : '\n' ∉ text := by
  intro hmem
  cases h.2 '\n' hmem

end SpiderNet
