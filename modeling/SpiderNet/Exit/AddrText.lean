import SpiderNet.Exit.Config
import SpiderNet.Text

namespace SpiderNet.Exit

-- the address parser of the standard library; a reader that fails consumes nothing

def toDigit (radix : Nat) (c : Char) : Option Nat :=
  let value :=
    if c.isDigit then c.toNat - '0'.toNat
    else if 'a' ≤ c ∧ c ≤ 'z' then c.toNat - 'a'.toNat + 10
    else if 'A' ≤ c ∧ c ≤ 'Z' then c.toNat - 'A'.toNat + 10
    else radix
  if value < radix then some value else none

def digitValue (radix : Nat) (digits : Text) : Nat :=
  digits.foldl (fun value c => value * radix + (toDigit radix c).getD 0) 0

def readNumber (radix maxDigits limit : Nat) (allowZeroPrefix : Bool) (text : Text) :
    Option (Nat × Text) :=
  let digits := text.takeWhile fun c => (toDigit radix c).isSome
  if digits = [] ∨ maxDigits < digits.length then none
  else if ¬allowZeroPrefix ∧ digits.head? = some '0' ∧ 1 < digits.length then none
  else if digitValue radix digits < limit then
    some (digitValue radix digits, text.drop digits.length)
  else none

def readSeparator {α : Type} (sep : Char) (i : Nat) (inner : Text → Option (α × Text)) (text : Text) :
    Option (α × Text) :=
  if i = 0 then inner text
  else
    match text with
    | [] => none
    | c :: rest => if c = sep then inner rest else none

def readOctet (i : Nat) (text : Text) : Option (Nat × Text) :=
  readSeparator '.' i (readNumber 10 3 (2 ^ 8) false) text

def readIpv4Addr (text : Text) : Option (Ipv4Addr × Text) := do
  let (a, text) ← readOctet 0 text
  let (b, text) ← readOctet 1 text
  let (c, text) ← readOctet 2 text
  let (d, text) ← readOctet 3 text
  return (.ofOctets (.ofNat a) (.ofNat b) (.ofNat c) (.ofNat d), text)

def embeddedGroups (v4 : Ipv4Addr) : List UInt16 :=
  [(v4.octets.get 0).toUInt16 <<< 8 ||| (v4.octets.get 1).toUInt16,
    (v4.octets.get 2).toUInt16 <<< 8 ||| (v4.octets.get 3).toUInt16]

-- the groups read, whether they end in an embedded IPv4 address, and the text that is left
def readGroups (limit : Nat) : Nat → Text → List UInt16 × Bool × Text
  | 0, text => ([], false, text)
  | left + 1, text =>
    let i := limit - (left + 1)
    match if i + 1 < limit then readSeparator ':' i readIpv4Addr text else none with
    | some (v4, rest) => (embeddedGroups v4, true, rest)
    | none =>
      match readSeparator ':' i (readNumber 16 4 (2 ^ 16) true) text with
      | none => ([], false, text)
      | some (group, rest) =>
        let (groups, ipv4, rest) := readGroups limit left rest
        (.ofNat group :: groups, ipv4, rest)

def ofGroups (groups : List UInt16) : Ipv6Addr := ⟨.ofFn fun i => groups.getD i 0⟩

def readIpv6Addr (text : Text) : Option (Ipv6Addr × Text) :=
  let (head, headIpv4, rest) := readGroups 8 8 text
  if head.length = 8 then some (ofGroups head, rest)
  else if headIpv4 then none
  else
    match rest with
    | ':' :: ':' :: rest =>
      let limit := 8 - (head.length + 1)
      let (tail, _, rest) := readGroups limit limit rest
      let zeros := List.replicate (8 - head.length - tail.length) 0
      some (ofGroups (head ++ zeros ++ tail), rest)
    | _ => none

def parseIpv6Addr (text : Text) : Option Ipv6Addr :=
  match readIpv6Addr text with
  | some (addr, []) => some addr
  | _ => none

end SpiderNet.Exit
