import SpiderNet.Fetch.Types
import SpiderNet.Text
import SpiderNet.Library.Decimal
import Mathlib.Data.List.Sort
import Mathlib.Data.Char

namespace SpiderNet.Fetch

inductive FileName where
  | utf8 (text : Text)
  | raw (bytes : Bytes)
  deriving DecidableEq

inductive Node where
  | file (content : Bytes)
  | directory
  deriving DecidableEq

abbrev Dir := FileName → Option Node

namespace Dir

def empty : Dir := fun _ => none

def create (parts : Dir) (name : FileName) : Dir :=
  fun other => if other = name then some (.file []) else parts other

def append (parts : Dir) (name : FileName) (data : Bytes) : Dir :=
  fun other =>
    if other = name then
      match parts name with
      | some (.file content) => some (.file (content ++ data))
      | node => node
    else parts other

def remove (parts : Dir) (name : FileName) : Dir :=
  fun other => if other = name then none else parts other

end Dir

structure Lists (parts : Dir) (listing : List FileName) : Prop where
  nodup : listing.Nodup
  mem_iff : ∀ name, name ∈ listing ↔ (parts name).isSome

def partName (index : SegmentIndex) : Text :=
  "seg-".toList ++ Decimal.padded 6 index.value ++ ".part".toList

def partFile (index : SegmentIndex) : FileName := .utf8 (partName index)

inductive IoOp where
  | readDir
  | nextEntry (position : Nat)
  | createParent
  | createOutput
  | openPart (name : Text)
  | read (name : Text) (chunk : Nat)
  | write (name : Text) (chunk : Nat)
  | flush

-- which steps fail, and how much of a chunk a failing write still leaves in the output
structure Faults where
  fails : IoOp → Bool
  torn : Text → Nat → Nat

def noFaults : Faults := ⟨fun _ => false, fun _ _ => 0⟩

def partIndex (name : Text) : Option Nat :=
  ((stripPrefix "seg-".toList name).bind (stripSuffix ".part".toList)).bind (Decimal.parse (2 ^ 32))

def collectPartFiles (io : Faults) : Nat → List FileName → Except FetchError (List Text)
  | position, [] => if io.fails (.nextEntry position) then .error .io else .ok []
  | position, entry :: rest => do
    if io.fails (.nextEntry position) then throw .io
    match entry with
    | .raw _ => throw (.corruptPart "<non-utf8 file name>")
    | .utf8 name =>
      if (partIndex name).isNone then throw (.corruptPart (.ofList name))
      let out ← collectPartFiles io (position + 1) rest
      return name :: out

-- paths in one directory compare as their names do, and UTF-8 bytes as code points do
def sortPaths (names : List Text) : List Text := names.insertionSort (· ≤ ·)

structure Assembly where
  output : Bytes
  hashed : Bytes
  total : Nat

def Assembly.push (acc : Assembly) (chunk : Bytes) : Assembly :=
  ⟨acc.output ++ chunk, acc.hashed ++ chunk, acc.total + chunk.length⟩

def bufferSize : Nat := 64 * 1024

def chunks (size : Nat) : Nat → Bytes → List Bytes
  | 0, _ => []
  | turns + 1, content =>
    if content = [] then [] else content.take size :: chunks size turns (content.drop size)

def copyChunks (io : Faults) (name : Text) :
    Nat → List Bytes → Assembly → Option FetchError × Assembly
  | k, [], acc => (if io.fails (.read name k) then some .io else none, acc)
  | k, chunk :: rest, acc =>
    if io.fails (.read name k) then (some .io, acc)
    else if io.fails (.write name k) then
      (some .io, { acc with output := acc.output ++ chunk.take (io.torn name k) })
    else copyChunks io name (k + 1) rest (acc.push chunk)

def copyPart (io : Faults) (parts : Dir) (name : Text) (acc : Assembly) :
    Option FetchError × Assembly :=
  if io.fails (.openPart name) then (some .io, acc)
  else
    match parts (.utf8 name) with
    | some (.file content) => copyChunks io name 0 (chunks bufferSize content.length content) acc
    | some .directory => (some .io, acc)
    | none => (some .io, acc)

def copyParts (io : Faults) (parts : Dir) : List Text → Assembly → Option FetchError × Assembly
  | [], acc => (none, acc)
  | name :: rest, acc =>
    match copyPart io parts name acc with
    | (some error, acc) => (some error, acc)
    | (none, acc) => copyParts io parts rest acc

def checkAssembly (sha256 : Bytes → Sha256Digest) (acc : Assembly) (expectedSize : FileSize)
    (expectedDigest : Option Sha256Digest) : Except FetchError Sha256Digest :=
  if acc.total ≠ expectedSize.value then .error (.totalLengthMismatch acc.total expectedSize.value)
  else
    match expectedDigest with
    | none => .ok (sha256 acc.hashed)
    | some expected =>
      if sha256 acc.hashed ≠ expected then
        .error (.hashMismatch expected.toHex (sha256 acc.hashed).toHex)
      else .ok (sha256 acc.hashed)

-- the second component is the output file after the call, `none` where there is none
def assemble (sha256 : Bytes → Sha256Digest) (io : Faults) (parts : Dir) (listing : List FileName)
    (output : Option Bytes) (expectedSize : FileSize) (expectedDigest : Option Sha256Digest) :
    Except FetchError Sha256Digest × Option Bytes :=
  if io.fails .readDir then (.error .io, output)
  else
    match collectPartFiles io 0 listing with
    | .error error => (.error error, output)
    | .ok names =>
      if io.fails .createParent || io.fails .createOutput then (.error .io, output)
      else
        match copyParts io parts (sortPaths names) ⟨[], [], 0⟩ with
        | (some error, acc) => (.error error, some acc.output)
        | (none, acc) =>
          if io.fails .flush then (.error .io, some acc.output)
          else (checkAssembly sha256 acc expectedSize expectedDigest, some acc.output)

end SpiderNet.Fetch
