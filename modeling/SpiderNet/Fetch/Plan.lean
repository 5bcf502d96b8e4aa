import SpiderNet.Fetch.Types
import Mathlib.Data.List.Sort

namespace SpiderNet.Fetch

structure SegmentPlan where
  index : SegmentIndex
  range : ByteRange
  exit : ExitId
  deriving DecidableEq

structure FetchPlan where
  url : TargetUrl
  fileSize : FileSize
  segments : List SegmentPlan

structure ExitSpec where
  id : ExitId
  weight : ExitWeight
  egress : Egress

abbrev Assignment := ByteRange × ExitId

def weaker (a b : ExitSpec) : Bool :=
  a.weight < b.weight || (a.weight = b.weight && b.id < a.id)

def weakestFrom (best : Nat) (bestExit : ExitSpec) : Nat → List ExitSpec → Nat
  | _, [] => best
  | pos, exit :: rest =>
    if weaker exit bestExit then weakestFrom pos exit (pos + 1) rest
    else weakestFrom best bestExit (pos + 1) rest

def weakest : List ExitSpec → Nat
  | [] => 0
  | exit :: rest => weakestFrom 0 exit 1 rest

-- the `while` of `build`; each turn removes an exit, so `exits.length` turns suffice
def dropWeakest (fileSize : FileSize) (minSegment : MinSegmentBytes) :
    Nat → List ExitSpec → List ExitSpec
  | 0, exits => exits
  | turns + 1, exits =>
    if 1 < exits.length ∧ fileSize.value < exits.length * minSegment.value then
      dropWeakest fileSize minSegment turns (exits.eraseIdx (weakest exits))
    else exits

def sortById (exits : List ExitSpec) : List ExitSpec :=
  exits.insertionSort fun a b => a.id ≤ b.id

def keptExits (fileSize : FileSize) (minSegment : MinSegmentBytes) (exits : List ExitSpec) :
    List ExitSpec :=
  sortById (dropWeakest fileSize minSegment exits.length exits)

def speLimit (fileSize : FileSize) (minSegment : MinSegmentBytes) (exits : List ExitSpec) : Nat :=
  fileSize.value / (exits.length * minSegment.value)

def splitCount (fileSize : FileSize) (minSegment : MinSegmentBytes)
    (segmentsPerExit : SegmentsPerExit) (exits : List ExitSpec) : SegmentsPerExit :=
  if segmentsPerExit.value ≤ speLimit fileSize minSegment exits then segmentsPerExit
  else 1

-- `none` stands for the early `return Vec::new()`
def subsplitFrom (base remainder : Nat) : Nat → Nat → Nat → Option (List ByteRange)
  | 0, _, _ => some []
  | parts + 1, i, cursor =>
    let len := base + if i < remainder then 1 else 0
    match ByteRange.tryNew cursor (cursor + len - 1) with
    | .ok range => (subsplitFrom base remainder parts (i + 1) (cursor + len - 1 + 1)).map (range :: ·)
    | .error _ => none

def evenSubsplit (start endInclusive parts : Nat) : List ByteRange :=
  let totalLen := endInclusive - start + 1
  (subsplitFrom (totalLen / parts) (totalLen % parts) parts 0 start).getD []

def unitsOf (spe : Nat) (exit : ExitSpec) : Nat := exit.weight.value * spe

def tryIntoU64 (value : Nat) (reason : String) : Except FetchError Nat :=
  if value < 2 ^ 64 then .ok value else .error (.invalidPlan reason)

-- the product is a u128 of the source and the only step that can leave its type
def endExclusive (size totalUnits cursor units : Nat) (isLast : Bool) : Nat :=
  if isLast then size else cursor + size * units % 2 ^ 128 / totalUnits

section
variable {ω : Type}

-- `owner` is what goes with the ranges cut for an exit, in `build` the exit's id; returns the pushed
-- assignments and the final `start`
def splitLoop (owner : ExitSpec → ω) (size totalUnits spe : Nat) :
    List ExitSpec → Nat → Nat → Except FetchError (List (ByteRange × ω) × Nat)
  | [], _, start => .ok ([], start)
  | exit :: rest, cursor, start => do
    let exitEnd ← tryIntoU64 (endExclusive size totalUnits cursor (unitsOf spe exit) rest.isEmpty)
      "boundary overflow"
    if start ≤ exitEnd - 1 then
      let (pushed, start') ← splitLoop owner size totalUnits spe rest exitEnd exitEnd
      return ((evenSubsplit start (exitEnd - 1) spe).map (·, owner exit) ++ pushed, start')
    else splitLoop owner size totalUnits spe rest exitEnd start

def extendLast (owner : ExitSpec → ω) (fileSize : FileSize) (exits : List ExitSpec)
    (assignments : List (ByteRange × ω)) : Except FetchError (List (ByteRange × ω)) :=
  match assignments.getLast? with
  | some last => do
    let range ← ByteRange.tryNew last.1.start (fileSize.value - 1)
    return assignments.dropLast ++ [(range, last.2)]
  | none =>
    match exits with
    | [] => .ok assignments
    | exit :: _ => do
      let only ← ByteRange.tryNew 0 (fileSize.value - 1)
      return [(only, owner exit)]

def weightedSplit (owner : ExitSpec → ω) (fileSize : FileSize) (spe : SegmentsPerExit)
    (exits : List ExitSpec) : Except FetchError (List (ByteRange × ω)) := do
  let totalUnits := (exits.map (unitsOf spe.value)).sum
  let (assignments, start) ← splitLoop owner fileSize.value totalUnits spe.value exits 0 0
  if start < fileSize.value then extendLast owner fileSize exits assignments else return assignments

def assign (owner : ExitSpec → ω) (fileSize : FileSize) (spe : SegmentsPerExit)
    (exits : List ExitSpec) : Except FetchError (List (ByteRange × ω)) :=
  match exits with
  | [exit] =>
    if spe.value = 1 then do
      let only ← ByteRange.tryNew 0 (fileSize.value - 1)
      return [(only, owner exit)]
    else weightedSplit owner fileSize spe exits
  | _ => weightedSplit owner fileSize spe exits

def mergeAt (pos : Nat) (assignments : List (ByteRange × ω)) : Option (List (ByteRange × ω)) :=
  if pos + 1 < assignments.length then
    match assignments[pos]?, assignments[pos + 1]? with
    | some tiny, some next =>
      match ByteRange.tryNew tiny.1.start next.1.endInclusive with
      | .ok range => some ((assignments.set (pos + 1) (range, next.2)).eraseIdx pos)
      | .error _ => none
    | _, _ => none
  else
    match assignments[pos - 1]?, assignments[pos]? with
    | some prev, some tiny =>
      match ByteRange.tryNew prev.1.start tiny.1.endInclusive with
      | .ok range => some ((assignments.set (pos - 1) (range, prev.2)).eraseIdx pos)
      | .error _ => none
    | _, _ => none

-- the `while let`; each turn removes an assignment, so `assignments.length` turns suffice
def mergeLoop (minSegment : MinSegmentBytes) :
    Nat → List (ByteRange × ω) → List (ByteRange × ω)
  | 0, assignments => assignments
  | turns + 1, assignments =>
    match assignments.findIdx? fun assignment => assignment.1.len < minSegment.value with
    | none => assignments
    | some pos =>
      if assignments.length = 1 then assignments
      else
        match mergeAt pos assignments with
        | some merged => mergeLoop minSegment turns merged
        | none => assignments

def mergeTinySegments (assignments : List (ByteRange × ω)) (minSegment : MinSegmentBytes) :
    List (ByteRange × ω) :=
  mergeLoop minSegment assignments.length assignments

end

def tryIndex (i : Nat) : Except FetchError SegmentIndex :=
  if h : i < 2 ^ 32 then .ok ⟨i, h⟩ else .error (.invalidPlan "more than 2^32 segments")

def numberFrom : Nat → List Assignment → Except FetchError (List SegmentPlan)
  | _, [] => .ok []
  | i, assignment :: rest => do
    let index ← tryIndex i
    let later ← numberFrom (i + 1) rest
    return ⟨index, assignment.1, assignment.2⟩ :: later

def checkedSucc (value : Nat) (reason : String) : Except FetchError Nat :=
  tryIntoU64 (value + 1) reason

def validateFrom : Nat → Nat → List SegmentPlan → Except FetchError Nat
  | _, cursor, [] => .ok cursor
  | i, cursor, seg :: rest => do
    let expected ← tryIndex i
    if seg.index.value ≠ expected.value then
      throw (.invalidPlan s!"segment index out of order: {seg.index.value} != {expected.value}")
    if seg.range.start ≠ cursor then
      throw (.invalidPlan (s!"gap or overlap at segment {seg.index.value}: " ++
        s!"starts at {seg.range.start} but cursor is at {cursor}"))
    if seg.range.isEmpty then
      throw (.invalidPlan s!"segment {seg.index.value} is empty")
    let next ← checkedSucc seg.range.endInclusive "range end overflow"
    validateFrom (i + 1) next rest

def FetchPlan.validate (plan : FetchPlan) : Except FetchError Unit := do
  let cursor ← validateFrom 0 0 plan.segments
  if cursor ≠ plan.fileSize.value then
    throw (.invalidPlan s!"plan covers up to {cursor} but file size is {plan.fileSize.value}")

def FetchPlan.build (url : TargetUrl) (fileSize : FileSize) (exits : List ExitSpec)
    (segmentsPerExit : SegmentsPerExit) (minSegment : MinSegmentBytes) :
    Except FetchError FetchPlan := do
  if exits.isEmpty then throw (.invalidPlan "no exits given")
  let kept := keptExits fileSize minSegment exits
  let spe := splitCount fileSize minSegment segmentsPerExit kept
  let assignments ← assign ExitSpec.id fileSize spe kept
  let segments ← numberFrom 0 (mergeTinySegments assignments minSegment)
  let plan : FetchPlan := ⟨url, fileSize, segments⟩
  plan.validate
  return plan

end SpiderNet.Fetch
