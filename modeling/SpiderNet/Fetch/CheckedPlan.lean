import SpiderNet.Fetch.Strongest
import SpiderNet.Library.Machine

namespace SpiderNet.Fetch

-- the planner again, each step in its machine type

inductive Stop where
  | outOfRange
  | refused (error : FetchError)

def step {α : Type} : Option α → Except Stop α
  | some value => .ok value
  | none => .error .outOfRange

def refuse {α : Type} (result : Except FetchError α) : Except Stop α := result.mapError .refused

def ByteRange.checkedLen (range : ByteRange) : Except Stop Nat := do
  let span ← step (Machine.sub range.endInclusive range.start)
  step (Machine.add 64 span 1)

def checkedDropWeakest (fileSize : FileSize) (minSegment : MinSegmentBytes) :
    Nat → List ExitSpec → Except Stop (List ExitSpec)
  | 0, exits => .ok exits
  | turns + 1, exits =>
    if 1 < exits.length then do
      let needed ← step (Machine.mul 128 exits.length minSegment.value)
      if fileSize.value < needed then
        let _ ← step exits[weakest exits]?
        checkedDropWeakest fileSize minSegment turns (exits.eraseIdx (weakest exits))
      else return exits
    else return exits

-- `unwrap_or(0)` where the quotient is no usize
def checkedSplitCount (fileSize : FileSize) (minSegment : MinSegmentBytes)
    (segmentsPerExit : SegmentsPerExit) (exits : List ExitSpec) : Except Stop SegmentsPerExit := do
  let needed ← step (Machine.mul 128 exits.length minSegment.value)
  let quotient ← step (Machine.div fileSize.value needed)
  let limit := (Machine.fit 64 quotient).getD 0
  return if segmentsPerExit.value ≤ limit then segmentsPerExit else 1

def checkedSubsplitFrom (base remainder : Nat) :
    Nat → Nat → Nat → Except Stop (Option (List ByteRange))
  | 0, _, _ => .ok (some [])
  | parts + 1, i, cursor => do
    let len ← step (Machine.add 64 base (if i < remainder then 1 else 0))
    let stop ← step (Machine.add 64 cursor len)
    let rangeEnd ← step (Machine.sub stop 1)
    match ByteRange.tryNew cursor rangeEnd with
    | .ok range =>
      let cursor ← step (Machine.add 64 rangeEnd 1)
      let out ← checkedSubsplitFrom base remainder parts (i + 1) cursor
      return out.map (range :: ·)
    | .error _ => return none

def checkedEvenSubsplit (start endInclusive parts : Nat) : Except Stop (List ByteRange) := do
  let span ← step (Machine.sub endInclusive start)
  let totalLen ← step (Machine.add 64 span 1)
  let base ← step (Machine.div totalLen parts)
  let remainder ← step (Machine.rem totalLen parts)
  let out ← checkedSubsplitFrom base remainder parts 0 start
  return out.getD []

def checkedEnd (size totalUnits cursor units : Nat) (isLast : Bool) : Except Stop Nat :=
  if isLast then .ok size
  else do
    let product ← step (Machine.mul 128 size units)
    let quotient ← step (Machine.div product totalUnits)
    step (Machine.add 128 cursor quotient)

def checkedSplitLoop (size totalUnits spe : Nat) :
    List (ExitSpec × Nat) → Nat → Nat → Except Stop (List Assignment × Nat)
  | [], _, start => .ok ([], start)
  | (exit, units) :: rest, cursor, start => do
    let endExclusive ← checkedEnd size totalUnits cursor units rest.isEmpty
    let exitEnd ← refuse (tryIntoU64 endExclusive "boundary overflow")
    if start ≤ exitEnd - 1 then
      let ranges ← checkedEvenSubsplit start (exitEnd - 1) spe
      let (pushed, start') ← checkedSplitLoop size totalUnits spe rest exitEnd exitEnd
      return (ranges.map (·, exit.id) ++ pushed, start')
    else checkedSplitLoop size totalUnits spe rest exitEnd start

def checkedUnits (spe : Nat) : List ExitSpec → Except Stop (List (ExitSpec × Nat))
  | [] => .ok []
  | exit :: rest => do
    let units ← step (Machine.mul 128 exit.weight.value spe)
    let later ← checkedUnits spe rest
    return (exit, units) :: later

def checkedExtendLast (fileSize : FileSize) (exits : List ExitSpec) (assignments : List Assignment) :
    Except Stop (List Assignment) := do
  let fileEnd ← step (Machine.sub fileSize.value 1)
  match assignments.getLast? with
  | some last =>
    let range ← refuse (ByteRange.tryNew last.1.start fileEnd)
    return assignments.dropLast ++ [(range, last.2)]
  | none =>
    let only ← refuse (ByteRange.tryNew 0 fileEnd)
    let exit ← step exits[0]?
    return [(only, exit.id)]

def checkedWeightedSplit (fileSize : FileSize) (spe : SegmentsPerExit) (exits : List ExitSpec) :
    Except Stop (List Assignment) := do
  let units ← checkedUnits spe.value exits
  let totalUnits ← step (Machine.sum 128 (units.map (·.2)))
  let _ ← step (Machine.sub exits.length 1)
  let (assignments, start) ← checkedSplitLoop fileSize.value totalUnits spe.value units 0 0
  if start < fileSize.value then checkedExtendLast fileSize exits assignments else return assignments

def checkedAssign (fileSize : FileSize) (spe : SegmentsPerExit) (exits : List ExitSpec) :
    Except Stop (List Assignment) :=
  if exits.length = 1 ∧ spe.value = 1 then do
    let fileEnd ← step (Machine.sub fileSize.value 1)
    let only ← refuse (ByteRange.tryNew 0 fileEnd)
    let exit ← step exits[0]?
    return [(only, exit.id)]
  else checkedWeightedSplit fileSize spe exits

-- `position`: the lengths up to the first tiny one are computed
def checkedPosition (minSegment : MinSegmentBytes) :
    Nat → List Assignment → Except Stop (Option Nat)
  | _, [] => .ok none
  | pos, assignment :: rest => do
    let len ← assignment.1.checkedLen
    if len < minSegment.value then return some pos
    else checkedPosition minSegment (pos + 1) rest

-- `none` stands for a `break`
def checkedMergeAt (pos : Nat) (assignments : List Assignment) :
    Except Stop (Option (List Assignment)) := do
  let following ← step (Machine.add 64 pos 1)
  if following < assignments.length then
    let next ← step assignments[following]?
    let tiny ← step assignments[pos]?
    match ByteRange.tryNew tiny.1.start next.1.endInclusive with
    | .ok range => return some ((assignments.set following (range, next.2)).eraseIdx pos)
    | .error _ => return none
  else
    let prevPos ← step (Machine.sub pos 1)
    let prev ← step assignments[prevPos]?
    let tiny ← step assignments[pos]?
    match ByteRange.tryNew prev.1.start tiny.1.endInclusive with
    | .ok range => return some ((assignments.set prevPos (range, prev.2)).eraseIdx pos)
    | .error _ => return none

def checkedMergeLoop (minSegment : MinSegmentBytes) :
    Nat → List Assignment → Except Stop (List Assignment)
  | 0, assignments => .ok assignments
  | turns + 1, assignments => do
    match ← checkedPosition minSegment 0 assignments with
    | none => return assignments
    | some pos =>
      if assignments.length = 1 then return assignments
      else
        match ← checkedMergeAt pos assignments with
        | some merged => checkedMergeLoop minSegment turns merged
        | none => return assignments

-- `validate` only adds by `checked_add`, whose overflow is an error of its own
def checkedBuild (url : TargetUrl) (fileSize : FileSize) (exits : List ExitSpec)
    (segmentsPerExit : SegmentsPerExit) (minSegment : MinSegmentBytes) : Except Stop FetchPlan := do
  if exits.isEmpty then refuse (.error (.invalidPlan "no exits given"))
  else
    let strong ← checkedDropWeakest fileSize minSegment exits.length exits
    let kept := sortById strong
    let spe ← checkedSplitCount fileSize minSegment segmentsPerExit kept
    let assignments ← checkedAssign fileSize spe kept
    let merged ← checkedMergeLoop minSegment assignments.length assignments
    let segments ← refuse (numberFrom 0 merged)
    let plan : FetchPlan := ⟨url, fileSize, segments⟩
    refuse plan.validate
    return plan

end SpiderNet.Fetch
