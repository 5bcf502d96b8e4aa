import SpiderNet.Basic
import SpiderNet.Library.OrdMap
import Mathlib.Data.List.Sort

namespace SpiderNet.Fair

abbrev ParticipantId := NonZero 16

abbrev Weight := NonZero 32

abbrev Rate := UInt64

structure Capacity where
  value : UInt64
  pos : 0 < value.toNat

inductive Participation where
  | contributing (weight : Weight)
  | leeching
  deriving DecidableEq

structure Participant where
  id : ParticipantId
  participation : Participation

structure Demand where
  participant : ParticipantId
  rate : Rate

structure FairShare where
  allocations : OrdMap ParticipantId Rate
  totalAllocated : Rate
  unused : Rate

def FairShare.rateOf (share : FairShare) (participant : ParticipantId) : Rate :=
  (share.allocations.get? participant).getD 0

inductive FairnessError where
  | unknownParticipant (id : ParticipantId)
  | duplicateDemand (id : ParticipantId)
  | duplicateParticipant (id : ParticipantId)
  | conflictingParticipation (id : ParticipantId)

structure Entry where
  id : ParticipantId
  demand : UInt64
  weight : Weight

abbrev Rates := OrdMap ParticipantId UInt64

def totalWeight (active : List Entry) : Nat := (active.map (·.weight.value)).sum

-- u128 in the source; a u64 times a u32 stays below 2^96
def share (capacity : UInt64) (total : Nat) (entry : Entry) : Nat :=
  capacity.toNat * entry.weight.value / total

def satisfied (capacity : UInt64) (total : Nat) (entry : Entry) : Bool :=
  decide (entry.demand.toNat ≤ share capacity total entry)

-- one pass of the remainder loop: (result, remainder, handed_out)
def handOut : List Entry → Rates → Nat → Nat → Rates × Nat × Nat
  | [], result, remainder, handedOut => (result, remainder, handedOut)
  | entry :: rest, result, remainder, handedOut =>
    if remainder = 0 then (result, remainder, handedOut)
    else
      match result.get? entry.id with
      | some allocation =>
        if allocation < entry.demand then
          handOut rest (result.insert entry.id (allocation + 1)) (remainder - 1) (handedOut + 1)
        else handOut rest result remainder handedOut
      | none => handOut rest result remainder handedOut

-- every pass that does not break takes at least one unit, so `remainder` passes suffice
def spreadRemainder : Nat → List Entry → Nat → Rates → Rates
  | 0, _, _, result => result
  | passes + 1, active, remainder, result =>
    if 0 < remainder then
      match handOut active result remainder 0 with
      | (result, remainder, handedOut) =>
        if handedOut = 0 then result else spreadRemainder passes active remainder result
    else result

def insertAll (rate : Entry → UInt64) (entries : List Entry) (result : Rates) : Rates :=
  entries.foldl (fun acc entry => acc.insert entry.id (rate entry)) result

def finalRemainder (capacity : UInt64) (active : List Entry) : Nat :=
  capacity.toNat - (active.map (share capacity (totalWeight active))).sum

-- the branch of the source in which nobody's demand fits its share
def finalRound (capacity : UInt64) (active : List Entry) (result : Rates) : Rates :=
  let floored := insertAll (fun entry => toU64 (share capacity (totalWeight active) entry)) active
    result
  let remainder := finalRemainder capacity active
  spreadRemainder remainder active remainder floored

-- the `while` of the source; each turn removes an active entry, so `active.length` turns suffice
def rounds : Nat → UInt64 → List Entry → Rates → Rates × List Entry
  | 0, _, active, result => (result, active)
  | turns + 1, capacity, active, result =>
    if 0 < capacity.toNat ∧ active ≠ [] then
      let fits := active.filter (satisfied capacity (totalWeight active))
      if fits.isEmpty then (finalRound capacity active result, [])
      else
        let allocated := (fits.map (·.demand)).sum
        let remaining := active.filter fun entry => !satisfied capacity (totalWeight active) entry
        rounds turns (saturatingSub capacity allocated) remaining (insertAll (·.demand) fits result)
    else (result, active)

def sortById (entries : List Entry) : List Entry :=
  entries.insertionSort fun a b => a.id ≤ b.id

def weightedMaxMin (entries : List Entry) (capacity : UInt64) : Rates :=
  let result := insertAll (fun _ => 0) (entries.filter fun entry => entry.demand = 0) .empty
  let active := sortById (entries.filter fun entry => entry.demand ≠ 0)
  match rounds active.length capacity active result with
  | (result, active) => insertAll (fun _ => 0) active result

def participationOf :
    List Participant → OrdMap ParticipantId Participation →
      Except FairnessError (OrdMap ParticipantId Participation)
  | [], known => .ok known
  | participant :: rest, known =>
    match known.get? participant.id with
    | some previous =>
      if previous = participant.participation then .error (.duplicateParticipant participant.id)
      else .error (.conflictingParticipation participant.id)
    | none => participationOf rest (known.insert participant.id participant.participation)

def checkKnown (known : OrdMap ParticipantId Participation) :
    List Demand → Except FairnessError Unit
  | [] => .ok ()
  | demand :: rest =>
    if known.contains demand.participant then checkKnown known rest
    else .error (.unknownParticipant demand.participant)

def demandOf :
    List Demand → OrdMap ParticipantId UInt64 → Except FairnessError (OrdMap ParticipantId UInt64)
  | [], known => .ok known
  | demand :: rest, known =>
    match known.get? demand.participant with
    | some _ => .error (.duplicateDemand demand.participant)
    | none => demandOf rest (known.insert demand.participant demand.rate)

def contributorWeight : Participation → Option Weight
  | .contributing weight => some weight
  | .leeching => none

def leechWeight : Participation → Option Weight
  | .contributing _ => none
  | .leeching => some 1

def classEntries (weightOf : Participation → Option Weight)
    (participations : OrdMap ParticipantId Participation) (demands : OrdMap ParticipantId UInt64) :
    List Entry :=
  participations.entries.filterMap fun known =>
    (weightOf known.2).map fun weight => ⟨known.1, (demands.get? known.1).getD 0, weight⟩

def ratesTotal (rates : Rates) : Nat := (rates.values.map UInt64.toNat).sum

-- phase one serves the contributors, phase two the leeches from what phase one leaves over
def twoPhases (capacity : Capacity) (contributors leeches : List Entry) : FairShare :=
  let phaseOne := weightedMaxMin contributors capacity.value
  let leftover := saturatingSub capacity.value (toU64 (ratesTotal phaseOne))
  let phaseTwo := weightedMaxMin leeches leftover
  let allocations := phaseOne.extend phaseTwo
  let total := toU64 (ratesTotal allocations)
  ⟨allocations, total, saturatingSub capacity.value total⟩

def allocate (capacity : Capacity) (participants : List Participant) (demands : List Demand) :
    Except FairnessError FairShare := do
  let participations ← participationOf participants .empty
  checkKnown participations demands
  let demands ← demandOf demands .empty
  return twoPhases capacity (classEntries contributorWeight participations demands)
    (classEntries leechWeight participations demands)

end SpiderNet.Fair
