import SpiderNet.Fair.Allocation
import SpiderNet.Library.Machine

namespace SpiderNet.Fair
open ListFacts

-- the source again, each step in its machine type: `none` is a step that leaves it, a `to_u64`
-- that falls back, a `saturating_sub` that saturates or a loop that turns too often

def narrow (value : Nat) : Option UInt64 := (Machine.fit 64 value).map UInt64.ofNat

def checkedSub (a b : UInt64) : Option UInt64 := (Machine.sub a.toNat b.toNat).map UInt64.ofNat

def checkedShare (capacity : UInt64) (total : Nat) (entry : Entry) : Option Nat := do
  let product ← Machine.mul 128 capacity.toNat entry.weight.value
  Machine.div product total

-- `handed_out` is an i32, which counts up to 2^31 - 1
def checkedHandOut : List Entry → Rates → Nat → Nat → Option (Rates × Nat × Nat)
  | [], result, remainder, handedOut => some (result, remainder, handedOut)
  | entry :: rest, result, remainder, handedOut =>
    if remainder = 0 then some (result, remainder, handedOut)
    else
      match result.get? entry.id with
      | some allocation =>
        if allocation < entry.demand then do
          let allocation ← Machine.add 64 allocation.toNat 1
          let remainder ← Machine.sub remainder 1
          let handedOut ← Machine.add 31 handedOut 1
          checkedHandOut rest (result.insert entry.id (.ofNat allocation)) remainder handedOut
        else checkedHandOut rest result remainder handedOut
      | none => checkedHandOut rest result remainder handedOut

-- one pass is all that is allowed, and it has to leave nothing
def checkedSpread (active : List Entry) (remainder : Nat) (result : Rates) : Option Rates :=
  if 0 < remainder then do
    let (result, remainder, _) ← checkedHandOut active result remainder 0
    if remainder = 0 then some result else none
  else some result

def checkedFinalRound (capacity : UInt64) (shares : List (Entry × Nat)) (result : Rates) :
    Option Rates := do
  let floored ← shares.foldlM (fun acc (entry, share) =>
    (narrow share).map fun rate => acc.insert entry.id rate) result
  let distributed ← Machine.sum 128 (shares.map (·.2))
  let remainder ← Machine.sub capacity.toNat distributed
  checkedSpread (shares.map (·.1)) remainder floored

-- as many turns as there are active entries, and the loop has to be over by then
def checkedRounds : Nat → UInt64 → List Entry → Rates → Option (Rates × List Entry)
  | turns, capacity, active, result =>
    if 0 < capacity.toNat ∧ active ≠ [] then
      match turns with
      | 0 => none
      | turns + 1 => do
        let total ← Machine.sum 128 (active.map (·.weight.value))
        let shares ← active.mapM fun entry => (checkedShare capacity total entry).map (entry, ·)
        let fits := shares.filter fun (entry, share) => entry.demand.toNat ≤ share
        if fits.isEmpty then
          let result ← checkedFinalRound capacity shares result
          return (result, [])
        else
          let allocated ← Machine.sum 64 (fits.map fun (entry, _) => entry.demand.toNat)
          let remaining := shares.filter fun (entry, share) => ¬entry.demand.toNat ≤ share
          let capacity ← checkedSub capacity (.ofNat allocated)
          checkedRounds turns capacity (remaining.map (·.1))
            (insertAll (·.demand) (fits.map (·.1)) result)
    else some (result, active)

def checkedWeightedMaxMin (entries : List Entry) (capacity : UInt64) : Option Rates := do
  let result := insertAll (fun _ => 0) (entries.filter fun entry => entry.demand = 0) .empty
  let active := sortById (entries.filter fun entry => entry.demand ≠ 0)
  let (result, active) ← checkedRounds active.length capacity active result
  return insertAll (fun _ => 0) active result

def checkedTotal (rates : Rates) : Option UInt64 := do
  let total ← Machine.sum 128 (rates.values.map UInt64.toNat)
  narrow total

def checkedTwoPhases (capacity : Capacity) (contributors leeches : List Entry) :
    Option FairShare := do
  let phaseOne ← checkedWeightedMaxMin contributors capacity.value
  let allocated ← checkedTotal phaseOne
  let leftover ← checkedSub capacity.value allocated
  let phaseTwo ← checkedWeightedMaxMin leeches leftover
  let allocations := phaseOne.extend phaseTwo
  let total ← checkedTotal allocations
  let unused ← checkedSub capacity.value total
  return ⟨allocations, total, unused⟩

def checkedAllocate (capacity : Capacity) (participants : List Participant)
    (demands : List Demand) : Except FairnessError (Option FairShare) := do
  let participations ← participationOf participants .empty
  checkKnown participations demands
  let demands ← demandOf demands .empty
  return checkedTwoPhases capacity (classEntries contributorWeight participations demands)
    (classEntries leechWeight participations demands)

theorem narrow_eq {value : ℕ} (h : value < 2 ^ 64) : narrow value = some (toU64 value) := by
  rw [narrow, Machine.fit_some h, toU64, if_pos h]
  rfl

theorem checkedSub_eq {a b : UInt64} (h : b.toNat ≤ a.toNat) :
    checkedSub a b = some (saturatingSub a b) := by
  have hto : UInt64.ofNat (a.toNat - b.toNat) = saturatingSub a b := by
    rw [← toNat_saturatingSub, UInt64.ofNat_toNat]
  rw [checkedSub, Machine.sub_some h, Option.map_some, hto]

theorem length_le_of_ids {entries : List Entry} (hids : (entries.map (·.id)).Nodup) :
    entries.length ≤ 2 ^ 16 := by
  have hnodup : ((entries.map (·.id)).map NonZero.value).Nodup :=
    hids.map NonZero.value_injective
  have hsub : (entries.map (·.id)).map NonZero.value ⊆ List.range (2 ^ 16) := by
    intro value hvalue
    obtain ⟨id, _, rfl⟩ := List.mem_map.mp hvalue
    exact List.mem_range.mpr id.lt
  have hlength := (hnodup.subperm hsub).length_le
  rwa [List.length_map, List.length_map, List.length_range] at hlength

theorem checkedHandOut_eq {active : List Entry} {result : Rates} {remainder handedOut : ℕ}
    (h : handedOut + active.length < 2 ^ 31) :
    checkedHandOut active result remainder handedOut =
      some (handOut active result remainder handedOut) := by
  induction active generalizing result remainder handedOut with
  | nil => rfl
  | cons entry rest ih =>
    rw [List.length_cons] at h
    rw [checkedHandOut, handOut]
    split_ifs with hzero
    · rfl
    · cases result.get? entry.id with
      | none => exact ih (by omega)
      | some allocation =>
        dsimp only
        split_ifs with hlt
        · have hroom : allocation.toNat + 1 < 2 ^ 64 :=
            Nat.lt_of_le_of_lt (UInt64.lt_iff_toNat_lt.mp hlt) entry.demand.toNat_lt
          have hsucc : UInt64.ofNat (allocation.toNat + 1) = allocation + 1 := by
            rw [UInt64.ofNat_add, UInt64.ofNat_toNat]
            rfl
          rw [Machine.add_some hroom, Machine.sub_some (Nat.pos_of_ne_zero hzero),
            Machine.add_some (by omega), ← hsucc]
          exact ih (by omega)
        · exact ih (by omega)

theorem mapM_some {α β : Type} {f : α → Option β} {g : α → β} {xs : List α}
    (h : ∀ x ∈ xs, f x = some (g x)) : xs.mapM f = some (xs.map g) := by
  induction xs with
  | nil => rfl
  | cons x rest ih =>
    rw [List.mapM_cons, h x (by simp), ih fun y hy => h y (List.mem_cons_of_mem _ hy)]
    rfl

section
variable {capacity : UInt64} {active : List Entry} {result : Rates}

def withShares (capacity : UInt64) (active : List Entry) : List (Entry × ℕ) :=
  active.map fun entry => (entry, share capacity (totalWeight active) entry)

theorem withShares_fst : (withShares capacity active).map (·.1) = active := by
  rw [withShares, List.map_map]
  exact List.map_id' active

theorem withShares_snd :
    (withShares capacity active).map (·.2) = active.map (share capacity (totalWeight active)) := by
  rw [withShares, List.map_map]
  rfl

theorem withShares_fits :
    (withShares capacity active).filter (fun (entry, share) => entry.demand.toNat ≤ share) =
      (active.filter (satisfied capacity (totalWeight active))).map
        fun entry => (entry, share capacity (totalWeight active) entry) := by
  rw [withShares, List.filter_map]
  rfl

theorem withShares_remaining :
    ((withShares capacity active).filter fun (entry, share) => ¬entry.demand.toNat ≤ share).map
      (·.1) = active.filter fun entry => !satisfied capacity (totalWeight active) entry := by
  have hfilter : (withShares capacity active).filter
      (fun (entry, share) => ¬entry.demand.toNat ≤ share) =
      (active.filter fun entry => !satisfied capacity (totalWeight active) entry).map
        fun entry => (entry, share capacity (totalWeight active) entry) := by
    rw [withShares, List.filter_map]
    exact congrArg _ (List.filter_congr fun entry _ => decide_not)
  rw [hfilter, List.map_map]
  exact List.map_id' _

theorem checkedShare_eq (hne : active ≠ []) (entry : Entry) :
    checkedShare capacity (totalWeight active) entry =
      some (share capacity (totalWeight active) entry) := by
  have hproduct : capacity.toNat * entry.weight.value < 2 ^ 128 :=
    calc capacity.toNat * entry.weight.value
        < 2 ^ 64 * 2 ^ 32 := Nat.mul_lt_mul'' capacity.toNat_lt entry.weight.lt
      _ < 2 ^ 128 := by decide
  rw [checkedShare, Machine.mul_some hproduct]
  exact Machine.div_some (totalWeight_pos hne)

theorem checkedWeights_eq (hids : (active.map (·.id)).Nodup) :
    Machine.sum 128 (active.map (·.weight.value)) = some (totalWeight active) := by
  refine Machine.sum_some (@Machine.sum_lt 128 32 16 _ ?_ ?_ (by decide))
  · rw [List.length_map]
    exact length_le_of_ids hids
  · intro weight hweight
    obtain ⟨entry, _, rfl⟩ := List.mem_map.mp hweight
    exact entry.weight.lt

theorem checkedSpread_eq {remainder : ℕ} (hids : (active.map (·.id)).Nodup)
    (hroom : ∀ entry ∈ active, ∃ allocation, result.get? entry.id = some allocation ∧
      allocation < entry.demand)
    (hle : remainder ≤ active.length) :
    checkedSpread active remainder result =
      some (spreadRemainder remainder active remainder result) := by
  have hlength := length_le_of_ids hids
  rw [spreadRemainder_eq hids hroom hle, checkedSpread]
  split_ifs with hpos
  · have hleft := congrArg Prod.fst (handOut_spec 0 hids hroom hle).1
    rw [checkedHandOut_eq (by omega)]
    exact if_pos hleft
  · obtain rfl : remainder = 0 := Nat.eq_zero_of_not_pos hpos
    cases active <;> rfl

theorem checkedFloors_eq (entries : List Entry)
    (h : ∀ entry ∈ entries, share capacity (totalWeight active) entry < 2 ^ 64) :
    (entries.map fun entry => (entry, share capacity (totalWeight active) entry)).foldlM
        (fun acc (entry, share) => (narrow share).map fun rate => acc.insert entry.id rate) result =
      some (insertAll (fun entry => toU64 (share capacity (totalWeight active) entry)) entries
        result) := by
  induction entries generalizing result with
  | nil => rfl
  | cons entry rest ih =>
    rw [List.map_cons, List.foldlM_cons]
    dsimp only
    rw [narrow_eq (h entry (by simp))]
    exact ih fun other ho => h other (List.mem_cons_of_mem _ ho)

theorem checkedFinalRound_eq (hne : active ≠ []) (hids : (active.map (·.id)).Nodup)
    (hunmet : ∀ entry ∈ active, satisfied capacity (totalWeight active) entry = false) :
    checkedFinalRound capacity (withShares capacity active) result =
      some (finalRound capacity active result) := by
  have hsum := sum_share_le capacity hne
  have hmax := capacity.toNat_lt
  have hshare : ∀ entry ∈ active, share capacity (totalWeight active) entry < 2 ^ 64 :=
    fun entry he => (share_le_capacity he).trans_lt hmax
  have hroom : ∀ entry ∈ active, ∃ allocation,
      (insertAll (fun entry => toU64 (share capacity (totalWeight active) entry)) active
        result).get? entry.id = some allocation ∧ allocation < entry.demand :=
    fun entry he => ⟨_, get?_insertAll_of_mem hids he, share_lt_demand he (hunmet entry he)⟩
  have hfloors := @checkedFloors_eq capacity active result active hshare
  have hspread := checkedSpread_eq hids hroom (finalRemainder_spec hne hunmet).2.le
  rw [checkedFinalRound, withShares_fst, withShares_snd, withShares, hfloors,
    Machine.sum_some (hsum.trans_lt (hmax.trans (by decide)))]
  simp only [Option.bind_eq_bind, Option.bind_some, Machine.sub_some hsum]
  exact hspread

end

theorem ofNat_demandTotal {entries : List Entry} (h : demandTotal entries < 2 ^ 64) :
    UInt64.ofNat (demandTotal entries) = (entries.map (·.demand)).sum := by
  rw [← toNat_demands h, UInt64.ofNat_toNat]

theorem length_remaining_lt {active : List Entry} {fits : Entry → Bool}
    (h : active.filter fits ≠ []) : (active.filter fun entry => !fits entry).length < active.length := by
  have hsplit := (List.filter_append_perm fits active).length_eq
  have hpos := List.length_pos_iff.mpr h
  rw [List.length_append] at hsplit
  omega

theorem checkedRounds_eq {turns : ℕ} {capacity : UInt64} {active : List Entry} {result : Rates}
    (hturns : active.length ≤ turns) (hids : (active.map (·.id)).Nodup) :
    checkedRounds turns capacity active result = some (rounds turns capacity active result) := by
  induction turns generalizing capacity active result with
  | zero =>
    obtain rfl : active = [] := List.length_eq_zero_iff.mp (Nat.le_zero.mp hturns)
    simp [checkedRounds, rounds]
  | succ turns ih =>
    rw [checkedRounds, rounds]
    split_ifs with hgo
    · obtain ⟨_, hne⟩ := hgo
      have hshares : active.mapM (fun entry =>
          (checkedShare capacity (totalWeight active) entry).map (entry, ·)) =
          some (withShares capacity active) :=
        mapM_some fun entry _ => by rw [checkedShare_eq hne]; rfl
      simp only [checkedWeights_eq hids, hshares, Option.bind_eq_bind, Option.bind_some,
        withShares_fits, withShares_remaining, List.isEmpty_map, List.map_map, Function.comp_def]
      split_ifs with hfits
      · have hunmet : ∀ entry ∈ active, satisfied capacity (totalWeight active) entry = false := by
          intro entry he
          simpa using List.filter_eq_nil_iff.mp (List.isEmpty_iff.mp hfits) entry he
        rw [checkedFinalRound_eq hne hids hunmet]
        rfl
      · have hle := demandTotal_fits_le capacity hne
        have hlt := hle.trans_lt capacity.toNat_lt
        have hdemands := toNat_demands hlt
        have hsum : Machine.sum 64 ((active.filter (satisfied capacity (totalWeight active))).map
            (·.demand.toNat)) =
            some (demandTotal (active.filter (satisfied capacity (totalWeight active)))) :=
          Machine.sum_some hlt
        have hfewer := length_remaining_lt (mt List.isEmpty_iff.mpr hfits)
        rw [hsum, Option.bind_some, ofNat_demandTotal hlt, checkedSub_eq (hdemands.trans_le hle),
          Option.bind_some, List.map_id']
        exact ih (by omega) ((List.filter_sublist.map _).nodup hids)
    · rfl

theorem checkedWeightedMaxMin_eq {entries : List Entry} (capacity : UInt64)
    (hids : (entries.map (·.id)).Nodup) :
    checkedWeightedMaxMin entries capacity = some (weightedMaxMin entries capacity) := by
  have hactive : ((sortById (entries.filter fun entry => entry.demand ≠ 0)).map (·.id)).Nodup :=
    ((sortById_perm _).map _).nodup_iff.mpr ((List.filter_sublist.map _).nodup hids)
  simp only [checkedWeightedMaxMin, checkedRounds_eq le_rfl hactive]
  rfl

theorem checkedTotal_eq {rates : Rates} (h : ratesTotal rates < 2 ^ 64) :
    checkedTotal rates = some (toU64 (ratesTotal rates)) := by
  have hsum : Machine.sum 128 (rates.values.map UInt64.toNat) = some (ratesTotal rates) :=
    Machine.sum_some (h.trans (by decide))
  rw [checkedTotal, hsum]
  exact narrow_eq h

theorem checkedTwoPhases_eq {capacity : Capacity} {contributors leeches : List Entry}
    (hcontributors : (contributors.map (·.id)).Nodup) (hleeches : (leeches.map (·.id)).Nodup)
    (hdisjoint : ∀ id ∈ contributors.map (·.id), id ∉ leeches.map (·.id)) :
    checkedTwoPhases capacity contributors leeches =
      some (twoPhases capacity contributors leeches) := by
  have hmax := capacity.value.toNat_lt
  have hone : ratesTotal (weightedMaxMin contributors capacity.value) ≤ capacity.value.toNat := by
    rw [weightedMaxMin_total _ hcontributors]
    exact min_le_left _ _
  have hall : ratesTotal (twoPhases capacity contributors leeches).allocations ≤
      capacity.value.toNat := by
    rw [twoPhases_total capacity hcontributors hleeches hdisjoint]
    exact min_le_left _ _
  have hallocated := (toNat_toU64 (hone.trans_lt hmax)).trans_le hone
  have htotal := (toNat_toU64 (hall.trans_lt hmax)).trans_le hall
  simp only [twoPhases] at hall htotal
  simp only [checkedTwoPhases, checkedWeightedMaxMin_eq _ hcontributors,
    checkedWeightedMaxMin_eq _ hleeches, checkedTotal_eq (hone.trans_lt hmax),
    checkedTotal_eq (hall.trans_lt hmax), checkedSub_eq hallocated, checkedSub_eq htotal,
    Option.bind_eq_bind, Option.bind_some]
  rfl

theorem checkedAllocate_eq (capacity : Capacity) (participants : List Participant)
    (demands : List Demand) : checkedAllocate capacity participants demands =
      (allocate capacity participants demands).map some := by
  simp only [checkedAllocate, allocate, bind, Except.bind, pure, Except.pure]
  cases hp : participationOf participants .empty with
  | error error => rfl
  | ok participations =>
    cases hk : checkKnown participations demands with
    | error error => simp [hk, Except.map]
    | ok known =>
      cases hd : demandOf demands .empty with
      | error error => simp [hk, Except.map]
      | ok listed =>
        have hc := classEntries_classList contributorWeight hp hd
        have hl := classEntries_classList leechWeight hp hd
        have hdisjoint := classLists_disjoint (participationOf_ok hp).1 hc hl
        simp only [hk, Except.map]
        rw [checkedTwoPhases_eq hc.ids_nodup hl.ids_nodup hdisjoint]

theorem allocate_in_range :
    (∀ (entries : List Entry) (capacity : UInt64), (entries.map (·.id)).Nodup →
      checkedWeightedMaxMin entries capacity = some (weightedMaxMin entries capacity)) ∧
    ∀ (capacity : Capacity) (participants : List Participant) (demands : List Demand),
      checkedAllocate capacity participants demands =
        (allocate capacity participants demands).map some :=
  ⟨fun _ capacity hids => checkedWeightedMaxMin_eq capacity hids, checkedAllocate_eq⟩

def nearLimit : List Entry :=
  [⟨1, 18446744073709551615, 4294967295⟩, ⟨2, 18446744073709551614, 4294967295⟩]

theorem allocate_in_range_nearLimit :
    checkedWeightedMaxMin nearLimit 18446744073709551615 =
      some (weightedMaxMin nearLimit 18446744073709551615) :=
  allocate_in_range.1 nearLimit 18446744073709551615 (by decide)

example : (checkedSpread nearLimit 3 (insertAll (fun _ => 0) nearLimit .empty)).isNone := by decide

end SpiderNet.Fair
