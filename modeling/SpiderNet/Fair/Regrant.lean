import SpiderNet.Fair.Guarantee

namespace SpiderNet.Fair
open WaterLevel ListFacts

structure Allocation where
  participant : ParticipantId
  rate : Rate

def FairShare.iter (share : FairShare) : List Allocation :=
  share.allocations.entries.map fun granted => ⟨granted.1, granted.2⟩

-- what was granted, asked for again
def regrant (share : FairShare) : List Demand :=
  share.iter.map fun allocation => ⟨allocation.participant, allocation.rate⟩

theorem regrant_participants (share : FairShare) :
    (regrant share).map (·.participant) = share.allocations.keys := by
  rw [regrant, FairShare.iter, List.map_map, List.map_map]
  rfl

theorem demandFor_regrant (share : FairShare) (id : ParticipantId) :
    demandFor (regrant share) id = share.rateOf id := by
  have honce : ((regrant share).map (·.participant)).Nodup := by
    rw [regrant_participants]
    exact share.allocations.keys_nodup
  cases hget : share.allocations.get? id with
  | none =>
    have hnone : id ∉ (regrant share).map (·.participant) := by
      rw [regrant_participants, ← OrdMap.get?_isSome, hget]
      exact Bool.false_ne_true
    rw [demandFor_of_not_mem hnone, FairShare.rateOf, hget]
    rfl
  | some rate =>
    have hin : ⟨id, rate⟩ ∈ regrant share := by
      rw [regrant, FairShare.iter, List.map_map]
      exact List.mem_map.mpr ⟨(id, rate), OrdMap.get?_eq_some.mp hget, rfl⟩
    rw [demandFor_of_mem honce hin, FairShare.rateOf, hget]
    rfl

section
variable {capacity : Capacity} {participants : List Participant} {demands : List Demand}
  {contributors leeches contributors' leeches' : List Entry} {share share' : FairShare}
  (h : Phased capacity participants demands contributors leeches share)
  (h' : Phased capacity participants (regrant share) contributors' leeches' share')
include h

theorem Phased.regrant_listed : Listed participants (regrant share) := by
  refine ⟨h.ids, fun demand hdemand => ?_, ?_⟩
  · refine h.keys_perm.subset ?_
    rw [← regrant_participants]
    exact List.mem_map_of_mem hdemand
  · rw [regrant_participants]
    exact share.allocations.keys_nodup

include h'

theorem Phased.regrant_contributors :
    demandTotal contributors' = min capacity.value.toNat (demandTotal contributors) := by
  rw [h'.contributorList.demandTotal_eq h'.ids, ← h.contributor_rates]
  exact congrArg List.sum (List.map_congr_left fun participant _ =>
    congrArg UInt64.toNat (demandFor_regrant share participant.id))

theorem Phased.regrant_leeches : demandTotal leeches' =
    min (capacity.value.toNat - min capacity.value.toNat (demandTotal contributors))
      (demandTotal leeches) := by
  rw [h'.leechList.demandTotal_eq h'.ids, ← h.leech_rates]
  exact congrArg List.sum (List.map_congr_left fun participant _ =>
    congrArg UInt64.toNat (demandFor_regrant share participant.id))

-- the grants of either class fit its room, so all of them are met
theorem Phased.regrant_rate {participant : Participant} (hin : participant ∈ participants) :
    share'.rateOf participant.id = share.rateOf participant.id := by
  have hc := h.regrant_contributors h'
  have hl := h.regrant_leeches h'
  obtain ⟨id, participation⟩ := participant
  rw [← demandFor_regrant share, ← UInt64.toNat_inj]
  cases participation with
  | contributing weight =>
    have hentry := h'.mem_contributors hin
    have hserved := (weightedMaxMin_settled capacity.value h'.contributorList.ids_nodup).2.1
      (by omega) _ hentry
    exact (h'.contributor_rate hentry).trans (rateIn_of_get? hserved)
  | leeching =>
    obtain ⟨weight, hentry⟩ := h'.mem_leeches hin
    have hroom := @toNat_leftoverFor capacity contributors' h'.contributorList.ids_nodup
    have hserved := (weightedMaxMin_settled (leftoverFor capacity contributors')
      h'.leechList.ids_nodup).2.1 (by omega) _ hentry
    exact (h'.leech_rate hentry).trans (rateIn_of_get? hserved)

theorem Phased.regrant_allocations : share'.allocations = share.allocations := by
  refine OrdMap.ext_get? fun id => ?_
  have hkeys : id ∈ share'.allocations.keys ↔ id ∈ share.allocations.keys := by
    rw [h'.keys_perm.mem_iff, h.keys_perm.mem_iff]
  cases hget : share.allocations.get? id with
  | none =>
    rw [← OrdMap.get?_isSome, ← OrdMap.get?_isSome, hget] at hkeys
    exact Option.not_isSome_iff_eq_none.mp fun hsome => Bool.false_ne_true (hkeys.mp hsome)
  | some rate =>
    have hin : id ∈ share.allocations.keys := OrdMap.get?_isSome.mp (by rw [hget]; rfl)
    obtain ⟨participant, hparticipant, rfl⟩ := List.mem_map.mp (h.keys_perm.subset hin)
    obtain ⟨rate', hget'⟩ := Option.isSome_iff_exists.mp (OrdMap.get?_isSome.mpr (hkeys.mpr hin))
    have hrate := h.regrant_rate h' hparticipant
    rw [FairShare.rateOf, FairShare.rateOf, hget, hget'] at hrate
    rw [hget']
    exact congrArg some hrate

end

theorem allocate_regrant {capacity : Capacity} {participants : List Participant}
    {demands : List Demand} {share : FairShare}
    (h : allocate capacity participants demands = .ok share) :
    allocate capacity participants (regrant share) = .ok share := by
  obtain ⟨contributors, leeches, hphased⟩ := allocate_phased h
  obtain ⟨share', h'⟩ := (allocate_isOk_iff capacity participants _).mpr hphased.regrant_listed
  obtain ⟨contributors', leeches', hphased'⟩ := allocate_phased h'
  have hallocations := hphased.regrant_allocations hphased'
  have htotal : share'.totalAllocated = share.totalAllocated := by
    rw [hphased'.result_eq, hphased.result_eq] at hallocations ⊢
    exact congrArg (fun allocations => toU64 (ratesTotal allocations)) hallocations
  have hunused : share'.unused = share.unused := by
    have hleft : share'.unused = saturatingSub capacity.value share'.totalAllocated := by
      rw [hphased'.result_eq, twoPhases]
    have hleft' : share.unused = saturatingSub capacity.value share.totalAllocated := by
      rw [hphased.result_eq, twoPhases]
    rw [hleft, hleft', htotal]
  rw [h']
  cases share
  cases share'
  simp_all

theorem allocate_regrant_contested :
    allocate sampleCapacity contestedParticipants (regrant contestedShare) = .ok contestedShare :=
  allocate_regrant allocate_contested

end SpiderNet.Fair
