import SpiderNet.Fair.Report
import SpiderNet.Fair.Validation

namespace SpiderNet.Fair

-- every participant's demand spelled out, also where it is nothing
def restated (participants : List Participant) (demands : List Demand) : List Demand :=
  participants.map fun participant => ⟨participant.id, demandFor demands participant.id⟩

section
variable {participants : List Participant} {demands : List Demand}

theorem restated_ids : (restated participants demands).map (·.participant) =
    participants.map (·.id) := by
  rw [restated, List.map_map]
  rfl

theorem demandFor_restated (hids : (participants.map (·.id)).Nodup) {participant : Participant}
    (hin : participant ∈ participants) :
    demandFor (restated participants demands) participant.id = demandFor demands participant.id :=
  demandFor_of_mem (restated_ids ▸ hids) (List.mem_map_of_mem hin)

theorem allocate_restated {capacity : Capacity} {share : FairShare}
    (h : allocate capacity participants demands = .ok share) :
    allocate capacity participants (restated participants demands) = .ok share := by
  obtain ⟨contributors, leeches, hphased⟩ := allocate_phased h
  have hlisted : Listed participants (restated participants demands) := by
    refine ⟨hphased.ids, fun demand hdemand => ?_, restated_ids ▸ hphased.ids⟩
    rw [← @restated_ids participants demands]
    exact List.mem_map_of_mem hdemand
  obtain ⟨share', h'⟩ := (allocate_isOk_iff capacity participants _).mpr hlisted
  obtain ⟨contributors', leeches', hphased'⟩ := allocate_phased h'
  have hsame : ∀ participant ∈ participants, demandFor demands participant.id =
      demandFor (restated participants demands) participant.id :=
    fun participant hin => (demandFor_restated hphased.ids hin).symm
  obtain rfl := classList_eq hphased.contributorList hphased'.contributorList (fun _ _ _ => Iff.rfl)
    fun participant hin => hsame participant (List.mem_filter.mp hin).1
  obtain rfl := classList_eq hphased.leechList hphased'.leechList (fun _ _ _ => Iff.rfl)
    fun participant hin => hsame participant (List.mem_filter.mp hin).1
  rw [h', hphased.result_eq, hphased'.result_eq]

end

theorem get?_collected {demands : List (ParticipantId × Rate)}
    (honce : (demands.map Prod.fst).Nodup) (listed : OrdMap ParticipantId UInt64)
    (id : ParticipantId) :
    (demands.foldl (fun demands demand => demands.insert demand.1 demand.2) listed).get? id =
      ((demands.find? fun demand => demand.1 = id).map Prod.snd).or (listed.get? id) := by
  induction demands generalizing listed with
  | nil => rfl
  | cons demand rest ih =>
    obtain ⟨hnew, hrest⟩ := List.nodup_cons.mp honce
    rw [List.foldl_cons, ih hrest]
    by_cases hid : demand.1 = id
    · subst hid
      have hnone : (rest.find? fun other => other.1 = demand.1) = none := by
        refine List.find?_eq_none.mpr fun other hother => ?_
        simp only [decide_eq_true_eq]
        intro hsame
        exact hnew (hsame ▸ List.mem_map_of_mem hother)
      rw [hnone, OrdMap.get?_insert_self]
      simp
    · rw [OrdMap.get?_insert_ne _ hid]
      simp [hid]

theorem demandOf_eq {args : Args} (honce : (args.demandList.map (·.participant)).Nodup)
    (id : ParticipantId) : (args.demandOf.get? id).getD 0 = demandFor args.demandList id := by
  have hkeys : args.demandList.map (·.participant) = args.demands.map Prod.fst := by
    rw [Args.demandList, List.map_map]
    rfl
  rw [Args.demandOf, get?_collected (hkeys ▸ honce), demandFor, Args.demandList, List.find?_map,
    OrdMap.get?_empty, Option.or_none, Option.map_map]
  rfl

-- the report is about what was asked and what `allocate` made of it
structure Reported (args : Args) (reading : Reading) : Prop where
  capacity : reading.capacity = args.capacity
  participants : (reading.rows.map fun row => (row.id, row.participation)) = args.participants
  demands : ∀ demand ∈ args.demands, ∃ row ∈ reading.rows, (row.id, row.demand) = demand
  demanded : ∀ row ∈ reading.rows, row.demand ≠ 0 → (row.id, row.demand) ∈ args.demands
  within : ∀ row ∈ reading.rows, row.allocation ≤ row.demand
  total : reading.total.toNat = (reading.rows.map (·.allocation.toNat)).sum
  spent : reading.total.toNat =
    min reading.capacity.toNat (reading.rows.map (·.demand.toNat)).sum
  unused : reading.total.toNat + reading.unused.toNat = reading.capacity.toNat

def Reading.participantSpecs (reading : Reading) : List Text :=
  reading.rows.map fun row => writeParticipant (row.id, row.participation)

def Reading.demandSpecs (reading : Reading) : List Text :=
  reading.rows.map fun row => writeDemand (row.id, row.demand)

theorem mapM_specs {α : Type} {parse : Text → Except String α} {write : Row → Text}
    {value : Row → α} {rows : List Row} (h : ∀ row ∈ rows, parse (write row) = .ok (value row)) :
    (rows.map write).mapM parse = .ok (rows.map value) := by
  refine mapM_ok_iff.mpr ?_
  rw [List.forall₂_map_left_iff, List.forall₂_map_right_iff]
  exact List.forall₂_same.mpr h

theorem printReport_congr (capacity : Capacity) {participants : List Participant}
    {demandOf demandOf' : OrdMap ParticipantId UInt64} (share : FairShare)
    (h : ∀ participant ∈ participants, (demandOf.get? participant.id).getD 0 =
      (demandOf'.get? participant.id).getD 0) :
    printReport capacity participants demandOf share =
      printReport capacity participants demandOf' share := by
  have hcells : participants.map (cellsOf demandOf share) =
      participants.map (cellsOf demandOf' share) := by
    refine List.map_congr_left fun participant hin => funext fun index => ?_
    match index with
    | 0 | 1 | 2 | 4 => rfl
    | 3 => rw [demandCell, demandCell, h participant hin]
  rw [printReport, hcells, printReport]

theorem run_ok {args : Args} {text : Text} (h : run args = .ok text) : ∃ capacity share,
    capacity.value = args.capacity ∧
    allocate capacity args.participantList args.demandList = .ok share ∧
    text = printReport capacity args.participantList args.demandOf share := by
  obtain ⟨capacity, hcapacity, h⟩ := bind_eq_ok.mp h
  obtain ⟨share, hshare, h⟩ := bind_eq_ok.mp h
  refine ⟨capacity, share, ?_, mapError_eq_ok.mp hshare, (Except.ok.inj h).symm⟩
  rw [Capacity.tryNew] at hcapacity
  split_ifs at hcapacity
  obtain rfl := Except.ok.inj hcapacity
  rfl

theorem run_eq {args : Args} {capacity : Capacity} {share : FairShare}
    (hcapacity : capacity.value = args.capacity)
    (hshare : allocate capacity args.participantList args.demandList = .ok share) :
    run args = .ok (printReport capacity args.participantList args.demandOf share) := by
  have htry : Capacity.tryNew args.capacity = .ok capacity := by
    rw [← hcapacity, Capacity.tryNew, dif_pos capacity.pos]
  rw [run, htry, ok_bind, hshare]
  rfl

section
variable {args : Args} {capacity : Capacity} {share : FairShare}
  (hcapacity : capacity.value = args.capacity)
  (hshare : allocate capacity args.participantList args.demandList = .ok share)

def readingOf (args : Args) (capacity : Capacity) (share : FairShare) : Reading :=
  ⟨capacity.value, args.participantList.map (rowOf args.demandOf share), share.totalAllocated,
    share.unused⟩

include hshare

theorem rows_total : ((args.participantList.map (rowOf args.demandOf share)).map
    (·.allocation.toNat)).sum = share.totalAllocated.toNat := by
  obtain ⟨contributors, leeches, hphased⟩ := allocate_phased hshare
  have hsplit := classOf_sum_add args.participantList fun participant =>
    (share.rateOf participant.id).toNat
  rw [hphased.contributor_rates, hphased.leech_rates] at hsplit
  rw [hphased.totalAllocated_eq.1, hphased.total_eq, List.map_map]
  exact hsplit.symm.trans (by omega)

theorem rows_demand : ((args.participantList.map (rowOf args.demandOf share)).map
    (·.demand.toNat)).sum = (args.demandList.map (·.rate.toNat)).sum := by
  obtain ⟨hids, honce, hknown, _⟩ := allocate_ok hshare
  rw [← demandFor_sum hids honce hknown, List.map_map]
  exact congrArg List.sum (List.map_congr_left fun participant _ =>
    congrArg UInt64.toNat (demandOf_eq honce participant.id))

include hcapacity

theorem readingOf_reported : Reported args (readingOf args capacity share) := by
  obtain ⟨hids, honce, hknown, _⟩ := allocate_ok hshare
  obtain ⟨contributors, leeches, hphased⟩ := allocate_phased hshare
  have hdemand : ∀ participant, (rowOf args.demandOf share participant).demand =
      demandFor args.demandList participant.id := fun participant => demandOf_eq honce participant.id
  have hlisted : ∀ demand ∈ args.demands, ⟨demand.1, demand.2⟩ ∈ args.demandList :=
    fun demand hdemand => List.mem_map_of_mem hdemand
  refine ⟨hcapacity, ?_, fun demand hin => ?_, fun row hrow hne => ?_, fun row hrow => ?_,
    (rows_total hshare).symm, ?_, ?_⟩
  · rw [readingOf, List.map_map, Args.participantList, List.map_map]
    exact List.map_id _
  · obtain ⟨participant, hparticipant, hid⟩ := List.mem_map.mp (hknown _ (hlisted demand hin))
    refine ⟨_, List.mem_map_of_mem hparticipant, Prod.ext hid ?_⟩
    rw [hdemand, hid]
    exact demandFor_of_mem honce (hlisted demand hin)
  · obtain ⟨participant, _, rfl⟩ := List.mem_map.mp hrow
    change (participant.id, (rowOf args.demandOf share participant).demand) ∈ args.demands
    rw [hdemand] at hne ⊢
    by_cases hid : participant.id ∈ args.demandList.map (·.participant)
    · obtain ⟨asked, hasked, hid⟩ := List.mem_map.mp hid
      obtain ⟨demand, hin, rfl⟩ := List.mem_map.mp hasked
      rw [← hid, demandFor_of_mem honce hasked]
      exact hin
    · exact absurd (demandFor_of_not_mem hid) hne
  · obtain ⟨participant, hparticipant, rfl⟩ := List.mem_map.mp hrow
    rw [UInt64.le_iff_toNat_le, hdemand]
    exact hphased.rate_le hparticipant
  · have hsum := classOf_sum_add args.participantList fun participant =>
      (demandFor args.demandList participant.id).toNat
    rw [← hphased.contributorList.demandTotal_eq hids, ← hphased.leechList.demandTotal_eq hids,
      demandFor_sum hids honce hknown, ← rows_demand hshare] at hsum
    exact hphased.totalAllocated_eq.1.trans (hphased.total_eq.trans (congrArg (min _) hsum))
  · obtain ⟨htotal, hunused⟩ := hphased.totalAllocated_eq
    have hall := hphased.total_eq
    change share.totalAllocated.toNat + share.unused.toNat = capacity.value.toNat
    rw [htotal, hunused]
    omega

-- the report as a command line gives the report
theorem readingOf_reruns : (parseArgs capacity.value (readingOf args capacity share).participantSpecs
    (readingOf args capacity share).demandSpecs >>= run) =
      .ok (printReport capacity args.participantList args.demandOf share) := by
  obtain ⟨hids, honce, _⟩ := allocate_ok hshare
  have hparticipants := (readingOf_reported hcapacity hshare).participants
  let rows := (readingOf args capacity share).rows
  let again : Args := ⟨capacity.value, args.participants, rows.map fun row => (row.id, row.demand)⟩
  have hparsed : parseArgs capacity.value (readingOf args capacity share).participantSpecs
      (readingOf args capacity share).demandSpecs = .ok again := by
    rw [parseArgs, Reading.participantSpecs, Reading.demandSpecs,
      mapM_specs fun row _ => parseParticipantSpec_write (row.id, row.participation), ok_bind,
      mapM_specs fun row _ => parseDemandSpec_write (row.id, row.demand), ok_bind, hparticipants]
    rfl
  have hrestated : again.demandList = restated args.participantList args.demandList := by
    simp only [again, rows, Args.demandList, readingOf, List.map_map]
    exact List.map_congr_left fun participant _ =>
      congrArg (Demand.mk participant.id) (demandOf_eq honce participant.id)
  have hagain : allocate capacity again.participantList again.demandList = .ok share :=
    hrestated ▸ allocate_restated hshare
  rw [hparsed, ok_bind, run_eq rfl hagain]
  refine congrArg Except.ok (printReport_congr _ _ fun participant hin => ?_)
  rw [demandOf_eq (allocate_ok hagain).2.1, demandOf_eq honce, hrestated, demandFor_restated hids hin]

end

theorem run_report {args : Args} {text : Text} (h : run args = .ok text) :
    ∃ reading, readReport text = some reading ∧ Reported args reading ∧
      (parseArgs reading.capacity reading.participantSpecs reading.demandSpecs >>= run) = .ok text := by
  obtain ⟨capacity, share, hcapacity, hshare, rfl⟩ := run_ok h
  exact ⟨readingOf args capacity share, readReport_printReport _ _ _ _,
    readingOf_reported hcapacity hshare, readingOf_reruns hcapacity hshare⟩

def sampleArgs : Args := ⟨100, [(1, .contributing 1), (2, .leeching)], [(1, 60), (2, 100)]⟩

theorem run_report_sample : ∃ text reading, readReport text = some reading ∧
    Reported sampleArgs reading ∧ (parseArgs reading.capacity reading.participantSpecs
      reading.demandSpecs >>= run) = .ok text := by
  have hrun : run sampleArgs = _ := run_eq (rfl : sampleCapacity.value = 100) allocate_sample
  obtain ⟨reading, hread, hreported, hreruns⟩ := run_report hrun
  exact ⟨_, reading, hread, hreported, hreruns⟩

end SpiderNet.Fair
