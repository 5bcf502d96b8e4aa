import SpiderNet.Fair.Totals

namespace SpiderNet.Fair
open WaterLevel ListFacts

def demandFor (demands : List Demand) (id : ParticipantId) : UInt64 :=
  ((demands.find? fun demand => demand.participant = id).map (·.rate)).getD 0

def classOf (weightOf : Participation → Option Weight) (participants : List Participant) :
    List Participant := participants.filter fun participant => (weightOf participant.participation).isSome

theorem participationOf_ok {participants : List Participant}
    {known participations : OrdMap ParticipantId Participation}
    (h : participationOf participants known = .ok participations) :
    (participants.map (·.id)).Nodup ∧
    (∀ participant ∈ participants, known.get? participant.id = none) ∧
    ∀ id participation, participations.get? id = some participation ↔
      known.get? id = some participation ∨ ⟨id, participation⟩ ∈ participants := by
  induction participants generalizing known with
  | nil =>
    obtain rfl : known = participations := by simpa [participationOf] using h
    simp
  | cons participant rest ih =>
    rw [participationOf] at h
    cases hget : known.get? participant.id with
    | some previous =>
      simp only [hget] at h
      split at h <;> simp at h
    | none =>
      simp only [hget] at h
      obtain ⟨hnodup, hfresh, hmem⟩ := ih h
      obtain ⟨hids, hall, _⟩ := OrdMap.fresh_cons hget hnodup hfresh
      refine ⟨hids, hall, ?_⟩
      intro id participation
      rw [hmem, OrdMap.get?_insert, List.mem_cons]
      split_ifs with heq
      · subst heq
        rw [hget]
        constructor
        · rintro (hp | hp)
          · obtain rfl : participant.participation = participation := by simpa using hp
            exact Or.inr (Or.inl rfl)
          · exact Or.inr (Or.inr hp)
        · rintro (hp | hp | hp)
          · simp at hp
          · exact Or.inl (by rw [← hp])
          · exact Or.inr hp
      · have hne : (⟨id, participation⟩ : Participant) ≠ participant := fun hp => heq (by rw [← hp])
        simp [hne]

theorem demandOf_ok {demands : List Demand} {known listed : OrdMap ParticipantId UInt64}
    (h : demandOf demands known = .ok listed) :
    (demands.map (·.participant)).Nodup ∧
    (∀ demand ∈ demands, known.get? demand.participant = none) ∧
    ∀ id, listed.get? id =
      ((demands.find? fun demand => demand.participant = id).map (·.rate)).or (known.get? id) := by
  induction demands generalizing known with
  | nil =>
    obtain rfl : known = listed := by simpa [demandOf] using h
    simp
  | cons demand rest ih =>
    rw [demandOf] at h
    cases hget : known.get? demand.participant with
    | some previous => simp [hget] at h
    | none =>
      simp only [hget] at h
      obtain ⟨hnodup, hfresh, hlookup⟩ := ih h
      obtain ⟨hids, hall, hnew⟩ := OrdMap.fresh_cons hget hnodup hfresh
      refine ⟨hids, hall, ?_⟩
      intro id
      rw [hlookup, OrdMap.get?_insert]
      by_cases heq : demand.participant = id
      · have hnone : (rest.find? fun other => other.participant = id) = none := by
          refine List.find?_eq_none.mpr (fun other ho => ?_)
          simpa [← heq] using Ne.symm (hnew other ho)
        simp [heq, hnone]
      · simp [heq]

theorem checkKnown_ok {participations : OrdMap ParticipantId Participation} {demands : List Demand}
    {out : Unit} (h : checkKnown participations demands = .ok out) :
    ∀ demand ∈ demands, (participations.get? demand.participant).isSome := by
  induction demands with
  | nil => simp
  | cons demand rest ih =>
    rw [checkKnown] at h
    split_ifs at h with hknown
    intro other ho
    rcases List.mem_cons.mp ho with rfl | ho
    · exact hknown
    · exact ih h other ho

structure ClassList (weightOf : Participation → Option Weight) (participants : List Participant)
    (demands : List Demand) (entries : List Entry) : Prop where
  sorted : entries.Pairwise (·.id < ·.id)
  mem_iff : ∀ entry, entry ∈ entries ↔ entry.demand = demandFor demands entry.id ∧
    ∃ participation, ⟨entry.id, participation⟩ ∈ participants ∧
      weightOf participation = some entry.weight

theorem classEntries_classList (weightOf : Participation → Option Weight)
    {participants : List Participant} {demands : List Demand}
    {participations : OrdMap ParticipantId Participation} {listed : OrdMap ParticipantId UInt64}
    (hp : participationOf participants .empty = .ok participations)
    (hd : demandOf demands .empty = .ok listed) :
    ClassList weightOf participants demands (classEntries weightOf participations listed) := by
  obtain ⟨_, _, hmem⟩ := participationOf_ok hp
  obtain ⟨_, _, hlookup⟩ := demandOf_ok hd
  have hdemand : ∀ id, (listed.get? id).getD 0 = demandFor demands id := by
    intro id
    simp [hlookup, demandFor]
  constructor
  · refine List.Pairwise.filterMap _ ?_ participations.sorted
    intro a b hab x hx y hy
    obtain ⟨_, _, rfl⟩ := Option.map_eq_some_iff.mp hx
    obtain ⟨_, _, rfl⟩ := Option.map_eq_some_iff.mp hy
    exact hab
  · intro entry
    simp only [classEntries, List.mem_filterMap, Option.map_eq_some_iff]
    constructor
    · rintro ⟨⟨id, participation⟩, hknown, weight, hweight, rfl⟩
      have hin := (hmem id participation).mp (OrdMap.get?_eq_some.mpr hknown)
      exact ⟨hdemand id, participation, by simpa using hin, hweight⟩
    · rintro ⟨hrate, participation, hin, hweight⟩
      refine ⟨(entry.id, participation), ?_, entry.weight, hweight, ?_⟩
      · exact OrdMap.get?_eq_some.mp ((hmem _ _).mpr (Or.inr hin))
      · rw [hdemand, ← hrate]

theorem ClassList.ids_nodup {weightOf : Participation → Option Weight}
    {participants : List Participant} {demands : List Demand} {entries : List Entry}
    (h : ClassList weightOf participants demands entries) : (entries.map (·.id)).Nodup :=
  SpiderNet.Fair.ids_nodup h.sorted

theorem allocate_ok {capacity : Capacity} {participants : List Participant} {demands : List Demand}
    {result : FairShare} (h : allocate capacity participants demands = .ok result) :
    (participants.map (·.id)).Nodup ∧ (demands.map (·.participant)).Nodup ∧
    (∀ demand ∈ demands, demand.participant ∈ participants.map (·.id)) ∧
    ∃ contributors leeches, ClassList contributorWeight participants demands contributors ∧
      ClassList leechWeight participants demands leeches ∧
      result = twoPhases capacity contributors leeches := by
  simp only [allocate, bind, Except.bind, pure, Except.pure] at h
  cases hp : participationOf participants .empty with
  | error error => simp [hp] at h
  | ok participations =>
    cases hk : checkKnown participations demands with
    | error error => simp [hp, hk] at h
    | ok known =>
      cases hd : demandOf demands .empty with
      | error error => simp [hp, hk, hd] at h
      | ok listed =>
        simp only [hp, hk, hd, Except.ok.injEq] at h
        obtain ⟨hids, _, hmem⟩ := participationOf_ok hp
        refine ⟨hids, (demandOf_ok hd).1, ?_, _, _, classEntries_classList _ hp hd,
          classEntries_classList _ hp hd, h.symm⟩
        intro demand hdemand
        obtain ⟨participation, hget⟩ := Option.isSome_iff_exists.mp (checkKnown_ok hk demand hdemand)
        have hin := (hmem _ _).mp hget
        exact List.mem_map.mpr ⟨⟨demand.participant, participation⟩, by simpa using hin, rfl⟩

section
variable {participants : List Participant} {demands : List Demand} {entries : List Entry}
  {weightOf : Participation → Option Weight}

theorem ClassList.ids_perm (h : ClassList weightOf participants demands entries)
    (hids : (participants.map (·.id)).Nodup) :
    (entries.map (·.id)).Perm ((classOf weightOf participants).map (·.id)) := by
  refine (List.perm_ext_iff_of_nodup h.ids_nodup ((List.filter_sublist.map _).nodup hids)).mpr ?_
  intro id
  simp only [List.mem_map, List.mem_filter]
  constructor
  · rintro ⟨entry, he, rfl⟩
    obtain ⟨_, participation, hin, hweight⟩ := (h.mem_iff entry).mp he
    exact ⟨⟨entry.id, participation⟩, ⟨hin, by simp [hweight]⟩, rfl⟩
  · rintro ⟨participant, ⟨hin, hsome⟩, rfl⟩
    obtain ⟨weight, hweight⟩ := Option.isSome_iff_exists.mp hsome
    exact ⟨⟨participant.id, demandFor demands participant.id, weight⟩,
      (h.mem_iff _).mpr ⟨rfl, participant.participation, hin, hweight⟩, rfl⟩

theorem ClassList.demandTotal_eq (h : ClassList weightOf participants demands entries)
    (hids : (participants.map (·.id)).Nodup) :
    demandTotal entries =
      ((classOf weightOf participants).map fun p => (demandFor demands p.id).toNat).sum := by
  have hdemand : entries.map (·.demand.toNat) =
      (entries.map (·.id)).map fun id => (demandFor demands id).toNat := by
    rw [List.map_map]
    exact List.map_congr_left (fun entry he => by simp [((h.mem_iff entry).mp he).1])
  rw [demandTotal, hdemand, ((h.ids_perm hids).map _).sum_eq, List.map_map]
  rfl

end

theorem leech_iff_not_contributor (participation : Participation) :
    (leechWeight participation).isSome = !(contributorWeight participation).isSome := by
  cases participation <;> rfl

theorem classOf_sum_add (participants : List Participant) (f : Participant → ℕ) :
    ((classOf contributorWeight participants).map f).sum +
      ((classOf leechWeight participants).map f).sum = (participants.map f).sum := by
  have hsplit := sum_filter_add (fun p : Participant => (contributorWeight p.participation).isSome) f
    participants
  simpa only [classOf, leech_iff_not_contributor] using hsplit

theorem demandFor_of_mem {demands : List Demand} (hids : (demands.map (·.participant)).Nodup)
    {demand : Demand} (h : demand ∈ demands) : demandFor demands demand.participant = demand.rate := by
  cases hfind : demands.find? (fun other => other.participant = demand.participant) with
  | none => simpa using List.find?_eq_none.mp hfind demand h
  | some other =>
    have heq : other.participant = demand.participant := by simpa using List.find?_some hfind
    have hsame := List.inj_on_of_nodup_map hids (List.mem_of_find?_eq_some hfind) h heq
    simp [demandFor, hfind, hsame]

theorem demandFor_of_not_mem {demands : List Demand} {id : ParticipantId}
    (h : id ∉ demands.map (·.participant)) : demandFor demands id = 0 := by
  have hnone : (demands.find? fun demand => demand.participant = id) = none := by
    refine List.find?_eq_none.mpr (fun demand hd => ?_)
    simpa using fun heq : demand.participant = id => h (List.mem_map.mpr ⟨demand, hd, heq⟩)
  simp [demandFor, hnone]

theorem demandFor_sum {participants : List Participant} {demands : List Demand}
    (hids : (participants.map (·.id)).Nodup) (hdemands : (demands.map (·.participant)).Nodup)
    (hknown : ∀ demand ∈ demands, demand.participant ∈ participants.map (·.id)) :
    (participants.map fun p => (demandFor demands p.id).toNat).sum =
      (demands.map (·.rate.toNat)).sum := by
  let named : ParticipantId → Bool := fun id => id ∈ demands.map (·.participant)
  have hperm : ((participants.map (·.id)).filter named).Perm (demands.map (·.participant)) := by
    refine (List.perm_ext_iff_of_nodup (hids.filter _) hdemands).mpr (fun id => ?_)
    simp only [List.mem_filter, named, decide_eq_true_eq, and_iff_right_iff_imp]
    intro hid
    obtain ⟨demand, hd, rfl⟩ := List.mem_map.mp hid
    exact hknown demand hd
  have hunnamed : (((participants.map (·.id)).filter fun id => !named id).map fun id =>
      (demandFor demands id).toNat).sum = 0 := by
    refine List.sum_eq_zero (fun value hvalue => ?_)
    obtain ⟨id, hid, rfl⟩ := List.mem_map.mp hvalue
    have hnot := (List.mem_filter.mp hid).2
    simp only [named, Bool.not_eq_true', decide_eq_false_iff_not] at hnot
    simp [demandFor_of_not_mem hnot]
  calc (participants.map fun p => (demandFor demands p.id).toNat).sum
      = ((participants.map (·.id)).map fun id => (demandFor demands id).toNat).sum := by
        rw [List.map_map]; rfl
    _ = ((demands.map (·.participant)).map fun id => (demandFor demands id).toNat).sum := by
        rw [← sum_filter_add named, hunnamed, (hperm.map _).sum_eq, Nat.add_zero]
    _ = (demands.map (·.rate.toNat)).sum := by
        rw [List.map_map]
        exact congrArg List.sum (List.map_congr_left (fun demand hd => by
          simp [demandFor_of_mem hdemands hd]))

section
variable (capacity : Capacity) {contributors leeches : List Entry}

def leftoverFor (capacity : Capacity) (contributors : List Entry) : UInt64 :=
  saturatingSub capacity.value (toU64 (ratesTotal (weightedMaxMin contributors capacity.value)))

theorem toNat_leftoverFor (hids : (contributors.map (·.id)).Nodup) :
    (leftoverFor capacity contributors).toNat =
      capacity.value.toNat - min capacity.value.toNat (demandTotal contributors) := by
  have hmax := capacity.value.toNat_lt
  rw [leftoverFor, toNat_saturatingSub, weightedMaxMin_total _ hids, toNat_toU64]
  exact (min_le_left _ _).trans_lt hmax

theorem twoPhases_get? (id : ParticipantId) :
    (twoPhases capacity contributors leeches).allocations.get? id =
      ((weightedMaxMin leeches (leftoverFor capacity contributors)).get? id).or
        ((weightedMaxMin contributors capacity.value).get? id) := OrdMap.get?_extend _ _ _

variable (hcontributors : (contributors.map (·.id)).Nodup) (hleeches : (leeches.map (·.id)).Nodup)
  (hdisjoint : ∀ id ∈ contributors.map (·.id), id ∉ leeches.map (·.id))
include hleeches

theorem twoPhases_contributor {id : ParticipantId} (h : id ∉ leeches.map (·.id)) :
    (twoPhases capacity contributors leeches).allocations.get? id =
      (weightedMaxMin contributors capacity.value).get? id := by
  rw [twoPhases_get?, (weightedMaxMin_settled _ hleeches).1 id h]
  rfl

theorem twoPhases_leech {id : ParticipantId} (h : id ∈ leeches.map (·.id)) :
    (twoPhases capacity contributors leeches).allocations.get? id =
      (weightedMaxMin leeches (leftoverFor capacity contributors)).get? id := by
  obtain ⟨rate, hrate⟩ := Option.isSome_iff_exists.mp
    ((weightedMaxMin_get?_isSome (leftoverFor capacity contributors) hleeches id).mpr h)
  rw [twoPhases_get?, hrate]
  rfl

include hcontributors

theorem twoPhases_isSome (id : ParticipantId) :
    ((twoPhases capacity contributors leeches).allocations.get? id).isSome ↔
      id ∈ contributors.map (·.id) ++ leeches.map (·.id) := by
  rw [List.mem_append, ← weightedMaxMin_get?_isSome capacity.value hcontributors,
    ← weightedMaxMin_get?_isSome (leftoverFor capacity contributors) hleeches, twoPhases_get?,
    Option.isSome_or, Bool.or_eq_true, or_comm]

include hdisjoint

theorem twoPhases_contributor_sum :
    (contributors.map fun entry =>
      rateIn (twoPhases capacity contributors leeches).allocations entry.id).sum =
      min capacity.value.toNat (demandTotal contributors) := by
  rw [← weightedMaxMin_total _ hcontributors,
    ratesTotal_eq hcontributors (weightedMaxMin_get?_isSome _ hcontributors), List.map_map]
  refine congrArg List.sum (List.map_congr_left (fun entry he => ?_))
  have hid := hdisjoint entry.id (List.mem_map_of_mem (f := (·.id)) he)
  simp [rateIn, twoPhases_contributor capacity hleeches hid]

omit hcontributors hdisjoint in
theorem twoPhases_leech_sum :
    (leeches.map fun entry =>
      rateIn (twoPhases capacity contributors leeches).allocations entry.id).sum =
      min (leftoverFor capacity contributors).toNat (demandTotal leeches) := by
  rw [← weightedMaxMin_total _ hleeches,
    ratesTotal_eq hleeches (weightedMaxMin_get?_isSome _ hleeches), List.map_map]
  refine congrArg List.sum (List.map_congr_left (fun entry he => ?_))
  have hid := List.mem_map_of_mem (f := Entry.id) he
  simp [rateIn, twoPhases_leech capacity hleeches hid]

theorem twoPhases_total :
    ratesTotal (twoPhases capacity contributors leeches).allocations =
      min capacity.value.toNat (demandTotal contributors + demandTotal leeches) := by
  have hids : (contributors.map (·.id) ++ leeches.map (·.id)).Nodup :=
    List.Nodup.append hcontributors hleeches hdisjoint
  have hone := twoPhases_contributor_sum capacity hcontributors hleeches hdisjoint
  have htwo : (leeches.map fun entry =>
      rateIn (twoPhases capacity contributors leeches).allocations entry.id).sum = _ :=
    twoPhases_leech_sum capacity hleeches
  rw [toNat_leftoverFor capacity hcontributors] at htwo
  rw [ratesTotal_eq hids (twoPhases_isSome capacity hcontributors hleeches), List.map_append,
    List.sum_append, List.map_map, List.map_map]
  change (contributors.map fun entry => rateIn _ entry.id).sum +
    (leeches.map fun entry => rateIn _ entry.id).sum = _
  omega

end

structure Phased (capacity : Capacity) (participants : List Participant) (demands : List Demand)
    (contributors leeches : List Entry) (result : FairShare) : Prop where
  ids : (participants.map (·.id)).Nodup
  contributorList : ClassList contributorWeight participants demands contributors
  leechList : ClassList leechWeight participants demands leeches
  disjoint : ∀ id ∈ contributors.map (·.id), id ∉ leeches.map (·.id)
  result_eq : result = twoPhases capacity contributors leeches

theorem classLists_disjoint {participants : List Participant} {demands : List Demand}
    {contributors leeches : List Entry} (hids : (participants.map (·.id)).Nodup)
    (hc : ClassList contributorWeight participants demands contributors)
    (hl : ClassList leechWeight participants demands leeches) :
    ∀ id ∈ contributors.map (·.id), id ∉ leeches.map (·.id) := by
  intro id hcid hlid
  obtain ⟨p, hp, hpid⟩ := List.mem_map.mp ((hc.ids_perm hids).mem_iff.mp hcid)
  obtain ⟨q, hq, hqid⟩ := List.mem_map.mp ((hl.ids_perm hids).mem_iff.mp hlid)
  obtain ⟨hpin, hpclass⟩ := List.mem_filter.mp hp
  obtain ⟨hqin, hqclass⟩ := List.mem_filter.mp hq
  rw [List.inj_on_of_nodup_map hids hqin hpin (hqid.trans hpid.symm), leech_iff_not_contributor,
    hpclass] at hqclass
  exact absurd hqclass (by simp)

theorem allocate_phased {capacity : Capacity} {participants : List Participant}
    {demands : List Demand} {result : FairShare}
    (h : allocate capacity participants demands = .ok result) :
    ∃ contributors leeches, Phased capacity participants demands contributors leeches result := by
  obtain ⟨hids, _, _, contributors, leeches, hc, hl, hresult⟩ := allocate_ok h
  exact ⟨contributors, leeches, hids, hc, hl, classLists_disjoint hids hc hl, hresult⟩

section
variable {capacity : Capacity} {participants : List Participant} {demands : List Demand}
  {contributors leeches : List Entry} {result : FairShare}

theorem Phased.rateOf_eq (h : Phased capacity participants demands contributors leeches result)
    (id : ParticipantId) : (result.rateOf id).toNat =
      rateIn (twoPhases capacity contributors leeches).allocations id := by
  rw [h.result_eq]
  rfl

theorem Phased.class_sum (h : Phased capacity participants demands contributors leeches result)
    {weightOf : Participation → Option Weight} {entries : List Entry}
    (hlist : ClassList weightOf participants demands entries) :
    ((classOf weightOf participants).map fun p => (result.rateOf p.id).toNat).sum =
      (entries.map fun entry =>
        rateIn (twoPhases capacity contributors leeches).allocations entry.id).sum := by
  have hsum := ((hlist.ids_perm h.ids).map fun id => (result.rateOf id).toNat).sum_eq
  rw [List.map_map, List.map_map] at hsum
  exact hsum.symm.trans
    (congrArg List.sum (List.map_congr_left (fun entry _ => h.rateOf_eq entry.id)))

theorem Phased.contributor_rates
    (h : Phased capacity participants demands contributors leeches result) :
    ((classOf contributorWeight participants).map fun p => (result.rateOf p.id).toNat).sum =
      min capacity.value.toNat (demandTotal contributors) := by
  rw [h.class_sum h.contributorList]
  exact twoPhases_contributor_sum capacity h.contributorList.ids_nodup h.leechList.ids_nodup
    h.disjoint

theorem Phased.leech_rates
    (h : Phased capacity participants demands contributors leeches result) :
    ((classOf leechWeight participants).map fun p => (result.rateOf p.id).toNat).sum =
      min (capacity.value.toNat - min capacity.value.toNat (demandTotal contributors))
        (demandTotal leeches) := by
  rw [h.class_sum h.leechList, ← toNat_leftoverFor capacity h.contributorList.ids_nodup]
  exact twoPhases_leech_sum capacity h.leechList.ids_nodup

theorem Phased.contributor_rate
    (h : Phased capacity participants demands contributors leeches result) {entry : Entry}
    (he : entry ∈ contributors) :
    (result.rateOf entry.id).toNat = rateIn (weightedMaxMin contributors capacity.value) entry.id := by
  have hid := h.disjoint entry.id (List.mem_map_of_mem (f := Entry.id) he)
  rw [h.rateOf_eq, rateIn, twoPhases_contributor capacity h.leechList.ids_nodup hid]
  rfl

theorem Phased.leech_rate
    (h : Phased capacity participants demands contributors leeches result) {entry : Entry}
    (he : entry ∈ leeches) : (result.rateOf entry.id).toNat =
      rateIn (weightedMaxMin leeches (leftoverFor capacity contributors)) entry.id := by
  have hid := List.mem_map_of_mem (f := Entry.id) he
  rw [h.rateOf_eq, rateIn, twoPhases_leech capacity h.leechList.ids_nodup hid]
  rfl

theorem Phased.rate_le (h : Phased capacity participants demands contributors leeches result)
    {participant : Participant} (hp : participant ∈ participants) :
    (result.rateOf participant.id).toNat ≤ (demandFor demands participant.id).toNat := by
  cases hclass : (contributorWeight participant.participation).isSome with
  | true =>
    have hmem := (h.contributorList.ids_perm h.ids).mem_iff.mpr
      (List.mem_map_of_mem (f := Participant.id) (List.mem_filter.mpr ⟨hp, hclass⟩))
    obtain ⟨entry, he, heq⟩ := List.mem_map.mp hmem
    rw [← heq, h.contributor_rate he, ← ((h.contributorList.mem_iff entry).mp he).1]
    exact weightedMaxMin_rate_le _ h.contributorList.ids_nodup he
  | false =>
    have hleech : (leechWeight participant.participation).isSome := by
      rw [leech_iff_not_contributor, hclass]
      rfl
    have hmem := (h.leechList.ids_perm h.ids).mem_iff.mpr
      (List.mem_map_of_mem (f := Participant.id) (List.mem_filter.mpr ⟨hp, hleech⟩))
    obtain ⟨entry, he, heq⟩ := List.mem_map.mp hmem
    rw [← heq, h.leech_rate he, ← ((h.leechList.mem_iff entry).mp he).1]
    exact weightedMaxMin_rate_le _ h.leechList.ids_nodup he

theorem Phased.keys_perm (h : Phased capacity participants demands contributors leeches result) :
    result.allocations.keys.Perm (participants.map (·.id)) := by
  refine OrdMap.keys_perm h.ids (fun id => ?_)
  rw [h.result_eq, twoPhases_isSome capacity h.contributorList.ids_nodup h.leechList.ids_nodup,
    List.mem_append, (h.contributorList.ids_perm h.ids).mem_iff,
    (h.leechList.ids_perm h.ids).mem_iff]
  simp only [classOf, leech_iff_not_contributor, List.mem_map, List.mem_filter]
  constructor
  · rintro (⟨p, ⟨hp, _⟩, rfl⟩ | ⟨p, ⟨hp, _⟩, rfl⟩) <;> exact ⟨p, hp, rfl⟩
  · rintro ⟨p, hp, rfl⟩
    cases hclass : (contributorWeight p.participation).isSome with
    | true => exact Or.inl ⟨p, ⟨hp, hclass⟩, rfl⟩
    | false => exact Or.inr ⟨p, ⟨hp, by simp [hclass]⟩, rfl⟩

theorem Phased.total_eq (h : Phased capacity participants demands contributors leeches result) :
    ratesTotal result.allocations =
      min capacity.value.toNat (demandTotal contributors + demandTotal leeches) := by
  rw [h.result_eq]
  exact twoPhases_total capacity h.contributorList.ids_nodup h.leechList.ids_nodup h.disjoint

theorem Phased.totalAllocated_eq
    (h : Phased capacity participants demands contributors leeches result) :
    result.totalAllocated.toNat = ratesTotal result.allocations ∧
    result.unused.toNat = capacity.value.toNat - ratesTotal result.allocations := by
  have htotal : result.totalAllocated = toU64 (ratesTotal result.allocations) := by
    rw [h.result_eq, twoPhases]
  have hunused : result.unused = saturatingSub capacity.value result.totalAllocated := by
    rw [h.result_eq, twoPhases]
  have hmax := capacity.value.toNat_lt
  have hnat : (toU64 (ratesTotal result.allocations)).toNat = ratesTotal result.allocations := by
    refine toNat_toU64 ?_
    rw [h.total_eq]
    exact (min_le_left _ _).trans_lt hmax
  rw [hunused, toNat_saturatingSub, htotal, hnat]
  exact ⟨rfl, rfl⟩

end

def classDemand (weightOf : Participation → Option Weight) (participants : List Participant)
    (demands : List Demand) : ℕ :=
  ((classOf weightOf participants).map fun p => (demandFor demands p.id).toNat).sum

def classRates (weightOf : Participation → Option Weight) (participants : List Participant)
    (result : FairShare) : ℕ :=
  ((classOf weightOf participants).map fun p => (result.rateOf p.id).toNat).sum

theorem allocate_conserves {capacity : Capacity} {participants : List Participant}
    {demands : List Demand} {result : FairShare}
    (h : allocate capacity participants demands = .ok result) :
    result.allocations.keys.Perm (participants.map (·.id)) ∧
    (∀ participant ∈ participants,
      (result.rateOf participant.id).toNat ≤ (demandFor demands participant.id).toNat) ∧
    classRates contributorWeight participants result =
      min capacity.value.toNat (classDemand contributorWeight participants demands) ∧
    classRates leechWeight participants result =
      min (capacity.value.toNat - classRates contributorWeight participants result)
        (classDemand leechWeight participants demands) ∧
    result.totalAllocated.toNat = ratesTotal result.allocations ∧
    result.totalAllocated.toNat =
      min capacity.value.toNat (demands.map (·.rate.toNat)).sum ∧
    result.totalAllocated.toNat + result.unused.toNat = capacity.value.toNat := by
  obtain ⟨hids, hdemands, hknown, _⟩ := allocate_ok h
  obtain ⟨contributors, leeches, hphased⟩ := allocate_phased h
  have hc : demandTotal contributors = classDemand contributorWeight participants demands :=
    hphased.contributorList.demandTotal_eq hids
  have hl : demandTotal leeches = classDemand leechWeight participants demands :=
    hphased.leechList.demandTotal_eq hids
  have hsum : classDemand contributorWeight participants demands +
      classDemand leechWeight participants demands = (demands.map (·.rate.toNat)).sum :=
    (classOf_sum_add participants _).trans (demandFor_sum hids hdemands hknown)
  have hcontributors : classRates contributorWeight participants result = _ :=
    hphased.contributor_rates
  have hleeches : classRates leechWeight participants result = _ := hphased.leech_rates
  obtain ⟨htotal, hunused⟩ := hphased.totalAllocated_eq
  have hall := hphased.total_eq
  refine ⟨hphased.keys_perm, fun _ => hphased.rate_le, ?_, ?_, htotal, ?_, ?_⟩
  · rw [hcontributors, hc]
  · rw [hleeches, hcontributors, hl]
  · rw [htotal, hall, hc, hl, hsum]
  · rw [htotal, hunused]
    omega

def sampleCapacity : Capacity := ⟨100, by decide⟩

def sampleParticipants : List Participant := [⟨1, .contributing 1⟩, ⟨2, .leeching⟩]

theorem sample_contributor : ⟨1, .contributing 1⟩ ∈ sampleParticipants := List.mem_cons_self

theorem sample_leech : ⟨2, .leeching⟩ ∈ sampleParticipants :=
  List.mem_cons_of_mem _ List.mem_cons_self

def sampleDemands : List Demand := [⟨1, 60⟩, ⟨2, 100⟩]

def sampleShare : FairShare := twoPhases sampleCapacity [⟨1, 60, 1⟩] [⟨2, 100, 1⟩]

theorem allocate_sample :
    allocate sampleCapacity sampleParticipants sampleDemands = .ok sampleShare := rfl

theorem allocate_conserves_sample :
    classRates contributorWeight sampleParticipants sampleShare = 60 ∧
    sampleShare.totalAllocated.toNat + sampleShare.unused.toNat = 100 :=
  ⟨(allocate_conserves allocate_sample).2.2.1,
    (allocate_conserves allocate_sample).2.2.2.2.2.2⟩

theorem sorted_ext {entries entries' : List Entry} (h : entries.Pairwise (·.id < ·.id))
    (h' : entries'.Pairwise (·.id < ·.id)) (hmem : ∀ entry, entry ∈ entries ↔ entry ∈ entries') :
    entries = entries' := by
  have hnodup : ∀ {l : List Entry}, l.Pairwise (·.id < ·.id) → l.Nodup :=
    fun hl => hl.imp (fun hlt heq => (heq ▸ hlt).ne rfl)
  exact ((List.perm_ext_iff_of_nodup (hnodup h) (hnodup h')).mpr hmem).eq_of_pairwise
    (fun _ _ _ _ hab hba => absurd hab hba.asymm) h h'

theorem classList_eq {weightOf : Participation → Option Weight}
    {participants participants' : List Participant} {demands demands' : List Demand}
    {entries entries' : List Entry} (h : ClassList weightOf participants demands entries)
    (h' : ClassList weightOf participants' demands' entries')
    (hclass : ∀ id participation, (weightOf participation).isSome →
      (⟨id, participation⟩ ∈ participants ↔ ⟨id, participation⟩ ∈ participants'))
    (hdemand : ∀ participant ∈ classOf weightOf participants,
      demandFor demands participant.id = demandFor demands' participant.id) :
    entries = entries' := by
  have hmem : ∀ entry, entry ∈ entries ↔ entry ∈ entries' := by
    intro entry
    rw [h.mem_iff, h'.mem_iff]
    constructor
    · rintro ⟨hrate, participation, hin, hweight⟩
      have hsome : (weightOf participation).isSome := by simp [hweight]
      have hsame := hdemand ⟨entry.id, participation⟩ (List.mem_filter.mpr ⟨hin, hsome⟩)
      exact ⟨hrate.trans hsame, participation, (hclass _ _ hsome).mp hin, hweight⟩
    · rintro ⟨hrate, participation, hin, hweight⟩
      have hsome : (weightOf participation).isSome := by simp [hweight]
      have hin' := (hclass _ _ hsome).mpr hin
      have hsame := hdemand ⟨entry.id, participation⟩ (List.mem_filter.mpr ⟨hin', hsome⟩)
      exact ⟨hrate.trans hsame.symm, participation, hin', hweight⟩
  exact sorted_ext h.sorted h'.sorted hmem

def SameClass (weightOf : Participation → Option Weight) (participants : List Participant)
    (demands : List Demand) (participants' : List Participant) (demands' : List Demand) : Prop :=
  (∀ id participation, (weightOf participation).isSome →
    (⟨id, participation⟩ ∈ participants ↔ ⟨id, participation⟩ ∈ participants')) ∧
  ∀ participant ∈ classOf weightOf participants,
    demandFor demands participant.id = demandFor demands' participant.id

theorem Phased.mem_contributors {capacity : Capacity} {participants : List Participant}
    {demands : List Demand} {contributors leeches : List Entry} {result : FairShare}
    (h : Phased capacity participants demands contributors leeches result) {id : ParticipantId}
    {weight : Weight} (hin : ⟨id, .contributing weight⟩ ∈ participants) :
    ⟨id, demandFor demands id, weight⟩ ∈ contributors :=
  (h.contributorList.mem_iff _).mpr ⟨rfl, _, hin, rfl⟩

theorem Phased.mem_leeches {capacity : Capacity} {participants : List Participant}
    {demands : List Demand} {contributors leeches : List Entry} {result : FairShare}
    (h : Phased capacity participants demands contributors leeches result) {id : ParticipantId}
    (hin : ⟨id, .leeching⟩ ∈ participants) :
    ∃ weight, ⟨id, demandFor demands id, weight⟩ ∈ leeches :=
  ⟨_, (h.leechList.mem_iff _).mpr ⟨rfl, _, hin, rfl⟩⟩

theorem allocate_contributors_independent {capacity : Capacity}
    {participants participants' : List Participant} {demands demands' : List Demand}
    {result result' : FairShare} (h : allocate capacity participants demands = .ok result)
    (h' : allocate capacity participants' demands' = .ok result')
    (hsame : SameClass contributorWeight participants demands participants' demands')
    {id : ParticipantId} {weight : Weight} (hin : ⟨id, .contributing weight⟩ ∈ participants) :
    result.rateOf id = result'.rateOf id := by
  obtain ⟨contributors, leeches, hphased⟩ := allocate_phased h
  obtain ⟨contributors', leeches', hphased'⟩ := allocate_phased h'
  obtain rfl := classList_eq hphased.contributorList hphased'.contributorList hsame.1 hsame.2
  have hentry := hphased.mem_contributors hin
  exact UInt64.toNat_inj.mp
    ((hphased.contributor_rate hentry).trans (hphased'.contributor_rate hentry).symm)

theorem allocate_leech_after_contributors {capacity : Capacity} {participants : List Participant}
    {demands : List Demand} {result : FairShare}
    (h : allocate capacity participants demands = .ok result) {leech id : ParticipantId}
    {weight : Weight} (hleech : ⟨leech, .leeching⟩ ∈ participants)
    (hrate : 0 < (result.rateOf leech).toNat)
    (hin : ⟨id, .contributing weight⟩ ∈ participants) : result.rateOf id = demandFor demands id := by
  obtain ⟨contributors, leeches, hphased⟩ := allocate_phased h
  have hle : demandTotal contributors ≤ capacity.value.toNat := by
    have hclass : (⟨leech, .leeching⟩ : Participant) ∈ classOf leechWeight participants :=
      List.mem_filter.mpr ⟨hleech, rfl⟩
    have hsingle : (result.rateOf leech).toNat ≤ _ := List.single_le_sum (fun _ _ => Nat.zero_le _) _
      (List.mem_map_of_mem (f := fun p : Participant => (result.rateOf p.id).toNat) hclass)
    rw [hphased.leech_rates] at hsingle
    omega
  have hentry := hphased.mem_contributors hin
  have hserved := (weightedMaxMin_settled capacity.value hphased.contributorList.ids_nodup).2.1 hle _
    hentry
  exact UInt64.toNat_inj.mp ((hphased.contributor_rate hentry).trans (rateIn_of_get? hserved))

theorem allocate_leeches_from_leftover {capacity capacity' : Capacity}
    {participants participants' : List Participant} {demands demands' : List Demand}
    {result result' : FairShare} (h : allocate capacity participants demands = .ok result)
    (h' : allocate capacity' participants' demands' = .ok result')
    (hsame : SameClass leechWeight participants demands participants' demands')
    (hleftover : capacity.value.toNat - classRates contributorWeight participants result =
      capacity'.value.toNat - classRates contributorWeight participants' result')
    {id : ParticipantId} (hin : ⟨id, .leeching⟩ ∈ participants) :
    result.rateOf id = result'.rateOf id := by
  obtain ⟨contributors, leeches, hphased⟩ := allocate_phased h
  obtain ⟨contributors', leeches', hphased'⟩ := allocate_phased h'
  obtain rfl := classList_eq hphased.leechList hphased'.leechList hsame.1 hsame.2
  have hleft : leftoverFor capacity contributors = leftoverFor capacity' contributors' := by
    rw [← UInt64.toNat_inj, toNat_leftoverFor _ hphased.contributorList.ids_nodup,
      toNat_leftoverFor _ hphased'.contributorList.ids_nodup, ← hphased.contributor_rates,
      ← hphased'.contributor_rates]
    exact hleftover
  obtain ⟨weight, hentry⟩ := hphased.mem_leeches hin
  have hrate := (hphased.leech_rate hentry).trans (by rw [hleft])
  exact UInt64.toNat_inj.mp (hrate.trans (hphased'.leech_rate hentry).symm)

theorem allocate_priority :
    (∀ {capacity participants participants' demands demands' result result'},
      allocate capacity participants demands = .ok result →
      allocate capacity participants' demands' = .ok result' →
      SameClass contributorWeight participants demands participants' demands' →
      ∀ id weight, ⟨id, .contributing weight⟩ ∈ participants →
        result.rateOf id = result'.rateOf id) ∧
    (∀ {capacity participants demands result},
      allocate capacity participants demands = .ok result →
      ∀ leech, ⟨leech, .leeching⟩ ∈ participants → 0 < (result.rateOf leech).toNat →
      ∀ id weight, ⟨id, .contributing weight⟩ ∈ participants →
        result.rateOf id = demandFor demands id) ∧
    ∀ {capacity capacity' participants participants' demands demands' result result'},
      allocate capacity participants demands = .ok result →
      allocate capacity' participants' demands' = .ok result' →
      SameClass leechWeight participants demands participants' demands' →
      capacity.value.toNat - classRates contributorWeight participants result =
        capacity'.value.toNat - classRates contributorWeight participants' result' →
      ∀ id, ⟨id, .leeching⟩ ∈ participants → result.rateOf id = result'.rateOf id :=
  ⟨fun h h' hsame _ _ hin => allocate_contributors_independent h h' hsame hin,
    fun h _ hleech hrate _ _ hin => allocate_leech_after_contributors h hleech hrate hin,
    fun h h' hsame hleftover _ hin => allocate_leeches_from_leftover h h' hsame hleftover hin⟩

def aloneShare : FairShare := twoPhases sampleCapacity [⟨1, 60, 1⟩] []

theorem allocate_alone :
    allocate sampleCapacity (sampleParticipants.take 1) (sampleDemands.take 1) = .ok aloneShare := rfl

theorem sample_sameClass : SameClass contributorWeight sampleParticipants sampleDemands
    (sampleParticipants.take 1) (sampleDemands.take 1) := by
  refine ⟨fun id participation hcontributes => ?_, fun participant hin => ?_⟩
  · cases participation with
    | contributing weight => simp [sampleParticipants]
    | leeching => simp [contributorWeight] at hcontributes
  · obtain rfl : participant = ⟨1, .contributing 1⟩ := by
      simpa [classOf, sampleParticipants, contributorWeight] using hin
    rfl

-- the capacity the contributor has left over
def leftCapacity : Capacity := ⟨40, by decide⟩

def leftShare : FairShare := twoPhases leftCapacity [] [⟨2, 100, 1⟩]

theorem allocate_left :
    allocate leftCapacity (sampleParticipants.drop 1) (sampleDemands.drop 1) = .ok leftShare := rfl

theorem sample_sameLeeches : SameClass leechWeight sampleParticipants sampleDemands
    (sampleParticipants.drop 1) (sampleDemands.drop 1) := by
  refine ⟨fun id participation hleeches => ?_, fun participant hin => ?_⟩
  · cases participation with
    | contributing weight => simp [leechWeight] at hleeches
    | leeching => simp [sampleParticipants]
  · obtain rfl : participant = ⟨2, .leeching⟩ := by
      simpa [classOf, sampleParticipants, leechWeight] using hin
    rfl

theorem allocate_priority_sample :
    sampleShare.rateOf ⟨1, by decide, by decide⟩ = aloneShare.rateOf ⟨1, by decide, by decide⟩ ∧
    sampleShare.rateOf ⟨1, by decide, by decide⟩ =
      demandFor sampleDemands ⟨1, by decide, by decide⟩ ∧
    sampleShare.rateOf ⟨2, by decide, by decide⟩ = leftShare.rateOf ⟨2, by decide, by decide⟩ :=
  ⟨allocate_priority.1 allocate_sample allocate_alone sample_sameClass _ 1 sample_contributor,
    allocate_priority.2.1 allocate_sample 2 sample_leech (by decide) _ 1 sample_contributor,
    allocate_priority.2.2 allocate_sample allocate_left sample_sameLeeches (by decide) _ sample_leech⟩

end SpiderNet.Fair
