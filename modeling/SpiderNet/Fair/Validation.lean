import SpiderNet.Fair.Allocation
import Mathlib.Data.List.Duplicate

namespace SpiderNet.Fair

structure Listed (participants : List Participant) (demands : List Demand) : Prop where
  ids : (participants.map (·.id)).Nodup
  known : ∀ demand ∈ demands, demand.participant ∈ participants.map (·.id)
  once : (demands.map (·.participant)).Nodup

theorem participationOf_isOk {participants : List Participant}
    {known : OrdMap ParticipantId Participation} (hids : (participants.map (·.id)).Nodup)
    (hfresh : ∀ participant ∈ participants, known.get? participant.id = none) :
    ∃ participations, participationOf participants known = .ok participations := by
  induction participants generalizing known with
  | nil => exact ⟨known, rfl⟩
  | cons participant rest ih =>
    obtain ⟨hnew, hrest⟩ := List.nodup_cons.mp hids
    rw [participationOf, hfresh participant (by simp)]
    apply ih hrest
    intro other ho
    have hne : participant.id ≠ other.id :=
      fun heq => hnew (List.mem_map.mpr ⟨other, ho, heq.symm⟩)
    rw [OrdMap.get?_insert_ne _ hne]
    exact hfresh other (List.mem_cons_of_mem _ ho)

theorem demandOf_isOk {demands : List Demand} {known : OrdMap ParticipantId UInt64}
    (hids : (demands.map (·.participant)).Nodup)
    (hfresh : ∀ demand ∈ demands, known.get? demand.participant = none) :
    ∃ listed, demandOf demands known = .ok listed := by
  induction demands generalizing known with
  | nil => exact ⟨known, rfl⟩
  | cons demand rest ih =>
    obtain ⟨hnew, hrest⟩ := List.nodup_cons.mp hids
    rw [demandOf, hfresh demand (by simp)]
    apply ih hrest
    intro other ho
    have hne : demand.participant ≠ other.participant :=
      fun heq => hnew (List.mem_map.mpr ⟨other, ho, heq.symm⟩)
    rw [OrdMap.get?_insert_ne _ hne]
    exact hfresh other (List.mem_cons_of_mem _ ho)

theorem checkKnown_isOk {known : OrdMap ParticipantId Participation} {demands : List Demand}
    (h : ∀ demand ∈ demands, (known.get? demand.participant).isSome) :
    checkKnown known demands = .ok () := by
  induction demands with
  | nil => rfl
  | cons demand rest ih =>
    rw [checkKnown, OrdMap.contains, if_pos (h demand (by simp))]
    exact ih fun other ho => h other (List.mem_cons_of_mem _ ho)

theorem participations_isSome {participants : List Participant}
    {participations : OrdMap ParticipantId Participation}
    (h : participationOf participants .empty = .ok participations) (id : ParticipantId) :
    (participations.get? id).isSome ↔ id ∈ participants.map (·.id) := by
  obtain ⟨_, _, hmem⟩ := participationOf_ok h
  simp only [Option.isSome_iff_exists, hmem, OrdMap.get?_empty, reduceCtorEq, false_or, List.mem_map]
  constructor
  · rintro ⟨participation, hin⟩
    exact ⟨_, hin, rfl⟩
  · rintro ⟨participant, hin, rfl⟩
    exact ⟨participant.participation, hin⟩

theorem allocate_isOk_iff (capacity : Capacity) (participants : List Participant)
    (demands : List Demand) :
    (∃ result, allocate capacity participants demands = .ok result) ↔
      Listed participants demands := by
  constructor
  · rintro ⟨result, h⟩
    obtain ⟨hids, honce, hknown, _⟩ := allocate_ok h
    exact ⟨hids, hknown, honce⟩
  · rintro ⟨hids, hknown, honce⟩
    obtain ⟨participations, hp⟩ := @participationOf_isOk participants .empty hids (by simp)
    obtain ⟨listed, hd⟩ := @demandOf_isOk demands .empty honce (by simp)
    have hk : checkKnown participations demands = .ok () :=
      checkKnown_isOk fun demand hin => (participations_isSome hp _).mpr (hknown demand hin)
    refine ⟨twoPhases capacity (classEntries contributorWeight participations listed)
      (classEntries leechWeight participations listed), ?_⟩
    rw [allocate, hp, ok_bind, hk, ok_bind, hd, ok_bind]
    rfl

theorem participationOf_error {participants : List Participant}
    {known : OrdMap ParticipantId Participation} {error : FairnessError}
    (h : participationOf participants known = .error error) :
    ∃ pre participant post previous, participants = pre ++ participant :: post ∧
      (known.get? participant.id = some previous ∨ ⟨participant.id, previous⟩ ∈ pre) ∧
      error = if previous = participant.participation then .duplicateParticipant participant.id
        else .conflictingParticipation participant.id := by
  induction participants generalizing known with
  | nil => simp [participationOf] at h
  | cons participant rest ih =>
    rw [participationOf] at h
    cases hget : known.get? participant.id with
    | some previous =>
      refine ⟨[], participant, rest, previous, rfl, Or.inl hget, ?_⟩
      simp only [hget] at h
      split_ifs at h ⊢ <;> simpa using h.symm
    | none =>
      simp only [hget] at h
      obtain ⟨pre, other, post, previous, rfl, hprevious, herror⟩ := ih h
      refine ⟨participant :: pre, other, post, previous, rfl, ?_, herror⟩
      rw [OrdMap.get?_insert, List.mem_cons] at *
      split_ifs at hprevious with heq
      · rcases hprevious with hsame | hin
        · obtain rfl : participant.participation = previous := by simpa using hsame
          exact Or.inr (Or.inl (by rw [← heq]))
        · exact Or.inr (Or.inr hin)
      · exact hprevious.imp_right Or.inr

theorem checkKnown_error {known : OrdMap ParticipantId Participation} {demands : List Demand}
    {error : FairnessError} (h : checkKnown known demands = .error error) :
    ∃ demand ∈ demands, (known.get? demand.participant).isSome = false ∧
      error = .unknownParticipant demand.participant := by
  induction demands with
  | nil => simp [checkKnown] at h
  | cons demand rest ih =>
    rw [checkKnown] at h
    split_ifs at h with hknown
    · obtain ⟨other, ho, hother⟩ := ih h
      exact ⟨other, List.mem_cons_of_mem _ ho, hother⟩
    · exact ⟨demand, by simp, by simpa [OrdMap.contains] using hknown, by simpa using h.symm⟩

theorem demandOf_error {demands : List Demand} {known : OrdMap ParticipantId UInt64}
    {error : FairnessError} (h : demandOf demands known = .error error) :
    ∃ pre demand post, demands = pre ++ demand :: post ∧
      ((known.get? demand.participant).isSome ∨
        demand.participant ∈ pre.map (·.participant)) ∧
      error = .duplicateDemand demand.participant := by
  induction demands generalizing known with
  | nil => simp [demandOf] at h
  | cons demand rest ih =>
    rw [demandOf] at h
    cases hget : known.get? demand.participant with
    | some previous =>
      simp only [hget] at h
      exact ⟨[], demand, rest, rfl, Or.inl (by simp [hget]), by simpa using h.symm⟩
    | none =>
      simp only [hget] at h
      obtain ⟨pre, other, post, rfl, hknown, herror⟩ := ih h
      refine ⟨demand :: pre, other, post, rfl, ?_, herror⟩
      rw [OrdMap.get?_insert] at hknown
      rw [List.map_cons, List.mem_cons]
      split_ifs at hknown with heq
      · exact Or.inr (Or.inl heq.symm)
      · exact hknown.imp_right Or.inr

-- what the lists must look like for allocate to return the error
def Explains (participants : List Participant) (demands : List Demand) : FairnessError → Prop
  | .duplicateParticipant id =>
    ∃ participation, List.Duplicate ⟨id, participation⟩ participants
  | .conflictingParticipation id =>
    ∃ participation other, participation ≠ other ∧
      ⟨id, participation⟩ ∈ participants ∧ ⟨id, other⟩ ∈ participants
  | .unknownParticipant id =>
    (participants.map (·.id)).Nodup ∧ id ∈ demands.map (·.participant) ∧
      id ∉ participants.map (·.id)
  | .duplicateDemand id =>
    (participants.map (·.id)).Nodup ∧ List.Duplicate id (demands.map (·.participant))

theorem duplicate_of_split {α : Type} {pre post : List α} {x : α} (h : x ∈ pre) :
    List.Duplicate x (pre ++ x :: post) := by
  induction pre with
  | nil => simp at h
  | cons y ys ih =>
    rcases List.mem_cons.mp h with rfl | h
    · exact (show x ∈ ys ++ x :: post by simp).duplicate_cons_self
    · exact (ih h).duplicate_cons y

theorem allocate_error {capacity : Capacity} {participants : List Participant}
    {demands : List Demand} {error : FairnessError}
    (h : allocate capacity participants demands = .error error) :
    Explains participants demands error := by
  rw [allocate] at h
  cases hp : participationOf participants .empty with
  | error first =>
    obtain rfl : first = error := by simpa [hp, bind, Except.bind] using h
    obtain ⟨pre, participant, post, previous, rfl, hprevious, rfl⟩ := participationOf_error hp
    have hin : ⟨participant.id, previous⟩ ∈ pre := by simpa using hprevious
    split_ifs with hsame
    · obtain rfl := hsame
      exact ⟨participant.participation, duplicate_of_split hin⟩
    · exact ⟨previous, participant.participation, hsame, by simp [hin], by simp⟩
  | ok participations =>
    rw [hp, ok_bind] at h
    have hids := (participationOf_ok hp).1
    cases hk : checkKnown participations demands with
    | error second =>
      obtain rfl : second = error := by simpa [hk, bind, Except.bind] using h
      obtain ⟨demand, hin, hunknown, rfl⟩ := checkKnown_error hk
      refine ⟨hids, List.mem_map_of_mem hin, fun hmem => ?_⟩
      rw [(participations_isSome hp _).mpr hmem] at hunknown
      cases hunknown
    | ok _ =>
      rw [hk, ok_bind] at h
      cases hd : demandOf demands .empty with
      | error third =>
        obtain rfl : third = error := by simpa [hd, bind, Except.bind] using h
        obtain ⟨pre, demand, post, rfl, hknown, rfl⟩ := demandOf_error hd
        have hin : demand.participant ∈ pre.map (·.participant) := by simpa using hknown
        refine ⟨hids, ?_⟩
        rw [List.map_append, List.map_cons]
        exact duplicate_of_split hin
      | ok listed =>
        rw [hd, ok_bind] at h
        cases h

theorem Listed.perm {participants participants' : List Participant} {demands demands' : List Demand}
    (hparticipants : participants.Perm participants') (hdemands : demands.Perm demands')
    (h : Listed participants demands) : Listed participants' demands' := by
  refine ⟨(hparticipants.map _).nodup h.ids, fun demand hin => ?_, (hdemands.map _).nodup h.once⟩
  exact (hparticipants.map _).subset (h.known demand (hdemands.symm.subset hin))

theorem demandFor_perm {demands demands' : List Demand}
    (honce : (demands.map (·.participant)).Nodup) (h : demands.Perm demands') (id : ParticipantId) :
    demandFor demands id = demandFor demands' id := by
  by_cases hid : id ∈ demands.map (·.participant)
  · obtain ⟨demand, hin, rfl⟩ := List.mem_map.mp hid
    rw [demandFor_of_mem honce hin, demandFor_of_mem ((h.map _).nodup honce) (h.subset hin)]
  · rw [demandFor_of_not_mem hid, demandFor_of_not_mem fun hin => hid ((h.map _).symm.subset hin)]

theorem allocate_perm {capacity : Capacity} {participants participants' : List Participant}
    {demands demands' : List Demand} {result result' : FairShare}
    (hparticipants : participants.Perm participants') (hdemands : demands.Perm demands')
    (h : allocate capacity participants demands = .ok result)
    (h' : allocate capacity participants' demands' = .ok result') : result = result' := by
  obtain ⟨_, honce, _, contributors, leeches, hcontributors, hleeches, rfl⟩ := allocate_ok h
  obtain ⟨_, _, _, contributors', leeches', hcontributors', hleeches', rfl⟩ := allocate_ok h'
  rw [classList_eq hcontributors hcontributors' (fun _ _ _ => hparticipants.mem_iff)
      (fun participant _ => demandFor_perm honce hdemands participant.id),
    classList_eq hleeches hleeches' (fun _ _ _ => hparticipants.mem_iff)
      (fun participant _ => demandFor_perm honce hdemands participant.id)]

def SameOutcome : Except FairnessError FairShare → Except FairnessError FairShare → Prop
  | .ok result, .ok result' => result = result'
  | .error _, .error _ => True
  | _, _ => False

theorem allocate_sameOutcome (capacity : Capacity) {participants participants' : List Participant}
    {demands demands' : List Demand} (hparticipants : participants.Perm participants')
    (hdemands : demands.Perm demands') :
    SameOutcome (allocate capacity participants demands)
      (allocate capacity participants' demands') := by
  have hiff : Listed participants demands ↔ Listed participants' demands' :=
    ⟨.perm hparticipants hdemands, .perm hparticipants.symm hdemands.symm⟩
  rw [← allocate_isOk_iff capacity, ← allocate_isOk_iff capacity] at hiff
  cases h : allocate capacity participants demands with
  | ok result =>
    obtain ⟨result', h'⟩ := hiff.mp ⟨result, h⟩
    rw [h']
    exact allocate_perm hparticipants hdemands h h'
  | error error =>
    cases h' : allocate capacity participants' demands' with
    | ok result' =>
      obtain ⟨result, hok⟩ := hiff.mpr ⟨result', h'⟩
      rw [hok] at h
      cases h
    | error error' => trivial

theorem allocate_validation (capacity : Capacity) (participants : List Participant)
    (demands : List Demand) :
    ((∃ result, allocate capacity participants demands = .ok result) ↔
      (participants.map (·.id)).Nodup ∧
      (∀ demand ∈ demands, demand.participant ∈ participants.map (·.id)) ∧
      (demands.map (·.participant)).Nodup) ∧
    (∀ participants' demands', participants.Perm participants' → demands.Perm demands' →
      SameOutcome (allocate capacity participants demands)
        (allocate capacity participants' demands')) ∧
    ∀ error, allocate capacity participants demands = .error error →
      Explains participants demands error := by
  refine ⟨?_, fun _ _ => allocate_sameOutcome capacity, fun _ => allocate_error⟩
  rw [allocate_isOk_iff]
  exact ⟨fun h => ⟨h.ids, h.known, h.once⟩, fun ⟨hids, hknown, honce⟩ => ⟨hids, hknown, honce⟩⟩

theorem allocate_validation_sample :
    (∃ result, allocate sampleCapacity sampleParticipants sampleDemands = .ok result) ∧
    SameOutcome (allocate sampleCapacity sampleParticipants sampleDemands)
      (allocate sampleCapacity sampleParticipants.reverse sampleDemands.reverse) :=
  have hlisted := allocate_validation sampleCapacity sampleParticipants sampleDemands
  ⟨hlisted.1.mpr (by decide),
    hlisted.2.1 _ _ (List.reverse_perm _).symm (List.reverse_perm _).symm⟩

end SpiderNet.Fair
