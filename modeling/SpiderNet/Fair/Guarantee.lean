import SpiderNet.Fair.MoreCapacity

namespace SpiderNet.Fair
open WaterLevel ListFacts

-- what the members of a class ask for, in listing order
def requests (weightOf : Participation → Option Weight) (participants : List Participant)
    (demands : List Demand) : List Entry :=
  participants.filterMap fun participant =>
    (weightOf participant.participation).map fun weight =>
      ⟨participant.id, demandFor demands participant.id, weight⟩

-- the weight in a class of those that ask for anything
def askingWeight (weightOf : Participation → Option Weight) (participants : List Participant)
    (demands : List Demand) : ℕ :=
  totalWeight ((requests weightOf participants demands).filter fun entry => !idle entry)

theorem ClassList.mem_requests {weightOf : Participation → Option Weight}
    {participants : List Participant} {demands : List Demand} {entries : List Entry}
    (h : ClassList weightOf participants demands entries) (entry : Entry) :
    entry ∈ entries ↔ entry ∈ requests weightOf participants demands := by
  rw [h.mem_iff, requests, List.mem_filterMap]
  constructor
  · rintro ⟨hdemand, participation, hin, hweight⟩
    refine ⟨_, hin, Option.map_eq_some_iff.mpr ⟨entry.weight, hweight, ?_⟩⟩
    rw [← hdemand]
  · rintro ⟨participant, hin, hentry⟩
    obtain ⟨weight, hweight, rfl⟩ := Option.map_eq_some_iff.mp hentry
    exact ⟨rfl, participant.participation, hin, hweight⟩

theorem requests_ids (weightOf : Participation → Option Weight) (participants : List Participant)
    (demands : List Demand) : ((requests weightOf participants demands).map (·.id)).Sublist
      (participants.map (·.id)) := by
  induction participants with
  | nil => exact List.Sublist.refl _
  | cons participant rest ih =>
    cases hweight : weightOf participant.participation with
    | none =>
      simp only [requests, List.filterMap_cons, hweight, Option.map_none] at ih ⊢
      exact ih.trans (List.sublist_cons_self _ _)
    | some weight =>
      simp only [requests, List.filterMap_cons, hweight, Option.map_some, List.map_cons] at ih ⊢
      exact ih.cons_cons _

theorem ClassList.perm_requests {weightOf : Participation → Option Weight}
    {participants : List Participant} {demands : List Demand} {entries : List Entry}
    (h : ClassList weightOf participants demands entries) (hids : (participants.map (·.id)).Nodup) :
    entries.Perm (requests weightOf participants demands) :=
  (List.perm_ext_iff_of_nodup h.ids_nodup.of_map
    ((requests_ids weightOf participants demands).nodup hids).of_map).mpr h.mem_requests

theorem ClassList.askingWeight_eq {weightOf : Participation → Option Weight}
    {participants : List Participant} {demands : List Demand} {entries : List Entry}
    (h : ClassList weightOf participants demands entries) (hids : (participants.map (·.id)).Nodup) :
    totalWeight (entries.filter fun entry => !idle entry) = askingWeight weightOf participants demands :=
  (((h.perm_requests hids).filter _).map _).sum_eq

section
variable {capacity : ℕ} {entries : List Entry} {rates : Rates} {level : ℚ}

theorem WaterFilled.fills_busy (h : WaterFilled capacity entries rates level) :
    Fills Entry.want Entry.pull (entries.filter fun entry => !idle entry) capacity level := by
  have hidle : fill Entry.want Entry.pull (entries.filter idle) level = 0 := by
    refine List.sum_eq_zero fun value hvalue => ?_
    obtain ⟨entry, he, rfl⟩ := List.mem_map.mp hvalue
    have hnone : entry.want = 0 := by
      simp [Entry.want, idle_demand (List.mem_filter.mp he).2]
    rw [hnone]
    exact min_eq_left (mul_nonneg h.fills.1 (pull_pos entry).le)
  have hsplit := fill_filter_add Entry.want Entry.pull idle entries level
  rw [hidle, zero_add, h.fills.2] at hsplit
  exact ⟨h.fills.1, hsplit⟩

theorem WaterFilled.share_le_level (h : WaterFilled capacity entries rates level) {entry : Entry}
    (he : entry ∈ entries) (hunmet : metAt level entry = false) :
    (capacity : ℚ) / totalWeight (entries.filter fun entry => !idle entry) ≤ level := by
  have hbusy : idle entry = false := by
    by_contra hidle
    rw [Bool.not_eq_false] at hidle
    have hnone : entry.want = 0 := by simp [Entry.want, idle_demand hidle]
    simp only [metAt, hnone, decide_eq_false_iff_not, not_le] at hunmet
    exact absurd hunmet (not_lt.mpr (mul_nonneg h.fills.1 (pull_pos entry).le))
  have hne : (entries.filter fun entry => !idle entry) ≠ [] :=
    List.ne_nil_of_mem (List.mem_filter.mpr ⟨he, by simp [hbusy]⟩)
  have hpos : 0 < ((entries.filter fun entry => !idle entry).map Entry.pull).sum := by
    rw [pull_sum]
    exact_mod_cast totalWeight_pos hne
  have hlevel := level_ge_share Entry.want Entry.pull h.fills_busy hpos
  rwa [pull_sum] at hlevel

-- nobody is a unit and more ahead, per weight, of somebody who wants more
theorem WaterFilled.even (h : WaterFilled capacity entries rates level) {entry other : Entry}
    (he : entry ∈ entries) (ho : other ∈ entries) (hunmet : metAt level entry = false) :
    rateIn rates other.id * entry.weight.value <
      (rateIn rates entry.id + 1) * other.weight.value + entry.weight.value := by
  have hlow : level * entry.pull < rateIn rates entry.id + 1 :=
    (Nat.lt_floor_add_one _).trans_le
      (by exact_mod_cast Nat.succ_le_succ (h.floor_le_rate he hunmet))
  have hhigh : (rateIn rates other.id : ℚ) ≤ level * other.pull + 1 := by
    have hnonneg := mul_nonneg h.fills.1 (pull_pos other).le
    cases hmet : metAt level other with
    | true =>
      rw [rateIn_of_get? (h.met other ho hmet)]
      rw [metAt, decide_eq_true_eq] at hmet
      exact hmet.trans (le_add_of_nonneg_right zero_le_one)
    | false =>
      have hrate : (rateIn rates other.id : ℚ) ≤ ⌊level * other.pull⌋₊ + 1 := by
        exact_mod_cast h.rate_le_floor ho hmet
      exact hrate.trans (add_le_add (Nat.floor_le hnonneg) le_rfl)
  have hgoal : (rateIn rates other.id : ℚ) * entry.pull <
      (rateIn rates entry.id + 1) * other.pull + entry.pull := by
    calc (rateIn rates other.id : ℚ) * entry.pull
        ≤ (level * other.pull + 1) * entry.pull :=
          mul_le_mul_of_nonneg_right hhigh (pull_pos entry).le
      _ = level * entry.pull * other.pull + entry.pull := by ring
      _ < (rateIn rates entry.id + 1) * other.pull + entry.pull :=
          add_lt_add_of_lt_of_le (mul_lt_mul_of_pos_right hlow (pull_pos other)) le_rfl
  simp only [Entry.pull] at hgoal
  exact_mod_cast hgoal

end

section
variable {entries : List Entry} (hids : (entries.map (·.id)).Nodup) {capacity : UInt64} {entry : Entry}
  (he : entry ∈ entries)
include hids he

theorem weightedMaxMin_guarantee : min entry.demand.toNat
    (capacity.toNat * entry.weight.value / totalWeight (entries.filter fun entry => !idle entry)) ≤
      rateIn (weightedMaxMin entries capacity) entry.id := by
  rcases (weightedMaxMin_rate_le capacity hids he).lt_or_eq with hless | hall
  · obtain ⟨level, hlevel, hunmet⟩ := weightedMaxMin_unserved hids he hless
    refine (min_le_right _ _).trans (le_trans ?_ (hlevel.floor_le_rate he hunmet))
    have hshare := share_eq_floor capacity (totalWeight (entries.filter fun entry => !idle entry)) entry
    rw [share] at hshare
    rw [hshare]
    exact floorShare_mono (hlevel.share_le_level he hunmet) entry
  · rw [hall]
    exact min_le_left _ _

-- taking more than the rate, within the capacity, takes from somebody who is not behind
theorem weightedMaxMin_no_better {other : ParticipantId → ℕ}
    (hdemand : ∀ entry ∈ entries, other entry.id ≤ entry.demand.toNat)
    (hfits : (entries.map fun entry => other entry.id).sum ≤ capacity.toNat)
    (hmore : rateIn (weightedMaxMin entries capacity) entry.id < other entry.id) :
    ∃ loser ∈ entries, other loser.id < rateIn (weightedMaxMin entries capacity) loser.id ∧
      rateIn (weightedMaxMin entries capacity) loser.id * entry.weight.value <
        (rateIn (weightedMaxMin entries capacity) entry.id + 1) * loser.weight.value +
          entry.weight.value := by
  have hless := hmore.trans_le (hdemand entry he)
  obtain ⟨level, hlevel, hunmet⟩ := weightedMaxMin_unserved hids he hless
  have hloser : ∃ loser ∈ entries,
      other loser.id < rateIn (weightedMaxMin entries capacity) loser.id := by
    by_contra hnone
    push Not at hnone
    have hlt := List.sum_lt_sum (fun entry : Entry => rateIn (weightedMaxMin entries capacity) entry.id)
      (fun entry => other entry.id) hnone ⟨entry, he, hmore⟩
    rw [waterFilled_total hids hlevel] at hlt
    omega
  obtain ⟨loser, hl, hloses⟩ := hloser
  exact ⟨loser, hl, hloses, hlevel.even he hl hunmet⟩

end

-- another way to serve a class from the same room, nobody above its demand
structure Alternative (weightOf : Participation → Option Weight) (participants : List Participant)
    (demands : List Demand) (room : ℕ) (other : ParticipantId → ℕ) : Prop where
  demanded : ∀ participant ∈ classOf weightOf participants,
    other participant.id ≤ (demandFor demands participant.id).toNat
  fits : ((classOf weightOf participants).map fun participant => other participant.id).sum ≤ room

-- max-min fairness to the unit: more for one member is less for one that was not ahead of it
def MaxMinFair (weightOf : Participation → Option Weight) (participants : List Participant)
    (demands : List Demand) (room : ℕ) (result : FairShare) : Prop :=
  ∀ other, Alternative weightOf participants demands room other →
    ∀ id participation weight, ⟨id, participation⟩ ∈ participants →
      weightOf participation = some weight → (result.rateOf id).toNat < other id →
      ∃ loser participation' weight', ⟨loser, participation'⟩ ∈ participants ∧
        weightOf participation' = some weight' ∧ other loser < (result.rateOf loser).toNat ∧
        (result.rateOf loser).toNat * weight.value <
          ((result.rateOf id).toNat + 1) * weight'.value + weight.value

theorem ClassList.maxMinFair {weightOf : Participation → Option Weight}
    {participants : List Participant} {demands : List Demand} {entries : List Entry}
    (h : ClassList weightOf participants demands entries) (hids : (participants.map (·.id)).Nodup)
    {room : UInt64} {result : FairShare} (hrates : ∀ entry ∈ entries,
      (result.rateOf entry.id).toNat = rateIn (weightedMaxMin entries room) entry.id) :
    MaxMinFair weightOf participants demands room.toNat result := by
  intro other halternative id participation weight hin hweight hmore
  have he : ⟨id, demandFor demands id, weight⟩ ∈ entries :=
    (h.mem_iff _).mpr ⟨rfl, participation, hin, hweight⟩
  have hdemand : ∀ entry ∈ entries, other entry.id ≤ entry.demand.toNat := by
    intro entry hentry
    obtain ⟨hasked, participation', hin', hweight'⟩ := (h.mem_iff entry).mp hentry
    have hclass : ⟨entry.id, participation'⟩ ∈ classOf weightOf participants :=
      List.mem_filter.mpr ⟨hin', by simp [hweight']⟩
    rw [hasked]
    exact halternative.demanded _ hclass
  have hfits : (entries.map fun entry => other entry.id).sum ≤ room.toNat := by
    have hsum := ((h.ids_perm hids).map other).sum_eq
    rw [List.map_map, List.map_map] at hsum
    exact hsum.trans_le halternative.fits
  have hrate : (result.rateOf id).toNat = _ := hrates _ he
  rw [hrate] at hmore ⊢
  obtain ⟨loser, hl, hloses, hbehind⟩ := weightedMaxMin_no_better h.ids_nodup he hdemand hfits hmore
  obtain ⟨_, participation', hin', hweight'⟩ := (h.mem_iff loser).mp hl
  refine ⟨loser.id, participation', loser.weight, hin', hweight', ?_⟩
  rw [hrates loser hl]
  exact ⟨hloses, hbehind⟩

section
variable {capacity : Capacity} {participants : List Participant} {demands : List Demand}
  {result : FairShare}

theorem Phased.leftover_eq {contributors leeches : List Entry}
    (h : Phased capacity participants demands contributors leeches result) :
    (leftoverFor capacity contributors).toNat =
      capacity.value.toNat - classRates contributorWeight participants result := by
  have hrates : classRates contributorWeight participants result = _ := h.contributor_rates
  rw [toNat_leftoverFor capacity h.contributorList.ids_nodup, hrates]

theorem allocate_max_min_fair (h : allocate capacity participants demands = .ok result) :
    MaxMinFair contributorWeight participants demands capacity.value.toNat result ∧
    MaxMinFair leechWeight participants demands
      (capacity.value.toNat - classRates contributorWeight participants result) result := by
  obtain ⟨contributors, leeches, hphased⟩ := allocate_phased h
  have hleeches := hphased.leechList.maxMinFair hphased.ids fun entry he => hphased.leech_rate he
  rw [hphased.leftover_eq] at hleeches
  exact ⟨hphased.contributorList.maxMinFair hphased.ids fun entry he => hphased.contributor_rate he,
    hleeches⟩

theorem allocate_guarantees (h : allocate capacity participants demands = .ok result) :
    (∀ id weight, ⟨id, .contributing weight⟩ ∈ participants →
      min (demandFor demands id).toNat (capacity.value.toNat * weight.value /
        askingWeight contributorWeight participants demands) ≤ (result.rateOf id).toNat) ∧
    ∀ id, ⟨id, .leeching⟩ ∈ participants →
      min (demandFor demands id).toNat
        ((capacity.value.toNat - classRates contributorWeight participants result) /
          askingWeight leechWeight participants demands) ≤ (result.rateOf id).toNat := by
  obtain ⟨contributors, leeches, hphased⟩ := allocate_phased h
  constructor
  · intro id weight hin
    have hentry := hphased.mem_contributors hin
    have hrate : (result.rateOf id).toNat = _ := hphased.contributor_rate hentry
    rw [hrate, ← hphased.contributorList.askingWeight_eq hphased.ids]
    exact weightedMaxMin_guarantee hphased.contributorList.ids_nodup hentry
  · intro id hin
    obtain ⟨weight, hentry⟩ := hphased.mem_leeches hin
    have hrate : (result.rateOf id).toNat = _ := hphased.leech_rate hentry
    obtain rfl : weight = 1 := hphased.leechList.leech_weight hentry
    have hguarantee := @weightedMaxMin_guarantee _ hphased.leechList.ids_nodup
      (leftoverFor capacity contributors) _ hentry
    rw [hphased.leftover_eq, hphased.leechList.askingWeight_eq hphased.ids] at hguarantee
    rw [hrate]
    exact (congrArg (min _) (congrArg (· / _) (Nat.mul_one _))).symm.trans_le hguarantee

end

def contestedParticipants : List Participant :=
  [⟨1, .contributing 2⟩, ⟨2, .contributing 1⟩, ⟨3, .leeching⟩]

def contestedDemands : List Demand := [⟨1, 90⟩, ⟨2, 80⟩, ⟨3, 10⟩]

def contestedShare : FairShare := twoPhases sampleCapacity [⟨1, 90, 2⟩, ⟨2, 80, 1⟩] [⟨3, 10, 1⟩]

theorem allocate_contested :
    allocate sampleCapacity contestedParticipants contestedDemands = .ok contestedShare := rfl

theorem allocate_max_min_fair_contested :
    MaxMinFair contributorWeight contestedParticipants contestedDemands 100 contestedShare :=
  (allocate_max_min_fair allocate_contested).1

theorem allocate_guarantees_contested :
    min (demandFor contestedDemands 2).toNat
      (100 * 1 / askingWeight contributorWeight contestedParticipants contestedDemands) ≤
        (contestedShare.rateOf 2).toNat :=
  (allocate_guarantees allocate_contested).1 2 1 (by simp [contestedParticipants])

end SpiderNet.Fair
