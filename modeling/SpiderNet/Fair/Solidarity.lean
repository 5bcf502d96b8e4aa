import SpiderNet.Fair.Guarantee

namespace SpiderNet.Fair
open WaterLevel ListFacts

def lowered (ask : ParticipantId → UInt64) (entry : Entry) : Entry :=
  { entry with demand := ask entry.id }

-- some have left, and whoever stays asks for no more than before
def shrink (keep : Entry → Bool) (ask : ParticipantId → UInt64) (entries : List Entry) : List Entry :=
  (entries.filter keep).map (lowered ask)

section
variable {entries : List Entry} {keep : Entry → Bool} {ask : ParticipantId → UInt64}

theorem shrink_sorted (h : entries.Pairwise (·.id < ·.id)) :
    (shrink keep ask entries).Pairwise (·.id < ·.id) :=
  List.pairwise_map.mpr (h.filter keep)

theorem shrink_ids (h : (entries.map (·.id)).Nodup) : ((shrink keep ask entries).map (·.id)).Nodup := by
  rw [shrink, List.map_map]
  exact ((List.filter_sublist.map Entry.id).nodup h)

variable (hask : ∀ entry ∈ entries, ask entry.id ≤ entry.demand)
include hask

theorem lowered_want {entry : Entry} (he : entry ∈ entries) :
    (lowered ask entry).want ≤ entry.want :=
  Nat.cast_le.mpr (UInt64.le_iff_toNat_le.mp (hask entry he))

theorem fill_shrink_le {level : ℚ} (hlevel : 0 ≤ level) :
    fill Entry.want Entry.pull (shrink keep ask entries) level ≤
      fill Entry.want Entry.pull entries level :=
  sum_shrink_le keep
    (fun entry _ => le_min (Nat.cast_nonneg _) (mul_nonneg hlevel (pull_pos entry).le))
    fun _ he => min_le_min (lowered_want hask he) le_rfl

theorem demandTotal_shrink_le : demandTotal (shrink keep ask entries) ≤ demandTotal entries :=
  sum_shrink_le keep (fun _ _ => Nat.zero_le _) fun entry he => UInt64.le_iff_toNat_le.mp (hask entry he)

end

-- what the entries take when each is capped at its floor share
def capped (level : ℚ) (entries : List Entry) : ℕ :=
  (entries.map fun entry => min entry.demand.toNat (floorShare level entry)).sum

theorem capped_split {level : ℚ} (hlevel : 0 ≤ level) (entries : List Entry) :
    capped level entries = demandTotal (entries.filter (metAt level)) +
      ((unmetAt level entries).map (floorShare level)).sum := by
  have hmet : capped level (entries.filter (metAt level)) = demandTotal (entries.filter (metAt level)) := by
    refine congrArg List.sum (List.map_congr_left fun entry he => ?_)
    have h := (List.mem_filter.mp he).2
    rw [metAt_iff_floor hlevel, decide_eq_true_eq] at h
    exact min_eq_left h
  have hunmet : capped level (unmetAt level entries) =
      ((unmetAt level entries).map (floorShare level)).sum := by
    refine congrArg List.sum (List.map_congr_left fun entry he => ?_)
    have h := (List.mem_filter.mp he).2
    rw [metAt_iff_floor hlevel, Bool.not_eq_true', decide_eq_false_iff_not, not_le] at h
    exact min_eq_right h.le
  rw [← hmet, ← hunmet]
  exact (sum_filter_add (metAt level) _ entries).symm

section
variable {entries : List Entry} {keep : Entry → Bool} {ask : ParticipantId → UInt64}
  {level level' : ℚ} (hask : ∀ entry ∈ entries, ask entry.id ≤ entry.demand) (hlevel : 0 ≤ level)
  (hlevel' : 0 ≤ level') (hfloor : ∀ entry ∈ entries, floorShare level entry = floorShare level' entry)
include hask hfloor

variable (keep) in
theorem capped_shrink_le : capped level' (shrink keep ask entries) ≤ capped level entries := by
  have hcapped : capped level entries = capped level' entries :=
    congrArg List.sum (List.map_congr_left fun entry he => by rw [hfloor entry he])
  rw [hcapped]
  refine sum_shrink_le keep (fun _ _ => Nat.zero_le _) fun entry he => ?_
  exact min_le_min (UInt64.le_iff_toNat_le.mp (hask entry he)) le_rfl

include hlevel hlevel'

variable (keep) in
theorem earlier_shrink_le (entry : Entry) :
    earlier (unmetAt level' (shrink keep ask entries)) entry ≤ earlier (unmetAt level entries) entry := by
  simp only [earlier, unmetAt, shrink, ← List.countP_eq_length_filter, List.countP_filter,
    List.countP_map]
  refine List.countP_mono_left fun other ho h => ?_
  simp only [Function.comp_apply, Bool.and_eq_true, decide_eq_true_eq, Bool.not_eq_true'] at h ⊢
  obtain ⟨⟨hbefore, hunmet⟩, _⟩ := h
  refine ⟨hbefore, ?_⟩
  rw [metAt_iff_floor hlevel', decide_eq_false_iff_not, not_le] at hunmet
  rw [metAt_iff_floor hlevel, decide_eq_false_iff_not, not_le, hfloor other ho]
  exact hunmet.trans_le (UInt64.le_iff_toNat_le.mp (hask other ho))

omit hlevel hlevel' in
theorem WaterFilled.shrink_rate_mono {capacity capacity' : ℕ} {rates rates' : Rates}
    (h : WaterFilled capacity entries rates level)
    (h' : WaterFilled capacity' (shrink keep ask entries) rates' level') (hmore : capacity ≤ capacity')
    {entry : Entry} (he : entry ∈ entries) (he' : entry ∈ shrink keep ask entries)
    (hunmet : metAt level entry = false) (hunmet' : metAt level' entry = false) :
    rateIn rates entry.id ≤ rateIn rates' entry.id := by
  obtain ⟨remainder, hsum, _, hrates⟩ := h.unmet
  obtain ⟨remainder', hsum', _, hrates'⟩ := h'.unmet
  rw [← capped_split h.fills.1] at hsum
  rw [← capped_split h'.fills.1] at hsum'
  have hless := capped_shrink_le keep hask hfloor
  have hearlier := earlier_shrink_le keep hask h.fills.1 h'.fills.1 hfloor entry
  rw [rateIn_unmet (hrates entry (List.mem_filter.mpr ⟨he, by simp [hunmet]⟩)),
    rateIn_unmet (hrates' entry (List.mem_filter.mpr ⟨he', by simp [hunmet']⟩)), hfloor entry he]
  split_ifs <;> omega

end

section
variable {entries : List Entry} (hids : (entries.map (·.id)).Nodup) {keep : Entry → Bool}
  {ask : ParticipantId → UInt64} (hask : ∀ entry ∈ entries, ask entry.id ≤ entry.demand)
  {capacity capacity' : UInt64} (hmore : capacity.toNat ≤ capacity'.toNat) {entry : Entry}
  (he : entry ∈ entries) (he' : entry ∈ shrink keep ask entries)
include hids hask hmore he he'

theorem shrink_levels
    (hless : rateIn (weightedMaxMin (shrink keep ask entries) capacity') entry.id <
      rateIn (weightedMaxMin entries capacity) entry.id) :
    ∃ level level', level ≤ level' ∧
      WaterFilled capacity.toNat entries (weightedMaxMin entries capacity) level ∧
      WaterFilled capacity'.toNat (shrink keep ask entries)
        (weightedMaxMin (shrink keep ask entries) capacity') level' ∧
      metAt level entry = false ∧ metAt level' entry = false := by
  have hunserved := hless.trans_le (weightedMaxMin_rate_le capacity hids he)
  obtain ⟨level', hlevel', hunmet'⟩ := weightedMaxMin_unserved (shrink_ids hids) he' hunserved
  have hover' := hlevel'.over_of_unmet he' hunmet'
  have hover : capacity.toNat < demandTotal entries :=
    (hmore.trans_lt hover').trans_le (demandTotal_shrink_le hask)
  obtain ⟨level, hlevel⟩ := (weightedMaxMin_settled capacity hids).2.2 hover
  have hraise : level ≤ level' := by
    refine level_le_of_over Entry.want Entry.pull (fun entry _ => pull_pos entry) ?_ hlevel'.fills ?_
    · refine (fill_shrink_le hask hlevel.fills.1).trans ?_
      rw [hlevel.fills.2]
      exact_mod_cast hmore
    · rw [want_sum]
      exact_mod_cast hover'
  refine ⟨level, level', hraise, hlevel, hlevel', ?_, hunmet'⟩
  by_contra hmet
  rw [metAt_mono hraise (by simpa using hmet)] at hunmet'
  cases hunmet'

theorem shrink_loses_one : rateIn (weightedMaxMin entries capacity) entry.id ≤
    rateIn (weightedMaxMin (shrink keep ask entries) capacity') entry.id + 1 := by
  rcases le_or_gt (rateIn (weightedMaxMin entries capacity) entry.id)
    (rateIn (weightedMaxMin (shrink keep ask entries) capacity') entry.id) with hle | hless
  · exact hle.trans (Nat.le_succ _)
  · obtain ⟨level, level', hraise, hlevel, hlevel', hunmet, hunmet'⟩ :=
      shrink_levels hids hask hmore he he' hless
    calc rateIn (weightedMaxMin entries capacity) entry.id
        ≤ floorShare level entry + 1 := hlevel.rate_le_floor he hunmet
      _ ≤ floorShare level' entry + 1 := Nat.succ_le_succ (floorShare_mono hraise entry)
      _ ≤ rateIn (weightedMaxMin (shrink keep ask entries) capacity') entry.id + 1 :=
        Nat.succ_le_succ (hlevel'.floor_le_rate he' hunmet')

theorem shrink_equal_weights (hweights : ∀ other ∈ entries, other.weight = entry.weight) :
    rateIn (weightedMaxMin entries capacity) entry.id ≤
      rateIn (weightedMaxMin (shrink keep ask entries) capacity') entry.id := by
  by_contra hless
  rw [not_le] at hless
  obtain ⟨level, level', hraise, hlevel, hlevel', hunmet, hunmet'⟩ :=
    shrink_levels hids hask hmore he he' hless
  rcases (floorShare_mono hraise entry).lt_or_eq with hgain | hsame
  · have hhigh := hlevel.rate_le_floor he hunmet
    have hlow := hlevel'.floor_le_rate he' hunmet'
    omega
  · have hfloor : ∀ other ∈ entries, floorShare level other = floorShare level' other := by
      intro other ho
      rw [floorShare_weight (hweights other ho), hsame, floorShare_weight (hweights other ho)]
    have hmono := WaterFilled.shrink_rate_mono hask hfloor hlevel hlevel' hmore he he' hunmet hunmet'
    omega

end

section
variable {participants participants' : List Participant} {demands demands' : List Demand}
  (hids : (participants.map (·.id)).Nodup) (hstay : participants' ⊆ participants)
include hids hstay

theorem ClassList.shrink {weightOf : Participation → Option Weight} {entries entries' : List Entry}
    (h : ClassList weightOf participants demands entries)
    (h' : ClassList weightOf participants' demands' entries') :
    entries' = Fair.shrink (fun entry => entry.id ∈ participants'.map (·.id)) (demandFor demands')
      entries := by
  refine sorted_ext h'.sorted (shrink_sorted h.sorted) fun entry => ?_
  rw [h'.mem_iff, Fair.shrink, List.mem_map]
  constructor
  · rintro ⟨hdemand, participation, hin, hweight⟩
    refine ⟨⟨entry.id, demandFor demands entry.id, entry.weight⟩, List.mem_filter.mpr ⟨?_, ?_⟩, ?_⟩
    · exact (h.mem_iff _).mpr ⟨rfl, participation, hstay hin, hweight⟩
    · exact decide_eq_true (List.mem_map_of_mem (f := Participant.id) hin)
    · rw [lowered, ← hdemand]
  · rintro ⟨before, hbefore, rfl⟩
    obtain ⟨hbefore, hkept⟩ := List.mem_filter.mp hbefore
    obtain ⟨_, participation, hin, hweight⟩ := (h.mem_iff before).mp hbefore
    obtain ⟨participant, hparticipant, hid⟩ := List.mem_map.mp (of_decide_eq_true hkept)
    obtain rfl := List.inj_on_of_nodup_map hids (hstay hparticipant) hin hid
    exact ⟨rfl, participation, hparticipant, hweight⟩

variable (hless : ∀ id, demandFor demands' id ≤ demandFor demands id)
include hless

omit hids hstay in
theorem ClassList.asks_less {weightOf : Participation → Option Weight} {entries : List Entry}
    (hlist : ClassList weightOf participants demands entries) :
    ∀ entry ∈ entries, demandFor demands' entry.id ≤ entry.demand := by
  intro entry he
  rw [((hlist.mem_iff entry).mp he).1]
  exact hless entry.id

variable {capacity capacity' : Capacity} (hmore : capacity.value ≤ capacity'.value)
  {contributors leeches contributors' leeches' : List Entry} {result result' : FairShare}
  (h : Phased capacity participants demands contributors leeches result)
  (h' : Phased capacity' participants' demands' contributors' leeches' result')
include hmore h h'

theorem Phased.leftover_shrink :
    (leftoverFor capacity contributors).toNat ≤ (leftoverFor capacity' contributors').toNat := by
  have hdemand : demandTotal contributors' ≤ demandTotal contributors := by
    rw [h.contributorList.shrink hids hstay h'.contributorList]
    exact demandTotal_shrink_le (h.contributorList.asks_less hless)
  rw [UInt64.le_iff_toNat_le] at hmore
  rw [toNat_leftoverFor _ h.contributorList.ids_nodup, toNat_leftoverFor _ h'.contributorList.ids_nodup]
  omega

variable {id : ParticipantId} (hsame : demandFor demands' id = demandFor demands id)
include hsame

theorem Phased.leech_relief (hin : ⟨id, .leeching⟩ ∈ participants') :
    result.rateOf id ≤ result'.rateOf id := by
  obtain ⟨weight, hentry⟩ := h.mem_leeches (hstay hin)
  obtain ⟨weight', hentry'⟩ := h'.mem_leeches hin
  obtain rfl : weight = 1 := h.leechList.leech_weight hentry
  obtain rfl : weight' = 1 := h'.leechList.leech_weight hentry'
  have hrate : (result.rateOf id).toNat = _ := h.leech_rate hentry
  have hrate' : (result'.rateOf id).toNat = _ := h'.leech_rate hentry'
  have hshrink := h.leechList.shrink hids hstay h'.leechList
  rw [hsame, hshrink] at hentry'
  rw [UInt64.le_iff_toNat_le, hrate, hrate', hshrink]
  refine shrink_equal_weights h.leechList.ids_nodup (h.leechList.asks_less hless)
    (h.leftover_shrink hids hstay hless hmore h') hentry hentry' fun other ho => ?_
  rw [h.leechList.leech_weight ho]

variable {weight : Weight} (hin : ⟨id, .contributing weight⟩ ∈ participants')
include hin

theorem Phased.contributor_relief : (result.rateOf id).toNat ≤ (result'.rateOf id).toNat + 1 := by
  have hentry := h.mem_contributors (hstay hin)
  have hentry' := h'.mem_contributors hin
  have hrate : (result.rateOf id).toNat = _ := h.contributor_rate hentry
  have hrate' : (result'.rateOf id).toNat = _ := h'.contributor_rate hentry'
  have hshrink := h.contributorList.shrink hids hstay h'.contributorList
  rw [hsame, hshrink] at hentry'
  rw [hrate, hrate', hshrink]
  exact shrink_loses_one h.contributorList.ids_nodup (h.contributorList.asks_less hless)
    (UInt64.le_iff_toNat_le.mp hmore) hentry hentry'

theorem Phased.contributor_relief_even
    (hweights : ∀ other weight', ⟨other, .contributing weight'⟩ ∈ participants → weight' = weight) :
    result.rateOf id ≤ result'.rateOf id := by
  have hentry := h.mem_contributors (hstay hin)
  have hentry' := h'.mem_contributors hin
  have hrate : (result.rateOf id).toNat = _ := h.contributor_rate hentry
  have hrate' : (result'.rateOf id).toNat = _ := h'.contributor_rate hentry'
  have hshrink := h.contributorList.shrink hids hstay h'.contributorList
  rw [hsame, hshrink] at hentry'
  rw [UInt64.le_iff_toNat_le, hrate, hrate', hshrink]
  exact shrink_equal_weights h.contributorList.ids_nodup (h.contributorList.asks_less hless)
    (UInt64.le_iff_toNat_le.mp hmore) hentry hentry'
    fun other ho => hweights other.id other.weight (h.contributorList.contributor_mem ho)

end

-- households that leave or ask for less never cost another one more than a unit
theorem allocate_relief {capacity capacity' : Capacity} {participants participants' : List Participant}
    {demands demands' : List Demand} {result result' : FairShare}
    (h : allocate capacity participants demands = .ok result)
    (h' : allocate capacity' participants' demands' = .ok result')
    (hmore : capacity.value ≤ capacity'.value) (hstay : participants' ⊆ participants)
    (hless : ∀ id, demandFor demands' id ≤ demandFor demands id) {id : ParticipantId}
    (hsame : demandFor demands' id = demandFor demands id) :
    (⟨id, .leeching⟩ ∈ participants' → result.rateOf id ≤ result'.rateOf id) ∧
    ∀ weight, ⟨id, .contributing weight⟩ ∈ participants' →
      (result.rateOf id).toNat ≤ (result'.rateOf id).toNat + 1 ∧
      ((∀ other weight', ⟨other, .contributing weight'⟩ ∈ participants → weight' = weight) →
        result.rateOf id ≤ result'.rateOf id) := by
  obtain ⟨contributors, leeches, hphased⟩ := allocate_phased h
  obtain ⟨contributors', leeches', hphased'⟩ := allocate_phased h'
  exact ⟨hphased.leech_relief hphased.ids hstay hless hmore hphased' hsame, fun weight hin =>
    ⟨hphased.contributor_relief hphased.ids hstay hless hmore hphased' hsame hin,
      hphased.contributor_relief_even hphased.ids hstay hless hmore hphased' hsame hin⟩⟩

def firstLeftShare : FairShare := twoPhases sampleCapacity [⟨2, 80, 1⟩] [⟨3, 10, 1⟩]

theorem allocate_firstLeft : allocate sampleCapacity contestedParticipants.tail contestedDemands.tail =
    .ok firstLeftShare := rfl

theorem firstLeft_asks_less (id : ParticipantId) :
    demandFor contestedDemands.tail id ≤ demandFor contestedDemands id := by
  by_cases hfirst : id = 1
  · subst hfirst
    decide
  · have hrest : demandFor contestedDemands id = demandFor contestedDemands.tail id := by
      rw [demandFor, contestedDemands, List.find?_cons_of_neg (by simpa using Ne.symm hfirst)]
      rfl
    exact hrest ▸ UInt64.le_refl _

theorem allocate_relief_firstLeft : contestedShare.rateOf 3 ≤ firstLeftShare.rateOf 3 ∧
    (contestedShare.rateOf 2).toNat ≤ (firstLeftShare.rateOf 2).toNat + 1 :=
  ⟨(allocate_relief allocate_contested allocate_firstLeft (UInt64.le_refl _) (List.tail_subset _)
      firstLeft_asks_less rfl).1 (by simp [contestedParticipants]),
    ((allocate_relief allocate_contested allocate_firstLeft (UInt64.le_refl _) (List.tail_subset _)
      firstLeft_asks_less rfl).2 1 (by simp [contestedParticipants])).1⟩

end SpiderNet.Fair
