import SpiderNet.Fair.FalseDemand
import SpiderNet.Fair.Validation

namespace SpiderNet.Fair
open WaterLevel ListFacts

section
variable {capacity capacity' : ℕ} {entries : List Entry} {rates rates' : Rates} {level level' : ℚ}

theorem WaterFilled.level_mono (h : WaterFilled capacity entries rates level)
    (h' : WaterFilled capacity' entries rates' level') (hle : capacity ≤ capacity')
    (hover : capacity < demandTotal entries) : level ≤ level' := by
  apply fills_level_mono Entry.want Entry.pull (fun entry _ => pull_pos entry) h.fills h'.fills
  · exact_mod_cast hle
  · rw [want_sum]
    exact_mod_cast hover

theorem metAt_mono (hlevel : level ≤ level') {entry : Entry} (hmet : metAt level entry) :
    metAt level' entry := by
  have hraise := mul_le_mul_of_nonneg_right hlevel (pull_pos entry).le
  simp only [metAt, decide_eq_true_eq] at hmet ⊢
  exact hmet.trans hraise

theorem floorShare_mono (hlevel : level ≤ level') (entry : Entry) :
    floorShare level entry ≤ floorShare level' entry :=
  Nat.floor_mono (mul_le_mul_of_nonneg_right hlevel (pull_pos entry).le)

theorem metAt_iff_floor (hlevel : 0 ≤ level) (entry : Entry) :
    metAt level entry = decide (entry.demand.toNat ≤ floorShare level entry) := by
  rw [metAt, decide_eq_decide]
  exact (Nat.le_floor_iff (mul_nonneg hlevel (pull_pos entry).le)).symm

theorem floorShare_weight {entry other : Entry} (h : other.weight = entry.weight) :
    floorShare level other = floorShare level entry := by
  rw [floorShare, floorShare, Entry.pull, Entry.pull, h]

theorem WaterFilled.rate_le_floor (h : WaterFilled capacity entries rates level) {entry : Entry}
    (he : entry ∈ entries) (hunmet : metAt level entry = false) :
    rateIn rates entry.id ≤ floorShare level entry + 1 := by
  obtain ⟨remainder, _, _, hrates⟩ := h.unmet
  rw [rateIn_unmet (hrates entry (List.mem_filter.mpr ⟨he, by simp [hunmet]⟩))]
  split_ifs <;> omega

-- with one set met and the same floor shares, all that a higher capacity adds is remainder
theorem WaterFilled.rate_mono_of_floor (h : WaterFilled capacity entries rates level)
    (h' : WaterFilled capacity' entries rates' level') (hle : capacity ≤ capacity')
    (hfloor : ∀ entry ∈ entries, floorShare level entry = floorShare level' entry) {entry : Entry}
    (he : entry ∈ entries) (hunmet : metAt level entry = false) :
    rateIn rates entry.id ≤ rateIn rates' entry.id := by
  have hmet : ∀ other ∈ entries, metAt level other = metAt level' other := fun other ho => by
    rw [metAt_iff_floor h.fills.1, metAt_iff_floor h'.fills.1, hfloor other ho]
  have hsatisfied : entries.filter (metAt level) = entries.filter (metAt level') :=
    List.filter_congr hmet
  have hactive : unmetAt level entries = unmetAt level' entries :=
    List.filter_congr fun other ho => by rw [hmet other ho]
  have hshares : (unmetAt level' entries).map (floorShare level) =
      (unmetAt level' entries).map (floorShare level') :=
    List.map_congr_left fun other ho => hfloor other (List.mem_filter.mp ho).1
  have hin : entry ∈ unmetAt level entries := List.mem_filter.mpr ⟨he, by simp [hunmet]⟩
  obtain ⟨remainder, hsum, _, hrates⟩ := h.unmet
  obtain ⟨remainder', hsum', _, hrates'⟩ := h'.unmet
  rw [hsatisfied, hactive, hshares] at hsum
  have hmore : remainder ≤ remainder' := by omega
  rw [rateIn_unmet (hrates entry hin), rateIn_unmet (hrates' entry (hactive ▸ hin)), hactive,
    hfloor entry he]
  split_ifs <;> omega

end

section
variable {entries : List Entry} (hids : (entries.map (·.id)).Nodup) {entry : Entry}
  (he : entry ∈ entries) {capacity capacity' : UInt64} (hmore : capacity.toNat ≤ capacity'.toNat)
include hids he hmore

theorem weightedMaxMin_levels
    (hless : rateIn (weightedMaxMin entries capacity') entry.id <
      rateIn (weightedMaxMin entries capacity) entry.id) :
    ∃ level level', level ≤ level' ∧
      WaterFilled capacity.toNat entries (weightedMaxMin entries capacity) level ∧
      WaterFilled capacity'.toNat entries (weightedMaxMin entries capacity') level' ∧
      metAt level entry = false ∧ metAt level' entry = false := by
  have hunserved := hless.trans_le (weightedMaxMin_rate_le capacity hids he)
  obtain ⟨level', hlevel', hunmet'⟩ := weightedMaxMin_unserved hids he hunserved
  have hover := hmore.trans_lt (hlevel'.over_of_unmet he hunmet')
  obtain ⟨level, hlevel⟩ := (weightedMaxMin_settled capacity hids).2.2 hover
  have hraise := hlevel.level_mono hlevel' hmore hover
  refine ⟨level, level', hraise, hlevel, hlevel', ?_, hunmet'⟩
  by_contra hmet
  rw [metAt_mono hraise (by simpa using hmet)] at hunmet'
  cases hunmet'

theorem weightedMaxMin_loses_one : rateIn (weightedMaxMin entries capacity) entry.id ≤
    rateIn (weightedMaxMin entries capacity') entry.id + 1 := by
  rcases le_or_gt (rateIn (weightedMaxMin entries capacity) entry.id)
    (rateIn (weightedMaxMin entries capacity') entry.id) with hle | hless
  · exact hle.trans (Nat.le_succ _)
  · obtain ⟨level, level', hraise, hlevel, hlevel', hunmet, hunmet'⟩ :=
      weightedMaxMin_levels hids he hmore hless
    calc rateIn (weightedMaxMin entries capacity) entry.id
        ≤ floorShare level entry + 1 := hlevel.rate_le_floor he hunmet
      _ ≤ floorShare level' entry + 1 := Nat.succ_le_succ (floorShare_mono hraise entry)
      _ ≤ rateIn (weightedMaxMin entries capacity') entry.id + 1 :=
        Nat.succ_le_succ (hlevel'.floor_le_rate he hunmet')

theorem weightedMaxMin_equal_weights
    (hweights : ∀ other ∈ entries, other.weight = entry.weight) :
    rateIn (weightedMaxMin entries capacity) entry.id ≤
      rateIn (weightedMaxMin entries capacity') entry.id := by
  by_contra hless
  rw [not_le] at hless
  obtain ⟨level, level', hraise, hlevel, hlevel', hunmet, hunmet'⟩ :=
    weightedMaxMin_levels hids he hmore hless
  rcases (floorShare_mono hraise entry).lt_or_eq with hgain | hsame
  · have hhigh := hlevel.rate_le_floor he hunmet
    have hlow := hlevel'.floor_le_rate he hunmet'
    omega
  · have hfloor : ∀ other ∈ entries, floorShare level other = floorShare level' other := by
      intro other ho
      rw [floorShare_weight (hweights other ho), hsame, floorShare_weight (hweights other ho)]
    have hmono := hlevel.rate_mono_of_floor hlevel' hmore hfloor he hunmet
    omega

end

theorem leftoverFor_mono {capacity capacity' : Capacity} {contributors : List Entry}
    (hids : (contributors.map (·.id)).Nodup) (hmore : capacity.value ≤ capacity'.value) :
    (leftoverFor capacity contributors).toNat ≤ (leftoverFor capacity' contributors).toNat := by
  rw [UInt64.le_iff_toNat_le] at hmore
  rw [toNat_leftoverFor _ hids, toNat_leftoverFor _ hids]
  omega

theorem ClassList.leech_weight {participants : List Participant} {demands : List Demand}
    {leeches : List Entry} (h : ClassList leechWeight participants demands leeches) {entry : Entry}
    (he : entry ∈ leeches) : entry.weight = 1 := by
  obtain ⟨_, participation, _, hweight⟩ := (h.mem_iff entry).mp he
  cases participation with
  | contributing weight => simp [leechWeight] at hweight
  | leeching => simpa [leechWeight] using hweight.symm

theorem ClassList.contributor_mem {participants : List Participant} {demands : List Demand}
    {contributors : List Entry} (h : ClassList contributorWeight participants demands contributors)
    {entry : Entry} (he : entry ∈ contributors) :
    ⟨entry.id, .contributing entry.weight⟩ ∈ participants := by
  obtain ⟨_, participation, hin, hweight⟩ := (h.mem_iff entry).mp he
  cases participation with
  | contributing weight =>
    obtain rfl : weight = entry.weight := by simpa [contributorWeight] using hweight
    exact hin
  | leeching => simp [contributorWeight] at hweight

section
variable {capacity capacity' : Capacity} {participants : List Participant} {demands : List Demand}
  {contributors leeches : List Entry} {result result' : FairShare} {id : ParticipantId}
  (h : Phased capacity participants demands contributors leeches result)
  (h' : Phased capacity' participants demands contributors leeches result')
  (hmore : capacity.value ≤ capacity'.value)
include h h' hmore

theorem Phased.leech_mono (hin : ⟨id, .leeching⟩ ∈ participants) :
    result.rateOf id ≤ result'.rateOf id := by
  obtain ⟨weight, hentry⟩ := h.mem_leeches hin
  have hrate : (result.rateOf id).toNat = _ := h.leech_rate hentry
  have hrate' : (result'.rateOf id).toNat = _ := h'.leech_rate hentry
  rw [UInt64.le_iff_toNat_le, hrate, hrate']
  apply weightedMaxMin_equal_weights h.leechList.ids_nodup hentry
    (leftoverFor_mono h.contributorList.ids_nodup hmore)
  intro other ho
  rw [h.leechList.leech_weight ho, h.leechList.leech_weight hentry]

variable {weight : Weight} (hin : ⟨id, .contributing weight⟩ ∈ participants)
include hin

theorem Phased.contributor_loses_one :
    (result.rateOf id).toNat ≤ (result'.rateOf id).toNat + 1 := by
  have hentry := h.mem_contributors hin
  have hrate : (result.rateOf id).toNat = _ := h.contributor_rate hentry
  have hrate' : (result'.rateOf id).toNat = _ := h'.contributor_rate hentry
  rw [hrate, hrate']
  exact weightedMaxMin_loses_one h.contributorList.ids_nodup hentry (UInt64.le_iff_toNat_le.mp hmore)

theorem Phased.contributor_mono
    (hweights : ∀ other weight', ⟨other, .contributing weight'⟩ ∈ participants → weight' = weight) :
    result.rateOf id ≤ result'.rateOf id := by
  have hentry := h.mem_contributors hin
  have hrate : (result.rateOf id).toNat = _ := h.contributor_rate hentry
  have hrate' : (result'.rateOf id).toNat = _ := h'.contributor_rate hentry
  rw [UInt64.le_iff_toNat_le, hrate, hrate']
  apply weightedMaxMin_equal_weights h.contributorList.ids_nodup hentry
    (UInt64.le_iff_toNat_le.mp hmore)
  exact fun other ho => hweights other.id other.weight (h.contributorList.contributor_mem ho)

end

theorem allocate_phased_again {capacity : Capacity} {participants : List Participant}
    {demands : List Demand} {contributors leeches : List Entry} {result : FairShare}
    (h : Phased capacity participants demands contributors leeches result) (capacity' : Capacity)
    (hlisted : Listed participants demands) :
    ∃ result', allocate capacity' participants demands = .ok result' ∧
      Phased capacity' participants demands contributors leeches result' := by
  obtain ⟨result', h'⟩ := (allocate_isOk_iff capacity' participants demands).mpr hlisted
  obtain ⟨contributors', leeches', hphased'⟩ := allocate_phased h'
  obtain rfl : contributors = contributors' :=
    classList_eq h.contributorList hphased'.contributorList (fun _ _ _ => Iff.rfl) fun _ _ => rfl
  obtain rfl : leeches = leeches' :=
    classList_eq h.leechList hphased'.leechList (fun _ _ _ => Iff.rfl) fun _ _ => rfl
  exact ⟨result', h', hphased'⟩

theorem allocate_capacity_mono {capacity capacity' : Capacity} {participants : List Participant}
    {demands : List Demand} {result : FairShare}
    (h : allocate capacity participants demands = .ok result)
    (hmore : capacity.value ≤ capacity'.value) :
    ∃ result', allocate capacity' participants demands = .ok result' ∧
      (∀ id, ⟨id, .leeching⟩ ∈ participants → result.rateOf id ≤ result'.rateOf id) ∧
      (∀ id weight, ⟨id, .contributing weight⟩ ∈ participants →
        (result.rateOf id).toNat ≤ (result'.rateOf id).toNat + 1) ∧
      ((∀ first weight second weight', ⟨first, .contributing weight⟩ ∈ participants →
          ⟨second, .contributing weight'⟩ ∈ participants → weight' = weight) →
        ∀ id weight, ⟨id, .contributing weight⟩ ∈ participants →
          result.rateOf id ≤ result'.rateOf id) := by
  obtain ⟨contributors, leeches, hphased⟩ := allocate_phased h
  have hlisted := (allocate_isOk_iff capacity participants demands).mp ⟨result, h⟩
  obtain ⟨result', h', hphased'⟩ := allocate_phased_again hphased capacity' hlisted
  exact ⟨result', h', fun _ => hphased.leech_mono hphased' hmore,
    fun _ _ => hphased.contributor_loses_one hphased' hmore,
    fun hweights id weight hin => hphased.contributor_mono hphased' hmore hin
      fun other weight' => hweights id weight other weight' hin⟩

def raisedCapacity : Capacity := ⟨101, by decide⟩

theorem allocate_capacity_mono_sample :
    ∃ result', allocate raisedCapacity sampleParticipants sampleDemands = .ok result' ∧
      sampleShare.rateOf ⟨2, by decide, by decide⟩ ≤ result'.rateOf ⟨2, by decide, by decide⟩ ∧
      (sampleShare.rateOf ⟨1, by decide, by decide⟩).toNat ≤
        (result'.rateOf ⟨1, by decide, by decide⟩).toNat + 1 :=
  have ⟨result', h', hleeches, hcontributors, _⟩ :=
    @allocate_capacity_mono _ raisedCapacity _ _ _ allocate_sample (by decide)
  ⟨result', h', hleeches _ sample_leech, hcontributors _ 1 sample_contributor⟩

end SpiderNet.Fair
