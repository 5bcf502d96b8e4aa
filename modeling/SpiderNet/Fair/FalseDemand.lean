import SpiderNet.Fair.Allocation

namespace SpiderNet.Fair
open WaterLevel ListFacts

def claim (id : ParticipantId) (demand : UInt64) (entry : Entry) : Entry :=
  if entry.id = id then { entry with demand := demand } else entry

theorem claim_self {id : ParticipantId} (demand : UInt64) {entry : Entry} (h : entry.id = id) :
    claim id demand entry = { entry with demand := demand } := if_pos h

theorem claim_other {id : ParticipantId} (demand : UInt64) {entry : Entry} (h : entry.id ≠ id) :
    claim id demand entry = entry := if_neg h

@[simp] theorem claim_id (id : ParticipantId) (demand : UInt64) (entry : Entry) :
    (claim id demand entry).id = entry.id := by
  unfold claim
  split_ifs <;> rfl

@[simp] theorem claim_weight (id : ParticipantId) (demand : UInt64) (entry : Entry) :
    (claim id demand entry).weight = entry.weight := by
  unfold claim
  split_ifs <;> rfl

@[simp] theorem claim_pull (id : ParticipantId) (demand : UInt64) (entry : Entry) :
    (claim id demand entry).pull = entry.pull := by
  rw [Entry.pull, claim_weight, Entry.pull]

theorem map_claim_ids (id : ParticipantId) (demand : UInt64) (entries : List Entry) :
    (entries.map (claim id demand)).map (·.id) = entries.map (·.id) := by
  rw [List.map_map]
  exact List.map_congr_left fun entry _ => claim_id id demand entry

theorem claim_back (demand : UInt64) (entry : Entry) :
    claim entry.id entry.demand (claim entry.id demand entry) = entry := by
  simp [claim]

theorem map_claim_back {entries : List Entry} (hids : (entries.map (·.id)).Nodup) {entry : Entry}
    (he : entry ∈ entries) (demand : UInt64) :
    (entries.map (claim entry.id demand)).map (claim entry.id entry.demand) = entries := by
  rw [List.map_map]
  refine (List.map_congr_left fun other ho => ?_).trans (List.map_id _)
  by_cases heq : other.id = entry.id
  · obtain rfl := List.inj_on_of_nodup_map hids ho he heq
    simp [claim]
  · simp [claim, heq]

section
variable {capacity : ℕ} {entries : List Entry} {rates rates' : Rates} {level level' : ℚ}

theorem WaterFilled.level_unique (h : WaterFilled capacity entries rates level)
    (h' : WaterFilled capacity entries rates' level') (hover : capacity < demandTotal entries) :
    level = level' := by
  refine fills_level_unique Entry.want Entry.pull (fun entry _ => pull_pos entry) h.fills h'.fills ?_
  rw [want_sum]
  exact_mod_cast hover

theorem WaterFilled.rates_unique (h : WaterFilled capacity entries rates level)
    (h' : WaterFilled capacity entries rates' level) {entry : Entry} (he : entry ∈ entries) :
    rates.get? entry.id = rates'.get? entry.id := by
  cases hmet : metAt level entry with
  | true => rw [h.met entry he hmet, h'.met entry he hmet]
  | false =>
    have hunmet : entry ∈ unmetAt level entries := List.mem_filter.mpr ⟨he, by simp [hmet]⟩
    obtain ⟨remainder, hsum, _, hrates⟩ := h.unmet
    obtain ⟨remainder', hsum', _, hrates'⟩ := h'.unmet
    obtain rfl : remainder = remainder' := by omega
    have hinjective : Function.Injective (Option.map UInt64.toNat) :=
      Option.map_injective fun _ _ => UInt64.toNat_inj.mp
    exact hinjective ((hrates entry hunmet).trans (hrates' entry hunmet).symm)

theorem WaterFilled.floor_le_rate (h : WaterFilled capacity entries rates level) {entry : Entry}
    (he : entry ∈ entries) (hunmet : metAt level entry = false) :
    floorShare level entry ≤ rateIn rates entry.id := by
  obtain ⟨remainder, _, _, hrates⟩ := h.unmet
  rw [rateIn_unmet (hrates entry (List.mem_filter.mpr ⟨he, by simp [hunmet]⟩))]
  exact Nat.le_add_right _ _

theorem WaterFilled.over_of_unmet (h : WaterFilled capacity entries rates level) {entry : Entry}
    (he : entry ∈ entries) (hunmet : metAt level entry = false) : capacity < demandTotal entries := by
  have hlt : fill Entry.want Entry.pull entries level < (entries.map Entry.want).sum := by
    refine List.sum_lt_sum _ _ (fun _ _ => min_le_left _ _) ⟨entry, he, ?_⟩
    simp only [metAt, decide_eq_false_iff_not, not_le] at hunmet
    exact min_lt_of_right_lt hunmet
  rw [h.fills.2, want_sum] at hlt
  exact_mod_cast hlt

end

-- whoever bears the id stays above the level with its own demand and with the claimed one
def StaysUnmet (level : ℚ) (id : ParticipantId) (demand : UInt64) (entries : List Entry) : Prop :=
  ∀ entry ∈ entries, entry.id = id →
    metAt level entry = false ∧ metAt level (claim id demand entry) = false

theorem floorShare_claim (level : ℚ) (id : ParticipantId) (demand : UInt64) (entry : Entry) :
    floorShare level (claim id demand entry) = floorShare level entry := by
  rw [floorShare, claim_pull, floorShare]

theorem earlier_map_claim (id : ParticipantId) (demand : UInt64) (entries : List Entry)
    (entry : Entry) : earlier (entries.map (claim id demand)) (claim id demand entry) =
      earlier entries entry := by
  rw [earlier, List.filter_map, List.length_map]
  simp only [earlier, Function.comp_def, claim_id]

section
variable {level : ℚ} {id : ParticipantId} {demand : UInt64} {entries : List Entry}
  (h : StaysUnmet level id demand entries)
include h

theorem StaysUnmet.metAt_claim {entry : Entry} (he : entry ∈ entries) :
    metAt level (claim id demand entry) = metAt level entry := by
  by_cases heq : entry.id = id
  · obtain ⟨hbefore, hafter⟩ := h entry he heq
    rw [hbefore, hafter]
  · rw [claim_other demand heq]

theorem StaysUnmet.claim_met {entry : Entry} (he : entry ∈ entries) (hmet : metAt level entry) :
    claim id demand entry = entry := by
  refine claim_other demand fun heq => ?_
  rw [(h entry he heq).1] at hmet
  cases hmet

theorem StaysUnmet.unmetAt_claim :
    unmetAt level (entries.map (claim id demand)) = (unmetAt level entries).map (claim id demand) := by
  rw [unmetAt, List.filter_map]
  exact congrArg _ (List.filter_congr fun entry he => by simp [h.metAt_claim he])

theorem StaysUnmet.met_claim :
    (entries.map (claim id demand)).filter (metAt level) = entries.filter (metAt level) := by
  have hfilter : entries.filter (metAt level ∘ claim id demand) = entries.filter (metAt level) :=
    List.filter_congr fun entry he => h.metAt_claim he
  rw [List.filter_map, hfilter]
  refine (List.map_congr_left fun entry he => ?_).trans (List.map_id _)
  obtain ⟨hmem, hmet⟩ := List.mem_filter.mp he
  exact h.claim_met hmem hmet

theorem StaysUnmet.fill_claim : fill Entry.want Entry.pull (entries.map (claim id demand)) level =
    fill Entry.want Entry.pull entries level := by
  rw [fill, List.map_map, fill]
  refine congrArg List.sum (List.map_congr_left fun entry he => ?_)
  cases hmet : metAt level entry with
  | true => rw [Function.comp_apply, h.claim_met he hmet]
  | false =>
    have hafter := (h.metAt_claim he).trans hmet
    simp only [metAt, decide_eq_false_iff_not, not_le, claim_pull] at hmet hafter
    rw [Function.comp_apply, claim_pull, min_eq_right hmet.le, min_eq_right hafter.le]

theorem WaterFilled.claim {capacity : ℕ} {rates : Rates}
    (hfilled : WaterFilled capacity entries rates level) :
    WaterFilled capacity (entries.map (claim id demand)) rates level := by
  obtain ⟨remainder, hsum, hlt, hrates⟩ := hfilled.unmet
  refine ⟨⟨hfilled.fills.1, h.fill_claim.trans hfilled.fills.2⟩, fun claimed hclaimed hmet => ?_,
    remainder, ?_, ?_, fun claimed hclaimed => ?_⟩
  · obtain ⟨entry, he, rfl⟩ := List.mem_map.mp hclaimed
    rw [h.metAt_claim he] at hmet
    rw [h.claim_met he hmet]
    exact hfilled.met entry he hmet
  · have hfloor : floorShare level ∘ Fair.claim id demand = floorShare level :=
      funext fun entry => floorShare_claim level id demand entry
    rw [h.met_claim, h.unmetAt_claim, List.map_map, hfloor]
    exact hsum
  · rw [h.unmetAt_claim, List.length_map]
    exact hlt
  · rw [h.unmetAt_claim] at hclaimed ⊢
    obtain ⟨entry, he, rfl⟩ := List.mem_map.mp hclaimed
    rw [claim_id, floorShare_claim, earlier_map_claim]
    exact hrates entry he

end

section
variable {entries : List Entry} (hids : (entries.map (·.id)).Nodup) {entry : Entry}
  (he : entry ∈ entries) (capacity : UInt64) (demand : UInt64)

theorem weightedMaxMin_level {entries : List Entry} (hids : (entries.map (·.id)).Nodup)
    {capacity : UInt64} {level : ℚ} {rates : Rates}
    (h : WaterFilled capacity.toNat entries rates level) {entry : Entry} (he : entry ∈ entries)
    (hunmet : metAt level entry = false) {other : Entry} (ho : other ∈ entries) :
    (weightedMaxMin entries capacity).get? other.id = rates.get? other.id := by
  have hover := h.over_of_unmet he hunmet
  obtain ⟨level', hlevel'⟩ := (weightedMaxMin_settled capacity hids).2.2 hover
  obtain rfl := h.level_unique hlevel' hover
  exact hlevel'.rates_unique h ho

include hids he

theorem stays_unmet {level : ℚ} (hunmet : metAt level entry = false)
    (hclaimed : metAt level (claim entry.id demand entry) = false) :
    StaysUnmet level entry.id demand entries := by
  intro other ho heq
  obtain rfl := List.inj_on_of_nodup_map hids ho he heq
  exact ⟨hunmet, hclaimed⟩

theorem WaterFilled.unclaim {level : ℚ} {capacity : ℕ} {rates : Rates} {demand : UInt64}
    (h : WaterFilled capacity (entries.map (Fair.claim entry.id demand)) rates level)
    (hunmet : metAt level entry = false)
    (hclaimed : metAt level (Fair.claim entry.id demand entry) = false) :
    WaterFilled capacity entries rates level := by
  have hids' := hids
  rw [← map_claim_ids entry.id demand] at hids'
  have hstays := stays_unmet hids' (List.mem_map_of_mem he) entry.demand hclaimed (by
    rwa [claim_id, claim_back])
  rw [claim_id] at hstays
  rw [← map_claim_back hids he demand]
  exact WaterFilled.claim hstays h

variable {capacity demand}

theorem weightedMaxMin_unserved
    (hrate : rateIn (weightedMaxMin entries capacity) entry.id < entry.demand.toNat) :
    ∃ level, WaterFilled capacity.toNat entries (weightedMaxMin entries capacity) level ∧
      metAt level entry = false := by
  obtain ⟨_, hserved, hfilled⟩ := weightedMaxMin_settled capacity hids
  rcases le_or_gt (demandTotal entries) capacity.toNat with hle | hover
  · rw [rateIn_of_get? (hserved hle entry he)] at hrate
    exact absurd hrate (lt_irrefl _)
  · obtain ⟨level, hlevel⟩ := hfilled hover
    refine ⟨level, hlevel, ?_⟩
    by_contra hmet
    rw [rateIn_of_get? (hlevel.met entry he (by simpa using hmet))] at hrate
    exact absurd hrate (lt_irrefl _)

theorem weightedMaxMin_claim_more
    (hrate : rateIn (weightedMaxMin entries capacity) entry.id < entry.demand.toNat)
    (hmore : entry.demand ≤ demand) :
    weightedMaxMin (entries.map (claim entry.id demand)) capacity = weightedMaxMin entries capacity := by
  obtain ⟨level, hlevel, hunmet⟩ := weightedMaxMin_unserved hids he hrate
  have hclaimed : metAt level (claim entry.id demand entry) = false := by
    have hwant : entry.want ≤ (claim entry.id demand entry).want := by
      rw [claim_self demand rfl]
      exact Nat.cast_le.mpr (UInt64.le_iff_toNat_le.mp hmore)
    simp only [metAt, decide_eq_false_iff_not, not_le, claim_pull] at hunmet ⊢
    exact hunmet.trans_le hwant
  have hfilled := WaterFilled.claim (stays_unmet hids he demand hunmet hclaimed) hlevel
  have hids' := hids
  rw [← map_claim_ids entry.id demand] at hids'
  refine OrdMap.ext_get? fun id => ?_
  by_cases hid : id ∈ entries.map (·.id)
  · rw [← map_claim_ids entry.id demand] at hid
    obtain ⟨other, ho, rfl⟩ := List.mem_map.mp hid
    exact weightedMaxMin_level hids' hfilled (List.mem_map_of_mem he) hclaimed ho
  · rw [(weightedMaxMin_settled capacity hids).1 id hid,
      (weightedMaxMin_settled capacity hids').1 id (by rwa [map_claim_ids])]

theorem weightedMaxMin_claim_mono (hmore : entry.demand ≤ demand) :
    rateIn (weightedMaxMin entries capacity) entry.id ≤
      rateIn (weightedMaxMin (entries.map (claim entry.id demand)) capacity) entry.id := by
  rcases (weightedMaxMin_rate_le capacity hids he).lt_or_eq with hless | hall
  · rw [weightedMaxMin_claim_more hids he hless hmore]
  · rw [hall]
    by_contra hloss
    rw [not_le] at hloss
    have hids' := hids
    rw [← map_claim_ids entry.id demand] at hids'
    have hin : claim entry.id demand entry ∈ entries.map (claim entry.id demand) :=
      List.mem_map_of_mem he
    have hunserved : rateIn (weightedMaxMin (entries.map (claim entry.id demand)) capacity)
        (claim entry.id demand entry).id < (claim entry.id demand entry).demand.toNat := by
      rw [claim_id, claim_self demand rfl]
      exact hloss.trans_le (UInt64.le_iff_toNat_le.mp hmore)
    obtain ⟨level, hlevel, hclaimed⟩ := weightedMaxMin_unserved hids' hin hunserved
    have hunmet : metAt level entry = false := by
      have hfloor := hlevel.floor_le_rate hin hclaimed
      rw [claim_id, floorShare_claim] at hfloor
      simp only [metAt, decide_eq_false_iff_not, not_le]
      exact Nat.lt_of_floor_lt (hfloor.trans_lt hloss)
    have hsame := weightedMaxMin_level hids (hlevel.unclaim hids he hunmet hclaimed) he hunmet he
    rw [← hall, rateIn, rateIn, hsame] at hloss
    exact absurd hloss (lt_irrefl _)

end

theorem map_claim_sorted {entries : List Entry} (h : entries.Pairwise (·.id < ·.id))
    (id : ParticipantId) (demand : UInt64) :
    (entries.map (claim id demand)).Pairwise (·.id < ·.id) := by
  rw [List.pairwise_map]
  simpa only [claim_id] using h

section
variable {participants : List Participant} {demands demands' : List Demand} {id : ParticipantId}
  (hothers : ∀ other, other ≠ id → demandFor demands' other = demandFor demands other)
include hothers

theorem ClassList.claim {weightOf : Participation → Option Weight} {entries entries' : List Entry}
    (h : ClassList weightOf participants demands entries)
    (h' : ClassList weightOf participants demands' entries') :
    entries' = entries.map (Fair.claim id (demandFor demands' id)) := by
  refine sorted_ext h'.sorted (map_claim_sorted h.sorted _ _) fun entry => ?_
  rw [h'.mem_iff, List.mem_map]
  constructor
  · rintro ⟨hrate, hknown⟩
    refine ⟨⟨entry.id, demandFor demands entry.id, entry.weight⟩, (h.mem_iff _).mpr ⟨rfl, hknown⟩, ?_⟩
    by_cases heq : entry.id = id
    · rw [Fair.claim, if_pos heq, ← heq, ← hrate]
    · rw [Fair.claim, if_neg heq, ← hothers _ heq, ← hrate]
  · rintro ⟨before, hbefore, rfl⟩
    obtain ⟨hrate, hknown⟩ := (h.mem_iff before).mp hbefore
    rw [claim_id, claim_weight]
    refine ⟨?_, hknown⟩
    by_cases heq : before.id = id
    · rw [claim_self _ heq, heq]
    · rw [claim_other _ heq, hothers _ heq, hrate]

variable {capacity : Capacity} {contributors leeches contributors' leeches' : List Entry}
  {result result' : FairShare}

theorem Phased.claim_contributor {weight : Weight}
    (h : Phased capacity participants demands contributors leeches result)
    (h' : Phased capacity participants demands' contributors' leeches' result')
    (hin : ⟨id, .contributing weight⟩ ∈ participants) :
    (demandFor demands id ≤ demandFor demands' id →
      (result.rateOf id).toNat ≤ (result'.rateOf id).toNat) ∧
    (result.rateOf id < demandFor demands id → demandFor demands id ≤ demandFor demands' id →
      result' = result) := by
  have hentry := h.mem_contributors hin
  have hrate : (result.rateOf id).toNat = _ := h.contributor_rate hentry
  have hrate' : (result'.rateOf id).toNat = _ := h'.contributor_rate (h'.mem_contributors hin)
  obtain rfl := ClassList.claim hothers h.contributorList h'.contributorList
  have hids := h.contributorList.ids_nodup
  constructor
  · intro hmore
    rw [hrate, hrate']
    exact weightedMaxMin_claim_mono hids hentry hmore
  · intro hless hmore
    rw [UInt64.lt_iff_toNat_lt, hrate] at hless
    have hphaseOne := weightedMaxMin_claim_more hids hentry hless hmore
    obtain rfl : leeches = leeches' := by
      refine classList_eq h.leechList h'.leechList (fun _ _ _ => Iff.rfl) fun leech hleech => ?_
      refine (hothers leech.id ?_).symm
      rintro rfl
      have hclass := h.leechList.ids_perm h.ids
      exact h.disjoint leech.id (List.mem_map_of_mem (f := Entry.id) hentry)
        (hclass.mem_iff.mpr (List.mem_map_of_mem hleech))
    rw [h.result_eq, h'.result_eq]
    simp only [twoPhases] at hphaseOne ⊢
    rw [hphaseOne]

theorem Phased.claim_leech
    (h : Phased capacity participants demands contributors leeches result)
    (h' : Phased capacity participants demands' contributors' leeches' result')
    (hin : ⟨id, .leeching⟩ ∈ participants) :
    (demandFor demands id ≤ demandFor demands' id →
      (result.rateOf id).toNat ≤ (result'.rateOf id).toNat) ∧
    (result.rateOf id < demandFor demands id → demandFor demands id ≤ demandFor demands' id →
      result' = result) := by
  obtain ⟨weight, hentry⟩ := h.mem_leeches hin
  obtain ⟨weight', hentry'⟩ := h'.mem_leeches hin
  have hrate : (result.rateOf id).toNat = _ := h.leech_rate hentry
  have hrate' : (result'.rateOf id).toNat = _ := h'.leech_rate hentry'
  obtain rfl : contributors = contributors' := by
    refine classList_eq h.contributorList h'.contributorList (fun _ _ _ => Iff.rfl) fun other ho => ?_
    refine (hothers other.id ?_).symm
    rintro rfl
    have hclass := h.contributorList.ids_perm h.ids
    exact h.disjoint other.id (hclass.mem_iff.mpr (List.mem_map_of_mem ho))
      (List.mem_map_of_mem (f := Entry.id) hentry)
  obtain rfl := ClassList.claim hothers h.leechList h'.leechList
  have hids := h.leechList.ids_nodup
  constructor
  · intro hmore
    rw [hrate, hrate']
    exact weightedMaxMin_claim_mono hids hentry hmore
  · intro hless hmore
    rw [UInt64.lt_iff_toNat_lt, hrate] at hless
    have hphaseTwo := weightedMaxMin_claim_more hids hentry hless hmore
    rw [h.result_eq, h'.result_eq]
    unfold leftoverFor at hphaseTwo
    simp only [twoPhases] at hphaseTwo ⊢
    rw [hphaseTwo]

end

theorem allocate_claim {capacity : Capacity} {participants : List Participant}
    {demands demands' : List Demand} {result result' : FairShare}
    (h : allocate capacity participants demands = .ok result)
    (h' : allocate capacity participants demands' = .ok result') {participant : Participant}
    (hin : participant ∈ participants)
    (hothers : ∀ other, other ≠ participant.id → demandFor demands' other = demandFor demands other) :
    (demandFor demands participant.id ≤ demandFor demands' participant.id →
      (result.rateOf participant.id).toNat ≤ (result'.rateOf participant.id).toNat) ∧
    (result.rateOf participant.id < demandFor demands participant.id →
      demandFor demands participant.id ≤ demandFor demands' participant.id → result' = result) := by
  obtain ⟨contributors, leeches, hphased⟩ := allocate_phased h
  obtain ⟨contributors', leeches', hphased'⟩ := allocate_phased h'
  obtain ⟨id, participation⟩ := participant
  cases participation with
  | contributing weight => exact hphased.claim_contributor hothers hphased' hin
  | leeching => exact hphased.claim_leech hothers hphased' hin

theorem allocate_false_demand {capacity : Capacity} {participants : List Participant}
    {demands demands' : List Demand} {result result' : FairShare}
    (h : allocate capacity participants demands = .ok result)
    (h' : allocate capacity participants demands' = .ok result') {participant : Participant}
    (hin : participant ∈ participants)
    (hothers : ∀ other, other ≠ participant.id → demandFor demands' other = demandFor demands other) :
    min (result'.rateOf participant.id).toNat (demandFor demands participant.id).toNat ≤
      (result.rateOf participant.id).toNat ∧
    (demandFor demands participant.id ≤ demandFor demands' participant.id →
      (result.rateOf participant.id).toNat ≤ (result'.rateOf participant.id).toNat) ∧
    (result.rateOf participant.id < demandFor demands participant.id →
      demandFor demands participant.id ≤ demandFor demands' participant.id → result' = result) := by
  obtain ⟨hmono, hsame⟩ := allocate_claim h h' hin hothers
  refine ⟨?_, hmono, hsame⟩
  rcases le_total (demandFor demands participant.id).toNat (demandFor demands' participant.id).toNat
    with hmore | hless
  · rcases lt_or_ge (result.rateOf participant.id).toNat (demandFor demands participant.id).toNat
      with hunserved | hserved
    · rw [hsame (UInt64.lt_iff_toNat_lt.mpr hunserved) (UInt64.le_iff_toNat_le.mpr hmore)]
      exact min_le_left _ _
    · exact (min_le_right _ _).trans hserved
  · have hback := allocate_claim h' h hin fun other ho => (hothers other ho).symm
    exact (min_le_left _ _).trans (hback.1 (UInt64.le_iff_toNat_le.mpr hless))

def greedyDemands : List Demand := [⟨1, 60⟩, ⟨2, 300⟩]

def greedyShare : FairShare := twoPhases sampleCapacity [⟨1, 60, 1⟩] [⟨2, 300, 1⟩]

theorem allocate_greedy :
    allocate sampleCapacity sampleParticipants greedyDemands = .ok greedyShare := rfl

theorem greedy_others {id : ParticipantId} (h : id ≠ 2) :
    demandFor greedyDemands id = demandFor sampleDemands id := by
  by_cases hfirst : 1 = id
  · subst hfirst
    rfl
  · simp [demandFor, greedyDemands, sampleDemands, hfirst, Ne.symm h]

theorem allocate_false_demand_sample :
    min (greedyShare.rateOf ⟨2, by decide, by decide⟩).toNat 100 ≤
      (sampleShare.rateOf ⟨2, by decide, by decide⟩).toNat ∧ greedyShare = sampleShare :=
  have htruth := allocate_false_demand allocate_sample allocate_greedy sample_leech fun _ => greedy_others
  ⟨htruth.1, htruth.2.2 (by decide) (by decide)⟩

end SpiderNet.Fair
