import SpiderNet.Fair.MaxMin

namespace SpiderNet.Fair
open WaterLevel ListFacts

def rateIn (rates : Rates) (id : ParticipantId) : ℕ := ((rates.get? id).getD 0).toNat

theorem ratesTotal_eq {rates : Rates} {ids : List ParticipantId} (hids : ids.Nodup)
    (h : ∀ id, (rates.get? id).isSome ↔ id ∈ ids) :
    ratesTotal rates = (ids.map (rateIn rates)).sum := by
  rw [ratesTotal, OrdMap.values_eq_map_keys rates 0, List.map_map]
  exact ((OrdMap.keys_perm hids h).map _).sum_eq

theorem earlier_lt_count {entries : List Entry} (hids : (entries.map (·.id)).Nodup) {count : ℕ}
    (hle : count ≤ entries.length) :
    (entries.map fun entry => if earlier entries entry < count then 1 else 0).sum = count := by
  have hperm := sortById_perm entries
  have hsorted := sortById_sorted hids
  have hearlier : ∀ entry, earlier (sortById entries) entry = earlier entries entry :=
    fun _ => (hperm.filter _).length_eq
  have htake : ∀ entry ∈ (sortById entries).take count,
      (if earlier entries entry < count then 1 else 0) = 1 := by
    intro entry he
    rw [← hearlier, if_pos ((mem_take_iff_earlier hsorted (List.mem_of_mem_take he) _).mp he)]
  have hdrop : ∀ entry ∈ (sortById entries).drop count,
      (if earlier entries entry < count then 1 else 0) = 0 := by
    intro entry he
    have hnodup : (sortById entries).Nodup := hsorted.imp (fun hlt heq => (heq ▸ hlt).ne rfl)
    rw [← hearlier, if_neg]
    intro hlt
    exact List.disjoint_take_drop hnodup le_rfl
      ((mem_take_iff_earlier hsorted (List.mem_of_mem_drop he) _).mpr hlt) he
  rw [← (hperm.map _).sum_eq, ← List.take_append_drop count (sortById entries), List.map_append,
    List.sum_append, List.map_congr_left htake, List.map_congr_left hdrop]
  simp [hperm.length_eq, hle]

theorem rateIn_of_get? {rates : Rates} {id : ParticipantId} {rate : UInt64}
    (h : rates.get? id = some rate) : rateIn rates id = rate.toNat := by simp [rateIn, h]

theorem rateIn_unmet {entries : List Entry} {rates : Rates} {level : ℚ} {remainder : ℕ}
    {entry : Entry} (h : (rates.get? entry.id).map UInt64.toNat = some (floorShare level entry +
      if earlier (unmetAt level entries) entry < remainder then 1 else 0)) :
    rateIn rates entry.id = floorShare level entry +
      if earlier (unmetAt level entries) entry < remainder then 1 else 0 := by
  obtain ⟨rate, hget, heq⟩ := Option.map_eq_some_iff.mp h
  rw [rateIn_of_get? hget, heq]

section
variable {entries : List Entry} (capacity : UInt64)

theorem waterFilled_rate_le {cap : ℕ} {rates : Rates} {level : ℚ}
    (h : WaterFilled cap entries rates level) {entry : Entry} (he : entry ∈ entries) :
    rateIn rates entry.id ≤ entry.demand.toNat := by
  cases hmet : metAt level entry with
  | true => exact (rateIn_of_get? (h.met entry he hmet)).le
  | false =>
    obtain ⟨remainder, _, _, hrates⟩ := h.unmet
    have hlt : floorShare level entry < entry.demand.toNat := by
      have hnonneg := mul_nonneg h.fills.1 (pull_pos entry).le
      have hwant : level * entry.pull < entry.want := by simpa [metAt] using hmet
      exact Nat.cast_lt.mp ((Nat.floor_le hnonneg).trans_lt hwant)
    rw [rateIn_unmet (hrates entry (List.mem_filter.mpr ⟨he, by simp [hmet]⟩))]
    split_ifs <;> omega

theorem weightedMaxMin_rate_le (hids : (entries.map (·.id)).Nodup) {entry : Entry}
    (he : entry ∈ entries) :
    rateIn (weightedMaxMin entries capacity) entry.id ≤ entry.demand.toNat := by
  obtain ⟨_, hserved, hfilled⟩ := weightedMaxMin_settled capacity hids
  rcases le_or_gt (demandTotal entries) capacity.toNat with hle | hlt
  · exact (rateIn_of_get? (hserved hle entry he)).le
  · obtain ⟨level, hlevel⟩ := hfilled hlt
    exact waterFilled_rate_le hlevel he

theorem waterFilled_total {cap : ℕ} {rates : Rates} {level : ℚ}
    (hids : (entries.map (·.id)).Nodup) (h : WaterFilled cap entries rates level) :
    (entries.map fun entry => rateIn rates entry.id).sum = cap := by
  obtain ⟨remainder, hsum, hlt, hrates⟩ := h.unmet
  have hmet : ((entries.filter (metAt level)).map fun entry => rateIn rates entry.id).sum =
      demandTotal (entries.filter (metAt level)) := by
    rw [demandTotal, List.map_congr_left]
    intro entry he
    obtain ⟨hmem, hm⟩ := List.mem_filter.mp he
    exact rateIn_of_get? (h.met entry hmem hm)
  have hunmet : ((unmetAt level entries).map fun entry => rateIn rates entry.id).sum =
      ((unmetAt level entries).map (floorShare level)).sum + remainder := by
    have hunmetIds : ((unmetAt level entries).map (·.id)).Nodup :=
      (List.filter_sublist.map _).nodup hids
    rw [List.map_congr_left (g := fun entry => floorShare level entry +
      if earlier (unmetAt level entries) entry < remainder then 1 else 0)]
    · rw [List.sum_map_add, earlier_lt_count hunmetIds hlt.le]
    · exact fun entry he => rateIn_unmet (hrates entry he)
  rw [← sum_filter_add (metAt level), hmet]
  change _ + ((unmetAt level entries).map fun entry => rateIn rates entry.id).sum = cap
  rw [hunmet]
  omega

theorem weightedMaxMin_total (hids : (entries.map (·.id)).Nodup) :
    ratesTotal (weightedMaxMin entries capacity) = min capacity.toNat (demandTotal entries) := by
  obtain ⟨_, hserved, hfilled⟩ := weightedMaxMin_settled capacity hids
  rw [ratesTotal_eq hids (weightedMaxMin_get?_isSome capacity hids), List.map_map]
  change (entries.map fun entry => rateIn (weightedMaxMin entries capacity) entry.id).sum = _
  rcases le_or_gt (demandTotal entries) capacity.toNat with hle | hlt
  · rw [min_eq_right hle, demandTotal]
    exact congrArg List.sum
      (List.map_congr_left (fun entry he => rateIn_of_get? (hserved hle entry he)))
  · obtain ⟨level, hlevel⟩ := hfilled hlt
    rw [min_eq_left hlt.le, waterFilled_total hids hlevel]

end

end SpiderNet.Fair
