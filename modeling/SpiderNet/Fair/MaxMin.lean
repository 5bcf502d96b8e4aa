import SpiderNet.Fair.Rounds

namespace SpiderNet.Fair
open WaterLevel ListFacts

theorem mem_take_iff_earlier {active : List Entry} (hsorted : active.Pairwise (·.id < ·.id))
    {entry : Entry} (h : entry ∈ active) (count : ℕ) :
    entry ∈ active.take count ↔ earlier active entry < count := by
  induction active generalizing count with
  | nil => simp at h
  | cons head rest ih =>
    obtain ⟨hhead, hrest⟩ := List.pairwise_cons.mp hsorted
    cases count with
    | zero => simp
    | succ count =>
      rcases List.mem_cons.mp h with rfl | h
      · have hnone : rest.filter (fun other => other.id < entry.id) = [] := by
          refine List.filter_eq_nil_iff.mpr (fun other ho => ?_)
          simpa using (hhead other ho).le
        simp [earlier, hnone]
      · have hlt := hhead entry h
        have hne : entry ≠ head := fun heq => (heq ▸ hlt).ne rfl
        have hcount : earlier (head :: rest) entry = earlier rest entry + 1 := by
          simp [earlier, hlt]
        rw [hcount, List.take_succ_cons, List.mem_cons, Nat.add_lt_add_iff_right, ← ih hrest h]
        simp [hne]

theorem ids_nodup {active : List Entry} (hsorted : active.Pairwise (·.id < ·.id)) :
    (active.map (·.id)).Nodup :=
  List.pairwise_map.mpr (hsorted.imp ne_of_lt)

theorem fair_level_sums {capacity : ℕ} {active : List Entry} (hne : active ≠ [])
    (hunmet : ∀ entry ∈ active, metAt (capacity / totalWeight active) entry = false) :
    Fills Entry.want Entry.pull active capacity (capacity / totalWeight active) ∧
    (active.map (floorShare (capacity / totalWeight active))).sum ≤ capacity ∧
    capacity < (active.map (floorShare (capacity / totalWeight active))).sum + active.length := by
  have hweight : (0 : ℚ) < (active.map Entry.pull).sum := by
    rw [pull_sum]; exact_mod_cast totalWeight_pos hne
  have hle : ∀ entry ∈ active,
      (capacity : ℚ) / (active.map Entry.pull).sum * entry.pull ≤ entry.want := by
    intro entry he
    have h := hunmet entry he
    rw [pull_sum]
    simp only [metAt, decide_eq_false_iff_not, not_le] at h
    exact h.le
  have hfills := fills_fair Entry.want Entry.pull (Nat.cast_nonneg capacity) hweight hle
  have hpour := fill_of_unmet Entry.want Entry.pull hle
  rw [hfills.2, ← List.sum_map_mul_left, pull_sum] at hpour
  rw [pull_sum] at hfills
  have hnonneg : ∀ entry ∈ active, (0 : ℚ) ≤ capacity / totalWeight active * entry.pull :=
    fun entry _ => mul_nonneg (by positivity) (pull_pos entry).le
  have hlow := floor_sum_le hnonneg
  have hhigh := sum_lt_floor_sum (v := fun entry => (capacity : ℚ) / totalWeight active * entry.pull) hne
  rw [← hpour] at hlow hhigh
  exact ⟨hfills, by exact_mod_cast hlow, by exact_mod_cast hhigh⟩

section
variable {capacity : UInt64} {active : List Entry} {result : Rates}

theorem toNat_share {entry : Entry} (h : entry ∈ active) :
    (toU64 (share capacity (totalWeight active) entry)).toNat =
      share capacity (totalWeight active) entry :=
  toNat_toU64 ((share_le_capacity h).trans_lt capacity.toNat_lt)

theorem share_lt_demand {entry : Entry} (h : entry ∈ active)
    (hunmet : satisfied capacity (totalWeight active) entry = false) :
    toU64 (share capacity (totalWeight active) entry) < entry.demand := by
  rw [UInt64.lt_iff_toNat_lt, toNat_share h]
  simpa [satisfied] using hunmet

variable (result) in
theorem finalRound_get? (hsorted : active.Pairwise (·.id < ·.id))
    (hunmet : ∀ entry ∈ active, satisfied capacity (totalWeight active) entry = false)
    (hle : finalRemainder capacity active ≤ active.length) :
    (∀ id, id ∉ active.map (·.id) → (finalRound capacity active result).get? id = result.get? id) ∧
    ∀ entry ∈ active, ((finalRound capacity active result).get? entry.id).map UInt64.toNat =
      some (share capacity (totalWeight active) entry +
        if earlier active entry < finalRemainder capacity active then 1 else 0) := by
  have hids := ids_nodup hsorted
  have hget : ∀ entry ∈ active,
      (insertAll (fun entry => toU64 (share capacity (totalWeight active) entry)) active
        result).get? entry.id = some (toU64 (share capacity (totalWeight active) entry)) :=
    fun entry he => get?_insertAll_of_mem hids he
  have hroom : ∀ entry ∈ active, ∃ allocation,
      (insertAll (fun entry => toU64 (share capacity (totalWeight active) entry)) active
        result).get? entry.id = some allocation ∧ allocation < entry.demand :=
    fun entry he => ⟨_, hget entry he, share_lt_demand he (hunmet entry he)⟩
  obtain ⟨_, hframe, hgain⟩ := handOut_spec 0 hids hroom hle
  have hout : finalRound capacity active result = _ := spreadRemainder_eq hids hroom hle
  rw [hout]
  constructor
  · intro id hid
    rw [hframe id (fun h => hid (((List.take_sublist _ _).map _).subset h))]
    exact get?_insertAll_of_not_mem hid
  · intro entry he
    split_ifs with hfirst
    · have htake := (mem_take_iff_earlier hsorted he _).mpr hfirst
      have hlt := UInt64.lt_iff_toNat_lt.mp (share_lt_demand he (hunmet entry he))
      have hmax := entry.demand.toNat_lt
      rw [toNat_share he] at hlt
      rw [hgain entry htake, hget entry he]
      simp only [Option.map_some, UInt64.toNat_add, toNat_share he, Option.some.injEq]
      exact Nat.mod_eq_of_lt (Nat.lt_of_le_of_lt hlt hmax)
    · have hnot : entry.id ∉ (active.take (finalRemainder capacity active)).map (·.id) := by
        intro h
        obtain ⟨other, ho, heq⟩ := List.mem_map.mp h
        have hsame := List.inj_on_of_nodup_map hids (List.mem_of_mem_take ho) he heq
        exact hfirst ((mem_take_iff_earlier hsorted he _).mp (hsame ▸ ho))
      rw [hframe _ hnot, hget entry he]
      simp [toNat_share he]

theorem metAt_of_unmet (hunmet : ∀ entry ∈ active, satisfied capacity (totalWeight active) entry = false) :
    ∀ entry ∈ active, metAt (capacity.toNat / totalWeight active) entry = false := fun entry he =>
  (satisfied_eq_metAt ..).symm.trans (hunmet entry he)

theorem finalRemainder_spec (hne : active ≠ [])
    (hunmet : ∀ entry ∈ active, satisfied capacity (totalWeight active) entry = false) :
    (active.map (floorShare (capacity.toNat / totalWeight active))).sum +
      finalRemainder capacity active = capacity.toNat ∧
    finalRemainder capacity active < active.length := by
  obtain ⟨_, hlow, hhigh⟩ := fair_level_sums hne (metAt_of_unmet hunmet)
  have hshares : active.map (share capacity (totalWeight active)) =
      active.map (floorShare (capacity.toNat / totalWeight active)) :=
    List.map_congr_left (fun entry _ => share_eq_floor ..)
  rw [finalRemainder, hshares]
  omega

variable (result) in
theorem finalRound_spec (hne : active ≠ []) (hsorted : active.Pairwise (·.id < ·.id))
    (hunmet : ∀ entry ∈ active, satisfied capacity (totalWeight active) entry = false) :
    (∀ id, id ∉ active.map (·.id) → (finalRound capacity active result).get? id = result.get? id) ∧
    WaterFilled capacity.toNat active (finalRound capacity active result)
      (capacity.toNat / totalWeight active) := by
  have hmet := metAt_of_unmet hunmet
  obtain ⟨hrem, hless⟩ := finalRemainder_spec hne hunmet
  have hall : unmetAt (capacity.toNat / totalWeight active) active = active :=
    List.filter_eq_self.mpr (fun entry he => by simp [hmet entry he])
  have hnone : active.filter (metAt (capacity.toNat / totalWeight active)) = [] :=
    List.filter_eq_nil_iff.mpr (fun entry he => by simp [hmet entry he])
  obtain ⟨hframe, hrates⟩ := finalRound_get? result hsorted hunmet hless.le
  refine ⟨hframe, (fair_level_sums hne hmet).1, ?_, finalRemainder capacity active, ?_, ?_, ?_⟩
  · intro entry he hm
    simp [hmet entry he] at hm
  · rw [hall, hnone]
    simpa [demandTotal] using hrem
  · rw [hall]
    omega
  · rw [hall]
    intro entry he
    rw [hrates entry he, share_eq_floor]

end

structure Settled (capacity : ℕ) (active : List Entry) (before after : Rates) : Prop where
  frame : ∀ id, id ∉ active.map (·.id) → after.get? id = before.get? id
  served : demandTotal active ≤ capacity →
    ∀ entry ∈ active, after.get? entry.id = some entry.demand
  filled : capacity < demandTotal active →
    ∃ level, (capacity : ℚ) / totalWeight active ≤ level ∧ WaterFilled capacity active after level

theorem demandTotal_filter (p : Entry → Bool) (entries : List Entry) :
    demandTotal (entries.filter p) + demandTotal (entries.filter fun entry => !p entry) =
      demandTotal entries := sum_filter_add p _ entries

theorem demandTotal_pos {active : List Entry} (hne : active ≠ [])
    (hpos : ∀ entry ∈ active, 0 < entry.demand.toNat) : 0 < demandTotal active := by
  cases active with
  | nil => exact absurd rfl hne
  | cons entry rest =>
    have := hpos entry (by simp)
    simp only [demandTotal, List.map_cons, List.sum_cons]
    omega

theorem settled_nil (capacity : ℕ) (result : Rates) : Settled capacity [] result result :=
  ⟨fun _ _ => rfl, by simp, by simp [demandTotal]⟩

theorem settled_dry {active : List Entry} (result : Rates)
    (hsorted : active.Pairwise (·.id < ·.id)) (hpos : ∀ entry ∈ active, 0 < entry.demand.toNat)
    (hne : active ≠ []) : Settled 0 active result (insertAll (fun _ => 0) active result) := by
  have hids := ids_nodup hsorted
  have hmet : ∀ entry ∈ active, metAt 0 entry = false := by
    intro entry he
    have := hpos entry he
    simp only [metAt, Entry.want, zero_mul, decide_eq_false_iff_not, not_le]
    exact_mod_cast this
  have hall : unmetAt 0 active = active :=
    List.filter_eq_self.mpr (fun entry he => by simp [hmet entry he])
  have hnone : active.filter (metAt 0) = [] :=
    List.filter_eq_nil_iff.mpr (fun entry he => by simp [hmet entry he])
  have hfloor : floorShare 0 = fun _ => 0 := by
    funext entry
    simp [floorShare]
  refine ⟨fun id hid => get?_insertAll_of_not_mem hid, ?_, ?_⟩
  · intro hle
    have := demandTotal_pos hne hpos
    omega
  · intro _
    refine ⟨0, by simp, ⟨le_rfl, ?_⟩, ?_, 0, ?_, ?_, ?_⟩
    · rw [fill_of_unmet Entry.want Entry.pull (by simp [Entry.want])]
      simp
    · intro entry he hm
      simp [hmet entry he] at hm
    · rw [hall, hnone, hfloor]
      simp [demandTotal]
    · rw [hall]
      exact List.length_pos_iff.mpr hne
    · rw [hall, hfloor]
      intro entry he
      rw [get?_insertAll_of_mem hids he]
      simp

theorem settled_final {capacity : UInt64} {active : List Entry} {result : Rates}
    (hne : active ≠ []) (hsorted : active.Pairwise (·.id < ·.id))
    (hunmet : ∀ entry ∈ active, satisfied capacity (totalWeight active) entry = false) :
    Settled capacity.toNat active result (finalRound capacity active result) := by
  obtain ⟨hframe, hfilled⟩ := finalRound_spec result hne hsorted hunmet
  refine ⟨hframe, ?_, fun _ => ⟨_, le_rfl, hfilled⟩⟩
  intro hle
  have hbound := fill_le_demand Entry.want Entry.pull active (capacity.toNat / totalWeight active)
  rw [hfilled.fills.2, want_sum] at hbound
  have hcap : capacity.toNat = demandTotal active := le_antisymm (by exact_mod_cast hbound) hle
  have hlt : fill Entry.want Entry.pull active (capacity.toNat / totalWeight active) <
      (active.map Entry.want).sum := by
    refine List.sum_lt_sum_of_ne_nil hne _ _ (fun entry he => ?_)
    have h := (satisfied_eq_metAt ..).symm.trans (hunmet entry he)
    simp only [metAt, decide_eq_false_iff_not, not_le] at h
    exact min_lt_of_right_lt h
  rw [hfilled.fills.2, want_sum, hcap] at hlt
  exact absurd hlt (lt_irrefl _)

theorem sum_share_le (capacity : UInt64) {active : List Entry} (hne : active ≠ []) :
    (active.map (share capacity (totalWeight active))).sum ≤ capacity.toNat := by
  have hweight : (totalWeight active : ℚ) ≠ 0 := by
    exact_mod_cast (totalWeight_pos hne).ne'
  have hlow := floor_sum_le (l := active)
    (v := fun entry => (capacity.toNat : ℚ) / totalWeight active * entry.pull)
    (fun entry _ => mul_nonneg (by positivity) (pull_pos entry).le)
  rw [List.sum_map_mul_left, pull_sum, div_mul_cancel₀ _ hweight] at hlow
  rw [List.map_congr_left (fun entry _ => share_eq_floor capacity (totalWeight active) entry)]
  exact_mod_cast hlow

theorem demandTotal_fits_le (capacity : UInt64) {active : List Entry} (hne : active ≠ []) :
    demandTotal (active.filter (satisfied capacity (totalWeight active))) ≤ capacity.toNat := by
  calc demandTotal (active.filter (satisfied capacity (totalWeight active)))
      ≤ ((active.filter (satisfied capacity (totalWeight active))).map
          (share capacity (totalWeight active))).sum :=
        List.sum_le_sum (fun entry he => by
          simpa [satisfied] using (List.mem_filter.mp he).2)
    _ ≤ (active.map (share capacity (totalWeight active))).sum := sum_le_of_filter _ _
    _ ≤ capacity.toNat := sum_share_le capacity hne

section
variable {capacity : ℕ} {active : List Entry} {before after : Rates} (fits : Entry → Bool)

theorem waterFilled_extend {level : ℚ} (hfits : ∀ entry ∈ active, fits entry → metAt level entry)
    (hle : demandTotal (active.filter fits) ≤ capacity)
    (hrates : ∀ entry ∈ active.filter fits, after.get? entry.id = some entry.demand)
    (h : WaterFilled (capacity - demandTotal (active.filter fits))
      (active.filter fun entry => !fits entry) after level) :
    WaterFilled capacity active after level := by
  have hunmet : unmetAt level (active.filter fun entry => !fits entry) = unmetAt level active := by
    unfold unmetAt
    rw [List.filter_filter]
    refine List.filter_congr (fun entry he => ?_)
    have := hfits entry he
    cases hf : fits entry <;> cases hm : metAt level entry <;> simp_all
  have hmet : demandTotal (active.filter (metAt level)) = demandTotal (active.filter fits) +
      demandTotal ((active.filter fun entry => !fits entry).filter (metAt level)) := by
    rw [← demandTotal_filter fits (active.filter (metAt level)), List.filter_filter,
      List.filter_filter, List.filter_filter]
    congr 2
    · refine List.filter_congr (fun entry he => ?_)
      have := hfits entry he
      cases hf : fits entry <;> cases hm : metAt level entry <;> simp_all
    · exact List.filter_congr (fun entry _ => Bool.and_comm _ _)
  obtain ⟨remainder, hsum, hlt, hrest⟩ := h.unmet
  rw [hunmet] at hsum hlt hrest
  refine ⟨?_, ?_, remainder, by omega, hlt, hrest⟩
  · refine fills_extend Entry.want Entry.pull fits ?_ ?_
    · intro entry he
      obtain ⟨hmem, hf⟩ := List.mem_filter.mp he
      simpa [metAt] using hfits entry hmem hf
    · have hcast := h.fills
      rw [Nat.cast_sub hle, ← want_sum] at hcast
      exact hcast
  · intro entry he hm
    cases hf : fits entry with
    | true => exact hrates entry (List.mem_filter.mpr ⟨he, hf⟩)
    | false => exact h.met entry (List.mem_filter.mpr ⟨he, by simp [hf]⟩) hm

end

section
variable {entries : List Entry} {kept : Entry → Bool} {rate : Entry → UInt64} {before after : Rates}

theorem get?_kept (hids : (entries.map (·.id)).Nodup)
    (hframe : ∀ id, id ∉ (entries.filter fun entry => !kept entry).map (·.id) →
      after.get? id = (insertAll rate (entries.filter kept) before).get? id)
    {entry : Entry} (he : entry ∈ entries.filter kept) :
    after.get? entry.id = some (rate entry) := by
  obtain ⟨hmem, hkept⟩ := List.mem_filter.mp he
  rw [hframe entry.id ?_, get?_insertAll_of_mem ((List.filter_sublist.map _).nodup hids) he]
  intro hid
  obtain ⟨other, ho, heq⟩ := List.mem_map.mp hid
  obtain ⟨homem, hother⟩ := List.mem_filter.mp ho
  rw [List.inj_on_of_nodup_map hids homem hmem heq, hkept] at hother
  exact absurd hother (by simp)

theorem get?_kept_outside
    (hframe : ∀ id, id ∉ (entries.filter fun entry => !kept entry).map (·.id) →
      after.get? id = (insertAll rate (entries.filter kept) before).get? id)
    {id : ParticipantId} (hid : id ∉ entries.map (·.id)) : after.get? id = before.get? id := by
  have hsub : ∀ p : Entry → Bool, id ∉ (entries.filter p).map (·.id) :=
    fun p hmem => hid ((List.filter_sublist.map _).subset hmem)
  rw [hframe id (hsub _), get?_insertAll_of_not_mem (hsub _)]

end

theorem settled_round {capacity : UInt64} {active : List Entry} {before after : Rates}
    (hne : active ≠ []) (hids : (active.map (·.id)).Nodup)
    (h : Settled
      (capacity.toNat - demandTotal (active.filter (satisfied capacity (totalWeight active))))
      (active.filter fun entry => !satisfied capacity (totalWeight active) entry)
      (insertAll (·.demand) (active.filter (satisfied capacity (totalWeight active))) before)
      after) :
    Settled capacity.toNat active before after := by
  have hle := demandTotal_fits_le capacity hne
  have hsplit := demandTotal_filter (satisfied capacity (totalWeight active)) active
  have hfit : ∀ entry ∈ active.filter (satisfied capacity (totalWeight active)),
      after.get? entry.id = some entry.demand := fun entry he => get?_kept hids h.frame he
  refine ⟨fun id hid => get?_kept_outside h.frame hid, ?_, ?_⟩
  · intro hall entry he
    cases hsat : satisfied capacity (totalWeight active) entry with
    | true => exact hfit entry (List.mem_filter.mpr ⟨he, hsat⟩)
    | false => exact h.served (by omega) entry (List.mem_filter.mpr ⟨he, by simp [hsat]⟩)
  · intro hover
    obtain ⟨level, hlevel, hfilled⟩ := h.filled (by omega)
    have hrest : active.filter (fun entry => !satisfied capacity (totalWeight active) entry) ≠ [] := by
      intro hnil
      rw [hnil] at hsplit
      simp only [demandTotal, List.map_nil, List.sum_nil] at hsplit hover hle
      omega
    have hrises : (capacity.toNat : ℚ) / totalWeight active ≤ level := by
      refine le_trans ?_ hlevel
      have hraise := level_rises Entry.want Entry.pull (l := active) (c := capacity.toNat)
        (satisfied capacity (totalWeight active))
        (by rw [pull_sum]; exact_mod_cast totalWeight_pos hne)
        (by rw [pull_sum]; exact_mod_cast totalWeight_pos hrest)
        (fun entry he => by
          have hsat := (List.mem_filter.mp he).2
          rw [satisfied_eq_metAt] at hsat
          rw [pull_sum]
          simpa [metAt] using hsat)
      rw [pull_sum, pull_sum, want_sum] at hraise
      rw [Nat.cast_sub hle]
      exact hraise
    refine ⟨level, hrises, waterFilled_extend _ ?_ hle hfit hfilled⟩
    intro entry _ hsat
    rw [satisfied_eq_metAt] at hsat
    simp only [metAt, decide_eq_true_eq] at hsat ⊢
    exact hsat.trans (mul_le_mul_of_nonneg_right hrises (pull_pos entry).le)

def settle (out : Rates × List Entry) : Rates := insertAll (fun _ => 0) out.2 out.1

theorem rounds_settled {turns : ℕ} {capacity : UInt64} {active : List Entry} {result : Rates}
    (hturns : active.length ≤ turns) (hsorted : active.Pairwise (·.id < ·.id))
    (hpos : ∀ entry ∈ active, 0 < entry.demand.toNat) :
    Settled capacity.toNat active result (settle (rounds turns capacity active result)) := by
  induction turns generalizing capacity active result with
  | zero =>
    obtain rfl : active = [] := List.length_eq_zero_iff.mp (Nat.le_zero.mp hturns)
    exact settled_nil _ _
  | succ turns ih =>
    rcases eq_or_ne active [] with rfl | hne
    · simpa [rounds, settle, insertAll] using settled_nil capacity.toNat result
    · rcases Nat.eq_zero_or_pos capacity.toNat with hzero | hcap
      · simpa [rounds, settle, hzero] using settled_dry result hsorted hpos hne
      · rw [rounds, if_pos ⟨hcap, hne⟩]
        dsimp only
        split_ifs with hfits
        · refine settled_final hne hsorted (fun entry he => ?_)
          have hnil := List.filter_eq_nil_iff.mp (List.isEmpty_iff.mp hfits) entry he
          simpa using hnil
        · refine settled_round hne (ids_nodup hsorted) ?_
          have hle := demandTotal_fits_le capacity hne
          rw [← toNat_demands (hle.trans_lt capacity.toNat_lt), ← toNat_saturatingSub]
          refine ih ?_ (hsorted.sublist List.filter_sublist)
            (fun entry he => hpos entry (List.mem_of_mem_filter he))
          have hsplit := (List.filter_append_perm
            (satisfied capacity (totalWeight active)) active).length_eq
          rw [List.length_append] at hsplit
          have : (active.filter (satisfied capacity (totalWeight active))).length ≠ 0 := by
            simpa [List.isEmpty_iff] using hfits
          omega

theorem demandTotal_perm {entries entries' : List Entry} (h : entries.Perm entries') :
    demandTotal entries = demandTotal entries' := (h.map _).sum_eq

theorem waterFilled_perm {capacity : ℕ} {entries entries' : List Entry} {rates : Rates} {level : ℚ}
    (hperm : entries.Perm entries') (h : WaterFilled capacity entries rates level) :
    WaterFilled capacity entries' rates level := by
  have hunmet : (unmetAt level entries).Perm (unmetAt level entries') := hperm.filter _
  have hearlier : ∀ entry, earlier (unmetAt level entries) entry =
      earlier (unmetAt level entries') entry := fun _ => (hunmet.filter _).length_eq
  obtain ⟨remainder, hsum, hlt, hrest⟩ := h.unmet
  refine ⟨⟨h.fills.1, ?_⟩, fun entry he => h.met entry (hperm.mem_iff.mpr he), remainder, ?_, ?_, ?_⟩
  · rw [← fill_perm Entry.want Entry.pull hperm, h.fills.2]
  · rw [← demandTotal_perm (hperm.filter _), ← (hunmet.map _).sum_eq, hsum]
  · rwa [← hunmet.length_eq]
  · intro entry he
    rw [← hearlier]
    exact hrest entry (hunmet.mem_iff.mpr he)

theorem sortById_perm (entries : List Entry) : (sortById entries).Perm entries :=
  List.perm_insertionSort _ _

theorem sortById_sorted {entries : List Entry} (hids : (entries.map (·.id)).Nodup) :
    (sortById entries).Pairwise (·.id < ·.id) := by
  have hle : (sortById entries).Pairwise (·.id ≤ ·.id) := by
    let key : Entry → Entry → Prop := fun a b => a.id ≤ b.id
    have : Std.Total key := ⟨fun a b => le_total a.id b.id⟩
    have : IsTrans Entry key := ⟨fun _ _ _ hab hbc => le_trans hab hbc⟩
    exact List.pairwise_insertionSort key entries
  have hnodup : ((sortById entries).map (·.id)).Nodup :=
    ((sortById_perm entries).map _).nodup_iff.mpr hids
  exact (hle.and (List.pairwise_map.mp hnodup)).imp (fun h => lt_of_le_of_ne h.1 h.2)

def idle (entry : Entry) : Bool := entry.demand = 0

theorem idle_demand {entry : Entry} (h : idle entry = true) : entry.demand = 0 := by
  simpa [idle] using h

def busyEntries (entries : List Entry) : List Entry := sortById (entries.filter fun entry => !idle entry)

theorem busyEntries_perm (entries : List Entry) :
    (busyEntries entries).Perm (entries.filter fun entry => !idle entry) := sortById_perm _

theorem demandTotal_idle (entries : List Entry) : demandTotal (entries.filter idle) = 0 := by
  refine List.sum_eq_zero (fun value hvalue => ?_)
  obtain ⟨entry, he, rfl⟩ := List.mem_map.mp hvalue
  simp [idle_demand (List.mem_filter.mp he).2]

theorem demandTotal_busyEntries (entries : List Entry) :
    demandTotal (busyEntries entries) = demandTotal entries := by
  have hsplit := demandTotal_filter idle entries
  have hidle := demandTotal_idle entries
  rw [demandTotal_perm (busyEntries_perm entries)]
  omega

-- the rounds run over the entries that demand something, the others hold zero from the start
theorem weightedMaxMin_rounds {entries : List Entry} (capacity : UInt64)
    (hids : (entries.map (·.id)).Nodup) :
    Settled capacity.toNat (busyEntries entries) (insertAll (fun _ => 0) (entries.filter idle) .empty)
      (weightedMaxMin entries capacity) := by
  have hactive : entries.filter (fun entry => entry.demand ≠ 0) =
      entries.filter (fun entry => !idle entry) :=
    List.filter_congr (fun entry _ => by simp [idle])
  have hsorted : (busyEntries entries).Pairwise (·.id < ·.id) :=
    sortById_sorted ((List.filter_sublist.map _).nodup hids)
  have hpos : ∀ entry ∈ busyEntries entries, 0 < entry.demand.toNat := by
    intro entry he
    have hbusy := (List.mem_filter.mp ((busyEntries_perm entries).mem_iff.mp he)).2
    rw [Nat.pos_iff_ne_zero]
    intro hzero
    simp [idle, ← UInt64.toNat_inj, hzero] at hbusy
  have hrun := @rounds_settled (busyEntries entries).length capacity (busyEntries entries)
    (insertAll (fun _ => 0) (entries.filter idle) .empty) le_rfl hsorted hpos
  rw [weightedMaxMin, hactive]
  exact hrun

theorem weightedMaxMin_settled {entries : List Entry} (capacity : UInt64)
    (hids : (entries.map (·.id)).Nodup) :
    (∀ id, id ∉ entries.map (·.id) → (weightedMaxMin entries capacity).get? id = none) ∧
    (demandTotal entries ≤ capacity.toNat →
      ∀ entry ∈ entries, (weightedMaxMin entries capacity).get? entry.id = some entry.demand) ∧
    (capacity.toNat < demandTotal entries →
      ∃ level, WaterFilled capacity.toNat entries (weightedMaxMin entries capacity) level) := by
  have hperm := busyEntries_perm entries
  have htotal := demandTotal_busyEntries entries
  have hnothing := demandTotal_idle entries
  have hsettled := weightedMaxMin_rounds capacity hids
  have hframe : ∀ id, id ∉ (entries.filter fun entry => !idle entry).map (·.id) →
      (weightedMaxMin entries capacity).get? id =
        (insertAll (fun _ => 0) (entries.filter idle) .empty).get? id :=
    fun id hid => hsettled.frame id fun h => hid ((hperm.map (·.id)).mem_iff.mp h)
  have hidleRate : ∀ entry ∈ entries.filter idle,
      (weightedMaxMin entries capacity).get? entry.id = some entry.demand := by
    intro entry he
    rw [get?_kept hids hframe he, idle_demand (List.mem_filter.mp he).2]
  refine ⟨fun id hid => get?_kept_outside hframe hid, ?_, ?_⟩
  · intro hall entry he
    cases hidle : idle entry with
    | true => exact hidleRate entry (List.mem_filter.mpr ⟨he, hidle⟩)
    | false =>
      exact hsettled.served (by omega) entry
        (hperm.mem_iff.mpr (List.mem_filter.mpr ⟨he, by simp [hidle]⟩))
  · intro hover
    obtain ⟨level, _, hfilled⟩ := hsettled.filled (by omega)
    refine ⟨level, waterFilled_extend idle ?_ (by omega) hidleRate ?_⟩
    · intro entry _ hidle
      have hlevel := mul_nonneg hfilled.fills.1 (pull_pos entry).le
      simpa [metAt, Entry.want, idle_demand hidle] using hlevel
    · rw [hnothing]
      exact waterFilled_perm hperm hfilled

theorem weightedMaxMin_get?_isSome {entries : List Entry} (capacity : UInt64)
    (hids : (entries.map (·.id)).Nodup) (id : ParticipantId) :
    ((weightedMaxMin entries capacity).get? id).isSome ↔ id ∈ entries.map (·.id) := by
  obtain ⟨hnone, hserved, hfilled⟩ := weightedMaxMin_settled capacity hids
  constructor
  · intro hsome
    by_contra hid
    simp [hnone id hid] at hsome
  · intro hid
    obtain ⟨entry, he, rfl⟩ := List.mem_map.mp hid
    rcases le_or_gt (demandTotal entries) capacity.toNat with hle | hlt
    · simp [hserved hle entry he]
    · obtain ⟨level, hlevel⟩ := hfilled hlt
      cases hmet : metAt level entry with
      | true => simp [hlevel.met entry he hmet]
      | false =>
        obtain ⟨remainder, _, _, hrates⟩ := hlevel.unmet
        have hrate := hrates entry (List.mem_filter.mpr ⟨he, by simp [hmet]⟩)
        cases hget : (weightedMaxMin entries capacity).get? entry.id with
        | none => simp [hget] at hrate
        | some rate => rfl

def RoundedWaterFilling (entries : List Entry) (capacity : ℕ) (rates : Rates) : Prop :=
  (∀ id, (rates.get? id).isSome ↔ id ∈ entries.map (·.id)) ∧
  (demandTotal entries ≤ capacity → ∀ entry ∈ entries, rates.get? entry.id = some entry.demand) ∧
  (capacity < demandTotal entries →
    ∃ level : ℚ, 0 ≤ level ∧
      (entries.map fun entry => min entry.want (level * entry.pull)).sum = capacity ∧
      (∀ entry ∈ entries, entry.want ≤ level * entry.pull →
        rates.get? entry.id = some entry.demand) ∧
      ∃ remainder : ℕ,
        demandTotal (entries.filter fun entry => entry.want ≤ level * entry.pull) +
          ((unmetAt level entries).map fun entry => ⌊level * entry.pull⌋₊).sum + remainder =
            capacity ∧
        remainder < (unmetAt level entries).length ∧
        ∀ entry ∈ entries, level * entry.pull < entry.want →
          (rates.get? entry.id).map UInt64.toNat = some (⌊level * entry.pull⌋₊ +
            if earlier (unmetAt level entries) entry < remainder then 1 else 0))

theorem weightedMaxMin_waterFilling (entries : List Entry) (capacity : UInt64)
    (hids : (entries.map (·.id)).Nodup) :
    RoundedWaterFilling entries capacity.toNat (weightedMaxMin entries capacity) := by
  obtain ⟨_, hserved, hfilled⟩ := weightedMaxMin_settled capacity hids
  refine ⟨weightedMaxMin_get?_isSome capacity hids, hserved, ?_⟩
  intro hover
  obtain ⟨level, hlevel⟩ := hfilled hover
  obtain ⟨remainder, hsum, hlt, hrates⟩ := hlevel.unmet
  refine ⟨level, hlevel.fills.1, hlevel.fills.2, ?_, remainder, hsum, hlt, ?_⟩
  · intro entry he hmet
    exact hlevel.met entry he (decide_eq_true hmet)
  · intro entry he hunmet
    refine hrates entry (List.mem_filter.mpr ⟨he, ?_⟩)
    simpa [metAt] using hunmet

def twoHouseholds : List Entry := [⟨2, 1000, 1⟩, ⟨1, 1000, 1⟩]

theorem weightedMaxMin_waterFilling_twoHouseholds :
    RoundedWaterFilling twoHouseholds 1001 (weightedMaxMin twoHouseholds 1001) :=
  weightedMaxMin_waterFilling twoHouseholds 1001 (by decide)

example : ((weightedMaxMin twoHouseholds 1001).entries.map fun rate => (rate.1.value, rate.2)) =
    [(1, 501), (2, 500)] := by decide

end SpiderNet.Fair
