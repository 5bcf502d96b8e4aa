import SpiderNet.Fetch.CheckedPlan
import SpiderNet.Library.ListFacts

namespace SpiderNet.Fetch
open TopSelection

@[simp] theorem step_some {α : Type} (value : α) : step (some value) = .ok value := rfl

@[simp] theorem refuse_ok {α : Type} (value : α) : refuse (.ok value) = .ok value := rfl

theorem ByteRange.checkedLen_ok {range : ByteRange} (h : range.endInclusive + 1 < 2 ^ 64) :
    range.checkedLen = .ok range.len := by
  have hle := range.le
  rw [checkedLen, Machine.sub_some hle, step_some, ok_bind, Machine.add_some (by omega)]
  rfl

theorem checkedDropWeakest_eq {fileSize : FileSize} {minSegment : MinSegmentBytes} {turns : ℕ}
    {exits : List ExitSpec} (hlength : exits.length < 2 ^ 64) :
    checkedDropWeakest fileSize minSegment turns exits =
      .ok (dropWeakest fileSize minSegment turns exits) := by
  induction turns generalizing exits with
  | zero => rfl
  | succ turns ih =>
    rw [checkedDropWeakest, dropWeakest]
    by_cases hmany : 1 < exits.length
    · have hproduct : exits.length * minSegment.value < 2 ^ 128 :=
        (Nat.mul_lt_mul'' hlength minSegment.lt).trans_eq (Nat.pow_add ..).symm
      rw [if_pos hmany, Machine.mul_some hproduct, step_some, ok_bind]
      by_cases hsmall : fileSize.value < exits.length * minSegment.value
      · obtain ⟨pre, m, post, hexits, _, hweakest⟩ := @weakest_firstMin exits
          (List.length_pos_iff.mp (by omega))
        have hget : exits[weakest exits]? = some m := by
          rw [hweakest]
          simp [hexits]
        have hfewer := List.length_eraseIdx_le exits (weakest exits)
        rw [if_pos hsmall, if_pos ⟨hmany, hsmall⟩, hget, step_some, ok_bind]
        exact ih (by omega)
      · rw [if_neg hsmall, if_neg fun h => hsmall h.2]
        rfl
    · rw [if_neg hmany, if_neg fun h => hmany h.1]
      rfl

theorem checkedSplitCount_eq {fileSize : FileSize} {minSegment : MinSegmentBytes}
    {segmentsPerExit : SegmentsPerExit} {exits : List ExitSpec} (hne : exits ≠ [])
    (hlength : exits.length < 2 ^ 64) :
    checkedSplitCount fileSize minSegment segmentsPerExit exits =
      .ok (splitCount fileSize minSegment segmentsPerExit exits) := by
  have hproduct : exits.length * minSegment.value < 2 ^ 128 :=
    (Nat.mul_lt_mul'' hlength minSegment.lt).trans_eq (Nat.pow_add ..).symm
  have hpos : 0 < exits.length * minSegment.value :=
    Nat.mul_pos (List.length_pos_iff.mpr hne) minSegment.pos
  have hquotient := (Nat.div_le_self fileSize.value (exits.length * minSegment.value)).trans_lt
    fileSize.lt
  rw [checkedSplitCount, Machine.mul_some hproduct, step_some, ok_bind, Machine.div_some hpos,
    step_some, ok_bind, Machine.fit_some hquotient]
  rfl

section
variable {base remainder : ℕ}

theorem evenLens_succ (parts i : ℕ) : ((List.range' i (parts + 1)).map (evenLen base remainder)).sum =
    evenLen base remainder i + ((List.range' (i + 1) parts).map (evenLen base remainder)).sum := by
  rw [List.range'_succ, List.map_cons, List.sum_cons]

theorem checkedSubsplitFrom_eq {parts i cursor : ℕ}
    (hroom : cursor + ((List.range' i parts).map (evenLen base remainder)).sum < 2 ^ 64)
    (hfirst : 0 < cursor ∨ parts = 0 ∨ 0 < evenLen base remainder i) :
    checkedSubsplitFrom base remainder parts i cursor =
      .ok (subsplitFrom base remainder parts i cursor) := by
  induction parts generalizing i cursor with
  | zero => rfl
  | succ parts ih =>
    rw [evenLens_succ] at hroom
    have hlen : base + (if i < remainder then 1 else 0) = evenLen base remainder i := rfl
    have hpos : 1 ≤ cursor + evenLen base remainder i := by omega
    simp only [checkedSubsplitFrom, subsplitFrom, hlen]
    rw [Machine.add_some (by omega), step_some, ok_bind, hlen, Machine.add_some (by omega),
      step_some, ok_bind, Machine.sub_some hpos, step_some, ok_bind]
    cases ByteRange.tryNew cursor (cursor + evenLen base remainder i - 1) with
    | error error => rfl
    | ok range =>
      have hnext : cursor + evenLen base remainder i - 1 + 1 = cursor + evenLen base remainder i := by
        omega
      dsimp only
      rw [Machine.add_some (by omega), step_some, ok_bind, hnext, ih (by omega) (Or.inl hpos)]
      rfl

theorem subsplitFrom_ends {parts i cursor stop : ℕ} {ranges : List ByteRange}
    (hroom : cursor + ((List.range' i parts).map (evenLen base remainder)).sum ≤ stop)
    (hfirst : 0 < cursor ∨ parts = 0 ∨ 0 < evenLen base remainder i)
    (h : subsplitFrom base remainder parts i cursor = some ranges) :
    ∀ range ∈ ranges, range.endInclusive ≤ stop - 1 := by
  induction parts generalizing i cursor ranges with
  | zero =>
    obtain rfl := Option.some.inj h
    exact nofun
  | succ parts ih =>
    rw [evenLens_succ] at hroom
    have hlen : base + (if i < remainder then 1 else 0) = evenLen base remainder i := rfl
    simp only [subsplitFrom, hlen] at h
    by_cases hle : cursor ≤ cursor + evenLen base remainder i - 1
    · rw [ByteRange.tryNew_ok hle] at h
      obtain ⟨later, hlater, rfl⟩ := Option.map_eq_some_iff.mp h
      intro range hrange
      rcases List.mem_cons.mp hrange with rfl | hrange
      · dsimp only
        omega
      · exact ih (by omega) (Or.inl (by omega)) hlater range hrange
    · obtain ⟨error, herror⟩ := ByteRange.tryNew_error hle
      rw [herror] at h
      cases h

end

section
variable {start endInclusive parts : ℕ}

def partLen (start endInclusive parts : ℕ) : ℕ → ℕ :=
  evenLen ((endInclusive - start + 1) / parts) ((endInclusive - start + 1) % parts)

theorem sum_partLen (start endInclusive : ℕ) (hparts : 0 < parts) :
    ((List.range' 0 parts).map (partLen start endInclusive parts)).sum = endInclusive - start + 1 := by
  rw [← List.range_eq_range']
  exact sum_evenLens hparts

theorem partLen_zero_pos (start endInclusive parts : ℕ) : 0 < partLen start endInclusive parts 0 := by
  have hdivision := Nat.div_add_mod (endInclusive - start + 1) parts
  rcases Nat.eq_zero_or_pos ((endInclusive - start + 1) / parts) with hzero | hpos
  · rw [hzero, Nat.mul_zero, Nat.zero_add] at hdivision
    refine Nat.add_pos_right _ ?_
    rw [if_pos (by omega)]
    exact Nat.one_pos
  · exact Nat.add_pos_left hpos _

theorem checkedEvenSubsplit_eq (hle : start ≤ endInclusive) (hparts : 0 < parts)
    (hend : endInclusive + 1 < 2 ^ 64) :
    checkedEvenSubsplit start endInclusive parts = .ok (evenSubsplit start endInclusive parts) := by
  have hsum := sum_partLen start endInclusive hparts
  have hroom : start + ((List.range' 0 parts).map (partLen start endInclusive parts)).sum < 2 ^ 64 := by
    omega
  rw [checkedEvenSubsplit, Machine.sub_some hle, step_some, ok_bind, Machine.add_some (by omega),
    step_some, ok_bind, Machine.div_some hparts, step_some, ok_bind, Machine.rem_some hparts,
    step_some, ok_bind,
    checkedSubsplitFrom_eq hroom (Or.inr (Or.inr (partLen_zero_pos start endInclusive parts)))]
  rfl

theorem evenSubsplit_ends (hle : start ≤ endInclusive) (hparts : 0 < parts) :
    ∀ range ∈ evenSubsplit start endInclusive parts, range.endInclusive ≤ endInclusive := by
  have hsum := sum_partLen start endInclusive hparts
  have hroom : start + ((List.range' 0 parts).map (partLen start endInclusive parts)).sum ≤
      endInclusive + 1 := by omega
  intro range hrange
  rw [evenSubsplit] at hrange
  cases hranges : subsplitFrom ((endInclusive - start + 1) / parts)
      ((endInclusive - start + 1) % parts) parts 0 start with
  | none =>
    rw [hranges] at hrange
    cases hrange
  | some ranges =>
    rw [hranges] at hrange
    exact subsplitFrom_ends hroom (Or.inr (Or.inr (partLen_zero_pos start endInclusive parts)))
      hranges range hrange

end

-- the last entry's product is never formed
def Fits (size spe : ℕ) (exits : List ExitSpec) : Prop :=
  ∀ exit ∈ exits.dropLast, size * unitsOf spe exit < 2 ^ 128

def withUnits (spe : ℕ) (exits : List ExitSpec) : List (ExitSpec × ℕ) :=
  exits.map fun exit => (exit, unitsOf spe exit)

theorem fits_cons {size spe : ℕ} {exit : ExitSpec} {rest : List ExitSpec} :
    Fits size spe (exit :: rest) ↔
      (rest ≠ [] → size * unitsOf spe exit < 2 ^ 128) ∧ Fits size spe rest := by
  cases rest with
  | nil => simp [Fits]
  | cons next rest => simp [Fits]

section
variable {size total spe : ℕ} (hsize : size < 2 ^ 64) (hpos : 0 < size) (htotal : 0 < total)
  (hspe : 0 < spe)
include hsize htotal hspe

theorem checkedEnd_eq {cursor : ℕ} {exit : ExitSpec} {rest : List ExitSpec}
    (h : Reaches size total cursor (exit :: rest))
    (hexact : rest ≠ [] → size * unitsOf spe exit < 2 ^ 128) :
    checkedEnd size (total * spe) cursor (unitsOf spe exit) rest.isEmpty =
      .ok (cursor + shareAt size total cursor exit rest) := by
  have hreach := (h.step htotal).le htotal
  have hend := @endExclusive_exact size total spe cursor exit rest hspe (h.le htotal) hexact
  rw [endExclusive] at hend
  rw [checkedEnd]
  split_ifs at hend ⊢ with hlast
  · exact congrArg Except.ok hend
  · have hproduct := hexact (mt List.isEmpty_iff.mpr hlast)
    rw [Nat.mod_eq_of_lt hproduct] at hend
    have hsum : cursor + size * unitsOf spe exit / (total * spe) < 2 ^ 128 :=
      hend.trans_lt (Nat.lt_of_le_of_lt hreach (hsize.trans (by norm_num)))
    rw [Machine.mul_some hproduct, step_some, ok_bind, Machine.div_some (Nat.mul_pos htotal hspe),
      step_some, ok_bind, Machine.add_some hsum]
    exact congrArg Except.ok hend

theorem checkedSplitLoop_cons {cursor start : ℕ} {exit : ExitSpec} {rest : List ExitSpec}
    (h : Reaches size total cursor (exit :: rest))
    (hexact : rest ≠ [] → size * unitsOf spe exit < 2 ^ 128) :
    checkedSplitLoop size (total * spe) spe (withUnits spe (exit :: rest)) cursor start =
      if start ≤ cursor + shareAt size total cursor exit rest - 1 then
        (checkedSplitLoop size (total * spe) spe (withUnits spe rest)
          (cursor + shareAt size total cursor exit rest)
          (cursor + shareAt size total cursor exit rest)).map fun later =>
            ((evenSubsplit start (cursor + shareAt size total cursor exit rest - 1) spe).map
              (·, exit.id) ++ later.1, later.2)
      else checkedSplitLoop size (total * spe) spe (withUnits spe rest)
        (cursor + shareAt size total cursor exit rest) start := by
  have hreach := (h.step htotal).le htotal
  have hunits : withUnits spe (exit :: rest) = (exit, unitsOf spe exit) :: withUnits spe rest := rfl
  have hempty : (withUnits spe rest).isEmpty = rest.isEmpty := List.isEmpty_map
  rw [hunits, checkedSplitLoop, hempty, checkedEnd_eq hsize htotal hspe h hexact, ok_bind,
    tryIntoU64_ok (Nat.lt_of_le_of_lt hreach hsize), refuse_ok, ok_bind]
  split_ifs with hroom
  · rw [checkedEvenSubsplit_eq hroom hspe (by omega), ok_bind]
    cases checkedSplitLoop size (total * spe) spe (withUnits spe rest)
      (cursor + shareAt size total cursor exit rest)
      (cursor + shareAt size total cursor exit rest) <;> rfl
  · rfl

-- a run of the loop without a wrap, in both machines
structure Splits (size total spe : ℕ) (exits : List ExitSpec) (cursor start : ℕ)
    (assignments : List Assignment) (stop : ℕ) : Prop where
  checked : checkedSplitLoop size (total * spe) spe (withUnits spe exits) cursor start =
    .ok (assignments, stop)
  plain : splitLoop ExitSpec.id size (total * spe) spe exits cursor start = .ok (assignments, stop)
  length_le : assignments.length ≤ exits.length * spe
  ends : ∀ assignment ∈ assignments, assignment.1.endInclusive < size
  whole : exits ≠ [] → stop = size

include hpos in
theorem exists_splits {cursor start : ℕ} {exits : List ExitSpec} (h : Reaches size total cursor exits)
    (hstart : start ≤ cursor) (hfits : Fits size spe exits) :
    ∃ assignments stop, Splits size total spe exits cursor start assignments stop := by
  induction exits generalizing cursor start with
  | nil => exact ⟨[], start, rfl, rfl, Nat.zero_le _, nofun, fun hne => absurd rfl hne⟩
  | cons exit rest ih =>
    obtain ⟨hexact, hlater⟩ := fits_cons.mp hfits
    have hchecked := @checkedSplitLoop_cons _ _ _ hsize htotal hspe cursor start _ _ h hexact
    have hplain := @splitLoop_cons_exact _ _ _ cursor start _ _ hsize htotal hspe h hexact
    have hstep := h.step htotal
    have hreach := hstep.le htotal
    have hlast : rest = [] → cursor + shareAt size total cursor exit rest = size := by
      rintro rfl
      exact h.last htotal
    have hstart' : start ≤ cursor + shareAt size total cursor exit rest :=
      Nat.le_add_right_of_le hstart
    generalize cursor + shareAt size total cursor exit rest = exitEnd at *
    by_cases hroom : start ≤ exitEnd - 1
    · obtain ⟨later, stop, hsplits⟩ := ih hstep le_rfl hlater
      rw [if_pos hroom, hsplits.checked] at hchecked
      rw [if_pos hroom, hsplits.plain] at hplain
      have hends := evenSubsplit_ends hroom hspe
      refine ⟨_, stop, hchecked, hplain, ?_, ?_, fun _ => ?_⟩
      · have hlength := hsplits.length_le
        have hcount := length_evenSubsplit start (exitEnd - 1) spe
        rw [List.length_append, List.length_map, List.length_cons, Nat.succ_mul]
        dsimp only
        omega
      · intro assignment ha
        rcases List.mem_append.mp ha with ha | ha
        · obtain ⟨range, hrange, rfl⟩ := List.mem_map.mp ha
          have hle := hends range hrange
          dsimp only
          omega
        · exact hsplits.ends assignment ha
      · rcases eq_or_ne rest [] with rfl | hrest
        · obtain ⟨_, rfl⟩ : [] = later ∧ exitEnd = stop := by simpa [splitLoop] using hsplits.plain
          exact hlast rfl
        · exact hsplits.whole hrest
    · obtain ⟨later, stop, hsplits⟩ := ih hstep hstart' hlater
      rw [if_neg hroom] at hchecked hplain
      refine ⟨later, stop, hchecked.trans hsplits.checked, hplain.trans hsplits.plain, ?_, hsplits.ends,
        fun _ => ?_⟩
      · have hlength := hsplits.length_le
        rw [List.length_cons, Nat.succ_mul]
        omega
      · rcases eq_or_ne rest [] with rfl | hrest
        · obtain ⟨_, rfl⟩ : [] = later ∧ start = stop := by simpa [splitLoop] using hsplits.plain
          have hwhole := hlast rfl
          omega
        · exact hsplits.whole hrest

theorem checkedSplitLoop_wraps {cursor start : ℕ} {exits : List ExitSpec}
    (h : Reaches size total cursor exits) (hstart : start ≤ cursor) (hwraps : ¬Fits size spe exits) :
    checkedSplitLoop size (total * spe) spe (withUnits spe exits) cursor start =
      .error .outOfRange := by
  induction exits generalizing cursor start with
  | nil => exact absurd nofun hwraps
  | cons exit rest ih =>
    by_cases hexact : rest ≠ [] → size * unitsOf spe exit < 2 ^ 128
    · have hlater : ¬Fits size spe rest := fun hfits => hwraps (fits_cons.mpr ⟨hexact, hfits⟩)
      have hstep := h.step htotal
      rw [checkedSplitLoop_cons hsize htotal hspe h hexact]
      split_ifs
      · rw [ih hstep le_rfl hlater]
        rfl
      · exact ih hstep (Nat.le_add_right_of_le hstart) hlater
    · obtain ⟨hrest, hwrap⟩ := Classical.not_imp.mp hexact
      have hempty : (withUnits spe rest).isEmpty = rest.isEmpty := List.isEmpty_map
      have hunits : withUnits spe (exit :: rest) = (exit, unitsOf spe exit) :: withUnits spe rest := rfl
      rw [hunits, checkedSplitLoop, hempty, checkedEnd, if_neg (mt List.isEmpty_iff.mp hrest),
        Machine.mul_none (not_lt.mp hwrap)]
      rfl

end

theorem checkedUnits_eq {spe : ℕ} (hspe : spe < 2 ^ 64) (exits : List ExitSpec) :
    checkedUnits spe exits = .ok (withUnits spe exits) := by
  induction exits with
  | nil => rfl
  | cons exit rest ih =>
    have hproduct : exit.weight.value * spe < 2 ^ 128 :=
      (Nat.mul_lt_mul'' exit.weight.lt hspe).trans (by norm_num)
    rw [checkedUnits, Machine.mul_some hproduct, step_some, ok_bind, ih]
    rfl

theorem totalWeight_le (exits : List ExitSpec) : totalWeight exits ≤ exits.length * 2 ^ 32 := by
  have hle := List.sum_le_card_nsmul (exits.map (·.weight.value)) (2 ^ 32) fun weight hweight => by
    obtain ⟨exit, _, rfl⟩ := List.mem_map.mp hweight
    exact exit.weight.lt.le
  rwa [List.length_map] at hle

theorem checkedTotal_eq {spe : ℕ} {exits : List ExitSpec} (h : exits.length * spe < 2 ^ 64) :
    Machine.sum 128 ((withUnits spe exits).map (·.2)) = some (totalWeight exits * spe) := by
  have hunits : (withUnits spe exits).map (·.2) = exits.map (unitsOf spe) := by
    rw [withUnits, List.map_map]
    rfl
  have hbound : totalWeight exits * spe < 2 ^ 128 :=
    calc totalWeight exits * spe ≤ exits.length * 2 ^ 32 * spe :=
          Nat.mul_le_mul_right _ (totalWeight_le exits)
      _ = exits.length * spe * 2 ^ 32 := by ring
      _ < 2 ^ 64 * 2 ^ 32 := Nat.mul_lt_mul_of_pos_right h (by norm_num)
      _ ≤ 2 ^ 128 := by norm_num
  rw [← sum_unitsOf] at hbound ⊢
  rw [hunits]
  exact Machine.sum_some hbound

section
variable {fileSize : FileSize} {spe : SegmentsPerExit} {kept : List ExitSpec} (hne : kept ≠ [])
  (hcount : kept.length * spe.value < 2 ^ 64)
include hne hcount

theorem checkedWeightedSplit_eq : checkedWeightedSplit fileSize spe kept =
    checkedSplitLoop fileSize.value (totalWeight kept * spe.value) spe.value
      (withUnits spe.value kept) 0 0 >>= fun out =>
        if out.2 < fileSize.value then checkedExtendLast fileSize kept out.1 else return out.1 := by
  have hlength : 1 ≤ kept.length := List.length_pos_iff.mpr hne
  rw [checkedWeightedSplit, checkedUnits_eq spe.lt, ok_bind, checkedTotal_eq hcount, step_some,
    ok_bind, Machine.sub_some hlength, step_some, ok_bind]

theorem exists_checkedAssign (hfits : Fits fileSize.value spe.value kept) :
    ∃ assignments, checkedAssign fileSize spe kept = .ok assignments ∧
      assign ExitSpec.id fileSize spe kept = .ok assignments ∧ assignments.length < 2 ^ 64 ∧
      ∀ assignment ∈ assignments, assignment.1.endInclusive < fileSize.value := by
  by_cases hsingle : kept.length = 1 ∧ spe.value = 1
  · obtain ⟨exit, rfl⟩ := List.length_eq_one_iff.mp hsingle.1
    have hpos := fileSize.pos
    refine ⟨_, ?_, assign_single hsingle.2 exit, ?_, ?_⟩
    · rw [checkedAssign, if_pos hsingle, Machine.sub_some hpos, step_some, ok_bind,
        ByteRange.tryNew_ok (Nat.zero_le _), refuse_ok, ok_bind]
      rfl
    · rw [List.length_singleton]
      norm_num
    · intro assignment ha
      rw [List.mem_singleton.mp ha]
      dsimp only
      omega
  · obtain ⟨assignments, stop, hsplits⟩ := exists_splits fileSize.lt fileSize.pos
      (totalWeight_pos hne) spe.pos (reaches_zero fileSize.value kept) le_rfl hfits
    obtain rfl := hsplits.whole hne
    refine ⟨assignments, ?_, ?_, hsplits.length_le.trans_lt hcount, hsplits.ends⟩
    · rw [checkedAssign, if_neg hsingle, checkedWeightedSplit_eq hne hcount, hsplits.checked, ok_bind]
      exact if_neg (lt_irrefl _)
    · rw [assign_split hsingle]
      exact weightedSplit_ok hsplits.plain

theorem checkedAssign_wraps (hwraps : ¬Fits fileSize.value spe.value kept) :
    checkedAssign fileSize spe kept = .error .outOfRange := by
  have hmany : ¬(kept.length = 1 ∧ spe.value = 1) := by
    rintro ⟨hone, _⟩
    obtain ⟨exit, rfl⟩ := List.length_eq_one_iff.mp hone
    exact hwraps nofun
  rw [checkedAssign, if_neg hmany, checkedWeightedSplit_eq hne hcount,
    checkedSplitLoop_wraps fileSize.lt (totalWeight_pos hne) spe.pos
      (reaches_zero fileSize.value kept) le_rfl hwraps]
  rfl

end

section
variable {minSegment : MinSegmentBytes} {stop : ℕ} (hstop : stop < 2 ^ 64)
include hstop

theorem checkedPosition_eq (pos : ℕ) {assignments : List Assignment}
    (hends : ∀ assignment ∈ assignments, assignment.1.endInclusive < stop) :
    checkedPosition minSegment pos assignments = .ok ((assignments.findIdx? fun assignment =>
      assignment.1.len < minSegment.value).map (· + pos)) := by
  induction assignments generalizing pos with
  | nil => rfl
  | cons first rest ih =>
    have hfirst := hends first (by simp)
    have hrest := ih (pos + 1) fun other ho => hends other (List.mem_cons_of_mem _ ho)
    rw [checkedPosition, ByteRange.checkedLen_ok (by omega), ok_bind, List.findIdx?_cons, hrest]
    by_cases htiny : first.1.len < minSegment.value
    · simp only [htiny, if_true, decide_true, Option.map_some, Nat.zero_add]
      rfl
    · simp only [htiny, decide_false, Bool.false_eq_true, if_false, Option.map_map]
      refine congrArg (fun f => Except.ok (Option.map f _)) (funext fun i => ?_)
      simp only [Function.comp_apply]
      omega

omit hstop in
theorem checkedMergeAt_eq {pos : ℕ} {assignments : List Assignment} (hpos : pos < assignments.length)
    (hmany : assignments.length ≠ 1) (hlength : assignments.length < 2 ^ 64) :
    checkedMergeAt pos assignments = .ok (mergeAt pos assignments) := by
  have htiny : assignments[pos]? = some assignments[pos] := List.getElem?_eq_getElem hpos
  rw [checkedMergeAt, mergeAt, Machine.add_some (by omega), step_some, ok_bind, htiny]
  split_ifs with hnext
  · rw [List.getElem?_eq_getElem hnext, step_some, ok_bind, step_some, ok_bind]
    dsimp only
    cases ByteRange.tryNew assignments[pos].1.start assignments[pos + 1].1.endInclusive <;> rfl
  · have hprev : pos - 1 < assignments.length := by omega
    rw [Machine.sub_some (by omega), step_some, ok_bind, List.getElem?_eq_getElem hprev, step_some,
      ok_bind, step_some, ok_bind]
    dsimp only
    cases ByteRange.tryNew assignments[pos - 1].1.start assignments[pos].1.endInclusive <;> rfl

omit hstop in
theorem mergeAt_ends {pos : ℕ} {assignments merged : List Assignment}
    (hends : ∀ assignment ∈ assignments, assignment.1.endInclusive < stop)
    (h : mergeAt pos assignments = some merged) :
    merged.length ≤ assignments.length ∧
      ∀ assignment ∈ merged, assignment.1.endInclusive < stop := by
  obtain ⟨i, start, second, range, owner, hsecond, hjoin, rfl⟩ := mergeAt_some h
  refine ⟨(List.length_eraseIdx_le _ _).trans_eq List.length_set, fun assignment ha => ?_⟩
  rcases ListFacts.mem_set_eraseIdx ha with ha | rfl
  · exact hends assignment ha
  · exact (ByteRange.tryNew_endInclusive hjoin).trans_lt (hends second hsecond)

theorem checkedMergeLoop_eq (turns : ℕ) {assignments : List Assignment}
    (hlength : assignments.length < 2 ^ 64)
    (hends : ∀ assignment ∈ assignments, assignment.1.endInclusive < stop) :
    checkedMergeLoop minSegment turns assignments = .ok (mergeLoop minSegment turns assignments) := by
  induction turns generalizing assignments with
  | zero => rfl
  | succ turns ih =>
    have hposition := @checkedPosition_eq minSegment stop hstop 0 assignments hends
    simp only [Nat.add_zero, Option.map_id'] at hposition
    rw [checkedMergeLoop, hposition, ok_bind, mergeLoop]
    cases hfind : assignments.findIdx? fun assignment => assignment.1.len < minSegment.value with
    | none => rfl
    | some pos =>
      have hpos := (List.findIdx?_eq_some_iff_getElem.mp hfind).1
      dsimp only
      split_ifs with hone
      · rfl
      · rw [checkedMergeAt_eq hpos hone hlength, ok_bind]
        cases hmerge : mergeAt pos assignments with
        | none => rfl
        | some merged =>
          obtain ⟨hfewer, hbounds⟩ := mergeAt_ends hends hmerge
          exact ih (by omega) hbounds

end

theorem refuse_ne {α : Type} (result : Except FetchError α) : refuse result ≠ .error .outOfRange := by
  cases result <;> nofun

def SplitProductsFit (fileSize : FileSize) (exits : List ExitSpec) (segmentsPerExit : SegmentsPerExit)
    (minSegment : MinSegmentBytes) : Prop :=
  let k := max 1 (min exits.length (fileSize.value / minSegment.value))
  segmentsPerExit.value ≤ fileSize.value / (k * minSegment.value) →
    ∀ exit ∈ (sortById (select strength k exits)).dropLast,
      fileSize.value * (exit.weight.value * segmentsPerExit.value) < 2 ^ 128

section
variable (url : TargetUrl) (fileSize : FileSize) {exits : List ExitSpec}
  (segmentsPerExit : SegmentsPerExit) (minSegment : MinSegmentBytes)

theorem keptExits_eq : keptExits fileSize minSegment exits =
    sortById (select strength (keptCount fileSize minSegment exits.length) exits) := by
  rw [keptExits, dropWeakest_eq_select le_rfl]

variable (hne : exits ≠ [])
include hne

theorem length_keptExits :
    (keptExits fileSize minSegment exits).length = keptCount fileSize minSegment exits.length := by
  have hpos := List.length_pos_iff.mpr hne
  rw [keptExits_eq, sortById, List.length_insertionSort, length_select, keptCount]
  omega

variable (hlength : exits.length < 2 ^ 64)
include hlength

theorem kept_count_lt : (keptExits fileSize minSegment exits).length *
    (splitCount fileSize minSegment segmentsPerExit (keptExits fileSize minSegment exits)).value <
      2 ^ 64 := by
  have hkept := List.length_pos_iff.mpr (@keptExits_ne_nil fileSize minSegment exits hne)
  have hle := length_keptExits_le fileSize minSegment exits
  rw [splitCount]
  split_ifs with hmany
  · have hproduct := (Nat.le_div_iff_mul_le (Nat.mul_pos hkept minSegment.pos)).mp hmany
    refine Nat.lt_of_le_of_lt ?_ fileSize.lt
    calc (keptExits fileSize minSegment exits).length * segmentsPerExit.value
        ≤ (keptExits fileSize minSegment exits).length * segmentsPerExit.value * minSegment.value :=
          Nat.le_mul_of_pos_right _ minSegment.pos
      _ = segmentsPerExit.value * ((keptExits fileSize minSegment exits).length * minSegment.value) := by
          ring
      _ ≤ fileSize.value := hproduct
  · rw [NonZero.value_one, Nat.mul_one]
    omega

omit hlength in
theorem fits_iff : Fits fileSize.value
      (splitCount fileSize minSegment segmentsPerExit (keptExits fileSize minSegment exits)).value
      (keptExits fileSize minSegment exits) ↔
    SplitProductsFit fileSize exits segmentsPerExit minSegment := by
  have hcount := length_keptExits fileSize minSegment hne
  rw [splitCount, speLimit, hcount]
  unfold SplitProductsFit
  split_ifs with hmany
  · rw [keptExits_eq]
    exact ⟨fun h _ => h, fun h => h hmany⟩
  · refine iff_of_true ?_ fun h => absurd h hmany
    intro exit _
    have hproduct := Nat.mul_lt_mul'' fileSize.lt exit.weight.lt
    rw [unitsOf, NonZero.value_one, Nat.mul_one]
    exact hproduct.trans (by norm_num)

theorem checkedBuild_eq (hfits : SplitProductsFit fileSize exits segmentsPerExit minSegment) :
    checkedBuild url fileSize exits segmentsPerExit minSegment =
      refuse (FetchPlan.build url fileSize exits segmentsPerExit minSegment) := by
  have hkept := @keptExits_ne_nil fileSize minSegment exits hne
  have hkeptLength := (length_keptExits_le fileSize minSegment exits).trans_lt hlength
  obtain ⟨assignments, hchecked, hplain, hcount, hends⟩ := exists_checkedAssign hkept
    (kept_count_lt fileSize segmentsPerExit minSegment hne hlength)
    ((fits_iff fileSize segmentsPerExit minSegment hne).mpr hfits)
  have hempty : exits.isEmpty = false := by simpa using hne
  have hmerge := @checkedMergeLoop_eq minSegment _ fileSize.lt assignments.length assignments hcount hends
  rw [keptExits] at hkept hkeptLength hchecked hplain
  simp only [checkedBuild, FetchPlan.build, hempty, Bool.false_eq_true, if_false, keptExits,
    checkedDropWeakest_eq hlength, ok_bind, checkedSplitCount_eq hkept hkeptLength, hchecked, hplain,
    hmerge, mergeTinySegments]
  cases numberFrom 0 (mergeLoop minSegment assignments.length assignments) with
  | error error => rfl
  | ok segments =>
    simp only [refuse_ok, ok_bind]
    cases (⟨url, fileSize, segments⟩ : FetchPlan).validate <;> rfl

theorem checkedBuild_wraps (hwraps : ¬SplitProductsFit fileSize exits segmentsPerExit minSegment) :
    checkedBuild url fileSize exits segmentsPerExit minSegment = .error .outOfRange := by
  have hkept := @keptExits_ne_nil fileSize minSegment exits hne
  have hkeptLength := (length_keptExits_le fileSize minSegment exits).trans_lt hlength
  have hassign := checkedAssign_wraps hkept
    (kept_count_lt fileSize segmentsPerExit minSegment hne hlength)
    (mt (fits_iff fileSize segmentsPerExit minSegment hne).mp hwraps)
  have hempty : exits.isEmpty = false := by simpa using hne
  rw [keptExits] at hkept hkeptLength hassign
  simp only [checkedBuild, hempty, Bool.false_eq_true, if_false, checkedDropWeakest_eq hlength,
    ok_bind, checkedSplitCount_eq hkept hkeptLength, hassign]
  rfl

end

theorem build_inRange_iff (url : TargetUrl) (fileSize : FileSize) (exits : List ExitSpec)
    (segmentsPerExit : SegmentsPerExit) (minSegment : MinSegmentBytes)
    (hlength : exits.length < 2 ^ 64) :
    checkedBuild url fileSize exits segmentsPerExit minSegment ≠ .error .outOfRange ↔
      SplitProductsFit fileSize exits segmentsPerExit minSegment := by
  rcases eq_or_ne exits [] with rfl | hne
  · exact iff_of_true nofun fun _ => nofun
  · constructor
    · intro h
      by_contra hwraps
      exact h (checkedBuild_wraps url fileSize segmentsPerExit minSegment hne hlength hwraps)
    · intro hfits
      rw [checkedBuild_eq url fileSize segmentsPerExit minSegment hne hlength hfits]
      exact refuse_ne _

theorem build_inRange_sample : SplitProductsFit sampleSize sampleExits ⟨1, by decide, by decide⟩
    sampleMinimum :=
  (build_inRange_iff sampleUrl sampleSize sampleExits 1 sampleMinimum
    (by decide)).mp nofun

-- a `Content-Length` near 2^64, 2^33 segments per exit, 1 MiB minimum
def hugeSize : FileSize := 18446744073709551615

def heavyExits : List ExitSpec :=
  [⟨1, 4294967295, .direct⟩, ⟨2, 4294967295, .direct⟩]

theorem build_wraps : ¬∀ (url : TargetUrl) (fileSize : FileSize) (exits : List ExitSpec)
    (segmentsPerExit : SegmentsPerExit) (minSegment : MinSegmentBytes), exits.length < 2 ^ 64 →
    checkedBuild url fileSize exits segmentsPerExit minSegment ≠ .error .outOfRange := fun h =>
  h sampleUrl hugeSize heavyExits 8589934592 1048576 (by decide) rfl

end SpiderNet.Fetch
