import SpiderNet.Fetch.Exec
import SpiderNet.Library.ListFacts
import Mathlib.Data.List.MinMax
import Mathlib.Data.Prod.Lex

namespace SpiderNet.Fetch

-- an exit that never failed is below every instant
def lastFailure (lastFailed : OrdMap ExitId Instant) (id : ExitId) : WithBot Instant :=
  lastFailed.get? id

def retryKey (lastFailed : OrdMap ExitId Instant) (id : ExitId) : WithBot Instant ×ₗ ExitId :=
  toLex (lastFailure lastFailed id, id)

structure RetryFirst (lastFailed : OrdMap ExitId Instant) (ids : List ExitId) (avoid id : ExitId) :
    Prop where
  listed : id ∈ ids
  other : id ≠ avoid
  least : ∀ candidate ∈ ids, candidate ≠ avoid →
    retryKey lastFailed id ≤ retryKey lastFailed candidate

section
variable {lastFailed : OrdMap ExitId Instant} {avoid : ExitId} {ids : List ExitId}

theorem preferId_iff (current id : ExitId) : preferId lastFailed current id = true ↔
    lastFailure lastFailed id < lastFailure lastFailed current := by
  unfold preferId lastFailure
  cases lastFailed.get? current with
  | none => exact iff_of_false Bool.false_ne_true not_lt_bot
  | some currentFailed =>
    cases lastFailed.get? id with
    | none => exact iff_of_true rfl (WithBot.bot_lt_coe currentFailed)
    | some idFailed =>
      rw [decide_eq_true_eq]
      exact WithBot.coe_lt_coe.symm

theorem pickFrom_eq_foldl (best : Option ExitId) : pickFrom lastFailed avoid ids best =
    (ids.filter (· ≠ avoid)).foldl
      (List.argAux fun a b => lastFailure lastFailed a < lastFailure lastFailed b) best := by
  induction ids generalizing best with
  | nil => rfl
  | cons id rest ih =>
    unfold pickFrom
    split_ifs with hskip
    · rw [ih, List.filter_cons_of_neg (by simpa using hskip)]
    · rw [List.filter_cons_of_pos (by simpa using hskip), List.foldl_cons]
      cases best with
      | none => exact ih _
      | some current =>
        dsimp only
        rw [ih, List.argAux]
        simp only [preferId_iff]
        split_ifs <;> rfl

theorem pickFrom_argmin : pickFrom lastFailed avoid ids none =
    (ids.filter (· ≠ avoid)).argmin (lastFailure lastFailed) := pickFrom_eq_foldl none

theorem pickRetry_none (h : ∀ id ∈ ids, id = avoid) : pickRetry ids lastFailed avoid = avoid := by
  have hnone : ids.filter (· ≠ avoid) = [] := List.filter_eq_nil_iff.mpr fun id hid => by
    simpa using h id hid
  rw [pickRetry, pickFrom_argmin, hnone, List.argmin_nil, Option.getD_none]

theorem pickRetry_mem_argmin (h : ∃ id ∈ ids, id ≠ avoid) :
    pickRetry ids lastFailed avoid ∈ (ids.filter (· ≠ avoid)).argmin (lastFailure lastFailed) := by
  obtain ⟨id, hid, hne⟩ := h
  have hsome : (ids.filter (· ≠ avoid)).argmin (lastFailure lastFailed) ≠ none := by
    rw [ne_eq, List.argmin_eq_none]
    exact List.ne_nil_of_mem (List.mem_filter.mpr ⟨hid, decide_eq_true hne⟩)
  obtain ⟨best, hbest⟩ := Option.ne_none_iff_exists'.mp hsome
  rw [pickRetry, pickFrom_argmin, hbest]
  rfl

theorem pickRetry_listed (h : ∃ id ∈ ids, id ≠ avoid) :
    pickRetry ids lastFailed avoid ∈ ids ∧ pickRetry ids lastFailed avoid ≠ avoid := by
  obtain ⟨hmem, hne⟩ := List.mem_filter.mp (List.argmin_mem (pickRetry_mem_argmin h))
  exact ⟨hmem, of_decide_eq_true hne⟩

theorem pickRetry_le {candidate : ExitId} (hmem : candidate ∈ ids) (hne : candidate ≠ avoid) :
    lastFailure lastFailed (pickRetry ids lastFailed avoid) ≤ lastFailure lastFailed candidate :=
  List.le_of_mem_argmin (List.mem_filter.mpr ⟨hmem, decide_eq_true hne⟩)
    (pickRetry_mem_argmin ⟨candidate, hmem, hne⟩)

-- among equals the fold keeps the first, and the list ascends
theorem pickRetry_retryFirst (hids : ids.Pairwise (· < ·)) (h : ∃ id ∈ ids, id ≠ avoid) :
    RetryFirst lastFailed ids avoid (pickRetry ids lastFailed avoid) := by
  obtain ⟨hlisted, hother⟩ := @pickRetry_listed lastFailed avoid ids h
  refine ⟨hlisted, hother, fun candidate hmem hne => ?_⟩
  have hcandidate : candidate ∈ ids.filter (· ≠ avoid) :=
    List.mem_filter.mpr ⟨hmem, decide_eq_true hne⟩
  rw [retryKey, retryKey, Prod.Lex.toLex_le_toLex]
  rcases (@pickRetry_le lastFailed avoid ids candidate hmem hne).lt_or_eq with hlt | heq
  · exact Or.inl hlt
  · have hindex := List.index_of_argmin (pickRetry_mem_argmin h) hcandidate heq.ge
    exact Or.inr ⟨heq, ListFacts.le_of_idxOf_le (hids.filter _) hcandidate hindex⟩

theorem RetryFirst.unique {id id' : ExitId} (h : RetryFirst lastFailed ids avoid id)
    (h' : RetryFirst lastFailed ids avoid id') : id = id' := by
  have hkeys := le_antisymm (h.least id' h'.listed h'.other) (h'.least id h.listed h.other)
  exact congrArg (fun key => (ofLex key).2) hkeys

end

theorem pickRetry_first (lastFailed : OrdMap ExitId Instant) (avoid : ExitId) {ids : List ExitId}
    (hids : ids.Pairwise (· < ·)) :
    (∀ id, RetryFirst lastFailed ids avoid id ↔
      (∃ other ∈ ids, other ≠ avoid) ∧ id = pickRetry ids lastFailed avoid) ∧
    (pickRetry ids lastFailed avoid = avoid ↔ ∀ id ∈ ids, id = avoid) := by
  refine ⟨fun id => ⟨fun hfirst => ?_, ?_⟩, fun hpick => ?_, pickRetry_none⟩
  · have hother : ∃ other ∈ ids, other ≠ avoid := ⟨id, hfirst.listed, hfirst.other⟩
    exact ⟨hother, hfirst.unique (pickRetry_retryFirst hids hother)⟩
  · rintro ⟨hother, rfl⟩
    exact pickRetry_retryFirst hids hother
  · by_contra hsome
    push Not at hsome
    exact (pickRetry_listed hsome).2 hpick

def threeIds : List ExitId := [1, 2, 3]

-- the first exit failed at 5, the other two at 3
def threeFailures : OrdMap ExitId Instant := ((OrdMap.empty.insert 1 5).insert 2 3).insert 3 3

theorem pickRetry_first_threeIds : RetryFirst threeFailures threeIds 1 2 :=
  ((pickRetry_first threeFailures 1 (by decide : threeIds.Pairwise (· < ·))).1 2).mpr
    ⟨⟨2, by decide, by decide⟩, by decide⟩

end SpiderNet.Fetch
