import Mathlib.Data.List.Sort
import Mathlib.Order.Basic

namespace TopSelection

variable {α κ : Type} [LinearOrder κ] (key : α → κ)

def above (all : List α) (x : α) : ℕ := (all.filter fun y => key x < key y).length

def tied (later : List α) (x : α) : ℕ := (later.filter fun y => key y = key x).length

def selectFrom (k : ℕ) (all : List α) : List α → List α
  | [] => []
  | x :: rest =>
    if above key all x + tied key rest x < k then x :: selectFrom k all rest else selectFrom k all rest

-- the elements with fewer than `k` others before them, a later one going before an equal earlier one
def select (k : ℕ) (xs : List α) : List α := selectFrom key k xs xs

def descending (keys : List κ) : List κ := keys.insertionSort (· ≥ ·)

-- `m` is the first of the smallest elements of `pre ++ m :: post`
structure FirstMin (pre : List α) (m : α) (post : List α) : Prop where
  before : ∀ x ∈ pre, key m < key x
  after : ∀ x ∈ post, key m ≤ key x

theorem exists_firstMin {xs : List α} (h : xs ≠ []) :
    ∃ pre m post, xs = pre ++ m :: post ∧ FirstMin key pre m post := by
  induction xs with
  | nil => exact absurd rfl h
  | cons x rest ih =>
    rcases eq_or_ne rest [] with rfl | hrest
    · exact ⟨[], x, [], rfl, by simp, by simp⟩
    · obtain ⟨pre, m, post, rfl, hmin⟩ := ih hrest
      rcases lt_or_ge (key m) (key x) with hlt | hge
      · exact ⟨x :: pre, m, post, rfl, by simpa [hlt] using hmin.before, hmin.after⟩
      · refine ⟨[], x, _, rfl, by simp, fun y hy => ?_⟩
        rcases List.mem_append.mp hy with hy | hy
        · exact hge.trans (hmin.before y hy).le
        · rcases List.mem_cons.mp hy with rfl | hy
          · exact hge
          · exact hge.trans (hmin.after y hy)

section
variable {key} {pre post : List α} {m : α}

theorem FirstMin.above_eq (h : FirstMin key pre m post) {x : α} (hx : x ∈ pre ++ post) :
    above key (pre ++ m :: post) x = above key (pre ++ post) x := by
  have hle : key m ≤ key x := by
    rcases List.mem_append.mp hx with hx | hx
    · exact (h.before x hx).le
    · exact h.after x hx
  simp [above, not_lt.mpr hle]

theorem FirstMin.rank_eq (h : FirstMin key pre m post) :
    above key (pre ++ m :: post) m + tied key post m = (pre ++ post).length := by
  have hpre : pre.filter (fun y => key m < key y) = pre :=
    List.filter_eq_self.mpr fun x hx => decide_eq_true (h.before x hx)
  have hsplit := (List.filter_append_perm (fun y => decide (key m < key y)) post).length_eq
  have htied : tied key post m = (post.filter fun y => !decide (key m < key y)).length := by
    refine congrArg List.length (List.filter_congr fun x hx => ?_)
    have hle := h.after x hx
    rw [← decide_not, decide_eq_decide, not_lt]
    exact ⟨fun heq => heq.le, fun hge => le_antisymm hge hle⟩
  rw [List.length_append] at hsplit
  rw [htied]
  simp only [above, List.filter_append, List.filter_cons, lt_irrefl, decide_false,
    Bool.false_eq_true, if_false, hpre, List.length_append]
  omega

theorem selectFrom_congr {k : ℕ} {all all' xs : List α}
    (h : ∀ x ∈ xs, above key all x = above key all' x) :
    selectFrom key k all xs = selectFrom key k all' xs := by
  induction xs with
  | nil => rfl
  | cons x rest ih =>
    rw [selectFrom, selectFrom, h x (by simp), ih fun y hy => h y (List.mem_cons_of_mem _ hy)]

theorem selectFrom_remove {k : ℕ} {all : List α} (hbefore : ∀ x ∈ pre, key m < key x)
    (hrank : k ≤ above key all m + tied key post m) :
    selectFrom key k all (pre ++ m :: post) = selectFrom key k all (pre ++ post) := by
  induction pre with
  | nil =>
    rw [List.nil_append, selectFrom, if_neg (not_lt.mpr hrank)]
    rfl
  | cons x rest ih =>
    have hx := hbefore x (by simp)
    have htied : tied key (rest ++ m :: post) x = tied key (rest ++ post) x := by
      simp [tied, hx.ne]
    rw [List.cons_append, List.cons_append, selectFrom, selectFrom, htied,
      ih fun y hy => hbefore y (List.mem_cons_of_mem _ hy)]

theorem FirstMin.select_eq (h : FirstMin key pre m post) {k : ℕ} (hk : k ≤ (pre ++ post).length) :
    select key k (pre ++ m :: post) = select key k (pre ++ post) := by
  rw [select, selectFrom_remove h.before (hk.trans h.rank_eq.ge)]
  exact selectFrom_congr fun x hx => h.above_eq hx

theorem FirstMin.descending_eq (h : FirstMin key pre m post) :
    descending ((pre ++ m :: post).map key) = descending ((pre ++ post).map key) ++ [key m] := by
  have hperm : (descending ((pre ++ m :: post).map key)).Perm
      (descending ((pre ++ post).map key) ++ [key m]) := by
    refine (List.perm_insertionSort _ _).trans ?_
    refine ((List.perm_middle.trans (List.perm_append_singleton _ _).symm).map key).trans ?_
    rw [List.map_append]
    exact (List.perm_insertionSort _ _).symm.append_right _
  refine hperm.eq_of_pairwise (fun _ _ _ _ hab hba => le_antisymm hba hab)
    (List.pairwise_insertionSort _ _) ?_
  refine List.pairwise_append.mpr ⟨List.pairwise_insertionSort _ _, List.pairwise_singleton _ _, ?_⟩
  intro value hvalue least hleast
  obtain ⟨x, hx, rfl⟩ := List.mem_map.mp ((List.mem_insertionSort _).mp hvalue)
  rw [List.mem_singleton.mp hleast]
  rcases List.mem_append.mp hx with hx | hx
  · exact (h.before x hx).le
  · exact h.after x hx

end

theorem selectFrom_all {k : ℕ} (before : List α) {xs : List α} (h : (before ++ xs).length ≤ k) :
    selectFrom key k (before ++ xs) xs = xs := by
  induction xs generalizing before with
  | nil => rfl
  | cons x rest ih =>
    have hrest := ih (before ++ [x]) (by rwa [List.append_assoc, List.singleton_append])
    rw [List.append_assoc, List.singleton_append] at hrest
    have hsplit := (List.filter_append_perm (fun y => decide (key x < key y)) rest).length_eq
    have hbefore := List.length_filter_le (fun y => decide (key x < key y)) before
    have htied : tied key rest x ≤ (rest.filter fun y => !decide (key x < key y)).length := by
      refine (List.monotone_filter_right rest fun y hy => ?_).length_le
      simpa using (of_decide_eq_true hy).le
    have hrank : above key (before ++ x :: rest) x + tied key rest x < k := by
      rw [List.length_append, List.length_cons] at h
      rw [List.length_append] at hsplit
      simp only [above, List.filter_append, List.filter_cons, lt_irrefl, decide_false,
        Bool.false_eq_true, if_false, List.length_append]
      omega
    rw [selectFrom, if_pos hrank, hrest]

theorem select_all {k : ℕ} {xs : List α} (h : xs.length ≤ k) : select key k xs = xs :=
  selectFrom_all key [] h

theorem select_perm_top (k : ℕ) (xs : List α) :
    ((select key k xs).map key).Perm ((descending (xs.map key)).take k) := by
  induction hlength : xs.length generalizing xs with
  | zero =>
    obtain rfl := List.length_eq_zero_iff.mp hlength
    simp [select, selectFrom, descending]
  | succ count ih =>
    rcases Nat.lt_or_ge k xs.length with hlt | hge
    · obtain ⟨pre, m, post, rfl, hmin⟩ :=
        exists_firstMin key (List.length_pos_iff.mp (by omega : 0 < xs.length))
      have hsmaller : (pre ++ post).length = count := by
        simp only [List.length_append, List.length_cons] at hlength ⊢
        omega
      have hk : k ≤ (pre ++ post).length := by omega
      have hlast : k ≤ (descending ((pre ++ post).map key)).length := by
        rwa [descending, List.length_insertionSort, List.length_map]
      rw [hmin.select_eq hk, hmin.descending_eq, List.take_append_of_le_length hlast]
      exact ih _ hsmaller
    · have hwhole : (descending (xs.map key)).length ≤ k := by
        rwa [descending, List.length_insertionSort, List.length_map]
      rw [select_all key hge, List.take_of_length_le hwhole]
      exact (List.perm_insertionSort _ _).symm

theorem length_select (k : ℕ) (xs : List α) : (select key k xs).length = min k xs.length := by
  have hlength := (select_perm_top key k xs).length_eq
  rwa [List.length_map, List.length_take, descending, List.length_insertionSort,
    List.length_map] at hlength

theorem descending_perm {keys keys' : List κ} (h : keys.Perm keys') :
    descending keys = descending keys' :=
  ((List.perm_insertionSort _ _).trans (h.trans (List.perm_insertionSort _ _).symm)).eq_of_pairwise
    (fun _ _ _ _ hab hba => le_antisymm hba hab) (List.pairwise_insertionSort _ _)
    (List.pairwise_insertionSort _ _)

theorem select_perm (k : ℕ) {xs ys : List α} (h : (xs.map key).Perm (ys.map key)) :
    ((select key k xs).map key).Perm ((select key k ys).map key) := by
  have hxs := select_perm_top key k xs
  have hys := select_perm_top key k ys
  rw [descending_perm h] at hxs
  exact hxs.trans hys.symm

end TopSelection
