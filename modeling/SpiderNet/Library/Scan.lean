import Mathlib.Data.List.TakeWhile

namespace Scan

variable {σ : Type}

-- a reader left `rest` of `xs`, and took only what is allowed
def Takes (allowed : σ → Prop) (xs rest : List σ) : Prop :=
  ∃ used, xs = used ++ rest ∧ ∀ c ∈ used, allowed c

section
variable {allowed : σ → Prop} {xs ys rest : List σ}

theorem Takes.refl (xs : List σ) : Takes allowed xs xs := ⟨[], rfl, by simp⟩

theorem Takes.trans (h : Takes allowed xs ys) (h' : Takes allowed ys rest) : Takes allowed xs rest := by
  obtain ⟨front, rfl, hfront⟩ := h
  obtain ⟨back, rfl, hback⟩ := h'
  refine ⟨front ++ back, (List.append_assoc _ _ _).symm, fun c hc => ?_⟩
  exact (List.mem_append.mp hc).elim (hfront c) (hback c)

theorem Takes.cons {c : σ} (hc : allowed c) (h : Takes allowed xs rest) : Takes allowed (c :: xs) rest :=
  Takes.trans ⟨[c], rfl, by simpa using hc⟩ h

theorem Takes.mono {allowed' : σ → Prop} (himp : ∀ c, allowed c → allowed' c)
    (h : Takes allowed xs rest) : Takes allowed' xs rest := by
  obtain ⟨used, hused, hall⟩ := h
  exact ⟨used, hused, fun c hc => himp c (hall c hc)⟩

theorem Takes.takeWhile (p : σ → Bool) (xs : List σ) :
    Takes (p · = true) xs (xs.drop (xs.takeWhile p).length) :=
  ⟨xs.takeWhile p, (List.prefix_iff_eq_append.mp (List.takeWhile_prefix p)).symm,
    fun _ hc => List.mem_takeWhile_imp hc⟩

theorem Takes.count_le [BEq σ] (h : Takes allowed xs rest) (c : σ) : rest.count c ≤ xs.count c := by
  obtain ⟨used, rfl, _⟩ := h
  rw [List.count_append]
  omega

end

theorem takeWhile_stops {p : σ → Bool} {front rest : List σ} {c : σ} (hfront : ∀ x ∈ front, p x)
    (hstop : p c = false) : (front ++ c :: rest).takeWhile p = front := by
  rw [List.takeWhile_append_of_pos hfront, List.takeWhile_cons_of_neg (by simp [hstop]),
    List.append_nil]

-- the non-empty pieces between separators
def words (sep : σ → Bool) (xs : List σ) : List (List σ) :=
  (xs.splitOnP sep).filter fun word => !word.isEmpty

section
variable {sep : σ → Bool} {word rest : List σ} {c : σ}

theorem words_append (hne : word ≠ []) (hclean : ∀ x ∈ word, sep x = false) (hsep : sep c) :
    words sep (word ++ c :: rest) = word :: words sep rest := by
  rw [words, List.splitOnP_append_cons_of_forall_mem hclean c hsep, List.filter_cons_of_pos, words]
  simpa using hne

theorem words_single (hne : word ≠ []) (hclean : ∀ x ∈ word, sep x = false) :
    words sep word = [word] := by
  rw [words, List.splitOnP_eq_singleton hclean, List.filter_cons_of_pos, List.filter_nil]
  simpa using hne

theorem words_sep (hsep : sep c) (xs : List σ) : words sep (c :: xs) = words sep xs := by
  rw [words, List.splitOnP_cons_eq_if_modifyHead, if_pos hsep, List.filter_cons_of_neg (by simp), words]

theorem words_gap {gap : List σ} (hgap : ∀ x ∈ gap, sep x) (xs : List σ) :
    words sep (gap ++ xs) = words sep xs := by
  induction gap with
  | nil => rfl
  | cons x gap ih =>
    rw [List.cons_append, words_sep (hgap x List.mem_cons_self)]
    exact ih fun y hy => hgap y (List.mem_cons_of_mem _ hy)

theorem words_spaced {gap : List σ} (hne : word ≠ []) (hclean : ∀ x ∈ word, sep x = false)
    (hgap : ∀ x ∈ gap, sep x) (hsome : gap ≠ []) (xs : List σ) :
    words sep (word ++ (gap ++ xs)) = word :: words sep xs := by
  obtain ⟨x, gap, rfl⟩ := List.exists_cons_of_ne_nil hsome
  rw [List.cons_append, words_append hne hclean (hgap x List.mem_cons_self),
    words_gap fun y hy => hgap y (List.mem_cons_of_mem _ hy)]

theorem splitOnP_clean {xs piece : List σ} (h : piece ∈ xs.splitOnP sep) : ∀ x ∈ piece, sep x = false := by
  induction xs generalizing piece with
  | nil =>
    rw [List.splitOnP_nil, List.mem_singleton] at h
    simp [h]
  | cons x xs ih =>
    obtain ⟨first, later, hpieces⟩ := List.exists_cons_of_ne_nil (List.splitOnP_ne_nil sep xs)
    rw [List.splitOnP_cons_eq_if_modifyHead] at h
    rw [hpieces] at ih h
    split_ifs at h with hx
    · rcases List.mem_cons.mp h with rfl | h
      · simp
      · exact ih h
    · rw [List.modifyHead_cons] at h
      rcases List.mem_cons.mp h with rfl | h
      · intro y hy
        rcases List.mem_cons.mp hy with rfl | hy
        · exact Bool.eq_false_iff.mpr hx
        · exact ih (by simp) y hy
      · exact ih (List.mem_cons_of_mem _ h)

theorem words_clean {xs : List σ} (h : word ∈ words sep xs) :
    word ≠ [] ∧ ∀ x ∈ word, sep x = false := by
  obtain ⟨hmem, hne⟩ := List.mem_filter.mp h
  exact ⟨by simpa using hne, splitOnP_clean hmem⟩

theorem splitOn_terminated [DecidableEq σ] {pieces : List (List σ)} {c : σ}
    (h : ∀ piece ∈ pieces, c ∉ piece) :
    (pieces.flatMap (· ++ [c])).splitOn c = pieces ++ [[]] := by
  induction pieces with
  | nil => exact List.splitOnP_nil
  | cons piece pieces ih =>
    have hclean : ∀ x ∈ piece, (x == c) = false := by
      intro x hx
      simp only [beq_eq_false_iff_ne, ne_eq]
      rintro rfl
      exact h piece List.mem_cons_self hx
    rw [List.flatMap_cons, List.append_assoc, List.singleton_append, List.splitOn,
      List.splitOnP_append_cons_of_forall_mem hclean c (beq_self_eq_true c), List.cons_append]
    exact congrArg (piece :: ·) (ih fun other hother => h other (List.mem_cons_of_mem _ hother))

theorem length_splitOnP (xs : List σ) : (xs.splitOnP sep).length = (xs.filter sep).length + 1 := by
  induction xs with
  | nil => rfl
  | cons x xs ih =>
    rw [List.splitOnP_cons_eq_if_modifyHead]
    split_ifs with hx
    · rw [List.length_cons, ih, List.filter_cons_of_pos hx, List.length_cons]
    · rw [List.length_modifyHead, ih, List.filter_cons_of_neg hx]

-- with one word more than separators no piece is empty, and nothing is left out
theorem words_spell {xs : List σ} (h : (words sep xs).length = (xs.filter sep).length + 1) :
    xs = (List.zipWith (· ++ ·) (words sep xs) ((xs.filter sep).map ([·]) ++ [[]])).flatten := by
  have hall : words sep xs = xs.splitOnP sep :=
    (List.filter_sublist).eq_of_length (h.trans (length_splitOnP xs).symm)
  rw [hall]
  exact (List.splitOnP_spec xs).symm

end

end Scan
