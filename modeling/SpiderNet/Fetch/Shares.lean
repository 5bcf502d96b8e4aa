import SpiderNet.Fetch.Subsplit
import Mathlib.Tactic.Linarith
import Mathlib.Tactic.Ring

namespace SpiderNet.Fetch
open Tiling

def totalWeight (exits : List ExitSpec) : ℕ := (exits.map (·.weight.value)).sum

def sharesFrom (size total : ℕ) : ℕ → List ExitSpec → List ℕ
  | _, [] => []
  | cursor, exit :: rest =>
    let share := if rest.isEmpty then size - cursor else size * exit.weight.value / total
    share :: sharesFrom size total (cursor + share) rest

def shares (fileSize : FileSize) (exits : List ExitSpec) : List ℕ :=
  sharesFrom fileSize.value (totalWeight exits) 0 exits

-- the sub-segments in order, each with the bytes of thin exits right before it
def cut (spe : ℕ) : ℕ → List ℕ → List Piece × ℕ
  | gap, [] => ([], gap)
  | gap, share :: rest =>
    if share < spe then cut spe (gap + share) rest
    else
      match evenLens share spe with
      | [] => cut spe gap rest
      | len :: lens =>
        (⟨gap, len⟩ :: (lens.map (Piece.mk 0) ++ (cut spe 0 rest).1), (cut spe 0 rest).2)

theorem sum_evenLen (base remainder parts : ℕ) :
    ((List.range parts).map (evenLen base remainder)).sum = parts * base + min parts remainder := by
  induction parts with
  | zero => simp
  | succ parts ih =>
    rw [List.range_succ, List.map_append, List.sum_append, ih, Nat.succ_mul]
    simp only [List.map_cons, List.map_nil, List.sum_cons, List.sum_nil, evenLen]
    split_ifs <;> omega

theorem sum_evenLens {share parts : ℕ} (hparts : 0 < parts) : (evenLens share parts).sum = share := by
  have hmod := Nat.mod_lt share hparts
  rw [evenLens, sum_evenLen, Nat.min_eq_right hmod.le, Nat.div_add_mod]

theorem evenLens_pos {share parts : ℕ} (hparts : 0 < parts) (h : parts ≤ share) :
    ∀ len ∈ evenLens share parts, 0 < len := by
  intro len hlen
  obtain ⟨i, _, rfl⟩ := List.mem_map.mp hlen
  exact Nat.add_pos_left (Nat.div_pos h hparts) _

theorem exists_evenLens {share parts : ℕ} (hparts : 0 < parts) :
    ∃ len lens, evenLens share parts = len :: lens := by
  obtain ⟨parts, rfl⟩ : ∃ n, parts = n + 1 := ⟨parts - 1, by omega⟩
  rw [evenLens, List.range_succ_eq_map]
  exact ⟨_, _, rfl⟩

theorem total_mk_zero (lens : List ℕ) : total (lens.map (Piece.mk 0)) = lens.sum := by
  simp [total, Function.comp_def]

theorem tiles_lens {start stop : ℕ} {lens : List ℕ} (hpos : ∀ len ∈ lens, 0 < len)
    (hsum : start + lens.sum = stop) : Tiles stop start (layout start (lens.map (Piece.mk 0))) := by
  have hpieces : ∀ piece ∈ lens.map (Piece.mk 0), piece.gap = 0 ∧ 0 < piece.len := by
    intro piece hp
    obtain ⟨len, hlen, rfl⟩ := List.mem_map.mp hp
    exact ⟨rfl, hpos len hlen⟩
  rw [tiles_layout fun piece hp => (hpieces piece hp).2, total_mk_zero]
  exact ⟨fun piece hp => (hpieces piece hp).1, hsum⟩

theorem cut_thin {spe gap share : ℕ} {rest : List ℕ} (h : share < spe) :
    cut spe gap (share :: rest) = cut spe (gap + share) rest := if_pos h

theorem cut_full {spe gap share len : ℕ} {rest lens : List ℕ} (h : spe ≤ share)
    (hlens : evenLens share spe = len :: lens) :
    cut spe gap (share :: rest) =
      (⟨gap, len⟩ :: (lens.map (Piece.mk 0) ++ (cut spe 0 rest).1), (cut spe 0 rest).2) := by
  rw [cut, if_neg (not_lt.mpr h), hlens]

theorem total_cut {spe : ℕ} (hspe : 0 < spe) (gap : ℕ) (shares : List ℕ) :
    total (cut spe gap shares).1 + (cut spe gap shares).2 = gap + shares.sum := by
  induction shares generalizing gap with
  | nil => simp [cut]
  | cons share rest ih =>
    rw [List.sum_cons]
    by_cases hthin : share < spe
    · rw [cut_thin hthin, ih]
      omega
    · obtain ⟨len, lens, hlens⟩ := @exists_evenLens share spe hspe
      have hsum := @sum_evenLens share spe hspe
      have hlater := ih 0
      rw [hlens, List.sum_cons] at hsum
      rw [cut_full (not_lt.mp hthin) hlens, total_cons, total_append, total_mk_zero]
      dsimp only
      omega

theorem cut_pos {spe : ℕ} (hspe : 0 < spe) (gap : ℕ) (shares : List ℕ) :
    ∀ piece ∈ (cut spe gap shares).1, 0 < piece.len := by
  induction shares generalizing gap with
  | nil => simp [cut]
  | cons share rest ih =>
    by_cases hthin : share < spe
    · rw [cut_thin hthin]
      exact ih _
    · obtain ⟨len, lens, hlens⟩ := @exists_evenLens share spe hspe
      have hpos := evenLens_pos hspe (not_lt.mp hthin)
      rw [hlens] at hpos
      rw [cut_full (not_lt.mp hthin) hlens]
      intro piece hp
      rcases List.mem_cons.mp hp with rfl | hp
      · exact hpos len (by simp)
      · rcases List.mem_append.mp hp with hp | hp
        · obtain ⟨other, ho, rfl⟩ := List.mem_map.mp hp
          exact hpos other (List.mem_cons_of_mem _ ho)
        · exact ih 0 piece hp

theorem cut_one (gap : ℕ) (shares : List ℕ) : (cut 1 gap shares).2 = gap ∨ (cut 1 gap shares).2 = 0 := by
  induction shares generalizing gap with
  | nil => exact Or.inl rfl
  | cons share rest ih =>
    by_cases hthin : share < 1
    · obtain rfl := Nat.lt_one_iff.mp hthin
      rw [cut_thin hthin]
      exact ih gap
    · obtain ⟨len, lens, hlens⟩ := @exists_evenLens share 1 Nat.one_pos
      rw [cut_full (not_lt.mp hthin) hlens]
      exact Or.inr ((ih 0).elim id id)

theorem cut_one_gapless (shares : List ℕ) : Gapless (cut 1 0 shares).1 := by
  induction shares with
  | nil => simp [cut, Gapless]
  | cons share rest ih =>
    by_cases hthin : share < 1
    · obtain rfl := Nat.lt_one_iff.mp hthin
      rw [cut_thin hthin]
      exact ih
    · obtain ⟨len, lens, hlens⟩ := @exists_evenLens share 1 Nat.one_pos
      rw [cut_full (not_lt.mp hthin) hlens]
      intro piece hp
      rcases List.mem_cons.mp hp with rfl | hp
      · rfl
      · rcases List.mem_append.mp hp with hp | hp
        · obtain ⟨other, _, rfl⟩ := List.mem_map.mp hp
          rfl
        · exact ih piece hp

theorem layout_shift (base gap len : ℕ) (rest : List Piece) :
    layout base (⟨gap, len⟩ :: rest) = layout (base + gap) (⟨0, len⟩ :: rest) := by
  simp [layout, Piece.span]

section
variable {size total : ℕ}

-- what the remaining weights still reach from `cursor` stays inside the file
def Reaches (size total cursor : ℕ) (exits : List ExitSpec) : Prop :=
  cursor * total + size * totalWeight exits ≤ size * total

def shareAt (size total cursor : ℕ) (exit : ExitSpec) (rest : List ExitSpec) : ℕ :=
  if rest.isEmpty then size - cursor else size * exit.weight.value / total

theorem sharesFrom_cons (cursor : ℕ) (exit : ExitSpec) (rest : List ExitSpec) :
    sharesFrom size total cursor (exit :: rest) =
      shareAt size total cursor exit rest ::
        sharesFrom size total (cursor + shareAt size total cursor exit rest) rest := rfl

theorem Reaches.le {cursor : ℕ} {exits : List ExitSpec} (htotal : 0 < total)
    (h : Reaches size total cursor exits) : cursor ≤ size := by
  unfold Reaches at h
  exact Nat.le_of_mul_le_mul_right (Nat.le_of_add_right_le h) htotal

theorem Reaches.last {cursor : ℕ} {exit : ExitSpec} (htotal : 0 < total)
    (h : Reaches size total cursor [exit]) : cursor + shareAt size total cursor exit [] = size := by
  have hle := h.le htotal
  simp only [shareAt, List.isEmpty_nil, if_true]
  omega

theorem Reaches.step {cursor : ℕ} {exit : ExitSpec} {rest : List ExitSpec} (htotal : 0 < total)
    (h : Reaches size total cursor (exit :: rest)) :
    Reaches size total (cursor + shareAt size total cursor exit rest) rest := by
  cases rest with
  | nil =>
    rw [h.last htotal]
    simp [Reaches, totalWeight]
  | cons next rest =>
    have hdiv := Nat.div_mul_le_self (size * exit.weight.value) total
    simp only [Reaches, totalWeight, shareAt, List.isEmpty_cons, Bool.false_eq_true, if_false,
      List.map_cons, List.sum_cons] at h ⊢
    nlinarith [h, hdiv]

theorem sum_sharesFrom {cursor : ℕ} {exits : List ExitSpec} (htotal : 0 < total) (hne : exits ≠ [])
    (h : Reaches size total cursor exits) : cursor + (sharesFrom size total cursor exits).sum = size := by
  induction exits generalizing cursor with
  | nil => exact absurd rfl hne
  | cons exit rest ih =>
    have hstep := h.step htotal
    rw [sharesFrom_cons, List.sum_cons, ← Nat.add_assoc]
    rcases eq_or_ne rest [] with rfl | hrest
    · rw [h.last htotal, sharesFrom, List.sum_nil, Nat.add_zero]
    · exact ih hrest hstep

end

end SpiderNet.Fetch
