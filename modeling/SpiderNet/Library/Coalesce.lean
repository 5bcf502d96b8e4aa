import SpiderNet.Library.Tiling

namespace Tiling

structure Piece where
  gap : ℕ
  len : ℕ

namespace Piece

def join (first second : Piece) : Piece := ⟨first.gap, first.len + second.gap + second.len⟩

def span (start : ℕ) (piece : Piece) : Extent :=
  (start + piece.gap, start + piece.gap + piece.len)

end Piece

def total (pieces : List Piece) : ℕ := (pieces.map fun piece => piece.gap + piece.len).sum

def layout : ℕ → List Piece → List Extent
  | _, [] => []
  | start, piece :: rest => piece.span start :: layout (start + piece.gap + piece.len) rest

def Gapless (pieces : List Piece) : Prop := ∀ piece ∈ pieces, piece.gap = 0

@[simp] theorem total_nil : total [] = 0 := rfl

@[simp] theorem total_cons (piece : Piece) (rest : List Piece) :
    total (piece :: rest) = piece.gap + piece.len + total rest := rfl

@[simp] theorem total_append (xs ys : List Piece) : total (xs ++ ys) = total xs + total ys := by
  simp [total]

theorem length_layout (start : ℕ) (pieces : List Piece) :
    (layout start pieces).length = pieces.length := by
  induction pieces generalizing start with
  | nil => rfl
  | cons piece rest ih => rw [layout, List.length_cons, List.length_cons, ih]

theorem layout_append (start : ℕ) (xs ys : List Piece) :
    layout start (xs ++ ys) = layout start xs ++ layout (start + total xs) ys := by
  induction xs generalizing start with
  | nil => rfl
  | cons piece rest ih =>
    have hnext : start + total (piece :: rest) = start + piece.gap + piece.len + total rest := by
      rw [total_cons]
      omega
    rw [List.cons_append, layout, ih, hnext]
    rfl

theorem gapless_append {xs ys : List Piece} : Gapless (xs ++ ys) ↔ Gapless xs ∧ Gapless ys := by
  simp only [Gapless, List.mem_append]
  constructor
  · exact fun h => ⟨fun piece hp => h piece (Or.inl hp), fun piece hp => h piece (Or.inr hp)⟩
  · rintro ⟨hxs, hys⟩ piece (hp | hp)
    · exact hxs piece hp
    · exact hys piece hp

theorem gapless_singleton {piece : Piece} : Gapless [piece] ↔ piece.gap = 0 := by
  simp [Gapless]

theorem tiles_layout {stop start : ℕ} {pieces : List Piece} (hpos : ∀ piece ∈ pieces, 0 < piece.len) :
    Tiles stop start (layout start pieces) ↔ Gapless pieces ∧ start + total pieces = stop := by
  induction pieces generalizing start with
  | nil => simp [layout, Tiles, Gapless]
  | cons piece rest ih =>
    have hlen := hpos piece (by simp)
    rw [layout, tiles_cons, Piece.span, ih (fun other ho => hpos other (List.mem_cons_of_mem _ ho)),
      total_cons]
    simp only [Gapless, List.mem_cons, forall_eq_or_imp]
    constructor
    · rintro ⟨hgap, _, hrest, hstop⟩
      exact ⟨⟨by omega, hrest⟩, by omega⟩
    · rintro ⟨⟨hgap, hrest⟩, hstop⟩
      exact ⟨by omega, by omega, hrest, by omega⟩

-- `done` holds the pieces that have reached `m`, `cur` the piece being filled
def coalesce (m : ℕ) : List Piece → Piece → List Piece → List Piece
  | done, cur, [] =>
    if cur.len < m then
      match done.getLast? with
      | some last => done.dropLast ++ [last.join cur]
      | none => [cur]
    else done ++ [cur]
  | done, cur, next :: rest =>
    if cur.len < m then coalesce m done (cur.join next) rest
    else coalesce m (done ++ [cur]) next rest

def openLen (m len : ℕ) : ℕ := if len < m then len else 0

-- `carry` is what the piece being filled holds, zero when none is open
def Bridged (m : ℕ) : ℕ → List Piece → Prop
  | _, [] => True
  | carry, piece :: rest =>
    (piece.gap = 0 ∨ 0 < carry ∨ piece.len + total rest < m) ∧
      Bridged m (openLen m (if 0 < carry then carry + piece.gap + piece.len else piece.len)) rest

theorem bridged_of_gapless {m carry : ℕ} {pieces : List Piece} (h : Gapless pieces) :
    Bridged m carry pieces := by
  induction pieces generalizing carry with
  | nil => trivial
  | cons piece rest ih =>
    exact ⟨Or.inl (h piece (by simp)), ih fun other ho => h other (List.mem_cons_of_mem _ ho)⟩

theorem gapless_coalesce {m : ℕ} {done rest : List Piece} {cur : Piece} (hcur : 0 < cur.len)
    (hrest : ∀ piece ∈ rest, 0 < piece.len) :
    Gapless (coalesce m done cur rest) ↔
      Gapless done ∧ (cur.gap = 0 ∨ done ≠ [] ∧ cur.len + total rest < m) ∧
        Bridged m (openLen m cur.len) rest := by
  induction rest generalizing done cur with
  | nil =>
    by_cases hopen : cur.len < m
    · rcases List.eq_nil_or_concat done with rfl | ⟨pre, last, rfl⟩
      · simp [coalesce, hopen, Gapless, Bridged]
      · simp [coalesce, hopen, gapless_append, gapless_singleton, Piece.join, Bridged]
    · simp [coalesce, hopen, gapless_append, gapless_singleton, Bridged]
  | cons next rest ih =>
    have hnext := hrest next (by simp)
    have hlater : ∀ piece ∈ rest, 0 < piece.len :=
      fun piece hp => hrest piece (List.mem_cons_of_mem _ hp)
    by_cases hopen : cur.len < m
    · have hjoin : 0 < (cur.join next).len := by
        simp only [Piece.join]
        omega
      have htotal : (cur.join next).len + total rest = cur.len + total (next :: rest) := by
        simp only [Piece.join, total_cons]
        omega
      have hcarry : openLen m cur.len = cur.len := if_pos hopen
      rw [coalesce, if_pos hopen, ih hjoin hlater, htotal, Bridged, hcarry, if_pos hcur]
      simp [Piece.join, hcur]
    · have hclosed : openLen m cur.len = 0 := if_neg hopen
      have hlarge : ¬cur.len + (next.gap + next.len + total rest) < m := by omega
      rw [coalesce, if_neg hopen, ih hnext hlater, gapless_append, gapless_singleton, Bridged,
        hclosed]
      simp [hlarge, and_assoc]

theorem coalesce_pos {m : ℕ} {done rest : List Piece} {cur : Piece}
    (hdone : ∀ piece ∈ done, 0 < piece.len) (hcur : 0 < cur.len)
    (hrest : ∀ piece ∈ rest, 0 < piece.len) : ∀ piece ∈ coalesce m done cur rest, 0 < piece.len := by
  induction rest generalizing done cur with
  | nil =>
    rw [coalesce]
    split_ifs
    · rcases List.eq_nil_or_concat done with rfl | ⟨pre, last, rfl⟩
      · simpa using hcur
      · intro piece hp
        simp only [List.concat_eq_append, List.getLast?_append, List.getLast?_singleton,
          Option.some_or, List.dropLast_concat, List.mem_append, List.mem_singleton] at hp
        rcases hp with hp | rfl
        · exact hdone piece (by simp [hp])
        · simp only [Piece.join]
          omega
    · intro piece hp
      rcases List.mem_append.mp hp with hp | hp
      · exact hdone piece hp
      · rwa [List.mem_singleton.mp hp]
  | cons next rest ih =>
    have hnext := hrest next (by simp)
    have hlater : ∀ piece ∈ rest, 0 < piece.len :=
      fun piece hp => hrest piece (List.mem_cons_of_mem _ hp)
    rw [coalesce]
    split_ifs
    · refine ih hdone ?_ hlater
      simp only [Piece.join]
      omega
    · refine ih (fun piece hp => ?_) hnext hlater
      rcases List.mem_append.mp hp with hp | hp
      · exact hdone piece hp
      · rwa [List.mem_singleton.mp hp]

theorem total_coalesce (m : ℕ) (done : List Piece) (cur : Piece) (rest : List Piece) :
    total (coalesce m done cur rest) = total done + (cur.gap + cur.len) + total rest := by
  induction rest generalizing done cur with
  | nil =>
    rw [coalesce]
    split_ifs
    · rcases List.eq_nil_or_concat done with rfl | ⟨pre, last, rfl⟩
      · simp
      · simp only [List.concat_eq_append, List.getLast?_append, List.getLast?_singleton,
          Option.some_or, List.dropLast_concat, total_append, total_cons, total_nil, Piece.join]
        omega
    · simp
  | cons next rest ih =>
    rw [coalesce]
    split_ifs
    · rw [ih, total_cons]
      simp only [Piece.join]
      omega
    · rw [ih, total_append, total_cons, total_cons, total_nil]
      omega

end Tiling
