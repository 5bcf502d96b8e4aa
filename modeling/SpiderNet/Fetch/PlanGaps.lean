import SpiderNet.Fetch.Shares

namespace SpiderNet.Fetch
open Tiling

theorem extents_map (ranges : List ByteRange) (id : ExitId) :
    extents (ranges.map (·, id)) = ranges.map ByteRange.extent := by
  simp [extents]

theorem endExclusive_exact {size total spe cursor : ℕ} {exit : ExitSpec} {rest : List ExitSpec}
    (hspe : 0 < spe) (hle : cursor ≤ size) (hexact : rest ≠ [] → size * unitsOf spe exit < 2 ^ 128) :
    endExclusive size (total * spe) cursor (unitsOf spe exit) rest.isEmpty =
      cursor + shareAt size total cursor exit rest := by
  unfold endExclusive shareAt
  split_ifs with hlast
  · omega
  · rw [Nat.mod_eq_of_lt (hexact (mt List.isEmpty_iff.mpr hlast)), unitsOf, ← Nat.mul_assoc,
      Nat.mul_div_mul_right _ _ hspe]

theorem splitLoop_cons_exact {size total spe cursor start : ℕ} {exit : ExitSpec} {rest : List ExitSpec}
    (hsize : size < 2 ^ 64) (htotal : 0 < total) (hspe : 0 < spe)
    (h : Reaches size total cursor (exit :: rest))
    (hexact : rest ≠ [] → size * unitsOf spe exit < 2 ^ 128) :
    splitLoop ExitSpec.id size (total * spe) spe (exit :: rest) cursor start =
      if start ≤ cursor + shareAt size total cursor exit rest - 1 then
        (splitLoop ExitSpec.id size (total * spe) spe rest (cursor + shareAt size total cursor exit rest)
          (cursor + shareAt size total cursor exit rest)).map fun later =>
            ((evenSubsplit start (cursor + shareAt size total cursor exit rest - 1) spe).map
              (·, exit.id) ++ later.1, later.2)
      else splitLoop ExitSpec.id size (total * spe) spe rest (cursor + shareAt size total cursor exit rest)
        start := by
  have hreach := (h.step htotal).le htotal
  rw [splitLoop, endExclusive_exact hspe (h.le htotal) hexact,
    tryIntoU64_ok (Nat.lt_of_le_of_lt hreach hsize), ok_bind]
  split_ifs
  · cases splitLoop ExitSpec.id size (total * spe) spe rest (cursor + shareAt size total cursor exit rest)
      (cursor + shareAt size total cursor exit rest) <;> rfl
  · rfl

theorem product_fits {size spe : ℕ} (hsize : size < 2 ^ 64) (hspe' : spe ≤ 2 ^ 32) (exit : ExitSpec) :
    size * unitsOf spe exit < 2 ^ 128 := by
  have hunits : unitsOf spe exit ≤ 2 ^ 64 := by
    have hmul := Nat.mul_le_mul exit.weight.lt.le hspe'
    norm_num at hmul ⊢
    exact hmul
  have hmul := Nat.mul_lt_mul_of_lt_of_le hsize hunits (by norm_num)
  norm_num at hmul ⊢
  exact hmul

section
variable {size total spe : ℕ} (hsize : size < 2 ^ 64) (htotal : 0 < total) (hspe : 0 < spe)
  (hspe' : spe ≤ 2 ^ 32)
include hsize htotal hspe hspe'

theorem splitLoop_cons {cursor start : ℕ} {exit : ExitSpec} {rest : List ExitSpec}
    (h : Reaches size total cursor (exit :: rest)) :
    splitLoop ExitSpec.id size (total * spe) spe (exit :: rest) cursor start =
      if start ≤ cursor + shareAt size total cursor exit rest - 1 then
        (splitLoop ExitSpec.id size (total * spe) spe rest (cursor + shareAt size total cursor exit rest)
          (cursor + shareAt size total cursor exit rest)).map fun later =>
            ((evenSubsplit start (cursor + shareAt size total cursor exit rest - 1) spe).map
              (·, exit.id) ++ later.1, later.2)
      else splitLoop ExitSpec.id size (total * spe) spe rest (cursor + shareAt size total cursor exit rest)
        start :=
  splitLoop_cons_exact hsize htotal hspe h fun _ => product_fits hsize hspe' exit

-- `base` is where the last pushed range ended; the bytes from there to `cursor` belong to thin exits
theorem splitLoop_layout {cursor base gap : ℕ} {exits : List ExitSpec} (hbase : base + gap = cursor)
    (h : Reaches size total cursor exits)
    (hstart : 0 < cursor ∨ 1 < spe ∨ (sharesFrom size total cursor exits).head? ≠ some 0) :
    ∃ assignments, splitLoop ExitSpec.id size (total * spe) spe exits cursor cursor =
        .ok (assignments, if exits = [] then cursor else size) ∧
      extents assignments = layout base (cut spe gap (sharesFrom size total cursor exits)).1 ∧
      assignments.length ≤ exits.length * spe := by
  induction exits generalizing cursor base gap with
  | nil => exact ⟨[], rfl, rfl, Nat.zero_le _⟩
  | cons exit rest ih =>
    rw [sharesFrom_cons] at hstart ⊢
    rw [splitLoop_cons hsize htotal hspe hspe' h, if_neg (List.cons_ne_nil _ _), List.length_cons,
      Nat.succ_mul]
    have hstep := h.step htotal
    have hlast : (if rest = [] then cursor + shareAt size total cursor exit rest else size) = size := by
      split_ifs with hnil
      · subst hnil
        exact h.last htotal
      · rfl
    generalize shareAt size total cursor exit rest = share at hstart hstep hlast ⊢
    rcases Nat.eq_zero_or_pos share with rfl | hpos
    · have hstart' : 0 < cursor ∨ 1 < spe := by simpa using hstart
      rw [Nat.add_zero] at hstep hlast ⊢
      obtain ⟨later, hlater, hextents, hlength⟩ := ih hbase hstep
        (hstart'.imp_right fun hs => Or.inl hs)
      rw [hlast] at hlater
      rw [cut_thin hspe, Nat.add_zero]
      rcases Nat.eq_zero_or_pos cursor with rfl | hcursor
      · have hnone : evenSubsplit 0 (0 - 1) spe = [] := evenSubsplit_short Nat.one_pos (by omega)
        rw [if_pos (Nat.zero_le _), hlater, hnone]
        exact ⟨later, rfl, hextents, by omega⟩
      · rw [if_neg (by omega)]
        exact ⟨later, hlater, hextents, by omega⟩
    · rw [if_pos (by omega)]
      have hcursor : 0 < cursor + share := Nat.add_pos_right _ hpos
      by_cases hthin : share < spe
      · obtain ⟨later, hlater, hextents, hlength⟩ := @ih _ base (gap + share) (by omega)
          hstep (Or.inl hcursor)
        rw [hlast] at hlater
        rw [cut_thin hthin, hlater, evenSubsplit_short hpos hthin]
        exact ⟨later, rfl, hextents, by omega⟩
      · obtain ⟨later, hlater, hextents, hlength⟩ := @ih (cursor + share) (cursor + share) 0 rfl
          hstep (Or.inl hcursor)
        obtain ⟨len, lens, hlens⟩ := @exists_evenLens share spe hspe
        have hsum := @sum_evenLens share spe hspe
        have hfull := @evenSubsplit_full cursor share spe hspe (not_lt.mp hthin)
        have hcount := length_evenSubsplit cursor (cursor + share - 1) spe
        rw [hlast] at hlater
        rw [cut_full (not_lt.mp hthin) hlens, hlater]
        refine ⟨_, rfl, ?_, ?_⟩
        · rw [extents_append, extents_map, hfull, hextents, hlens, layout_shift, hbase,
            List.map_cons, ← List.cons_append, layout_append, ← List.map_cons (f := Piece.mk 0),
            ← hlens, total_mk_zero, hsum]
        · simp only [List.length_append, List.length_map]
          omega

theorem splitLoop_whole {exits : List ExitSpec} (hne : exits ≠ [])
    (h : Reaches size total 0 exits)
    (hstart : 1 < spe ∨ (sharesFrom size total 0 exits).head? ≠ some 0) :
    ∃ assignments, splitLoop ExitSpec.id size (total * spe) spe exits 0 0 = .ok (assignments, size) ∧
      extents assignments = layout 0 (cut spe 0 (sharesFrom size total 0 exits)).1 ∧
      assignments.length ≤ exits.length * spe := by
  have hlayout := splitLoop_layout hsize htotal hspe hspe' (Nat.zero_add 0) h (Or.inr hstart)
  rwa [if_neg hne] at hlayout

end

def Phantom (assignment : Assignment) : Prop := assignment.1.extent = (0, 1)

-- exits with a share of zero bytes at the front each still push the range `0..=0`
theorem splitLoop_phantoms {size total : ℕ} (hsize : size < 2 ^ 64) (hpos : 0 < size)
    (htotal : 0 < total) {exits : List ExitSpec} (hne : exits ≠ []) (h : Reaches size total 0 exits) :
    ∃ phantoms assignments,
      splitLoop ExitSpec.id size (total * 1) 1 exits 0 0 = .ok (phantoms ++ assignments, size) ∧
      (∀ assignment ∈ phantoms, Phantom assignment) ∧
      (phantoms = [] ↔ (sharesFrom size total 0 exits).head? ≠ some 0) ∧
      extents assignments = layout 0 (cut 1 0 (sharesFrom size total 0 exits)).1 ∧
      (phantoms ++ assignments).length ≤ exits.length := by
  induction exits with
  | nil => exact absurd rfl hne
  | cons exit rest ih =>
    rcases Nat.eq_zero_or_pos (shareAt size total 0 exit rest) with hzero | hshare
    · have hrest : rest ≠ [] := by
        rintro rfl
        have hlast := h.last htotal
        omega
      have hstep := h.step htotal
      rw [hzero] at hstep
      obtain ⟨phantoms, assignments, hloop, hall, _, hextents, hlength⟩ := ih hrest hstep
      refine ⟨(⟨0, 0, le_rfl⟩, exit.id) :: phantoms, assignments, ?_, ?_, ?_, ?_, ?_⟩
      · rw [splitLoop_cons hsize htotal Nat.one_pos (by norm_num) h, hzero, hloop]
        rfl
      · intro assignment ha
        rcases List.mem_cons.mp ha with rfl | ha
        · rfl
        · exact hall assignment ha
      · simp [sharesFrom_cons, hzero]
      · rw [sharesFrom_cons, hzero, cut_thin Nat.one_pos]
        exact hextents
      · rw [List.cons_append, List.length_cons, List.length_cons]
        omega
    · have hhead : (sharesFrom size total 0 (exit :: rest)).head? ≠ some 0 := by
        rw [sharesFrom_cons, List.head?_cons]
        simpa using hshare.ne'
      obtain ⟨assignments, hloop, hextents, hlength⟩ :=
        splitLoop_whole hsize htotal Nat.one_pos (by norm_num) hne h (Or.inr hhead)
      exact ⟨[], assignments, hloop, by simp, by simpa using hhead, hextents, by simpa using hlength⟩

theorem mergeLoop_phantoms {minSegment : MinSegmentBytes} (hmin : 1 < minSegment.value) {turns : ℕ}
    {phantoms rest : List Assignment} {first : Assignment}
    (hphantoms : ∀ assignment ∈ phantoms, Phantom assignment) (hfirst : first.1.start = 0) :
    mergeLoop minSegment (phantoms.length + turns) (phantoms ++ first :: rest) =
      mergeLoop minSegment turns (first :: rest) := by
  induction phantoms with
  | nil => rw [List.nil_append, List.length_nil, Nat.zero_add]
  | cons phantom phantoms ih =>
    have hphantom : phantom.1.start = 0 ∧ phantom.1.endInclusive + 1 = 1 :=
      Prod.ext_iff.mp (hphantoms phantom (by simp))
    have hlater := ih fun assignment ha => hphantoms assignment (List.mem_cons_of_mem _ ha)
    have htiny : Tiny minSegment phantom := by
      have hlen := phantom.1.len_eq
      unfold Tiny
      omega
    obtain ⟨next, later, hcons, hnext⟩ : ∃ next later,
        phantoms ++ first :: rest = next :: later ∧ next.1.start = 0 := by
      cases phantoms with
      | nil => exact ⟨first, rest, rfl, hfirst⟩
      | cons other others =>
        exact ⟨other, _, rfl, (Prod.ext_iff.mp (hphantoms other (by simp))).1⟩
    have hle : phantom.1.start ≤ next.1.endInclusive := by omega
    have hjoined : joined phantom next next.2 hle = next := by
      obtain ⟨⟨start, endInclusive, _⟩, id⟩ := next
      obtain ⟨hstart, _⟩ := hphantom
      simp only at hnext
      simp [joined, hstart, hnext]
    have hmiddle := @mergeLoop_middle minSegment (phantoms.length + turns) [] later phantom next
      (by simp) htiny
    rw [List.nil_append, dif_pos hle, List.nil_append, hjoined] at hmiddle
    rw [List.cons_append, hcons, List.length_cons, Nat.add_right_comm, hmiddle, ← hcons, hlater]

def Seamless (minSegment spe : ℕ) (shares : List ℕ) : Prop :=
  match cut spe 0 shares with
  | (first :: rest, trailing) =>
    trailing = 0 ∧ first.gap = 0 ∧ Bridged minSegment (openLen minSegment first.len) rest
  | ([], _) => False

theorem seamless_iff {minSegment : MinSegmentBytes} {spe size : ℕ} {shares : List ℕ}
    {assignments : List Assignment} (hspe : 0 < spe) (hsize : 0 < size) (hsum : shares.sum = size)
    (h : extents assignments = layout 0 (cut spe 0 shares).1) :
    Tiles size 0 (extents (mergeTinySegments assignments minSegment)) ↔
      Seamless minSegment.value spe shares := by
  have htotal := total_cut hspe 0 shares
  have hpos := cut_pos hspe 0 shares
  unfold Seamless
  generalize cut spe 0 shares = pieces at h htotal hpos ⊢
  obtain ⟨pieces, trailing⟩ := pieces
  cases pieces with
  | nil =>
    obtain rfl : assignments = [] := List.map_eq_nil_iff.mp h
    have hne : ¬0 = size := by omega
    simpa [mergeTinySegments, mergeLoop, extents, Tiles] using hne
  | cons first rest =>
    obtain ⟨firstA, restA, rfl, hfirst, hrest⟩ := List.map_eq_cons_iff.mp h
    have hcur := hpos first (by simp)
    have hlater : ∀ piece ∈ rest, 0 < piece.len :=
      fun piece hp => hpos piece (List.mem_cons_of_mem _ hp)
    have hmerged := @mergeLoop_coalesce minSegment (firstA :: restA).length [] restA firstA [] rest
      first (by rw [List.length_cons, List.length_nil]; omega) rfl (by simp) hfirst
      (by rw [total_nil]; exact hrest)
    have hall := @coalesce_pos minSegment.value [] rest first (by simp) hcur hlater
    rw [List.nil_append] at hmerged
    simp only [total_cons] at htotal
    rw [mergeTinySegments, hmerged, tiles_layout hall, gapless_coalesce hcur hlater, total_coalesce,
      total_nil]
    simp only [ne_eq, not_true_eq_false, false_and, or_false]
    constructor
    · rintro ⟨⟨_, hgap, hbridged⟩, hreach⟩
      exact ⟨by omega, hgap, hbridged⟩
    · rintro ⟨htrailing, hgap, hbridged⟩
      exact ⟨⟨by simp [Gapless], hgap, hbridged⟩, by omega⟩

end SpiderNet.Fetch
