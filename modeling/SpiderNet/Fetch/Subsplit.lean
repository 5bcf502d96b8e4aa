import SpiderNet.Fetch.Gather

namespace SpiderNet.Fetch
open Tiling

def evenLen (base remainder i : ℕ) : ℕ := base + if i < remainder then 1 else 0

def evenPieces (base remainder parts i : ℕ) : List Piece :=
  (List.range' i parts).map fun i => ⟨0, evenLen base remainder i⟩

def evenLens (share parts : ℕ) : List ℕ :=
  (List.range parts).map (evenLen (share / parts) (share % parts))

theorem subsplitFrom_succ {base remainder parts i cursor : ℕ} (h : 0 < evenLen base remainder i) :
    subsplitFrom base remainder (parts + 1) i cursor =
      (subsplitFrom base remainder parts (i + 1) (cursor + evenLen base remainder i)).map
        (⟨cursor, cursor + evenLen base remainder i - 1, by omega⟩ :: ·) := by
  have hnext : cursor + evenLen base remainder i - 1 + 1 = cursor + evenLen base remainder i := by
    omega
  have hle : cursor ≤ cursor + evenLen base remainder i - 1 := by omega
  have hrange := ByteRange.tryNew_ok hle
  unfold evenLen at hrange hnext ⊢
  simp only [subsplitFrom, hrange, hnext]

theorem subsplitFrom_full {base remainder parts i cursor : ℕ} (hbase : 0 < base) :
    ∃ ranges, subsplitFrom base remainder parts i cursor = some ranges ∧
      ranges.map ByteRange.extent = layout cursor (evenPieces base remainder parts i) := by
  induction parts generalizing i cursor with
  | zero => exact ⟨[], rfl, rfl⟩
  | succ parts ih =>
    have hpos : 0 < evenLen base remainder i := Nat.add_pos_left hbase _
    obtain ⟨ranges, hranges, hextents⟩ := @ih (i + 1) (cursor + evenLen base remainder i)
    have hpieces : evenPieces base remainder (parts + 1) i =
        ⟨0, evenLen base remainder i⟩ :: evenPieces base remainder parts (i + 1) := by
      rw [evenPieces, List.range'_succ]
      rfl
    rw [subsplitFrom_succ hpos, hranges]
    refine ⟨_, rfl, ?_⟩
    rw [List.map_cons, hextents, hpieces, layout]
    refine congrArg₂ List.cons (Prod.ext rfl ?_) rfl
    simp only [ByteRange.extent, Piece.span]
    omega

theorem subsplitFrom_short {remainder parts i cursor : ℕ} (hi : i ≤ remainder)
    (hremainder : remainder < i + parts) (hcursor : i < remainder ∨ 0 < cursor) :
    subsplitFrom 0 remainder parts i cursor = none := by
  induction parts generalizing i cursor with
  | zero => omega
  | succ parts ih =>
    rcases Nat.lt_or_eq_of_le hi with hlt | rfl
    · have hone : evenLen 0 remainder i = 1 := by simp [evenLen, hlt]
      have hlater := @ih (i + 1) (cursor + evenLen 0 remainder i) hlt (by omega) (Or.inr (by omega))
      rw [subsplitFrom_succ (by omega), hlater]
      rfl
    · obtain ⟨error, herror⟩ := ByteRange.tryNew_error (show ¬cursor ≤ cursor - 1 by omega)
      simp [subsplitFrom, herror]

theorem evenSubsplit_full {start share parts : ℕ} (hparts : 0 < parts) (h : parts ≤ share) :
    (evenSubsplit start (start + share - 1) parts).map ByteRange.extent =
      layout start ((evenLens share parts).map (Piece.mk 0)) := by
  have htotal : start + share - 1 - start + 1 = share := by omega
  obtain ⟨ranges, hranges, hextents⟩ := @subsplitFrom_full (share / parts) (share % parts) parts 0
    start (Nat.div_pos h hparts)
  rw [evenSubsplit]
  simp only [htotal, hranges, Option.getD_some, hextents]
  rw [evenPieces, evenLens, List.map_map, List.range_eq_range']
  rfl

theorem evenSubsplit_short {start share parts : ℕ} (hshare : 0 < share) (h : share < parts) :
    evenSubsplit start (start + share - 1) parts = [] := by
  have htotal : start + share - 1 - start + 1 = share := by omega
  have hnone := @subsplitFrom_short share parts 0 start (Nat.zero_le _) (by omega) (Or.inl hshare)
  simp only [evenSubsplit, htotal, Nat.div_eq_of_lt h, Nat.mod_eq_of_lt h, hnone]
  rfl

theorem length_subsplitFrom {base remainder parts i cursor : ℕ} {ranges : List ByteRange}
    (h : subsplitFrom base remainder parts i cursor = some ranges) : ranges.length = parts := by
  induction parts generalizing i cursor ranges with
  | zero =>
    obtain rfl := Option.some.inj h
    rfl
  | succ parts ih =>
    simp only [subsplitFrom] at h
    split at h
    · obtain ⟨later, hlater, rfl⟩ := Option.map_eq_some_iff.mp h
      rw [List.length_cons, ih hlater]
    · cases h

theorem length_evenSubsplit (start endInclusive parts : ℕ) :
    (evenSubsplit start endInclusive parts).length ≤ parts := by
  rw [evenSubsplit]
  cases hranges : subsplitFrom ((endInclusive - start + 1) / parts)
      ((endInclusive - start + 1) % parts) parts 0 start with
  | none => exact Nat.zero_le _
  | some ranges => exact (length_subsplitFrom hranges).le

end SpiderNet.Fetch
