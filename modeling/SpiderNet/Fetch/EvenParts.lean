import SpiderNet.Fetch.PlanRange
import SpiderNet.Fetch.Weighted

namespace SpiderNet.Fetch
open Tiling

structure EvenlySplit (start endInclusive parts : ℕ) (ranges : List ByteRange) : Prop where
  count : ranges.length = parts
  tiles : Tiles (endInclusive + 1) start (ranges.map ByteRange.extent)
  even : ∃ base longer, longer ≤ parts ∧ ranges.map ByteRange.len =
    List.replicate longer (base + 1) ++ List.replicate (parts - longer) base

section
variable {start endInclusive parts : ℕ}

theorem exists_share (hle : start ≤ endInclusive) :
    ∃ share, 0 < share ∧ endInclusive = start + share - 1 :=
  ⟨endInclusive - start + 1, by omega, by omega⟩

theorem evenSubsplit_even (hparts : 0 < parts) (h : parts ≤ endInclusive - start + 1)
    (hle : start ≤ endInclusive) :
    EvenlySplit start endInclusive parts (evenSubsplit start endInclusive parts) := by
  obtain ⟨share, hpos, rfl⟩ := exists_share hle
  have hshare : start + share - 1 - start + 1 = share := by omega
  have hstop : start + share - 1 + 1 = start + share := by omega
  rw [hshare] at h
  have hextents := @evenSubsplit_full start share parts hparts h
  have hlens := lens_of_layout hextents
  refine ⟨?_, ?_, share / parts, share % parts, (Nat.mod_lt share hparts).le, ?_⟩
  · have hlength := congrArg List.length hlens
    rwa [List.length_map, length_evenLens] at hlength
  · rw [hstop, hextents]
    exact tiles_lens (evenLens_pos hparts h) (by rw [sum_evenLens hparts])
  · rw [hlens, evenLens_eq hparts]

-- with more parts than bytes a part would be empty, and the loop gives up
theorem not_evenlySplit (hparts : endInclusive - start + 1 < parts) (hle : start ≤ endInclusive) :
    ¬EvenlySplit start endInclusive parts (evenSubsplit start endInclusive parts) := by
  obtain ⟨share, hpos, rfl⟩ := exists_share hle
  have hnone := @evenSubsplit_short start share parts hpos (by omega)
  intro hsplit
  have hcount := hsplit.count
  rw [hnone, List.length_nil] at hcount
  omega

end

theorem evenSubsplit_even_iff (start endInclusive parts : ℕ) (hparts : 1 ≤ parts)
    (hle : start ≤ endInclusive) (hend : endInclusive < 2 ^ 64 - 1) :
    (∃ ranges, checkedEvenSubsplit start endInclusive parts = .ok ranges ∧
      EvenlySplit start endInclusive parts ranges) ↔ parts ≤ endInclusive - start + 1 := by
  rw [checkedEvenSubsplit_eq hle hparts (by omega)]
  constructor
  · rintro ⟨_, hranges, hsplit⟩
    obtain rfl := Except.ok.inj hranges
    exact not_lt.mp fun hlt => not_evenlySplit hlt hle hsplit
  · intro h
    exact ⟨_, rfl, evenSubsplit_even hparts h hle⟩

theorem evenSubsplit_even_three : ∃ ranges, checkedEvenSubsplit 5 11 3 = .ok ranges ∧
    EvenlySplit 5 11 3 ranges :=
  (evenSubsplit_even_iff 5 11 3 (by decide) (by decide) (by decide)).mpr (by decide)

theorem evenSubsplit_uneven : evenSubsplit 0 0 2 = [] ∧
    ¬∃ ranges, checkedEvenSubsplit 0 0 2 = .ok ranges ∧ EvenlySplit 0 0 2 ranges := by
  refine ⟨rfl, ?_⟩
  rintro ⟨ranges, hranges, hsplit⟩
  have hempty : checkedEvenSubsplit 0 0 2 = .ok [] := rfl
  have hnone := Except.ok.inj (hempty.symm.trans hranges)
  have hcount := hsplit.count
  rw [← hnone] at hcount
  cases hcount

end SpiderNet.Fetch
