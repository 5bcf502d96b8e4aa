import SpiderNet.Fetch.PlanAccepted
import SpiderNet.Library.ListFacts
import Mathlib.Data.List.InsertIdx

namespace SpiderNet.Fetch

-- a range with the spec entry it is cut from where the source keeps the entry's id only
abbrev Portion := ByteRange × ExitSpec

section
variable {ω ω' : Type} (f : ω → ω')

def relabel (portions : List (ByteRange × ω)) : List (ByteRange × ω') :=
  portions.map fun portion => (portion.1, f portion.2)

theorem length_relabel (portions : List (ByteRange × ω)) :
    (relabel f portions).length = portions.length := List.length_map _

theorem relabel_cut (ranges : List ByteRange) (owner : ω) :
    relabel f (ranges.map (·, owner)) = ranges.map (·, f owner) := by
  rw [relabel, List.map_map]
  rfl

theorem splitLoop_relabel (owner : ExitSpec → ω) (size totalUnits spe : ℕ) (exits : List ExitSpec)
    (cursor start : ℕ) : splitLoop (f ∘ owner) size totalUnits spe exits cursor start =
      (splitLoop owner size totalUnits spe exits cursor start).map fun out =>
        (relabel f out.1, out.2) := by
  induction exits generalizing cursor start with
  | nil => rfl
  | cons exit rest ih =>
    rw [splitLoop, splitLoop]
    cases tryIntoU64 (endExclusive size totalUnits cursor (unitsOf spe exit) rest.isEmpty)
      "boundary overflow" with
    | error error => rfl
    | ok exitEnd =>
      rw [ok_bind, ok_bind]
      split_ifs with hroom
      · rw [ih]
        cases splitLoop owner size totalUnits spe rest exitEnd exitEnd with
        | error error => rfl
        | ok out =>
          have hpushed := relabel_cut f (evenSubsplit start (exitEnd - 1) spe) (owner exit)
          simp only [Except.map, ok_bind, relabel, List.map_append, pure, Except.pure,
            Function.comp_apply] at hpushed ⊢
          rw [hpushed]
      · exact ih exitEnd start

theorem extendLast_relabel (owner : ExitSpec → ω) (fileSize : FileSize) (exits : List ExitSpec)
    (portions : List (ByteRange × ω)) : extendLast (f ∘ owner) fileSize exits (relabel f portions) =
      (extendLast owner fileSize exits portions).map (relabel f) := by
  simp only [extendLast.eq_def, relabel, List.getLast?_map]
  cases portions.getLast? with
  | none =>
    cases exits with
    | nil => rfl
    | cons exit rest =>
      simp only [Option.map_none]
      cases ByteRange.tryNew 0 (fileSize.value - 1) <;> rfl
  | some last =>
    simp only [Option.map_some, ← List.map_dropLast]
    cases ByteRange.tryNew last.1.start (fileSize.value - 1) with
    | error error => rfl
    | ok range => simp [Except.map, bind, Except.bind, pure, Except.pure, relabel]

theorem weightedSplit_relabel (owner : ExitSpec → ω) (fileSize : FileSize) (spe : SegmentsPerExit)
    (exits : List ExitSpec) : weightedSplit (f ∘ owner) fileSize spe exits =
      (weightedSplit owner fileSize spe exits).map (relabel f) := by
  rw [weightedSplit, weightedSplit, splitLoop_relabel]
  cases splitLoop owner fileSize.value (exits.map (unitsOf spe.value)).sum spe.value exits 0 0 with
  | error error => rfl
  | ok out =>
    simp only [Except.map, ok_bind]
    split_ifs with hshort
    · exact extendLast_relabel f owner fileSize exits out.1
    · rfl

theorem assign_relabel (owner : ExitSpec → ω) (fileSize : FileSize) (spe : SegmentsPerExit)
    (exits : List ExitSpec) : assign (f ∘ owner) fileSize spe exits =
      (assign owner fileSize spe exits).map (relabel f) := by
  have hsplit := weightedSplit_relabel f owner fileSize spe exits
  unfold assign
  match exits with
  | [] => exact hsplit
  | [exit] =>
    dsimp only
    split_ifs
    · cases ByteRange.tryNew 0 (fileSize.value - 1) <;> rfl
    · exact hsplit
  | _ :: _ :: _ => exact hsplit

theorem relabel_set_eraseIdx (portions : List (ByteRange × ω)) (i pos : ℕ) (portion : ByteRange × ω) :
    ((relabel f portions).set i (portion.1, f portion.2)).eraseIdx pos =
      relabel f ((portions.set i portion).eraseIdx pos) := by
  rw [relabel, relabel, ← List.eraseIdx_map, List.map_set]

theorem mergeAt_relabel (pos : ℕ) (portions : List (ByteRange × ω)) :
    mergeAt pos (relabel f portions) = (mergeAt pos portions).map (relabel f) := by
  rw [mergeAt, mergeAt, length_relabel]
  simp only [relabel, List.getElem?_map]
  split_ifs with hnext
  · cases portions[pos]? <;> cases portions[pos + 1]? <;> try rfl
    rename_i tiny next
    simp only [Option.map_some]
    cases ByteRange.tryNew tiny.1.start next.1.endInclusive with
    | error error => rfl
    | ok range => exact congrArg some (relabel_set_eraseIdx f portions _ pos (range, next.2))
  · cases portions[pos - 1]? <;> cases portions[pos]? <;> try rfl
    rename_i prev tiny
    simp only [Option.map_some]
    cases ByteRange.tryNew prev.1.start tiny.1.endInclusive with
    | error error => rfl
    | ok range => exact congrArg some (relabel_set_eraseIdx f portions _ pos (range, prev.2))

theorem mergeLoop_relabel (minSegment : MinSegmentBytes) (turns : ℕ) (portions : List (ByteRange × ω)) :
    mergeLoop minSegment turns (relabel f portions) =
      relabel f (mergeLoop minSegment turns portions) := by
  induction turns generalizing portions with
  | zero => rfl
  | succ turns ih =>
    have hfind : (relabel f portions).findIdx? (fun a => a.1.len < minSegment.value) =
        portions.findIdx? fun portion => portion.1.len < minSegment.value := by
      rw [relabel, List.findIdx?_map]
      rfl
    rw [mergeLoop, mergeLoop, hfind, length_relabel]
    cases portions.findIdx? fun portion => portion.1.len < minSegment.value with
    | none => rfl
    | some pos =>
      simp only [mergeAt_relabel]
      split_ifs with hlone
      · rfl
      · cases mergeAt pos portions with
        | none => rfl
        | some merged => exact ih merged

end

def assignmentsOf (portions : List Portion) : List Assignment := relabel ExitSpec.id portions

-- what `build` numbers, each range with its spec entry
def plannedPortions (fileSize : FileSize) (exits : List ExitSpec) (segmentsPerExit : SegmentsPerExit)
    (minSegment : MinSegmentBytes) : Except FetchError (List Portion) := do
  let kept := keptExits fileSize minSegment exits
  let spe := splitCount fileSize minSegment segmentsPerExit kept
  let portions ← assign id fileSize spe kept
  return mergeTinySegments portions minSegment

-- every range goes with one of the exits
def AllFrom (exits : List ExitSpec) (portions : List Portion) : Prop :=
  ∀ portion ∈ portions, portion.2 ∈ exits

theorem splitLoop_allFrom {size totalUnits spe cursor start stop : ℕ} {exits : List ExitSpec}
    {portions : List Portion}
    (h : splitLoop id size totalUnits spe exits cursor start = .ok (portions, stop)) :
    AllFrom exits portions := by
  induction exits generalizing cursor start portions stop with
  | nil =>
    obtain ⟨rfl, _⟩ : [] = portions ∧ start = stop := by simpa [splitLoop] using h
    exact fun portion hin => absurd hin List.not_mem_nil
  | cons exit rest ih =>
    simp only [splitLoop, bind_eq_ok] at h
    obtain ⟨exitEnd, _, h⟩ := h
    split_ifs at h with hroom
    · obtain ⟨⟨pushed, start'⟩, hrest, heq⟩ := bind_eq_ok.mp h
      obtain ⟨rfl, _⟩ := Prod.ext_iff.mp (Except.ok.inj heq)
      intro portion hin
      rcases List.mem_append.mp hin with hin | hin
      · obtain ⟨range, _, rfl⟩ := List.mem_map.mp hin
        exact List.mem_cons_self
      · exact List.mem_cons_of_mem _ (ih hrest portion hin)
    · exact fun portion hin => List.mem_cons_of_mem _ (ih h portion hin)

theorem extendLast_allFrom {fileSize : FileSize} {exits : List ExitSpec}
    {portions extended : List Portion} (h : AllFrom exits portions)
    (hextend : extendLast id fileSize exits portions = .ok extended) : AllFrom exits extended := by
  rw [extendLast.eq_def] at hextend
  cases hlast : portions.getLast? with
  | none =>
    simp only [hlast] at hextend
    cases exits with
    | nil => exact Except.ok.inj hextend ▸ h
    | cons exit rest =>
      obtain ⟨only, _, heq⟩ := bind_eq_ok.mp hextend
      obtain rfl := Except.ok.inj heq
      simp [AllFrom]
  | some last =>
    simp only [hlast] at hextend
    obtain ⟨range, _, heq⟩ := bind_eq_ok.mp hextend
    obtain rfl := Except.ok.inj heq
    intro portion hin
    rcases List.mem_append.mp hin with hin | hin
    · exact h portion (List.dropLast_subset _ hin)
    · obtain rfl := List.mem_singleton.mp hin
      exact h last (List.mem_of_getLast? hlast)

theorem assign_allFrom {fileSize : FileSize} {spe : SegmentsPerExit} {exits : List ExitSpec}
    {portions : List Portion} (h : assign id fileSize spe exits = .ok portions) :
    AllFrom exits portions := by
  have hsplit (h : weightedSplit id fileSize spe exits = .ok portions) : AllFrom exits portions := by
    obtain ⟨⟨pushed, start⟩, hloop, h⟩ := bind_eq_ok.mp h
    have hpushed := splitLoop_allFrom hloop
    dsimp only at h
    split_ifs at h with hshort
    · exact extendLast_allFrom hpushed h
    · exact Except.ok.inj h ▸ hpushed
  unfold assign at h
  split at h
  · split_ifs at h
    · obtain ⟨only, _, heq⟩ := bind_eq_ok.mp h
      obtain rfl := Except.ok.inj heq
      simp [AllFrom]
    · exact hsplit h
  · exact hsplit h

theorem mergeAt_allFrom {pos : ℕ} {portions merged : List Portion} {exits : List ExitSpec}
    (h : AllFrom exits portions) (hmerge : mergeAt pos portions = some merged) :
    AllFrom exits merged := by
  have hset (i : ℕ) (range : ByteRange) {owner : Portion} {j : ℕ} (hget : portions[j]? = some owner) :
      AllFrom exits ((portions.set i (range, owner.2)).eraseIdx pos) := by
    intro portion hin
    rcases ListFacts.mem_set_eraseIdx hin with hin | rfl
    · exact h portion hin
    · exact h owner (List.mem_of_getElem? hget)
  rw [mergeAt] at hmerge
  split_ifs at hmerge with hnext
  · split at hmerge
    · rename_i tiny next htiny hnext
      split at hmerge
      · obtain rfl := Option.some.inj hmerge
        exact hset _ _ hnext
      · cases hmerge
    · cases hmerge
  · split at hmerge
    · rename_i prev tiny hprev htiny
      split at hmerge
      · obtain rfl := Option.some.inj hmerge
        exact hset _ _ hprev
      · cases hmerge
    · cases hmerge

theorem mergeLoop_allFrom {minSegment : MinSegmentBytes} (turns : ℕ) {portions : List Portion}
    {exits : List ExitSpec} (h : AllFrom exits portions) :
    AllFrom exits (mergeLoop minSegment turns portions) := by
  induction turns generalizing portions with
  | zero => exact h
  | succ turns ih =>
    rw [mergeLoop]
    split
    · exact h
    · split_ifs
      · exact h
      · split
        · rename_i merged hmerge
          exact ih (mergeAt_allFrom h hmerge)
        · exact h

theorem plannedPortions_owners {fileSize : FileSize} {exits : List ExitSpec}
    {segmentsPerExit : SegmentsPerExit} {minSegment : MinSegmentBytes} {portions : List Portion}
    (h : plannedPortions fileSize exits segmentsPerExit minSegment = .ok portions) :
    AllFrom exits portions := by
  obtain ⟨cut, hcut, heq⟩ := bind_eq_ok.mp h
  obtain rfl := Except.ok.inj heq
  exact fun portion hin => mem_keptExits (mergeLoop_allFrom _ (assign_allFrom hcut) portion hin)

theorem build_portions {url : TargetUrl} {fileSize : FileSize} {exits : List ExitSpec}
    {segmentsPerExit : SegmentsPerExit} {minSegment : MinSegmentBytes} {plan : FetchPlan}
    (h : FetchPlan.build url fileSize exits segmentsPerExit minSegment = .ok plan) :
    ∃ portions, plannedPortions fileSize exits segmentsPerExit minSegment = .ok portions ∧
      plan.segments.map (fun seg => (seg.range, seg.exit)) = assignmentsOf portions := by
  obtain ⟨_, _, _, assigned, hassign, hsegments⟩ := build_ok h
  have hrelabel := assign_relabel ExitSpec.id id fileSize
    (splitCount fileSize minSegment segmentsPerExit (keptExits fileSize minSegment exits))
    (keptExits fileSize minSegment exits)
  rw [Function.comp_id, hassign] at hrelabel
  rw [plannedPortions]
  obtain ⟨portions, hportions, hlabels⟩ := map_eq_ok.mp hrelabel.symm
  rw [hportions]
  refine ⟨mergeTinySegments portions minSegment, rfl, ?_⟩
  rw [hsegments, mergeTinySegments, ← hlabels, mergeLoop_relabel, length_relabel]
  rfl

end SpiderNet.Fetch
