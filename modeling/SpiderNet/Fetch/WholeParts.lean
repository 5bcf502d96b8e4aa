import SpiderNet.Fetch.Assemble
import Mathlib.Data.List.Perm.Subperm

namespace SpiderNet.Fetch

def sizeIn (parts : Dir) (name : FileName) : ℕ :=
  match parts name with
  | some (.file content) => content.length
  | _ => 0

def Readable (parts : Dir) (name : FileName) : Prop :=
  ∃ text content, name = .utf8 text ∧ (partIndex text).isSome ∧ parts name = some (.file content)

-- every entry is a file whose name reads as a part's, and the lengths add up
def Admitted (parts : Dir) (listing : List FileName) (size : FileSize) : Prop :=
  (∀ name ∈ listing, Readable parts name) ∧ (listing.map (sizeIn parts)).sum = size.value

def NumberedFromZero (listing : List FileName) : Prop :=
  ∀ name ∈ listing, ∃ i < listing.length, name = .utf8 (segmentName i)

def inIndexOrder (parts : Dir) (count : ℕ) : Bytes :=
  (List.range count).flatMap fun i => contentOf parts (segmentName i)

def inNameOrder (parts : Dir) (count : ℕ) : Bytes :=
  (sortPaths ((List.range count).map segmentName)).flatMap (contentOf parts)

def AssemblesWhole (sha256 : Bytes → Sha256Digest) (parts : Dir) (listing : List FileName)
    (size : FileSize) : Prop :=
  ∀ io output digest written,
    assemble sha256 io parts listing output size none = (.ok digest, written) →
    ∃ n, (∀ name, (parts name).isSome ↔ ∃ i < n, name = .utf8 (segmentName i)) ∧
      written = some (inIndexOrder parts n)

theorem sum_sizeIn {parts : Dir} {names : List Text}
    (h : ∀ name ∈ names, ∃ content, parts (.utf8 name) = some (.file content)) :
    ((names.map FileName.utf8).map (sizeIn parts)).sum = (names.flatMap (contentOf parts)).length := by
  induction names with
  | nil => rfl
  | cons name rest ih =>
    obtain ⟨content, hcontent⟩ := h name (by simp)
    have hrest := ih fun other ho => h other (List.mem_cons_of_mem _ ho)
    rw [List.map_cons, List.map_cons, List.sum_cons, hrest, List.flatMap_cons, List.length_append,
      contentOf_eq hcontent, sizeIn, hcontent]

theorem length_flatMap_perm {names names' : List Text} (h : names.Perm names') (f : Text → Bytes) :
    (names.flatMap f).length = (names'.flatMap f).length := (h.flatMap_right f).length_eq

theorem segmentName_injective {i j : ℕ} (h : segmentName i = segmentName j) : i = j := by
  have hpadded : Decimal.padded 6 i = Decimal.padded 6 j :=
    List.append_cancel_left (List.append_cancel_right h)
  rw [← Decimal.value_padded 6 i, hpadded, Decimal.value_padded]

theorem segmentNames_nodup (count : ℕ) : ((List.range count).map segmentName).Nodup :=
  List.nodup_range.map fun _ _ h => segmentName_injective h

theorem sortPaths_segmentNames {count : ℕ} (h : count ≤ 10 ^ 6) :
    sortPaths ((List.range count).map segmentName) = (List.range count).map segmentName :=
  sortPaths_eq (List.Perm.refl _) (segmentNames_sorted_iff.mpr h)

theorem inNameOrder_eq (parts : Dir) {count : ℕ} (h : count ≤ 10 ^ 6) :
    inNameOrder parts count = inIndexOrder parts count := by
  rw [inNameOrder, sortPaths_segmentNames h, inIndexOrder, List.flatMap_map]

section
variable {parts : Dir} {names : List Text} (hlisting : Lists parts (names.map .utf8))
include hlisting

theorem numbered_perm (h : NumberedFromZero (names.map FileName.utf8)) :
    names.Perm ((List.range names.length).map segmentName) := by
  have hnodup : names.Nodup := List.Nodup.of_map _ hlisting.nodup
  have hsub : names ⊆ (List.range names.length).map segmentName := by
    intro name hname
    obtain ⟨i, hi, heq⟩ := h _ (List.mem_map_of_mem hname)
    rw [List.length_map] at hi
    exact List.mem_map.mpr ⟨i, List.mem_range.mpr hi, (FileName.utf8.inj heq).symm⟩
  exact (hnodup.subperm hsub).perm_of_length_le (by rw [List.length_map, List.length_range])

theorem perm_of_whole {n : ℕ}
    (h : ∀ name, (parts name).isSome ↔ ∃ i < n, name = .utf8 (segmentName i)) :
    names.Perm ((List.range n).map segmentName) :=
  hlisting.perm_names (segmentNames_nodup n) fun name => (h name).trans (by simp [eq_comm])

theorem whole_of_perm {n : ℕ} (h : names.Perm ((List.range n).map segmentName)) (name : FileName) :
    (parts name).isSome ↔ ∃ i < n, name = .utf8 (segmentName i) := by
  rw [← hlisting.mem_iff, List.mem_map]
  constructor
  · rintro ⟨text, htext, rfl⟩
    obtain ⟨i, hi, rfl⟩ := List.mem_map.mp (h.subset htext)
    exact ⟨i, List.mem_range.mp hi, rfl⟩
  · rintro ⟨i, hi, rfl⟩
    exact ⟨_, h.symm.subset (List.mem_map_of_mem (List.mem_range.mpr hi)), rfl⟩

end

theorem readable_names {parts : Dir} {listing : List FileName}
    (h : ∀ name ∈ listing, Readable parts name) : ∃ names : List Text, listing = names.map .utf8 ∧
      (∀ name ∈ names, (partIndex name).isSome) ∧
      ∀ name ∈ names, ∃ content, parts (.utf8 name) = some (.file content) := by
  induction listing with
  | nil => exact ⟨[], rfl, nofun, nofun⟩
  | cons first rest ih =>
    obtain ⟨text, content, rfl, hparsed, hcontent⟩ := h first (by simp)
    obtain ⟨names, rfl, hall, hfiles⟩ := ih fun other ho => h other (List.mem_cons_of_mem _ ho)
    refine ⟨text :: names, rfl, ?_, ?_⟩
    · simpa [hparsed] using hall
    · simpa [hcontent] using hfiles

theorem assemble_whole_iff (sha256 : Bytes → Sha256Digest) {parts : Dir} {listing : List FileName}
    (hlisting : Lists parts listing) (size : FileSize) :
    AssemblesWhole sha256 parts listing size ↔
      (Admitted parts listing size → NumberedFromZero listing ∧
        (listing.length ≤ 10 ^ 6 ∨
          inNameOrder parts listing.length = inIndexOrder parts listing.length)) := by
  constructor
  · rintro hwhole ⟨hreadable, hsum⟩
    obtain ⟨names, rfl, hparsed, hfiles⟩ := readable_names hreadable
    have hlength : ((sortPaths names).flatMap (contentOf parts)).length = size.value := by
      rw [length_flatMap_perm (sortPaths_perm names), ← sum_sizeIn hfiles, hsum]
    have hrun := assemble_noFaults sha256 hparsed hfiles none size none rfl
    rw [checkAssembly, if_neg (not_not.mpr hlength)] at hrun
    obtain ⟨n, hentries, hwritten⟩ := hwhole _ _ _ _ hrun
    have hperm := perm_of_whole hlisting hentries
    have hcount : names.length = n := by simpa using hperm.length_eq
    rw [List.length_map, hcount]
    refine ⟨?_, Or.inr ?_⟩
    · intro name hname
      rw [List.length_map, hcount]
      exact (hentries name).mp ((hlisting.mem_iff name).mp hname)
    · rw [inNameOrder, ← sortPaths_perm_eq hperm]
      exact Option.some.inj hwritten
  · intro hcondition io output digest written hrun
    obtain ⟨names, rfl, hparsed, hfiles, hlength, rfl⟩ := assemble_ok hrun
    have hadmitted : Admitted parts (names.map .utf8) size := by
      refine ⟨fun name hname => ?_, ?_⟩
      · obtain ⟨text, htext, rfl⟩ := List.mem_map.mp hname
        obtain ⟨content, hcontent⟩ := hfiles text htext
        exact ⟨text, content, rfl, hparsed text htext, hcontent⟩
      · rw [sum_sizeIn hfiles, ← length_flatMap_perm (sortPaths_perm names), hlength]
    obtain ⟨hnumbered, horder⟩ := hcondition hadmitted
    have hperm := numbered_perm hlisting hnumbered
    refine ⟨names.length, whole_of_perm hlisting hperm, congrArg some ?_⟩
    rw [sortPaths_perm_eq hperm, ← inNameOrder]
    rw [List.length_map] at horder
    exact horder.elim (inNameOrder_eq parts) id

def onePart (name : Text) : Dir := fun other =>
  if other = .utf8 name then some (.file [7]) else none

theorem onePart_lists (name : Text) : Lists (onePart name) [.utf8 name] := by
  refine ⟨List.nodup_singleton _, fun other => ?_⟩
  rw [List.mem_singleton, onePart]
  split_ifs with h
  · exact iff_of_true h rfl
  · exact iff_of_false h nofun

def oneByte : FileSize := 1

def threeParts : Dir := fun name =>
  if name = .utf8 (segmentName 0) then some (.file [1, 2])
  else if name = .utf8 (segmentName 1) then some (.file [3])
  else if name = .utf8 (segmentName 2) then some (.file [4])
  else none

def outOfOrder : List FileName := [2, 0, 1].map fun i => .utf8 (segmentName i)

theorem threeParts_lists : Lists threeParts outOfOrder := by
  refine ⟨by decide, fun name => ?_⟩
  simp only [outOfOrder, List.map_cons, List.map_nil, List.mem_cons, List.not_mem_nil, or_false,
    threeParts]
  split_ifs <;> simp_all

def fourBytes : FileSize := 4

-- listed out of order, and joined in the order of the indices
theorem assemble_whole_iff_three :
    AssemblesWhole (fun _ => ⟨.replicate 32 0⟩) threeParts outOfOrder fourBytes ∧
    ∃ digest, assemble (fun _ => ⟨.replicate 32 0⟩) noFaults threeParts outOfOrder none fourBytes none =
      (.ok digest, some [1, 2, 3, 4]) := by
  refine ⟨(assemble_whole_iff _ threeParts_lists fourBytes).mpr fun _ => ⟨fun name hname => ?_,
    Or.inl (by decide)⟩, _, rfl⟩
  obtain ⟨i, hi, rfl⟩ := List.mem_map.mp hname
  refine ⟨i, ?_, rfl⟩
  revert i
  decide

-- the part of index 0 is missing, and the name of the only entry has a sign
theorem assemble_garbage :
    Lists (onePart "seg-+7.part".toList) [.utf8 "seg-+7.part".toList] ∧
    ¬AssemblesWhole (fun _ => ⟨.replicate 32 0⟩) (onePart "seg-+7.part".toList)
      [.utf8 "seg-+7.part".toList] oneByte := by
  refine ⟨onePart_lists _, fun hwhole => ?_⟩
  obtain ⟨n, hentries, _⟩ := hwhole noFaults none _ _ rfl
  obtain ⟨i, _, hname⟩ := (hentries (.utf8 "seg-+7.part".toList)).mp rfl
  have hsix : (segmentName i).length = 11 := by rw [← FileName.utf8.inj hname]; rfl
  have hlong : 15 ≤ (segmentName i).length := by
    simp only [segmentName, Decimal.padded, List.length_append, List.length_leftpad]
    have hmax : 6 ≤ max 6 (Nat.toDigits 10 i).length := le_max_left _ _
    have hlead : "seg-".toList.length = 4 := rfl
    have hsuffix : ".part".toList.length = 5 := rfl
    omega
  omega

end SpiderNet.Fetch
