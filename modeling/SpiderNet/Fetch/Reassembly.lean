import SpiderNet.Fetch.Assemble
import SpiderNet.Library.ListFacts

namespace SpiderNet.Fetch
open Tiling ListFacts

def planNames (segments : List SegmentPlan) : List Text := segments.map fun seg => partName seg.index

structure HoldsPlan (parts : Dir) (plan : FetchPlan) (file : Bytes) : Prop where
  written : ∀ seg ∈ plan.segments,
    parts (partFile seg.index) = some (.file (slice file seg.range.extent))
  only : ∀ name, (parts name).isSome → ∃ seg ∈ plan.segments, name = partFile seg.index

def Reassembles (sha256 : Bytes → Sha256Digest) (plan : FetchPlan) (file : Bytes) : Prop :=
  ∀ (parts : Dir) (listing : List FileName) (output : Option Bytes)
    (expectedDigest : Option Sha256Digest), HoldsPlan parts plan file → Lists parts listing →
    (expectedDigest = none ∨ expectedDigest = some (sha256 file)) →
    assemble sha256 noFaults parts listing output plan.fileSize expectedDigest =
      (.ok (sha256 file), some file)

theorem planNames_nodup {plan : FetchPlan} (h : plan.validate = .ok ()) :
    (planNames plan.segments).Nodup := by
  have hnodup := (validate_indices_nodup h).map partName_injective
  rwa [List.map_map] at hnodup

theorem planNames_eq {plan : FetchPlan} (h : plan.validate = .ok ()) :
    planNames plan.segments = (List.range plan.segments.length).map segmentName := by
  obtain ⟨_, hindices⟩ := (validate_iff plan).mp h
  rw [← hindices, List.map_map]
  rfl

theorem planNames_sorted_iff {plan : FetchPlan} (h : plan.validate = .ok ()) :
    (planNames plan.segments).Pairwise (· ≤ ·) ↔ plan.segments.length ≤ 10 ^ 6 := by
  rw [planNames_eq h, segmentNames_sorted_iff]

-- the segments in the order in which their part files are read back
def textOrder (segments : List SegmentPlan) : List SegmentPlan :=
  segments.insertionSort fun a b => partName a.index ≤ partName b.index

theorem textOrder_perm (segments : List SegmentPlan) : (textOrder segments).Perm segments :=
  List.perm_insertionSort _ _

theorem planNames_textOrder (segments : List SegmentPlan) :
    planNames (textOrder segments) = sortPaths (planNames segments) :=
  List.map_insertionSort _ _ _ _ fun _ _ _ _ => Iff.rfl

theorem textOrder_eq_iff {plan : FetchPlan} (h : plan.validate = .ok ()) :
    textOrder plan.segments = plan.segments ↔ plan.segments.length ≤ 10 ^ 6 := by
  rw [← planNames_sorted_iff h]
  constructor
  · intro heq
    rw [← heq, planNames_textOrder]
    exact sortPaths_sorted _
  · intro hsorted
    exact (List.pairwise_map.mp hsorted).insertionSort_eq

theorem assemble_plan (sha256 : Bytes → Sha256Digest) {plan : FetchPlan} (h : plan.validate = .ok ())
    {file : Bytes} {parts : Dir} {listing : List FileName} (hparts : HoldsPlan parts plan file)
    (hlisting : Lists parts listing) (output : Option Bytes) (expectedDigest : Option Sha256Digest)
    {content : Bytes}
    (hcontent : (textOrder plan.segments).flatMap (fun seg => slice file seg.range.extent) = content) :
    assemble sha256 noFaults parts listing output plan.fileSize expectedDigest =
      (checkAssembly sha256 ⟨content, content, content.length⟩ plan.fileSize expectedDigest,
        some content) := by
  have hnames (name : FileName) : (parts name).isSome ↔
      ∃ text ∈ planNames plan.segments, name = .utf8 text := by
    constructor
    · intro hsome
      obtain ⟨seg, hseg, rfl⟩ := hparts.only name hsome
      exact ⟨_, List.mem_map_of_mem hseg, rfl⟩
    · rintro ⟨text, htext, rfl⟩
      obtain ⟨seg, hseg, rfl⟩ := List.mem_map.mp htext
      have hwritten : parts (.utf8 (partName seg.index)) = _ := hparts.written seg hseg
      rw [hwritten]
      rfl
  obtain ⟨listed, rfl, hperm⟩ := hlisting.names_perm (planNames_nodup h) hnames
  have hsegment {name : Text} (hname : name ∈ listed) :
      ∃ seg ∈ plan.segments, partName seg.index = name :=
    List.mem_map.mp (hperm.subset hname)
  refine assemble_noFaults sha256 ?_ ?_ output plan.fileSize expectedDigest ?_
  · intro name hname
    obtain ⟨seg, _, rfl⟩ := hsegment hname
    simp
  · intro name hname
    obtain ⟨seg, hseg, rfl⟩ := hsegment hname
    exact ⟨_, hparts.written seg hseg⟩
  · have hsorted : sortPaths listed = planNames (textOrder plan.segments) := by
      rw [planNames_textOrder]
      exact sortPaths_perm_eq hperm
    rw [hsorted, planNames, List.flatMap_map, ← hcontent]
    refine List.flatMap_congr fun seg hseg => contentOf_eq ?_
    exact hparts.written seg ((textOrder_perm _).subset hseg)

def partsOf (plan : FetchPlan) (file : Bytes) : Dir := fun name =>
  (plan.segments.find? fun seg => partFile seg.index = name).map fun seg =>
    .file (slice file seg.range.extent)

theorem partsOf_holds {plan : FetchPlan} (h : plan.validate = .ok ()) (file : Bytes) :
    HoldsPlan (partsOf plan file) plan file := by
  constructor
  · intro seg hseg
    cases hfind : plan.segments.find? fun other => partFile other.index = partFile seg.index with
    | none => simpa using List.find?_eq_none.mp hfind seg hseg
    | some other =>
      have hname : partFile other.index = partFile seg.index := by simpa using List.find?_some hfind
      have hsame := List.inj_on_of_nodup_map (validate_indices_nodup h)
        (List.mem_of_find?_eq_some hfind) hseg (partFile_injective hname)
      rw [partsOf, hfind, hsame]
      rfl
  · intro name hsome
    obtain ⟨seg, hfind⟩ := Option.isSome_iff_exists.mp (Option.isSome_map ▸ hsome)
    have hname : partFile seg.index = name := by simpa using List.find?_some hfind
    exact ⟨seg, List.mem_of_find?_eq_some hfind, hname.symm⟩

theorem partsOf_lists {plan : FetchPlan} (h : plan.validate = .ok ()) (file : Bytes) :
    Lists (partsOf plan file) (plan.segments.map fun seg => partFile seg.index) := by
  have hholds := partsOf_holds h file
  constructor
  · have hnodup := (validate_indices_nodup h).map partFile_injective
    rwa [List.map_map] at hnodup
  · intro name
    constructor
    · intro hname
      obtain ⟨seg, hseg, rfl⟩ := List.mem_map.mp hname
      rw [hholds.written seg hseg]
      rfl
    · intro hsome
      obtain ⟨seg, hseg, rfl⟩ := hholds.only name hsome
      exact List.mem_map_of_mem hseg

theorem Reassembles.read_back {sha256 : Bytes → Sha256Digest} {plan : FetchPlan} {file : Bytes}
    (hreassembles : Reassembles sha256 plan file) (h : plan.validate = .ok ()) :
    (textOrder plan.segments).flatMap (fun seg => slice file seg.range.extent) = file := by
  have hdone := hreassembles _ _ none none (partsOf_holds h file) (partsOf_lists h file) (Or.inl rfl)
  rw [assemble_plan sha256 h (partsOf_holds h file) (partsOf_lists h file) none none rfl] at hdone
  exact Option.some.inj (Prod.ext_iff.mp hdone).2

theorem textOrder_eq_of_reassembles {sha256 : Bytes → Sha256Digest} {plan : FetchPlan}
    (h : plan.validate = .ok ())
    (hall : ∀ file : Bytes, file.length = plan.fileSize.value → Reassembles sha256 plan file) :
    textOrder plan.segments = plan.segments := by
  have htiles := ((validate_iff plan).mp h).1
  have hperm := textOrder_perm plan.segments
  have : Nontrivial UInt8 := ⟨0, 1, by decide⟩
  refine eq_of_map_eq htiles.nodup hperm
    (htiles.order_determined (hperm.map _) fun (file : Bytes) hfile => ?_)
  rw [List.flatMap_map, ← hfile, slice_all]
  exact (hall file hfile).read_back h

theorem reassembles_of_textOrder (sha256 : Bytes → Sha256Digest) {plan : FetchPlan}
    (h : plan.validate = .ok ()) (horder : textOrder plan.segments = plan.segments) {file : Bytes}
    (hfile : file.length = plan.fileSize.value) : Reassembles sha256 plan file := by
  intro parts listing output expectedDigest hparts hlisting hexpected
  have htiles := ((validate_iff plan).mp h).1
  have hcontent : (textOrder plan.segments).flatMap (fun seg => slice file seg.range.extent) = file := by
    rw [horder, ← List.flatMap_map, ← FetchPlan.extents, htiles.flatMap_slice, ← hfile, slice_all]
  rw [assemble_plan sha256 h hparts hlisting output expectedDigest hcontent]
  refine Prod.ext ?_ rfl
  rcases hexpected with rfl | rfl <;> simp [checkAssembly, hfile]

theorem assemble_reassembles_iff (sha256 : Bytes → Sha256Digest) {plan : FetchPlan}
    (h : plan.validate = .ok ()) :
    (∀ file : Bytes, file.length = plan.fileSize.value → Reassembles sha256 plan file) ↔
      plan.segments.length ≤ 10 ^ 6 := by
  rw [← textOrder_eq_iff h]
  exact ⟨textOrder_eq_of_reassembles h, fun horder _ hfile => reassembles_of_textOrder sha256 h horder
    hfile⟩

theorem assemble_reassembles_iff_sample :
    Reassembles (fun _ => ⟨.replicate 32 0⟩) samplePlan (List.replicate 12 7) :=
  (assemble_reassembles_iff (fun _ => ⟨.replicate 32 0⟩) (rfl : samplePlan.validate = .ok ())).mpr
    (by decide) _ rfl

def unitSegment {size : FileSize} (hsize : size.value ≤ 2 ^ 32) (i : Fin size.value) : SegmentPlan :=
  ⟨⟨i, i.isLt.trans_le hsize⟩, ⟨i, i, le_rfl⟩, 1⟩

def unitPlan (size : FileSize) (hsize : size.value ≤ 2 ^ 32) : FetchPlan :=
  ⟨sampleUrl, size, List.ofFn (unitSegment hsize)⟩

theorem ofFn_val (n : ℕ) : List.ofFn (fun i : Fin n => (i : ℕ)) = List.range n :=
  List.ext_getElem (by simp) (by simp)

theorem tiles_units (start count : ℕ) :
    Tiles (start + count) start ((List.range' start count).map fun i => (i, i + 1)) := by
  induction count generalizing start with
  | zero => exact rfl
  | succ count ih =>
    rw [List.range'_succ, List.map_cons, tiles_cons]
    refine ⟨rfl, Nat.lt_succ_self _, ?_⟩
    have hrest := ih (start + 1)
    rwa [Nat.add_right_comm] at hrest

theorem unitPlan_valid (size : FileSize) (hsize : size.value ≤ 2 ^ 32) :
    (unitPlan size hsize).validate = .ok () := by
  refine (validate_iff _).mpr ⟨?_, ?_⟩
  · have htiles := tiles_units 0 size.value
    rw [← List.range_eq_range', ← ofFn_val, List.map_ofFn, Nat.zero_add] at htiles
    rw [FetchPlan.extents, unitPlan, List.map_ofFn]
    exact htiles
  · rw [unitPlan, List.map_ofFn, List.length_ofFn, ← ofFn_val]
    rfl

theorem unitPlan_range {size : FileSize} {hsize : size.value ≤ 2 ^ 32} {seg : SegmentPlan}
    (h : seg ∈ (unitPlan size hsize).segments) :
    seg.range.extent = (seg.index.value, seg.index.value + 1) ∧ seg.index.value < size.value := by
  obtain ⟨i, rfl⟩ := List.mem_ofFn.mp h
  exact ⟨rfl, i.isLt⟩

section
variable {size : FileSize} {hsize : size.value ≤ 2 ^ 32}

theorem million_not_last (hmillion : size.value = 1000001) {seg : SegmentPlan}
    {pre : List SegmentPlan} (h : textOrder (unitPlan size hsize).segments = pre ++ [seg]) :
    seg.index.value ≠ 1000000 := by
  intro hindex
  have hvalue : 999999 < size.value := by omega
  have hin : unitSegment hsize ⟨999999, hvalue⟩ ∈ (unitPlan size hsize).segments :=
    List.mem_ofFn.mpr ⟨_, rfl⟩
  have hmem := (textOrder_perm _).symm.subset hin
  have hsorted := sortPaths_sorted (planNames (unitPlan size hsize).segments)
  rw [← planNames_textOrder, planNames, h, List.map_append, List.pairwise_append] at hsorted
  have hlt : partName seg.index < segmentName 999999 := by
    have hname : partName seg.index = segmentName seg.index.value := rfl
    rw [hname, hindex]
    exact segmentName_million
  rw [h] at hmem
  rcases List.mem_append.mp hmem with hpre | hlast
  · have hle := hsorted.2.2 _ (List.mem_map_of_mem hpre) _ (List.mem_singleton_self _)
    exact absurd hlt (not_lt.mpr hle)
  · have heq : 999999 = seg.index.value :=
      congrArg (fun other : SegmentPlan => other.index.value) (List.mem_singleton.mp hlast)
    omega

theorem last_byte_moves (hmillion : size.value = 1000001) (sha256 : Bytes → Sha256Digest) :
    ¬Reassembles sha256 (unitPlan size hsize) (marked 0 1 size.value 1000000) := by
  intro hreassembles
  have hback := hreassembles.read_back (unitPlan_valid _ _)
  rcases List.eq_nil_or_concat (textOrder (unitPlan size hsize).segments) with
    hnil | ⟨pre, seg, horder⟩
  · have hlength := (textOrder_perm (unitPlan size hsize).segments).length_eq
    rw [hnil, unitPlan, List.length_ofFn, List.length_nil] at hlength
    omega
  · rw [List.concat_eq_append] at horder
    have hseg : seg ∈ (unitPlan size hsize).segments :=
      (textOrder_perm _).subset (horder ▸ List.mem_append_right _ (List.mem_singleton_self _))
    obtain ⟨hextent, hlt⟩ := unitPlan_range hseg
    have hzero : slice (marked (0 : UInt8) 1 size.value 1000000)
        (seg.index.value, seg.index.value + 1) = [0] := by
      rw [slice_marked_unit 0 1 hlt, if_neg (million_not_last hmillion horder)]
    have hone : (marked (0 : UInt8) 1 size.value 1000000).getLast? = some 1 := by
      rw [List.getLast?_eq_getElem?, length_marked, getElem?_marked _ _ (by omega),
        if_pos (by omega)]
    have hlast := congrArg List.getLast? hback
    rw [horder, List.flatMap_append, List.flatMap_singleton, hextent, hzero,
      List.getLast?_append, hone] at hlast
    exact absurd (Option.some.inj hlast) (by decide)

end

def millionPlan : FetchPlan := unitPlan 1000001 (by decide)

def lastByteSet : Bytes := marked 0 1 1000001 1000000

theorem assemble_million_segments : millionPlan.validate = .ok () ∧
    lastByteSet.length = millionPlan.fileSize.value ∧
    ∀ sha256, ¬Reassembles sha256 millionPlan lastByteSet :=
  ⟨unitPlan_valid _ _, length_marked _ _ _ _, last_byte_moves rfl⟩

end SpiderNet.Fetch
