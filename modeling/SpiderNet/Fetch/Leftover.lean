import SpiderNet.Fetch.Ranged

namespace SpiderNet.Fetch
open Transition Tiling ListFacts

def readOrder (tasks : List TaskState) : List TaskState :=
  tasks.insertionSort fun a b => partName a.seg.index ≤ partName b.seg.index

theorem readOrder_perm (tasks : List TaskState) : (readOrder tasks).Perm tasks :=
  List.perm_insertionSort _ _

theorem readOrder_names (tasks : List TaskState) :
    ((readOrder tasks).map fun task => partName task.seg.index) =
      sortPaths (tasks.map fun task => partName task.seg.index) :=
  List.map_insertionSort _ _ _ _ fun _ _ _ _ => Iff.rfl

def delivered (tasks : List TaskState) : Bytes := (readOrder tasks).flatMap (·.body)

-- whatever else is in the directory is read as a part file and adds nothing
def Harmless (planned : List SegmentPlan) (parts : Dir) : Prop :=
  ∀ name node, parts name = some node → (∃ seg ∈ planned, name = partFile seg.index) ∨
    node = .file [] ∧ ∃ text, name = .utf8 text ∧ (partIndex text).isSome

section
variable {planned : List SegmentPlan} {start : Dir} {s : RunState}

theorem Downloaded.content_eq (h : Downloaded planned start s) {task : TaskState}
    (htask : task ∈ s.tasks) : contentOf s.shared.parts (partName task.seg.index) = task.body :=
  contentOf_eq (h.written task htask)

theorem Downloaded.planNames_eq (h : Downloaded planned start s) :
    planNames planned = s.tasks.map fun task => partName task.seg.index := by
  rw [← h.segments, planNames, List.map_map]
  rfl

theorem Downloaded.delivered_eq (h : Downloaded planned start s) :
    (sortPaths (planNames planned)).flatMap (contentOf s.shared.parts) = delivered s.tasks := by
  rw [h.planNames_eq, ← readOrder_names, List.flatMap_map]
  exact List.flatMap_congr fun task htask => h.content_eq ((readOrder_perm _).subset htask)

theorem Downloaded.sum_planNames (h : Downloaded planned start s) :
    ((planNames planned).map fun name => (contentOf s.shared.parts name).length).sum =
      (planned.map (·.range.len)).sum := by
  rw [h.planNames_eq, ← h.segments, List.map_map, List.map_map]
  refine congrArg List.sum (List.map_congr_left fun task htask => ?_)
  simp only [Function.comp_apply, h.content_eq htask, h.lengths task htask]

theorem Downloaded.listed (h : Downloaded planned start s) {names : List Text}
    (hlisting : Lists s.shared.parts (names.map .utf8)) {name : Text}
    (hname : name ∈ planNames planned) : name ∈ names := by
  rw [h.planNames_eq] at hname
  obtain ⟨task, htask, rfl⟩ := List.mem_map.mp hname
  have hsome := (hlisting.mem_iff (.utf8 (partName task.seg.index))).mpr (by
    have hwritten : s.shared.parts (.utf8 (partName task.seg.index)) = _ := h.written task htask
    rw [hwritten]
    rfl)
  simpa using hsome

theorem Downloaded.filter_perm (h : Downloaded planned start s)
    (hnodup : (planNames planned).Nodup) {names : List Text}
    (hlisting : Lists s.shared.parts (names.map .utf8)) :
    (names.filter (· ∈ planNames planned)).Perm (planNames planned) := by
  have hnames : names.Nodup := List.Nodup.of_map _ hlisting.nodup
  refine (List.perm_ext_iff_of_nodup (hnames.filter _) hnodup).mpr fun name => ?_
  rw [List.mem_filter, decide_eq_true_eq]
  exact ⟨fun hname => hname.2, fun hname => ⟨h.listed hlisting hname, hname⟩⟩

theorem Downloaded.harmless_iff (h : Downloaded planned start s) :
    Harmless planned s.shared.parts ↔ Harmless planned start := by
  have hframe (name : FileName) (hname : ¬∃ seg ∈ planned, name = partFile seg.index) :
      s.shared.parts name = start name :=
    h.frame name fun seg hseg heq => hname ⟨seg, hseg, heq⟩
  refine forall_congr' fun name => forall_congr' fun node => ?_
  by_cases hname : ∃ seg ∈ planned, name = partFile seg.index
  · simp only [hname, true_or, implies_true]
  · rw [hframe name hname]

theorem Downloaded.isSome_iff (h : Downloaded planned start s) (name : FileName) :
    (s.shared.parts name).isSome ↔
      (∃ seg ∈ planned, name = partFile seg.index) ∨ (start name).isSome := by
  by_cases hname : ∃ seg ∈ planned, name = partFile seg.index
  · obtain ⟨seg, hseg, rfl⟩ := hname
    obtain ⟨task, htask, rfl⟩ := List.mem_map.mp (h.segments ▸ hseg)
    rw [h.written task htask]
    exact iff_of_true rfl (Or.inl ⟨_, hseg, rfl⟩)
  · rw [h.frame name fun seg hseg heq => hname ⟨seg, hseg, heq⟩, or_iff_right hname]

theorem Downloaded.lists_plan (h : Downloaded planned start s)
    (hnodup : (planned.map (·.index)).Nodup)
    (hstart : ∀ name, (start name).isSome → ∃ seg ∈ planned, name = partFile seg.index) :
    Lists s.shared.parts (planned.map fun seg => partFile seg.index) := by
  constructor
  · have hfiles := hnodup.map partFile_injective
    rwa [List.map_map] at hfiles
  · intro name
    rw [h.isSome_iff, or_iff_left_of_imp (hstart name), List.mem_map]
    simp only [eq_comm]

theorem Downloaded.lists_start (h : Downloaded planned start s) {listing : List FileName}
    (hlisting : Lists start listing) (hplanned : ∀ seg ∈ planned, partFile seg.index ∈ listing) :
    Lists s.shared.parts listing := by
  refine ⟨hlisting.nodup, fun name => ?_⟩
  rw [h.isSome_iff, ← hlisting.mem_iff]
  constructor
  · exact Or.inr
  · rintro (⟨seg, hseg, rfl⟩ | hname)
    · exact hplanned seg hseg
    · exact hname

theorem Harmless.after {planned' : List SegmentPlan} (h : Harmless planned' start)
    (hdone : Downloaded planned start s)
    (hindices : ∀ seg ∈ planned, ∃ seg' ∈ planned', seg'.index = seg.index) :
    Harmless planned' s.shared.parts := by
  intro name node hnode
  by_cases hname : ∃ seg ∈ planned, name = partFile seg.index
  · obtain ⟨seg, hseg, rfl⟩ := hname
    obtain ⟨seg', hseg', heq⟩ := hindices seg hseg
    exact Or.inl ⟨seg', hseg', by rw [heq]⟩
  · rw [hdone.frame name fun seg hseg heq => hname ⟨seg, hseg, heq⟩] at hnode
    exact h name node hnode

theorem Harmless.names (h : Harmless planned s.shared.parts) (hdone : Downloaded planned start s)
    {name : FileName} (hsome : (s.shared.parts name).isSome) :
    ∃ text content, name = .utf8 text ∧ (partIndex text).isSome ∧
      s.shared.parts name = some (.file content) ∧ (text ∉ planNames planned → content = []) := by
  obtain ⟨node, hnode⟩ := Option.isSome_iff_exists.mp hsome
  rcases h name node hnode with ⟨seg, hseg, rfl⟩ | ⟨rfl, text, rfl, hparsed⟩
  · have hname : partName seg.index ∈ planNames planned := List.mem_map_of_mem hseg
    obtain ⟨task, htask, heq⟩ := List.mem_map.mp (hdone.planNames_eq ▸ hname)
    refine ⟨partName seg.index, task.body, rfl, by simp, ?_, fun hout => absurd hname hout⟩
    rw [partFile, ← heq]
    exact hdone.written task htask
  · exact ⟨text, [], rfl, hparsed, hnode, fun _ => rfl⟩

theorem assemble_harmless (sha256 : Bytes → Sha256Digest) (hdone : Downloaded planned start s)
    (hnodup : (planNames planned).Nodup) (hharmless : Harmless planned start)
    {listing : List FileName} (hlisting : Lists s.shared.parts listing) (output : Option Bytes)
    (expectedSize : FileSize) (expectedDigest : Option Sha256Digest) :
    assemble sha256 noFaults s.shared.parts listing output expectedSize expectedDigest =
      (checkAssembly sha256 ⟨delivered s.tasks, delivered s.tasks, (delivered s.tasks).length⟩
        expectedSize expectedDigest, some (delivered s.tasks)) := by
  have hclean := hdone.harmless_iff.mpr hharmless
  obtain ⟨names, rfl⟩ := hlisting.texts fun name hsome => by
    obtain ⟨text, _, rfl, _⟩ := hclean.names hdone hsome
    exact ⟨text, rfl⟩
  have hname {text : Text} (htext : text ∈ names) :
      ∃ content, (partIndex text).isSome ∧ s.shared.parts (.utf8 text) = some (.file content) ∧
        (text ∉ planNames planned → content = []) := by
    obtain ⟨text', content, heq, hparsed, hcontent, hempty⟩ :=
      hclean.names hdone ((hlisting.mem_iff (.utf8 text)).mp (List.mem_map_of_mem htext))
    obtain rfl := FileName.utf8.inj heq
    exact ⟨content, hparsed, hcontent, hempty⟩
  refine assemble_noFaults sha256 ?_ ?_ output expectedSize expectedDigest ?_
  · intro text htext
    obtain ⟨_, hparsed, _⟩ := hname htext
    exact hparsed
  · intro text htext
    obtain ⟨content, _, hcontent, _⟩ := hname htext
    exact ⟨content, hcontent⟩
  · have hsorted : (sortPaths names).filter (· ∈ planNames planned) = sortPaths (planNames planned) := by
      refine (sortPaths_eq ?_ ((sortPaths_sorted names).filter _)).symm
      exact ((sortPaths_perm names).filter _).trans (hdone.filter_perm hnodup hlisting)
    rw [← hdone.delivered_eq, ← hsorted]
    refine (flatMap_filter _ fun text htext hout => ?_).symm
    obtain ⟨content, _, hcontent, hempty⟩ := hname ((sortPaths_perm names).subset htext)
    rw [contentOf_eq hcontent]
    exact hempty (of_decide_eq_false hout)

theorem harmless_of_ok {sha256 : Bytes → Sha256Digest} (hdone : Downloaded planned start s)
    (hnodup : (planNames planned).Nodup) {listing : List FileName}
    (hlisting : Lists s.shared.parts listing) {output : Option Bytes} {expectedSize : FileSize}
    (hsize : (planned.map (·.range.len)).sum = expectedSize.value)
    {expectedDigest : Option Sha256Digest} {digest : Sha256Digest}
    (hok : (assemble sha256 noFaults s.shared.parts listing output expectedSize expectedDigest).1 =
      .ok digest) : Harmless planned start := by
  obtain ⟨names, rfl, hparsed, hfiles, htotal, _⟩ := assemble_ok (Prod.ext hok rfl)
  rw [List.length_flatMap] at htotal
  have hsplit := sum_filter_add (fun text => decide (text ∈ planNames planned))
    (fun text => (contentOf s.shared.parts text).length) names
  rw [((hdone.filter_perm hnodup hlisting).map _).sum_eq, hdone.sum_planNames, hsize,
    ← ((sortPaths_perm names).map _).sum_eq, htotal] at hsplit
  have hrest : ((names.filter fun text => !decide (text ∈ planNames planned)).map
      fun text => (contentOf s.shared.parts text).length).sum = 0 := by
    omega
  rw [← hdone.harmless_iff]
  intro name node hnode
  obtain ⟨text, htext, rfl⟩ := List.mem_map.mp
    ((hlisting.mem_iff name).mpr (Option.isSome_iff_exists.mpr ⟨node, hnode⟩))
  by_cases hplan : text ∈ planNames planned
  · obtain ⟨seg, hseg, rfl⟩ := List.mem_map.mp hplan
    exact Or.inl ⟨seg, hseg, rfl⟩
  · obtain ⟨content, hcontent⟩ := hfiles text htext
    have hzero := List.sum_eq_zero_iff.mp hrest (contentOf s.shared.parts text).length
      (List.mem_map_of_mem (List.mem_filter.mpr ⟨htext, by simpa using hplan⟩))
    rw [contentOf_eq hcontent] at hzero
    obtain rfl := List.length_eq_zero_iff.mp hzero
    rw [hcontent] at hnode
    exact Or.inr ⟨(Option.some.inj hnode).symm, text, rfl, hparsed text htext⟩

end

end SpiderNet.Fetch
