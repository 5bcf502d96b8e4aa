import SpiderNet.Fetch.Parts
import SpiderNet.Fetch.PlanShape

namespace SpiderNet.Fetch
open Tiling

@[simp] theorem partIndex_partName (index : SegmentIndex) :
    partIndex (partName index) = some index.value := by
  rw [partIndex, partName, List.append_assoc, stripPrefix_append, Option.bind_some,
    stripSuffix_append, Option.bind_some, Decimal.parse_padded 6 index.lt]

theorem partName_injective : Function.Injective partName := by
  rintro ⟨i, hi⟩ ⟨j, hj⟩ h
  have hindex := congrArg partIndex h
  simpa using hindex

theorem partFile_injective : Function.Injective partFile := by
  intro i j h
  exact partName_injective (FileName.utf8.inj h)

theorem append_lt_append {lead suffix xs ys : Text} (hlength : xs.length = ys.length) (h : xs < ys) :
    lead ++ xs ++ suffix < lead ++ ys ++ suffix := by
  induction lead with
  | nil =>
    rw [List.nil_append, List.nil_append]
    induction xs generalizing ys with
    | nil =>
      obtain rfl : ys = [] := List.length_eq_zero_iff.mp hlength.symm
      exact absurd h (List.lt_irrefl _)
    | cons x xs ih =>
      cases ys with
      | nil => cases hlength
      | cons y ys =>
        rw [List.cons_append, List.cons_append, List.cons_lt_cons_iff]
        rcases List.cons_lt_cons_iff.mp h with hlt | ⟨heq, hlt⟩
        · exact Or.inl hlt
        · exact Or.inr ⟨heq, ih (Nat.succ.inj hlength) hlt⟩
  | cons c lead ih =>
    rw [List.cons_append, List.cons_append, List.cons_append, List.cons_append,
      List.cons_lt_cons_iff]
    exact Or.inr ⟨rfl, ih⟩

def segmentName (value : ℕ) : Text :=
  "seg-".toList ++ Decimal.padded 6 value ++ ".part".toList

theorem segmentName_lt {i j : ℕ} (hj : j < 10 ^ 6) (h : i < j) : segmentName i < segmentName j := by
  have hi : i < 10 ^ 6 := h.trans hj
  refine append_lt_append ?_ ((Decimal.padded_lt_padded (by decide) hi hj).mpr h)
  rw [Decimal.length_padded (by decide) hi, Decimal.length_padded (by decide) hj]

theorem segmentName_million : segmentName 1000000 < segmentName 999999 := by
  decide

theorem segmentNames_sorted_iff {count : ℕ} :
    ((List.range count).map segmentName).Pairwise (· ≤ ·) ↔ count ≤ 10 ^ 6 := by
  rw [List.pairwise_map]
  constructor
  · intro hsorted
    by_contra hlong
    have hpair := List.pairwise_iff_getElem.mp hsorted 999999 1000000
      (by rw [List.length_range]; omega) (by rw [List.length_range]; omega) (by decide)
    rw [List.getElem_range, List.getElem_range] at hpair
    exact absurd segmentName_million (not_lt.mpr hpair)
  · intro hshort
    refine List.pairwise_lt_range.imp_of_mem fun {i j} _ hj hlt => ?_
    exact (segmentName_lt ((List.mem_range.mp hj).trans_le hshort) hlt).le

theorem collectPartFiles_names (position : ℕ) {names : List Text}
    (h : ∀ name ∈ names, (partIndex name).isSome) :
    collectPartFiles noFaults position (names.map .utf8) = .ok names := by
  induction names generalizing position with
  | nil => rfl
  | cons name rest ih =>
    have hname : (partIndex name).isNone = false := by
      simpa using h name (by simp)
    have hrest := ih (position + 1) fun other ho => h other (List.mem_cons_of_mem _ ho)
    simp only [List.map_cons, collectPartFiles, noFaults, hname] at hrest ⊢
    simp only [hrest, Bool.false_eq_true, if_false]
    rfl

theorem chunks_flatten {size turns : ℕ} (hsize : 0 < size) {content : Bytes}
    (h : content.length ≤ turns) : (chunks size turns content).flatten = content := by
  induction turns generalizing content with
  | zero =>
    obtain rfl := List.length_eq_zero_iff.mp (Nat.le_zero.mp h)
    rfl
  | succ turns ih =>
    rw [chunks]
    split_ifs with hnil
    · exact hnil.symm
    · have hpos := List.length_pos_iff.mpr hnil
      have hrest : (content.drop size).length ≤ turns := by
        rw [List.length_drop]
        omega
      rw [List.flatten_cons, ih hrest, List.take_append_drop]

theorem copyChunks_noFaults (name : Text) (k : ℕ) (pieces : List Bytes) (acc : Assembly) :
    copyChunks noFaults name k pieces acc = (none, acc.push pieces.flatten) := by
  induction pieces generalizing k acc with
  | nil => simp [copyChunks, noFaults, Assembly.push]
  | cons piece rest ih =>
    have hpush : (acc.push piece).push rest.flatten = acc.push (piece :: rest).flatten := by
      simp [Assembly.push, Nat.add_assoc]
    rw [← hpush, ← ih (k + 1)]
    rfl

def contentOf (parts : Dir) (name : Text) : Bytes :=
  match parts (.utf8 name) with
  | some (.file content) => content
  | _ => []

theorem contentOf_eq {parts : Dir} {name : Text} {content : Bytes}
    (h : parts (.utf8 name) = some (.file content)) : contentOf parts name = content := by
  rw [contentOf, h]

theorem copyParts_noFaults {parts : Dir} {names : List Text} (acc : Assembly)
    (h : ∀ name ∈ names, ∃ content, parts (.utf8 name) = some (.file content)) :
    copyParts noFaults parts names acc = (none, acc.push (names.flatMap (contentOf parts))) := by
  induction names generalizing acc with
  | nil => simp [copyParts, Assembly.push]
  | cons name rest ih =>
    obtain ⟨content, hcontent⟩ := h name (by simp)
    have hcopy : copyPart noFaults parts name acc = (none, acc.push content) := by
      have hflatten := @chunks_flatten bufferSize content.length (by decide) content le_rfl
      simp only [copyPart, hcontent, copyChunks_noFaults, hflatten]
      rfl
    have hpush : (acc.push content).push (rest.flatMap (contentOf parts)) =
        acc.push ((name :: rest).flatMap (contentOf parts)) := by
      rw [List.flatMap_cons, contentOf_eq hcontent]
      simp [Assembly.push, Nat.add_assoc]
    rw [copyParts, hcopy]
    simp only
    rw [ih _ fun other ho => h other (List.mem_cons_of_mem _ ho), hpush]

theorem sortPaths_perm (names : List Text) : (sortPaths names).Perm names :=
  List.perm_insertionSort _ _

theorem sortPaths_sorted (names : List Text) : (sortPaths names).Pairwise (· ≤ ·) :=
  List.pairwise_insertionSort _ _

theorem collectPartFiles_ok {io : Faults} {position : ℕ} {listing : List FileName} {names : List Text}
    (h : collectPartFiles io position listing = .ok names) :
    listing = names.map .utf8 ∧ ∀ name ∈ names, (partIndex name).isSome := by
  induction listing generalizing position names with
  | nil =>
    rw [collectPartFiles] at h
    split_ifs at h
    obtain rfl := Except.ok.inj h
    exact ⟨rfl, nofun⟩
  | cons entry rest ih =>
    cases hfail : io.fails (.nextEntry position) with
    | true => simp [collectPartFiles, hfail, throw, throwThe, MonadExceptOf.throw, bind, Except.bind] at h
    | false =>
      cases entry with
      | raw bytes => simp [collectPartFiles, hfail, throw, throwThe, MonadExceptOf.throw] at h
      | utf8 name =>
        by_cases hname : (partIndex name).isNone
        · simp [collectPartFiles, hfail, hname, throw, throwThe, MonadExceptOf.throw, bind,
            Except.bind] at h
        · simp only [collectPartFiles, hfail, hname, Bool.false_eq_true, if_false] at h
          obtain ⟨later, hlater, heq⟩ := bind_eq_ok.mp h
          obtain rfl := Except.ok.inj heq
          obtain ⟨rfl, hall⟩ := ih hlater
          refine ⟨rfl, fun other ho => ?_⟩
          rcases List.mem_cons.mp ho with rfl | ho
          · exact Option.isSome_iff_ne_none.mpr (by simpa using hname)
          · exact hall other ho

theorem copyChunks_ok {io : Faults} {name : Text} {k : ℕ} {pieces : List Bytes} {acc after : Assembly}
    (h : copyChunks io name k pieces acc = (none, after)) : after = acc.push pieces.flatten := by
  induction pieces generalizing k acc with
  | nil =>
    obtain ⟨_, rfl⟩ := Prod.ext_iff.mp h
    simp [copyChunks, Assembly.push]
  | cons piece rest ih =>
    have hpush : (acc.push piece).push rest.flatten = acc.push (piece :: rest).flatten := by
      simp [Assembly.push, Nat.add_assoc]
    rw [copyChunks] at h
    split_ifs at h with hread hwrite
    · cases h
    · cases h
    · rw [← hpush]
      exact ih h

theorem copyPart_ok {io : Faults} {parts : Dir} {name : Text} {acc after : Assembly}
    (h : copyPart io parts name acc = (none, after)) :
    ∃ content, parts (.utf8 name) = some (.file content) ∧ after = acc.push content := by
  rw [copyPart] at h
  split_ifs at h with hopen
  · cases h
  · cases hnode : parts (.utf8 name) with
    | none => simp [hnode] at h
    | some node =>
      cases node with
      | directory => simp [hnode] at h
      | file content =>
        rw [hnode] at h
        refine ⟨content, rfl, (copyChunks_ok h).trans ?_⟩
        rw [chunks_flatten (by decide) le_rfl]

theorem copyParts_ok {io : Faults} {parts : Dir} {names : List Text} {acc after : Assembly}
    (h : copyParts io parts names acc = (none, after)) :
    (∀ name ∈ names, ∃ content, parts (.utf8 name) = some (.file content)) ∧
      after = acc.push (names.flatMap (contentOf parts)) := by
  induction names generalizing acc with
  | nil =>
    obtain rfl : acc = after := (Prod.ext_iff.mp h).2
    exact ⟨nofun, by simp [Assembly.push]⟩
  | cons name rest ih =>
    rw [copyParts] at h
    rcases hcopy : copyPart io parts name acc with ⟨error, next⟩
    rw [hcopy] at h
    cases error with
    | some error => cases h
    | none =>
      obtain ⟨content, hcontent, rfl⟩ := copyPart_ok hcopy
      obtain ⟨hrest, rfl⟩ := ih h
      refine ⟨?_, ?_⟩
      · intro other ho
        rcases List.mem_cons.mp ho with rfl | ho
        · exact ⟨content, hcontent⟩
        · exact hrest other ho
      · rw [List.flatMap_cons, contentOf_eq hcontent]
        simp [Assembly.push, Nat.add_assoc]

theorem sortPaths_eq {names sorted : List Text} (hperm : sorted.Perm names)
    (hsorted : sorted.Pairwise (· ≤ ·)) : sortPaths names = sorted :=
  ((sortPaths_perm names).trans hperm.symm).eq_of_pairwise (fun _ _ _ _ => le_antisymm)
    (sortPaths_sorted names) hsorted

theorem sortPaths_perm_eq {names names' : List Text} (h : names.Perm names') :
    sortPaths names = sortPaths names' :=
  sortPaths_eq ((sortPaths_perm names').trans h.symm) (sortPaths_sorted names')

theorem assemble_noFaults (sha256 : Bytes → Sha256Digest) {parts : Dir} {names : List Text}
    (hparsed : ∀ name ∈ names, (partIndex name).isSome)
    (hfiles : ∀ name ∈ names, ∃ content, parts (.utf8 name) = some (.file content))
    (output : Option Bytes) (expectedSize : FileSize) (expectedDigest : Option Sha256Digest)
    {content : Bytes} (hcontent : (sortPaths names).flatMap (contentOf parts) = content) :
    assemble sha256 noFaults parts (names.map .utf8) output expectedSize expectedDigest =
      (checkAssembly sha256 ⟨content, content, content.length⟩ expectedSize expectedDigest,
        some content) := by
  have hcopy := @copyParts_noFaults parts (sortPaths names) ⟨[], [], 0⟩ fun name hname =>
    hfiles name ((sortPaths_perm names).subset hname)
  rw [hcontent] at hcopy
  simp only [assemble, collectPartFiles_names 0 hparsed, hcopy, Assembly.push, List.nil_append,
    Nat.zero_add]
  rfl

theorem assemble_ok {sha256 : Bytes → Sha256Digest} {io : Faults} {parts : Dir}
    {listing : List FileName} {output written : Option Bytes} {size : FileSize}
    {expected : Option Sha256Digest} {digest : Sha256Digest}
    (h : assemble sha256 io parts listing output size expected = (.ok digest, written)) :
    ∃ names : List Text, listing = names.map .utf8 ∧ (∀ name ∈ names, (partIndex name).isSome) ∧
      (∀ name ∈ names, ∃ content, parts (.utf8 name) = some (.file content)) ∧
      ((sortPaths names).flatMap (contentOf parts)).length = size.value ∧
      written = some ((sortPaths names).flatMap (contentOf parts)) := by
  cases hread : io.fails .readDir with
  | true => simp [assemble, hread] at h
  | false =>
    cases hcollect : collectPartFiles io 0 listing with
    | error error => simp [assemble, hread, hcollect] at h
    | ok names =>
      cases hcreate : io.fails .createParent || io.fails .createOutput with
      | true =>
        simp only [assemble, hread, hcollect, hcreate] at h
        cases h
      | false =>
        rcases hcopy : copyParts io parts (sortPaths names) ⟨[], [], 0⟩ with ⟨error, acc⟩
        simp only [assemble, hread, hcollect, hcreate, hcopy, Bool.false_eq_true, if_false] at h
        cases error with
        | some error => cases h
        | none =>
          cases hflush : io.fails .flush with
          | true => simp [hflush] at h
          | false =>
            simp only [hflush, Bool.false_eq_true, if_false] at h
            obtain ⟨hcheck, rfl⟩ := Prod.ext_iff.mp h
            obtain ⟨hlisting, hparsed⟩ := collectPartFiles_ok hcollect
            obtain ⟨hfiles, rfl⟩ := copyParts_ok hcopy
            refine ⟨names, hlisting, hparsed,
              fun name hname => hfiles name ((sortPaths_perm names).mem_iff.mpr hname), ?_, ?_⟩
            · simp only [checkAssembly, Assembly.push, Nat.zero_add, List.nil_append] at hcheck
              by_contra hsize
              rw [if_pos hsize] at hcheck
              cases hcheck
            · simp [Assembly.push]

theorem Lists.texts {parts : Dir} {listing : List FileName} (hlisting : Lists parts listing)
    (h : ∀ name, (parts name).isSome → ∃ text, name = .utf8 text) :
    ∃ names : List Text, listing = names.map .utf8 := by
  have htext : ∀ name ∈ listing, ∃ text, name = FileName.utf8 text := fun name hname =>
    h name ((hlisting.mem_iff name).mp hname)
  clear hlisting
  induction listing with
  | nil => exact ⟨[], rfl⟩
  | cons name rest ih =>
    obtain ⟨text, rfl⟩ := htext name (by simp)
    obtain ⟨names, rfl⟩ := ih fun other ho => htext other (List.mem_cons_of_mem _ ho)
    exact ⟨text :: names, rfl⟩

theorem Lists.perm_names {parts : Dir} {listed names : List Text} (h : Lists parts (listed.map .utf8))
    (hnodup : names.Nodup) (hnames : ∀ name, (parts name).isSome ↔ ∃ text ∈ names, name = .utf8 text) :
    listed.Perm names := by
  refine (List.perm_ext_iff_of_nodup (List.Nodup.of_map _ h.nodup) hnodup).mpr fun text => ?_
  have hmem : text ∈ listed ↔ FileName.utf8 text ∈ listed.map FileName.utf8 := by simp
  rw [hmem, h.mem_iff, hnames]
  simp

theorem Lists.names_perm {parts : Dir} {listing : List FileName} (h : Lists parts listing)
    {names : List Text} (hnodup : names.Nodup)
    (hnames : ∀ name, (parts name).isSome ↔ ∃ text ∈ names, name = .utf8 text) :
    ∃ listed : List Text, listing = listed.map .utf8 ∧ listed.Perm names := by
  obtain ⟨listed, rfl⟩ := h.texts fun name hsome => by
    obtain ⟨text, _, heq⟩ := (hnames name).mp hsome
    exact ⟨text, heq⟩
  exact ⟨listed, rfl, h.perm_names hnodup hnames⟩

end SpiderNet.Fetch
