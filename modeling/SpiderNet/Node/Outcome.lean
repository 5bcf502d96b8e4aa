import SpiderNet.Node.Identity
import Mathlib.Data.Prod.Lex

namespace SpiderNet.Node
open Transition

-- the key a start goes on with where the disk fails no call
def nodeKey (start : Start) (dir : StateDir) (conf : Json) : Except NodeError PublicKeyHex :=
  match dir.key with
  | some file => loadKey start.config.keyPath file.content
  | none => generatedKey start.config.yggdrasilBinary conf

-- the config such a start launches the sidecar with
def launchConf (start : Start) (dir : StateDir) : Except NodeError Json := do
  let conf ← generateConfig start.config.yggdrasilBinary start.output start.config.nodeSettings
  let _ ← nodeKey start dir conf
  return conf

-- where such a start ends; one that is refused leaves both files as they were
inductive SpawnEnds (start : Start) (dir : StateDir) : Spawning × StateDir → Prop
  | spawned {conf : Json} {left : StateDir} (h : launchConf start dir = .ok conf)
      (hconf : left.conf = some ⟨ownerMode, toUtf8 (start.render conf)⟩) :
      SpawnEnds start dir (.spawned conf, left)
  | refused {error : NodeError} (h : launchConf start dir = .error error) :
      SpawnEnds start dir (.refused error, { dir with present := true })

def WriteStage.size (text : Bytes) : WriteStage → ℕ
  | .creating => text.length + 3
  | .writing rest => rest.length + 2
  | .restricting => 1
  | .written | .failed => 0

theorem WriteStep.size_lt {umask : Mode} {text : Bytes} {w w' : WriteState}
    (h : WriteStep umask text w w') : w'.stage.size text < w.stage.size text := by
  cases h with
  | create prior => simp [WriteStage.size]
  | write chunk rest file opened hsome =>
    have hpos := List.length_pos_iff.mpr hsome
    simp only [WriteStage.size, List.length_append]
    omega
  | flush file opened => simp [WriteStage.size]
  | restrict file opened => simp [WriteStage.size]

theorem TextWriting.next {umask : Mode} {text : Bytes} {w : WriteState} (h : TextWriting text w) :
    w.stage = .written ∨ ∃ w', WriteStep umask text w w' := by
  obtain ⟨stage, file, opened⟩ := w
  cases stage with
  | creating =>
    obtain rfl : opened = false := h
    exact Or.inr ⟨_, .create file⟩
  | writing rest =>
    obtain ⟨content, hcontent, _⟩ := h
    obtain ⟨file, rfl, _⟩ := Option.map_eq_some_iff.mp hcontent
    cases rest with
    | nil => exact Or.inr ⟨_, .flush (some file) opened⟩
    | cons byte rest => exact Or.inr ⟨_, .write [byte] rest file opened (List.cons_ne_nil _ _)⟩
  | restricting =>
    obtain ⟨file, rfl, _⟩ := Option.map_eq_some_iff.mp h
    exact Or.inr ⟨_, .restrict file opened⟩
  | written => exact Or.inl rfl
  | failed => exact h.elim

-- what of `spawn_sidecar` is still to do, and how much of the file it writes
def remaining (start : Start) : Spawning → ℕ ×ₗ ℕ
  | .creatingDir => toLex (6, 0)
  | .generating => toLex (5, 0)
  | .checking _ => toLex (4, 0)
  | .loading _ => toLex (3, 0)
  | .writingKey _ key stage _ => toLex (3, stage.size (toUtf8 key.key))
  | .writingConf base stage _ => toLex (2, stage.size (toUtf8 (start.render base)))
  | .launching _ => toLex (1, 0)
  | .spawned _ | .refused _ => toLex (0, 0)

theorem SpawnStep.remaining_lt {stat : Stat} {start : Start} {s s' : Spawning × StateDir}
    (h : SpawnStep stat start s s') : remaining start s'.1 < remaining start s.1 := by
  cases h with
  | writeKey dir base key stage stage' opened opened' file' h =>
    exact Prod.Lex.toLex_lt_toLex.mpr (Or.inr ⟨rfl, h.size_lt⟩)
  | writeConf dir base stage stage' opened opened' file' h =>
    exact Prod.Lex.toLex_lt_toLex.mpr (Or.inr ⟨rfl, h.size_lt⟩)
  | _ => exact Prod.Lex.toLex_lt_toLex.mpr (Or.inl (by simp))

section
variable {start : Start} {dir : StateDir} {conf : Json}

theorem launchConf_of_ok
    (h : generateConfig start.config.yggdrasilBinary start.output start.config.nodeSettings = .ok conf) :
    launchConf start dir = (nodeKey start dir conf).map fun _ => conf := by
  rw [launchConf, h, ok_bind]
  cases nodeKey start dir conf <;> rfl

theorem launchConf_of_error {error : NodeError}
    (h : generateConfig start.config.yggdrasilBinary start.output start.config.nodeSettings =
      .error error) : launchConf start dir = .error error := by
  rw [launchConf, h]
  rfl

theorem launchConf_ok (h : launchConf start dir = .ok conf) :
    generateConfig start.config.yggdrasilBinary start.output start.config.nodeSettings = .ok conf ∧
      ∃ key, nodeKey start dir conf = .ok key := by
  obtain ⟨generated, hgenerated, hrest⟩ := bind_eq_ok.mp h
  obtain ⟨key, hkey, hconf⟩ := bind_eq_ok.mp hrest
  obtain rfl := Except.ok.inj hconf
  exact ⟨hgenerated, key, hkey⟩

end

-- a start of `dir` under way on a working disk
def OnCourse (start : Start) (dir : StateDir) (s : Spawning × StateDir) : Prop :=
  match s.1 with
  | .creatingDir => s.2 = dir
  | .generating => s.2 = { dir with present := true }
  | .checking conf => s.2 = { dir with present := true } ∧
      launchConf start dir = (nodeKey start dir conf).map fun _ => conf
  | .loading conf => s.2 = { dir with present := true } ∧ dir.key.isSome ∧
      launchConf start dir = (nodeKey start dir conf).map fun _ => conf
  | .writingKey conf key stage opened => launchConf start dir = .ok conf ∧
      TextWriting (toUtf8 key.key) ⟨stage, s.2.key, opened⟩
  | .writingConf conf stage opened => launchConf start dir = .ok conf ∧
      TextWriting (toUtf8 (start.render conf)) ⟨stage, s.2.conf, opened⟩
  | .launching conf => launchConf start dir = .ok conf ∧
      s.2.conf = some ⟨ownerMode, toUtf8 (start.render conf)⟩
  | .spawned _ | .refused _ => SpawnEnds start dir s

theorem SpawnStep.onCourse {start : Start} {dir : StateDir} {s s' : Spawning × StateDir}
    (hs : OnCourse start dir s) (hstep : SpawnStep truthfulStat start s s') :
    OnCourse start dir s' := by
  cases hstep with
  | createDir mid =>
    obtain rfl : mid = dir := hs
    rfl
  | generate mid conf h => exact ⟨hs, launchConf_of_ok h⟩
  | generateFails mid error h =>
    obtain rfl : mid = _ := hs
    exact .refused (launchConf_of_error h)
  | found mid conf hstat =>
    obtain ⟨rfl, hconf⟩ := hs
    exact ⟨rfl, hstat.symm, hconf⟩
  | absent mid conf key hstat h =>
    obtain ⟨rfl, hconf⟩ := hs
    have hnone : dir.key = none := truthfulStat_false hstat
    refine ⟨?_, rfl⟩
    rw [hconf, nodeKey, hnone]
    simp only [h]
    rfl
  | absentFails mid conf error hstat h =>
    obtain ⟨rfl, hconf⟩ := hs
    have hnone : dir.key = none := truthfulStat_false hstat
    refine .refused ?_
    rw [hconf, nodeKey, hnone]
    simp only [h]
    rfl
  | load mid conf file key hfile h =>
    obtain ⟨rfl, _, hconf⟩ := hs
    have hkey : dir.key = some file := hfile
    refine ⟨?_, rfl⟩
    rw [hconf, nodeKey, hkey]
    simp only [h]
    rfl
  | loadFails mid conf file error hfile h =>
    obtain ⟨rfl, _, hconf⟩ := hs
    have hkey : dir.key = some file := hfile
    refine .refused ?_
    rw [hconf, nodeKey, hkey]
    simp only [h]
    rfl
  | writeKey mid conf key stage stage' opened opened' file' h => exact ⟨hs.1, hs.2.step h⟩
  | keyWritten mid conf key opened => exact ⟨hs.1, rfl⟩
  | writeConf mid conf stage stage' opened opened' file' h => exact ⟨hs.1, hs.2.step h⟩
  | confWritten mid conf opened => exact hs
  | launch mid conf => exact .spawned hs.1 hs.2

theorem OnCourse.next {start : Start} {dir : StateDir} {s : Spawning × StateDir}
    (hs : OnCourse start dir s) :
    SpawnEnds start dir s ∨ ∃ s', SpawnStep truthfulStat start s s' := by
  obtain ⟨phase, mid⟩ := s
  cases phase with
  | creatingDir => exact Or.inr ⟨_, .createDir mid⟩
  | generating =>
    cases h : generateConfig start.config.yggdrasilBinary start.output start.config.nodeSettings with
    | error error => exact Or.inr ⟨_, .generateFails mid error h⟩
    | ok conf => exact Or.inr ⟨_, .generate mid conf h⟩
  | checking conf =>
    cases hfile : mid.key with
    | some file => exact Or.inr ⟨_, .found mid conf (by rw [hfile]; rfl)⟩
    | none =>
      have hstat : truthfulStat mid.key false := by rw [hfile]; rfl
      cases h : generatedKey start.config.yggdrasilBinary conf with
      | error error => exact Or.inr ⟨_, .absentFails mid conf error hstat h⟩
      | ok key => exact Or.inr ⟨_, .absent mid conf key hstat h⟩
  | loading conf =>
    obtain ⟨rfl, hsome, _⟩ := hs
    obtain ⟨file, hfile⟩ := Option.isSome_iff_exists.mp hsome
    cases h : loadKey start.config.keyPath file.content with
    | error error => exact Or.inr ⟨_, .loadFails _ conf file error hfile h⟩
    | ok key => exact Or.inr ⟨_, .load _ conf file key hfile h⟩
  | writingKey conf key stage opened =>
    rcases hs.2.next with rfl | ⟨w, hwrite⟩
    · exact Or.inr ⟨_, .keyWritten mid conf key opened⟩
    · exact Or.inr ⟨_, .writeKey mid conf key stage w.stage opened w.opened w.file hwrite⟩
  | writingConf conf stage opened =>
    rcases hs.2.next with rfl | ⟨w, hwrite⟩
    · exact Or.inr ⟨_, .confWritten mid conf opened⟩
    · exact Or.inr ⟨_, .writeConf mid conf stage w.stage opened w.opened w.file hwrite⟩
  | launching conf => exact Or.inr ⟨_, .launch mid conf⟩
  | spawned conf => exact Or.inl hs
  | refused error => exact Or.inl hs

theorem onCourse_run {start : Start} {dir : StateDir} {s : Spawning × StateDir}
    (h : Reachable (SpawnStep truthfulStat start) (.creatingDir, dir) s) : OnCourse start dir s := by
  have hstart : OnCourse start dir (.creatingDir, dir) := rfl
  exact h.invariant (fun hs hstep => hstep.onCourse hs) hstart

-- where no call fails, what the directory holds and what the binary prints decide the outcome
theorem spawn_ends (start : Start) (dir : StateDir) :
    Inevitably (SpawnStep truthfulStat start) (SpawnEnds start dir) (.creatingDir, dir) := by
  have hstart : OnCourse start dir (.creatingDir, dir) := rfl
  exact Inevitably.of_measure wellFounded_lt (fun s => remaining start s.1)
    (fun hs hstep => hstep.onCourse hs) (fun _ hstep => hstep.remaining_lt) (fun hs => hs.next) hstart

end SpiderNet.Node
