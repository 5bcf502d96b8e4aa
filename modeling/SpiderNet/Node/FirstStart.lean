import SpiderNet.Node.Outcome

namespace SpiderNet.Node
open Exit Transition

theorem PublicKeyHex.incomplete {key : PublicKeyHex} {content rest : Bytes}
    (hsplit : content ++ rest = toUtf8 key.key) (hrest : rest ≠ []) : ¬CompleteKey content := by
  rintro ⟨text, parsed, htext, hparse⟩
  have hcontent : content = toUtf8 (key.key.take content.length) := by
    rw [key.toUtf8_take, ← hsplit, List.take_left]
  have hshort : content.length < 64 := by
    have hpos := List.length_pos_iff.mpr hrest
    rw [← key.length_toUtf8, ← hsplit, List.length_append]
    omega
  rw [hcontent, fromUtf8_toUtf8] at htext
  obtain rfl := Option.some.inj htext
  have hlong := (PublicKeyHex.length_of_parse hparse).trans (length_trim_le _)
  rw [List.length_take] at hlong
  omega

-- the phase in which a start stopped, killed there or because the call it made there failed
inductive Stops (start : Start) (dir : StateDir) : Spawning → StateDir → Prop
  | killed {phase : Spawning} {left : StateDir}
      (h : Reachable (SpawnStep anyStat start) (.creatingDir, dir) (phase, left)) :
      Stops start dir phase left
  | fails {phase : Spawning} {mid left : StateDir} {error : NodeError}
      (h : Reachable (SpawnStep anyStat start) (.creatingDir, dir) (phase, mid))
      (hfail : FaultySpawn anyStat start (phase, mid) (.refused error, left)) :
      Stops start dir phase left

-- a working disk fails no call and answers the existence check truthfully
def LaterStartSpawns (stateDir : Text) (left : StateDir) : Prop :=
  ∀ later base key, later.config.stateDir = stateDir →
    generateConfig later.config.yggdrasilBinary later.output later.config.nodeSettings = .ok base →
    generatedKey later.config.yggdrasilBinary base = .ok key →
    Inevitably (SpawnStep truthfulStat later) (fun s => s.1 = .spawned base) (.creatingDir, left)

def KeyPartlyWritten : Spawning → Prop
  | .writingKey _ _ (.writing rest) _ => rest ≠ []
  | _ => False

def Usable (file : Option File) : Prop := file = none ∨ ∃ content, HoldsKey file content

theorem loadKey_complete {path : Text} {content : Bytes} (h : CompleteKey content) :
    ∃ key, loadKey path content = .ok key := by
  obtain ⟨text, key, htext, hparse⟩ := h
  refine ⟨key, ?_⟩
  rw [loadKey, htext]
  simp only [hparse]

theorem launchConf_usable {later : Start} {base : Json} {key : PublicKeyHex} {left : StateDir}
    (hbase : generateConfig later.config.yggdrasilBinary later.output later.config.nodeSettings =
      .ok base) (hkey : generatedKey later.config.yggdrasilBinary base = .ok key)
    (h : Usable left.key) : launchConf later left = .ok base := by
  rw [launchConf_of_ok hbase, nodeKey]
  rcases h with hnone | ⟨content, hcontent, hcomplete⟩
  · rw [hnone]
    simp only [hkey]
    rfl
  · obtain ⟨file, hfile, rfl⟩ := Option.map_eq_some_iff.mp hcontent
    obtain ⟨existing, hload⟩ := @loadKey_complete later.config.keyPath _ hcomplete
    rw [hfile]
    simp only [hload]
    rfl

theorem laterStartSpawns_usable {stateDir : Text} {left : StateDir} (h : Usable left.key) :
    LaterStartSpawns stateDir left := by
  intro later base key _ hbase hkey
  have hconf := launchConf_usable hbase hkey h
  refine (spawn_ends later left).mono fun s hends => ?_
  cases hends with
  | spawned hlaunched _ => rw [Except.ok.inj (hlaunched.symm.trans hconf)]
  | refused herror => cases herror.symm.trans hconf

-- no start gets past a key file that holds no complete key
theorem not_laterStartSpawns {start : Start} {base : Json} {key : PublicKeyHex} {left : StateDir}
    {file : File} (hbase : generateConfig start.config.yggdrasilBinary start.output
      start.config.nodeSettings = .ok base)
    (hkey : generatedKey start.config.yggdrasilBinary base = .ok key) (hfile : left.key = some file)
    (hbad : ¬CompleteKey file.content) : ¬LaterStartSpawns start.config.stateDir left := by
  intro hspawns
  obtain ⟨s, hrun, hspawned⟩ := (hspawns start base key rfl hbase hkey).reachable
  obtain ⟨phase, last⟩ := s
  obtain rfl : phase = .spawned base := hspawned
  have hends : SpawnEnds start left (.spawned base, last) := onCourse_run hrun
  cases hends with
  | spawned hconf _ =>
    obtain ⟨_, existing, hload⟩ := launchConf_ok hconf
    rw [nodeKey, hfile] at hload
    exact hbad (loadKey_ok hload)

theorem WriteStep.created {umask : Mode} {text : Bytes} {w w' : WriteState}
    (h : WriteStep umask text w w') : w'.stage ≠ .creating := by
  cases h <;> simp

def Fresh (start : Start) (dir : StateDir) : Spawning → Prop
  | .creatingDir | .generating | .refused _ => dir.key = none
  | .checking base => dir.key = none ∧ generateConfig start.config.yggdrasilBinary start.output
      start.config.nodeSettings = .ok base
  | .loading _ => False
  | .writingKey base key stage opened => generateConfig start.config.yggdrasilBinary start.output
      start.config.nodeSettings = .ok base ∧
      generatedKey start.config.yggdrasilBinary base = .ok key ∧
      (stage = .creating → dir.key = none) ∧ TextWriting (toUtf8 key.key) ⟨stage, dir.key, opened⟩
  | .writingConf _ _ _ | .launching _ | .spawned _ => ∃ content, HoldsKey dir.key content

theorem SpawnStep.fresh {start : Start} {s s' : Spawning × StateDir} (hs : Fresh start s.2 s.1)
    (hstep : SpawnStep anyStat start s s') : Fresh start s'.2 s'.1 := by
  cases hstep with
  | createDir dir => exact hs
  | generate dir base h => exact ⟨hs, h⟩
  | generateFails dir error h => exact hs
  | found dir base hstat =>
    have hsome := hstat rfl
    rw [hs.1] at hsome
    cases hsome
  | absent dir base key hstat h => exact ⟨hs.2, h, fun _ => hs.1, rfl⟩
  | absentFails dir base error hstat h => exact hs.1
  | load dir base file key hfile h => exact hs.elim
  | loadFails dir base file error hfile h => exact hs.elim
  | writeKey dir base key stage stage' opened opened' file' h =>
    obtain ⟨hbase, hkey, _, hwriting⟩ := hs
    exact ⟨hbase, hkey, fun hcreating => absurd hcreating h.created, hwriting.step h⟩
  | keyWritten dir base key opened =>
    obtain ⟨_, _, _, hwriting⟩ := hs
    have hcontent : dir.key.map (·.content) = some (toUtf8 key.key) := by rw [hwriting]; rfl
    exact ⟨_, hcontent, key.complete⟩
  | writeConf dir base stage stage' opened opened' file' h => exact hs
  | confWritten dir base opened => exact hs
  | launch dir base => exact hs

theorem fresh_run {start : Start} {dir : StateDir} {s : Spawning × StateDir} (hnone : dir.key = none)
    (h : Reachable (SpawnStep anyStat start) (.creatingDir, dir) s) : Fresh start s.2 s.1 := by
  induction h with
  | refl => exact hnone
  | tail _ hlast ih => exact SpawnStep.fresh ih hlast

theorem Fresh.usable_iff {start : Start} {dir : StateDir} {phase : Spawning}
    (h : Fresh start dir phase) :
    LaterStartSpawns start.config.stateDir dir ↔ ¬KeyPartlyWritten phase := by
  constructor
  · intro hspawns hpart
    cases phase with
    | writingKey base key stage opened =>
      cases stage with
      | writing rest =>
        obtain ⟨hbase, hkey, _, content, hcontent, hsplit⟩ := h
        obtain ⟨file, hfile, rfl⟩ := Option.map_eq_some_iff.mp hcontent
        exact not_laterStartSpawns hbase hkey hfile (PublicKeyHex.incomplete hsplit hpart) hspawns
      | _ => exact hpart
    | _ => exact hpart
  · intro hwhole
    apply laterStartSpawns_usable
    cases phase with
    | creatingDir | generating | refused error => exact Or.inl h
    | checking base => exact Or.inl h.1
    | loading base => exact h.elim
    | writingKey base key stage opened =>
      obtain ⟨_, _, habsent, hwriting⟩ := h
      cases stage with
      | creating => exact Or.inl (habsent rfl)
      | writing rest =>
        obtain ⟨content, hcontent, hsplit⟩ := hwriting
        rw [not_ne_iff.mp hwhole, List.append_nil] at hsplit
        exact Or.inr ⟨content, hcontent, hsplit ▸ key.complete⟩
      | restricting => exact Or.inr ⟨_, hwriting, key.complete⟩
      | written =>
        have hcontent : dir.key.map (·.content) = some (toUtf8 key.key) := by rw [hwriting]; rfl
        exact Or.inr ⟨_, hcontent, key.complete⟩
      | failed => exact hwriting.elim
    | writingConf base stage opened | launching base | spawned base => exact Or.inr h

theorem FaultySpawn.refused_dir {stat : Stat} {start : Start} {phase : Spawning}
    {dir left : StateDir} {error : NodeError}
    (h : FaultySpawn stat start (phase, dir) (.refused error, left)) : left = dir := by
  cases h with
  | step hstep => cases hstep <;> rfl
  | fail kind hrunning => rfl

theorem Stops.fresh {start : Start} {dir left : StateDir} {phase : Spawning} (hnone : dir.key = none)
    (h : Stops start dir phase left) : Fresh start left phase := by
  cases h with
  | killed hrun => exact fresh_run hnone hrun
  | fails hrun hfail =>
    rw [hfail.refused_dir]
    exact fresh_run hnone hrun

theorem laterStartSpawns_iff (start : Start) (dir left : StateDir) (phase : Spawning)
    (hnone : dir.key = none) (hstops : Stops start dir phase left) :
    LaterStartSpawns start.config.stateDir left ↔ ¬KeyPartlyWritten phase :=
  (hstops.fresh hnone).usable_iff

def firstKey : PublicKeyHex := ⟨List.replicate 64 'a', by decide⟩

-- a first start that has created node.key and written nothing into it
theorem firstKey_created : ∃ base,
    generateConfig "yggdrasil".toList (sampleStart 'a').output sampleConfig.nodeSettings = .ok base ∧
    generatedKey "yggdrasil".toList base = .ok firstKey ∧
    Reachable (SpawnStep anyStat (sampleStart 'a')) (.creatingDir, ⟨false, none, none⟩)
      (.writingKey base firstKey (.writing (toUtf8 firstKey.key)) true,
        ⟨true, some ⟨openMode 0o022 none, []⟩, none⟩) := by
  refine ⟨_, rfl, rfl, ?_⟩
  have hchecking := ((Reachable.refl _).tail (.createDir ⟨false, none, none⟩)).tail
    (@SpawnStep.generate anyStat (sampleStart 'a') _ _ rfl)
  exact (hchecking.tail (.absent _ _ firstKey nofun rfl)).tail
    (.writeKey _ _ firstKey _ _ _ _ _ (.create none))

-- killed with the whole key in node.key, and everybody still able to read it
theorem laterStartSpawns_iff_keyWritten : ∃ phase left,
    Stops (sampleStart 'a') ⟨false, none, none⟩ phase left ∧
    left.key = some ⟨openMode 0o022 none, toUtf8 firstKey.key⟩ ∧
    LaterStartSpawns "state".toList left := by
  obtain ⟨base, _, _, hcreated⟩ := firstKey_created
  have hall : SpawnStep anyStat (sampleStart 'a')
      (.writingKey base firstKey (.writing (toUtf8 firstKey.key)) true,
        ⟨true, some ⟨openMode 0o022 none, []⟩, none⟩)
      (.writingKey base firstKey (.writing []) true,
        ⟨true, some ⟨openMode 0o022 none, toUtf8 firstKey.key⟩, none⟩) :=
    .writeKey _ _ firstKey _ _ _ _ _
      (.write (toUtf8 firstKey.key) [] _ true (List.ne_nil_of_length_pos (by decide)))
  have hstops := Stops.killed (hcreated.tail hall)
  refine ⟨_, _, hstops, rfl, ?_⟩
  exact (laterStartSpawns_iff (sampleStart 'a') ⟨false, none, none⟩ _ _ rfl hstops).mpr
    fun hpart => hpart rfl

-- killed once node.key is created and before its first byte is there
theorem laterStart_refused : ∃ phase left,
    Stops (sampleStart 'a') ⟨false, none, none⟩ phase left ∧ ¬LaterStartSpawns "state".toList left := by
  obtain ⟨base, hbase, hkey, hcreated⟩ := firstKey_created
  refine ⟨_, _, .killed hcreated, ?_⟩
  have hempty : ¬CompleteKey [] :=
    @PublicKeyHex.incomplete firstKey [] _ rfl (List.ne_nil_of_length_pos (by decide))
  exact @not_laterStartSpawns (sampleStart 'a') _ firstKey _ _ hbase hkey rfl hempty

end SpiderNet.Node
