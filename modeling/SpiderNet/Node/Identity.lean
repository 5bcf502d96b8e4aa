import SpiderNet.Node.Spawn

namespace SpiderNet.Node
open Exit Transition

def CompleteKey (content : Bytes) : Prop :=
  ∃ text key, fromUtf8 content = some text ∧ PublicKeyHex.parse (trim text) = .ok key

theorem PublicKeyHex.complete (key : PublicKeyHex) : CompleteKey (toUtf8 key.key) := by
  obtain ⟨parsed, hparsed⟩ := key.parse_key
  exact ⟨key.key, parsed, fromUtf8_toUtf8 _, hparsed⟩

theorem loadKey_ok {path : Text} {content : Bytes} {key : PublicKeyHex}
    (h : loadKey path content = .ok key) : CompleteKey content := by
  rw [loadKey] at h
  cases htext : fromUtf8 content with
  | none => simp [htext] at h
  | some text =>
    simp only [htext] at h
    cases hparse : PublicKeyHex.parse (trim text) with
    | error error => simp [hparse] at h
    | ok parsed => exact ⟨text, parsed, htext, hparse⟩

-- what a sidecar was started with, and the key it then runs with
structure Sidecar where
  conf : Json
  key : Option Bytes

-- the path of the key takes precedence over a key in the config itself
def sidecarKey (keyPath : Text) (dir : StateDir) (conf : Json) : Option Bytes :=
  match conf.getStr "PrivateKeyPath".toList with
  | some path => if path = keyPath then dir.key.map (·.content) else none
  | none => (conf.getStr "PrivateKey".toList).map toUtf8

def launched (keyPath : Text) (dir : StateDir) : Spawning → List Sidecar
  | .spawned base => [⟨base, sidecarKey keyPath dir base⟩]
  | _ => []

structure Host where
  dir : StateDir
  running : Option (Start × Spawning)
  sidecars : List Sidecar

inductive HostStep (stat : Stat) (stateDir : Text) : Host → Host → Prop
  | begin (dir : StateDir) (sidecars : List Sidecar) (start : Start)
      (hdir : start.config.stateDir = stateDir) :
      HostStep stat stateDir ⟨dir, none, sidecars⟩ ⟨dir, some (start, .creatingDir), sidecars⟩
  | step (dir dir' : StateDir) (sidecars : List Sidecar) (start : Start) (phase phase' : Spawning)
      (h : FaultySpawn stat start (phase, dir) (phase', dir')) :
      HostStep stat stateDir ⟨dir, some (start, phase), sidecars⟩ ⟨dir', some (start, phase'),
        sidecars ++ launched (joinPath stateDir nodeKeyFile) dir' phase'⟩
  | stop (dir : StateDir) (sidecars : List Sidecar) (start : Start) (phase : Spawning) :
      HostStep stat stateDir ⟨dir, some (start, phase), sidecars⟩ ⟨dir, none, sidecars⟩

def HoldsKey (file : Option File) (content : Bytes) : Prop :=
  file.map (·.content) = some content ∧ CompleteKey content

def NamesKeyPath (keyPath : Text) (base : Json) : Prop :=
  base.getStr "PrivateKeyPath".toList = some keyPath

-- no key is written once a sidecar runs, and none is launched without a complete key
def PhaseOk (keyPath : Text) (file : Option File) (sidecars : List Sidecar) : Spawning → Prop
  | .creatingDir | .generating | .spawned _ | .refused _ => True
  | .checking base | .loading base => NamesKeyPath keyPath base
  | .writingKey base key stage opened =>
    NamesKeyPath keyPath base ∧ sidecars = [] ∧ TextWriting (toUtf8 key.key) ⟨stage, file, opened⟩
  | .writingConf base _ _ | .launching base =>
    NamesKeyPath keyPath base ∧ ∃ content, HoldsKey file content

structure SameKey (file : Option File) (sidecars : List Sidecar) : Prop where
  holds : ∀ sidecar ∈ sidecars, ∃ content, HoldsKey file content ∧ sidecar.key = some content

structure Stable (stateDir : Text) (s : Host) : Prop where
  same : SameKey s.dir.key s.sidecars
  phase : ∀ start phase, s.running = some (start, phase) → start.config.stateDir = stateDir ∧
    PhaseOk (joinPath stateDir nodeKeyFile) s.dir.key s.sidecars phase

theorem SameKey.nil (file : Option File) : SameKey file [] := ⟨nofun⟩

theorem SameKey.none_of_absent {sidecars : List Sidecar} (h : SameKey none sidecars) :
    sidecars = [] := by
  cases sidecars with
  | nil => rfl
  | cons sidecar rest =>
    obtain ⟨content, hholds, _⟩ := h.holds sidecar List.mem_cons_self
    cases hholds.1

section
variable {start : Start} {dir dir' : StateDir} {phase phase' : Spawning} {sidecars : List Sidecar}
  (hsame : SameKey dir.key sidecars)
  (hok : PhaseOk start.config.keyPath dir.key sidecars phase)
include hsame hok

theorem SpawnStep.stable (hstep : SpawnStep truthfulStat start (phase, dir) (phase', dir')) :
    SameKey dir'.key (sidecars ++ launched start.config.keyPath dir' phase') ∧
      PhaseOk start.config.keyPath dir'.key
        (sidecars ++ launched start.config.keyPath dir' phase') phase' := by
  have hkept : SameKey dir.key (sidecars ++ []) := (List.append_nil sidecars).symm ▸ hsame
  cases hstep with
  | createDir => exact ⟨hkept, trivial⟩
  | generate dir base h => exact ⟨hkept, generated_keyPath h⟩
  | generateFails dir error h => exact ⟨hkept, trivial⟩
  | found dir base hstat => exact ⟨hkept, hok⟩
  | absent dir base key hstat h =>
    have hnone := truthfulStat_false hstat
    rw [hnone] at hsame
    obtain rfl := hsame.none_of_absent
    exact ⟨.nil _, hok, rfl, rfl⟩
  | absentFails dir base error hstat h => exact ⟨hkept, trivial⟩
  | load dir base file key hfile h =>
    have hcontent : dir.key.map (·.content) = some file.content := by rw [hfile]; rfl
    exact ⟨hkept, hok, file.content, hcontent, loadKey_ok h⟩
  | loadFails dir base file error hfile h => exact ⟨hkept, trivial⟩
  | writeKey dir base key stage stage' opened opened' file' h =>
    obtain ⟨hpath, rfl, hwriting⟩ := hok
    exact ⟨.nil _, hpath, rfl, hwriting.step h⟩
  | keyWritten dir base key opened =>
    obtain ⟨hpath, rfl, hwriting⟩ := hok
    have hcontent : dir.key.map (·.content) = some (toUtf8 key.key) := by rw [hwriting]; rfl
    exact ⟨.nil _, hpath, _, hcontent, key.complete⟩
  | writeConf dir base stage stage' opened opened' file' h => exact ⟨hkept, hok⟩
  | confWritten dir base opened => exact ⟨hkept, hok⟩
  | launch dir base =>
    obtain ⟨hpath, content, hholds⟩ := hok
    refine ⟨⟨fun sidecar hin => ?_⟩, trivial⟩
    rcases List.mem_append.mp hin with hin | hin
    · exact hsame.holds sidecar hin
    · obtain rfl := List.mem_singleton.mp hin
      refine ⟨content, hholds, ?_⟩
      rw [sidecarKey, hpath]
      exact (if_pos rfl).trans hholds.1

theorem FaultySpawn.stable (hstep : FaultySpawn truthfulStat start (phase, dir) (phase', dir')) :
    SameKey dir'.key (sidecars ++ launched start.config.keyPath dir' phase') ∧
      PhaseOk start.config.keyPath dir'.key
        (sidecars ++ launched start.config.keyPath dir' phase') phase' := by
  cases hstep with
  | step hstep => exact hstep.stable hsame hok
  | fail kind hrunning =>
    have hkept : SameKey dir.key (sidecars ++ []) := (List.append_nil sidecars).symm ▸ hsame
    exact ⟨hkept, trivial⟩

end

theorem Stable.step {stateDir : Text} {s s' : Host} (h : Stable stateDir s)
    (hstep : HostStep truthfulStat stateDir s s') : Stable stateDir s' := by
  cases hstep with
  | begin dir sidecars start hdir =>
    refine ⟨h.same, fun start' phase hrunning => ?_⟩
    obtain ⟨rfl, rfl⟩ := Prod.ext_iff.mp (Option.some.inj hrunning)
    exact ⟨hdir, trivial⟩
  | step dir dir' sidecars start phase phase' hspawn =>
    obtain ⟨hdir, hok⟩ := h.phase start phase rfl
    have hpath : joinPath stateDir nodeKeyFile = start.config.keyPath := by rw [← hdir]; rfl
    rw [hpath] at hok
    have hnext := hspawn.stable h.same hok
    rw [← hpath] at hnext
    refine ⟨hnext.1, fun start' phase'' hrunning => ?_⟩
    obtain ⟨rfl, rfl⟩ := Prod.ext_iff.mp (Option.some.inj hrunning)
    exact ⟨hdir, hnext.2⟩
  | stop dir sidecars start phase => exact ⟨h.same, fun _ _ hnone => by cases hnone⟩

theorem HostStep.sidecars_grow {stat : Stat} {stateDir : Text} {s s' : Host}
    (h : HostStep stat stateDir s s') : s.sidecars <+: s'.sidecars := by
  cases h with
  | begin dir sidecars start hdir => exact List.prefix_rfl
  | step dir dir' sidecars start phase phase' h => exact List.prefix_append _ _
  | stop dir sidecars start phase => exact List.prefix_rfl

theorem sidecars_grow {stat : Stat} {stateDir : Text} {s s' : Host}
    (h : Reachable (HostStep stat stateDir) s s') : s.sidecars <+: s'.sidecars := by
  induction h with
  | refl => exact List.prefix_rfl
  | tail _ hlast ih => exact ih.trans (HostStep.sidecars_grow hlast)

def emptyHost (dir : StateDir) : Host := ⟨dir, none, []⟩

-- every sidecar runs with the complete key in node.key, which does not change from then on
def KeepsIdentity (stat : Stat) (stateDir : Text) : Prop :=
  ∀ dir s, Reachable (HostStep stat stateDir) (emptyHost dir) s →
    (∀ sidecar ∈ s.sidecars, ∃ content, HoldsKey s.dir.key content ∧ sidecar.key = some content) ∧
    ∀ s', Reachable (HostStep stat stateDir) s s' → s.sidecars ≠ [] →
      s'.dir.key.map (·.content) = s.dir.key.map (·.content)

theorem stable_reachable {stateDir : Text} {dir : StateDir} {s : Host}
    (h : Reachable (HostStep truthfulStat stateDir) (emptyHost dir) s) : Stable stateDir s :=
  h.invariant (fun hs hstep => hs.step hstep) ⟨.nil _, fun _ _ hnone => by cases hnone⟩

theorem keepsIdentity_truthful (stateDir : Text) : KeepsIdentity truthfulStat stateDir := by
  intro dir s hrun
  have hstable := stable_reachable hrun
  refine ⟨hstable.same.holds, fun s' hlater hsome => ?_⟩
  have hstable' := stable_reachable (hrun.trans hlater)
  obtain ⟨sidecar, hin⟩ := List.exists_mem_of_ne_nil _ hsome
  have hgrown := (sidecars_grow hlater).subset
  obtain ⟨content, hholds, hkey⟩ := hstable.same.holds sidecar hin
  obtain ⟨content', hholds', hkey'⟩ := hstable'.same.holds sidecar (hgrown hin)
  rw [hholds.1, hholds'.1, ← hkey, hkey']

theorem write_completes (umask : Mode) (text : Bytes) (prior : Option File) :
    Reachable (WriteStep umask text) (startWrite prior) ⟨.written, some ⟨ownerMode, text⟩, true⟩ := by
  have hcreate : Reachable (WriteStep umask text) (startWrite prior)
      ⟨.writing text, some ⟨openMode umask prior, []⟩, true⟩ := (Reachable.refl _).tail (.create prior)
  have hwritten : Reachable (WriteStep umask text) (startWrite prior)
      ⟨.writing [], some ⟨openMode umask prior, text⟩, true⟩ := by
    cases text with
    | nil => exact hcreate
    | cons byte rest =>
      have hsplit : WriteStage.writing (byte :: rest) = .writing (byte :: rest ++ []) := by
        rw [List.append_nil]
      rw [hsplit] at hcreate
      exact hcreate.tail (.write _ [] _ true (List.cons_ne_nil byte rest))
  exact (hwritten.tail (.flush _ _)).tail (.restrict _ _)

theorem key_written {stat : Stat} {start : Start} (dir : StateDir) (base : Json) (key : PublicKeyHex) :
    Reachable (SpawnStep stat start) (.writingKey base key .creating false, dir)
      (.writingKey base key .written true, { dir with key := some ⟨ownerMode, toUtf8 key.key⟩ }) := by
  let at_ (w : WriteState) : Spawning × StateDir :=
    (.writingKey base key w.stage w.opened, { dir with key := w.file })
  have hstep : ∀ w w', WriteStep start.umask (toUtf8 key.key) w w' →
      SpawnStep stat start (at_ w) (at_ w') :=
    fun w w' h => .writeKey { dir with key := w.file } base key w.stage w'.stage w.opened w'.opened _ h
  exact Relation.ReflTransGen.lift at_ hstep _ _ (write_completes start.umask (toUtf8 key.key) dir.key)

theorem conf_written {stat : Stat} {start : Start} (dir : StateDir) (base : Json) :
    Reachable (SpawnStep stat start) (.writingConf base .creating false, dir)
      (.writingConf base .written true,
        { dir with conf := some ⟨ownerMode, toUtf8 (start.render base)⟩ }) := by
  let at_ (w : WriteState) : Spawning × StateDir :=
    (.writingConf base w.stage w.opened, { dir with conf := w.file })
  have hstep : ∀ w w', WriteStep start.umask (toUtf8 (start.render base)) w w' →
      SpawnStep stat start (at_ w) (at_ w') :=
    fun w w' h => .writeConf { dir with conf := w.file } base w.stage w'.stage w.opened w'.opened _ h
  exact Relation.ReflTransGen.lift at_ hstep _ _
    (write_completes start.umask (toUtf8 (start.render base)) dir.conf)

def writtenDir (start : Start) (base : Json) (key : PublicKeyHex) : StateDir :=
  ⟨true, some ⟨ownerMode, toUtf8 key.key⟩, some ⟨ownerMode, toUtf8 (start.render base)⟩⟩

-- a start whose existence check misses a key replaces it
theorem launches_generated {start : Start} {base : Json} {key : PublicKeyHex} (dir : StateDir)
    (hbase : generateConfig start.config.yggdrasilBinary start.output start.config.nodeSettings =
      .ok base) (hkey : generatedKey start.config.yggdrasilBinary base = .ok key) :
    Reachable (SpawnStep anyStat start) (.creatingDir, dir)
      (.launching base, writtenDir start base key) := by
  have hmissed : Reachable (SpawnStep anyStat start) (.creatingDir, dir)
      (.writingKey base key .creating false, { dir with present := true }) :=
    (((Reachable.refl _).tail (.createDir dir)).tail (.generate _ base hbase)).tail
      (.absent _ base key nofun hkey)
  have hkeyed := (hmissed.trans (key_written _ base key)).tail (.keyWritten _ base key true)
  have hconf := hkeyed.trans (conf_written _ base)
  exact hconf.tail (.confWritten _ base true)

theorem host_reaches {stat : Stat} {stateDir : Text} {start : Start} {s s' : Spawning × StateDir}
    (h : Reachable (SpawnStep stat start) s s') (sidecars : List Sidecar) :
    ∃ sidecars', Reachable (HostStep stat stateDir) ⟨s.2, some (start, s.1), sidecars⟩
      ⟨s'.2, some (start, s'.1), sidecars'⟩ := by
  induction h with
  | refl => exact ⟨sidecars, .refl _⟩
  | @tail mid last _ hlast ih =>
    obtain ⟨sidecars', hmid⟩ := ih
    exact ⟨_, hmid.tail (.step mid.2 last.2 sidecars' start mid.1 last.1 (.step hlast))⟩

theorem start_replaces_key {start : Start} {base : Json} {key : PublicKeyHex} (dir : StateDir)
    (sidecars : List Sidecar)
    (hbase : generateConfig start.config.yggdrasilBinary start.output start.config.nodeSettings =
      .ok base) (hkey : generatedKey start.config.yggdrasilBinary base = .ok key) :
    ∃ sidecars', sidecars' ≠ [] ∧ Reachable (HostStep anyStat start.config.stateDir)
      ⟨dir, none, sidecars⟩ ⟨writtenDir start base key, none, sidecars'⟩ := by
  obtain ⟨before, hlaunching⟩ := @host_reaches _ start.config.stateDir _ _ _
    (launches_generated dir hbase hkey) sidecars
  have hrun := ((Reachable.refl _).tail (.begin dir sidecars start rfl)).trans hlaunching
  refine ⟨_, ?_, (hrun.tail (.step _ _ before start _ _ (.step (.launch _ base)))).tail (.stop _ _ _ _)⟩
  simp [launched]

theorem not_keepsIdentity {first second : Start} {base base' : Json} {key key' : PublicKeyHex}
    (hdir : second.config.stateDir = first.config.stateDir)
    (hbase : generateConfig first.config.yggdrasilBinary first.output first.config.nodeSettings =
      .ok base) (hkey : generatedKey first.config.yggdrasilBinary base = .ok key)
    (hbase' : generateConfig second.config.yggdrasilBinary second.output second.config.nodeSettings =
      .ok base') (hkey' : generatedKey second.config.yggdrasilBinary base' = .ok key')
    (hne : key.key ≠ key'.key) : ¬KeepsIdentity anyStat first.config.stateDir := by
  intro hkeeps
  obtain ⟨sidecars, hsome, hfirst⟩ := start_replaces_key ⟨false, none, none⟩ [] hbase hkey
  obtain ⟨sidecars', _, hsecond⟩ := start_replaces_key (writtenDir first base key) sidecars hbase' hkey'
  rw [hdir] at hsecond
  have hsame := (hkeeps _ _ hfirst).2 _ hsecond hsome
  have hbytes : toUtf8 key'.key = toUtf8 key.key := Option.some.inj hsame
  have htext : some key'.key = some key.key := by
    rw [← fromUtf8_toUtf8, hbytes, fromUtf8_toUtf8]
  exact hne (Option.some.inj htext).symm

def sampleConfig : ValidatedDaemonConfig :=
  { adminEndpoint := .tcp "localhost".toList 9001
    stateDir := "state".toList
    manage := true
    yggdrasilBinary := "yggdrasil".toList
    peers := []
    listen := []
    allowedKeys := []
    noMulticast := true
    ifName := .auto
    exit := none }

def sampleStart (digit : Char) : Start :=
  { config := sampleConfig
    umask := 0o022
    output := .printed (.ok (.obj [("PrivateKey".toList, .str (List.replicate 64 digit))]))
    render := fun _ => [] }

-- the second start cannot look at node.key, takes it for missing and replaces it
theorem keepsIdentity_anyStat_fails : ¬KeepsIdentity anyStat "state".toList :=
  @not_keepsIdentity (sampleStart 'a') (sampleStart 'b') _ _ ⟨List.replicate 64 'a', by decide⟩
    ⟨List.replicate 64 'b', by decide⟩ rfl rfl rfl rfl rfl (by decide)

end SpiderNet.Node
