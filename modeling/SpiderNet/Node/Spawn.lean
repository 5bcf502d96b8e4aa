import SpiderNet.Node.DaemonConfig
import SpiderNet.Node.OwnerOnly

namespace SpiderNet.Node
open Exit Transition

structure StateDir where
  present : Bool
  key : Option File
  conf : Option File

-- where `spawn_sidecar` stands; `base` is the generated config with the settings patched in
inductive Spawning where
  | creatingDir
  | generating
  | checking (base : Json)
  | loading (base : Json)
  | writingKey (base : Json) (key : PublicKeyHex) (stage : WriteStage) (opened : Bool)
  | writingConf (base : Json) (stage : WriteStage) (opened : Bool)
  | launching (base : Json)
  | spawned (base : Json)
  | refused (error : NodeError)

def Spawning.Ended : Spawning → Prop
  | .spawned _ | .refused _ => True
  | _ => False

def existingKeyError (path : Text) (error : NodeError) : NodeError :=
  .daemonConfig ("existing node key " ++ .ofList path ++ " is invalid (" ++ error.display ++
    "); the node identity must stay stable, so it is not regenerated")

def loadKey (path : Text) (content : Bytes) : Except NodeError PublicKeyHex :=
  match fromUtf8 content with
  | none => .error (.io .other)
  | some existing =>
    match PublicKeyHex.parse (trim existing) with
    | .error error => .error (existingKeyError path error)
    | .ok key => .ok key

def generatedKey (binary : Text) (base : Json) : Except NodeError PublicKeyHex :=
  match base.getStr "PrivateKey".toList with
  | none =>
    .error (.daemonConfig ("`" ++ .ofList binary ++ " -genconf -json` output has no `PrivateKey` field"))
  | some generated =>
    match PublicKeyHex.parse generated with
    | .error error => .error (.daemonConfig ("generated node key: " ++ error.display))
    | .ok key => .ok key

-- one start: its config, the umask of the process, what the binary prints, how JSON is rendered
structure Start where
  config : ValidatedDaemonConfig
  umask : Mode
  output : Genconf
  render : Json → Text

abbrev Stat := Option File → Bool → Prop

-- a check that cannot read the directory entry answers that there is no file
def anyStat : Stat := fun file answer => answer = true → file.isSome

def truthfulStat : Stat := fun file answer => answer = file.isSome

inductive SpawnStep (stat : Stat) (start : Start) : Spawning × StateDir → Spawning × StateDir → Prop
  | createDir (dir : StateDir) :
      SpawnStep stat start (.creatingDir, dir) (.generating, { dir with present := true })
  | generate (dir : StateDir) (base : Json)
      (h : generateConfig start.config.yggdrasilBinary start.output start.config.nodeSettings = .ok base) :
      SpawnStep stat start (.generating, dir) (.checking base, dir)
  | generateFails (dir : StateDir) (error : NodeError)
      (h : generateConfig start.config.yggdrasilBinary start.output start.config.nodeSettings =
        .error error) :
      SpawnStep stat start (.generating, dir) (.refused error, dir)
  | found (dir : StateDir) (base : Json) (hstat : stat dir.key true) :
      SpawnStep stat start (.checking base, dir) (.loading base, dir)
  | absent (dir : StateDir) (base : Json) (key : PublicKeyHex) (hstat : stat dir.key false)
      (h : generatedKey start.config.yggdrasilBinary base = .ok key) :
      SpawnStep stat start (.checking base, dir) (.writingKey base key .creating false, dir)
  | absentFails (dir : StateDir) (base : Json) (error : NodeError) (hstat : stat dir.key false)
      (h : generatedKey start.config.yggdrasilBinary base = .error error) :
      SpawnStep stat start (.checking base, dir) (.refused error, dir)
  | load (dir : StateDir) (base : Json) (file : File) (key : PublicKeyHex) (hfile : dir.key = some file)
      (h : loadKey start.config.keyPath file.content = .ok key) :
      SpawnStep stat start (.loading base, dir) (.writingConf base .creating false, dir)
  | loadFails (dir : StateDir) (base : Json) (file : File) (error : NodeError)
      (hfile : dir.key = some file) (h : loadKey start.config.keyPath file.content = .error error) :
      SpawnStep stat start (.loading base, dir) (.refused error, dir)
  | writeKey (dir : StateDir) (base : Json) (key : PublicKeyHex) (stage stage' : WriteStage)
      (opened opened' : Bool) (file' : Option File)
      (h : WriteStep start.umask (toUtf8 key.key) ⟨stage, dir.key, opened⟩ ⟨stage', file', opened'⟩) :
      SpawnStep stat start (.writingKey base key stage opened, dir)
        (.writingKey base key stage' opened', { dir with key := file' })
  | keyWritten (dir : StateDir) (base : Json) (key : PublicKeyHex) (opened : Bool) :
      SpawnStep stat start (.writingKey base key .written opened, dir)
        (.writingConf base .creating false, dir)
  | writeConf (dir : StateDir) (base : Json) (stage stage' : WriteStage) (opened opened' : Bool)
      (file' : Option File)
      (h : WriteStep start.umask (toUtf8 (start.render base)) ⟨stage, dir.conf, opened⟩
        ⟨stage', file', opened'⟩) :
      SpawnStep stat start (.writingConf base stage opened, dir)
        (.writingConf base stage' opened', { dir with conf := file' })
  | confWritten (dir : StateDir) (base : Json) (opened : Bool) :
      SpawnStep stat start (.writingConf base .written opened, dir) (.launching base, dir)
  | launch (dir : StateDir) (base : Json) :
      SpawnStep stat start (.launching base, dir) (.spawned base, dir)

-- any call may also fail with an I/O error
inductive FaultySpawn (stat : Stat) (start : Start) :
    Spawning × StateDir → Spawning × StateDir → Prop
  | step {s s' : Spawning × StateDir} (h : SpawnStep stat start s s') : FaultySpawn stat start s s'
  | fail (phase : Spawning) (dir : StateDir) (kind : IoErrorKind) (hrunning : ¬phase.Ended) :
      FaultySpawn stat start (phase, dir) (.refused (.io kind), dir)

theorem truthfulStat_false {file : Option File} (h : truthfulStat file false) : file = none :=
  Option.isNone_iff_eq_none.mp (by simpa using h.symm)

theorem lookup_patches (patches : List (Text × Json)) (fields : List (Text × Json)) (name : Text)
    (value : Json) : Json.lookup name ((patches ++ [(name, value)]).foldl
      (fun acc patch => Json.insertField patch.1 patch.2 acc) fields) = some value := by
  rw [List.foldl_append, List.foldl_cons, List.foldl_nil, Json.lookup_insertField, if_pos rfl]

theorem generated_keyPath {config : ValidatedDaemonConfig} {output : Genconf} {base : Json}
    (h : generateConfig config.yggdrasilBinary output config.nodeSettings = .ok base) :
    base.getStr "PrivateKeyPath".toList = some config.keyPath := by
  cases output with
  | notRun kind => cases h
  | failed stderr => cases h
  | printed stdout =>
    cases stdout with
    | error reason => cases h
    | ok json =>
      rw [generateConfig, applyToBaseConfig] at h
      cases hobject : json.asObject with
      | none => simp [hobject] at h
      | some fields =>
        simp only [hobject] at h
        obtain rfl := Except.ok.inj h
        rw [Json.getStr, Json.get, Json.asObject, Option.bind_some, patches]
        simp only [ValidatedDaemonConfig.nodeSettings, Option.map_some, Option.toList_some]
        rw [lookup_patches]
        rfl

end SpiderNet.Node
