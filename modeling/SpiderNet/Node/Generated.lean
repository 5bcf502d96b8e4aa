import SpiderNet.Node.Endpoint
import SpiderNet.Node.Faults

namespace SpiderNet.Node
open Exit Transition

-- the fields of the base config that settings may replace
def managedFields : List Text :=
  ["Peers", "Listen", "MulticastInterfaces", "AdminListen", "IfName", "AllowedPublicKeys",
    "PrivateKeyPath"].map String.toList

namespace Json

theorem lookup_eq_none {name : Text} {fields : List (Text × Json)}
    (h : name ∉ fields.map Prod.fst) : lookup name fields = none := by
  induction fields with
  | nil => rfl
  | cons field rest ih =>
    rw [List.map_cons, List.mem_cons, not_or] at h
    rw [lookup, if_neg (Ne.symm h.1), ih h.2]

-- the fields that are set, as a list of all that may be
def present (fields : List (Text × Option Json)) : List (Text × Json) :=
  fields.flatMap fun field => (field.2.map fun value => (field.1, value)).toList

theorem present_names (fields : List (Text × Option Json)) :
    ((present fields).map Prod.fst).Sublist (fields.map Prod.fst) := by
  induction fields with
  | nil => exact List.Sublist.refl _
  | cons field rest ih =>
    rw [present, List.flatMap_cons, List.map_append, List.map_cons]
    rcases field with ⟨name, _ | value⟩
    · exact ih.cons name
    · exact ih.cons_cons name

theorem lookup_present {name : Text} {value : Option Json} {fields : List (Text × Option Json)}
    (hnodup : (fields.map Prod.fst).Nodup) (hin : (name, value) ∈ fields) :
    lookup name (present fields) = value := by
  induction fields with
  | nil => cases hin
  | cons field rest ih =>
    rw [List.map_cons, List.nodup_cons] at hnodup
    rw [present, List.flatMap_cons]
    rcases List.mem_cons.mp hin with rfl | hrest
    · rcases value with _ | value
      · exact lookup_eq_none fun hname => hnodup.1 ((present_names rest).subset hname)
      · rw [Option.map_some, Option.toList_some, List.singleton_append, lookup, if_pos rfl]
    · have hother : field.1 ≠ name := fun hsame => hnodup.1 (hsame ▸ List.mem_map_of_mem hrest)
      rcases field with ⟨other, _ | given⟩
      · exact ih hnodup.2 hrest
      · rw [Option.map_some, Option.toList_some, List.singleton_append, lookup, if_neg hother]
        exact ih hnodup.2 hrest

-- the later of two insertions under one name would win; here the names differ
theorem lookup_insertFields {inserted : List (Text × Json)} (hnodup : (inserted.map Prod.fst).Nodup)
    (name : Text) (fields : List (Text × Json)) :
    lookup name (inserted.foldl (fun acc patch => insertField patch.1 patch.2 acc) fields) =
      (lookup name inserted).or (lookup name fields) := by
  induction inserted generalizing fields with
  | nil => rfl
  | cons patch rest ih =>
    rw [List.map_cons, List.nodup_cons] at hnodup
    rw [List.foldl_cons, ih hnodup.2, lookup_insertField, lookup]
    split_ifs with hname
    · rw [lookup_eq_none (hname ▸ hnodup.1)]
      rfl
    · rfl

end Json

def settingFields (settings : NodeSettings) : List (Text × Option Json) :=
  [("Peers".toList,
      if settings.peers ≠ [] then some (textList (settings.peers.map (·.uri))) else none),
    ("Listen".toList,
      if settings.listen ≠ [] then some (textList (settings.listen.map (·.uri))) else none),
    ("MulticastInterfaces".toList,
      match settings.multicast with
      | none | some .platformDefault => none
      | some .disabled => some (.arr [])
      | some (.interfaces entries) => some (.arr (entries.map MulticastInterface.entry))),
    ("AdminListen".toList, settings.adminListen.map fun endpoint => .str endpoint.configValue),
    ("IfName".toList, settings.ifName.map fun name => .str name.value),
    ("AllowedPublicKeys".toList,
      if settings.allowedPublicKeys ≠ [] then
        some (textList (settings.allowedPublicKeys.map (·.key)))
      else none),
    ("PrivateKeyPath".toList, settings.privateKeyPath.map .str)]

theorem settingFields_names (settings : NodeSettings) :
    (settingFields settings).map Prod.fst = managedFields := rfl

theorem settingFields_nodup (settings : NodeSettings) :
    ((settingFields settings).map Prod.fst).Nodup := by
  rw [settingFields_names]
  decide

theorem patches_eq (settings : NodeSettings) :
    patches settings = Json.present (settingFields settings) := by
  have hif : ∀ {p : Prop} [Decidable p] (name : Text) (value : Json), ((if p then some value else none).map
      fun value => (name, value)).toList = if p then [(name, value)] else [] := by
    intro p _ name value
    split_ifs <;> rfl
  rw [patches, Json.present, settingFields]
  simp only [List.flatMap_cons, List.flatMap_nil, List.append_nil, List.append_assoc, hif,
    Option.map_map]
  rcases settings.multicast with _ | _ | _ | entries <;> rfl

-- what was read once and is rendered reads back as itself
def Rereads {α : Type} (parse : Text → Except NodeError α) (render : α → Text) : Prop :=
  ∀ input value, parse input = .ok value → parse (render value) = .ok value

theorem validateScheme_ok {input uri : Text} {kind kind' : UriKind}
    (h : validateScheme input kind = .ok uri) :
    uri = trim input ∧ validateScheme uri kind' = .ok uri := by
  rw [validateScheme] at h
  cases hscheme : peerSchemes.find? fun scheme => scheme.isPrefixOf (trim input) with
  | none => simp [hscheme] at h
  | some scheme =>
    simp only [hscheme] at h
    split_ifs at h with hlong
    obtain rfl := Except.ok.inj h
    refine ⟨rfl, ?_⟩
    rw [validateScheme]
    simp only [trim_trim, hscheme]
    rw [if_pos hlong]

theorem peerUri_rereads : Rereads PeerUri.parse PeerUri.uri := by
  intro input peer h
  obtain ⟨uri, huri, hpeer⟩ := bind_eq_ok.mp h
  obtain rfl := Except.ok.inj hpeer
  rw [PeerUri.parse, (validateScheme_ok huri).2]
  rfl

theorem listenUri_rereads : Rereads ListenUri.parse ListenUri.uri := by
  intro input listen h
  rw [ListenUri.parse] at h
  split_ifs at h with hsocks
  obtain ⟨uri, huri, hlisten⟩ := bind_eq_ok.mp h
  obtain rfl := Except.ok.inj hlisten
  obtain ⟨rfl, hagain⟩ := @validateScheme_ok _ _ _ .listen huri
  rw [trim_trim] at hagain ⊢
  rw [ListenUri.parse, trim_trim, if_neg hsocks, hagain]
  rfl

theorem toLower_toLower (c : Char) : c.toLower.toLower = c.toLower := by
  by_cases h : c.val ≥ 'A'.val ∧ c.val ≤ 'Z'.val
  · have hval : c.toLower.val = c.val + ('a'.val - 'A'.val) := congrArg Char.val (dif_pos h)
    have hupper : ¬(c.toLower.val ≥ 'A'.val ∧ c.toLower.val ≤ 'Z'.val) := by
      have hA : 'A'.val.toNat = 65 := rfl
      have hZ : 'Z'.val.toNat = 90 := rfl
      have ha : 'a'.val.toNat = 97 := rfl
      rw [hval]
      simp only [ge_iff_le, UInt32.le_iff_toNat_le, UInt32.toNat_add, UInt32.toNat_sub] at h ⊢
      omega
    exact dif_neg hupper
  · have hkept : c.toLower = c := dif_neg h
    rw [hkept, hkept]

theorem keyText_keyText {input : Text} (h : ValidKey (keyText input)) :
    keyText (keyText input) = keyText input := by
  have hclean : ∀ c ∈ keyText input, isWhitespace c = false :=
    fun c hc => (hexDigits_clean (mem_hexDigits (List.all_eq_true.mp h.2 c hc))).2
  have hlower : (keyText input).map Char.toLower = keyText input := by
    rw [keyText, List.map_map]
    exact List.map_congr_left fun c _ => toLower_toLower c
  calc keyText (keyText input) = (keyText input).map Char.toLower := by rw [keyText, trim_clean hclean]
    _ = keyText input := hlower

theorem publicKeyHex_rereads : Rereads PublicKeyHex.parse PublicKeyHex.key := by
  intro input key h
  rw [PublicKeyHex.parse] at h
  split_ifs at h with hvalid
  obtain rfl := Except.ok.inj h
  have hsame := keyText_keyText hvalid
  have hagain : ValidKey (keyText (keyText input)) := hsame.symm ▸ hvalid
  rw [PublicKeyHex.parse, dif_pos hagain]
  simp only [hsame]

theorem adminEndpoint_rereads : Rereads AdminEndpoint.parse AdminEndpoint.configValue :=
  fun _ _ h => AdminEndpoint.parse_configValue (AdminEndpoint.readable_of_parse h)

theorem ifName_rereads : Rereads parseIfname IfName.value := by
  intro input name h
  rw [parseIfname] at h
  split_ifs at h with hauto hnone hsome <;> obtain rfl := Except.ok.inj h
  · rfl
  · rfl
  · rw [IfName.value, parseIfname, trim_trim, if_neg hauto, if_neg hnone, if_pos hsome]

theorem Rereads.mapM {α : Type} {parse : Text → Except NodeError α} {render : α → Text}
    (hreads : Rereads parse render) {inputs : List Text} {values : List α}
    (h : List.Forall₂ (fun input value => parse input = .ok value) inputs values) :
    (values.map render).mapM parse = .ok values := by
  induction h with
  | nil => rfl
  | @cons input value inputs values hvalue _ ih =>
    rw [List.map_cons, List.mapM_cons, hreads input value hvalue, ok_bind, ih]
    rfl

-- a list that is not empty is in the config under `name`; an empty one leaves the base's field
def Listed {α : Type} (parse : Text → Except NodeError α) (values : List α) (name : String)
    (base conf : Json) : Prop :=
  (values = [] → conf.get name.toList = base.get name.toList) ∧
    (values ≠ [] → ∃ texts, conf.get name.toList = some (textList texts) ∧ texts.mapM parse = .ok values)

-- what a config generated from `base` holds, read with the parsers the daemon has for it
structure Configured (config : ValidatedDaemonConfig) (base conf : Json) : Prop where
  adminListen : ∃ text, conf.getStr "AdminListen".toList = some text ∧
    AdminEndpoint.parse text = .ok config.adminEndpoint
  ifName : ∃ text, conf.getStr "IfName".toList = some text ∧ parseIfname text = .ok config.ifName
  keyPath : conf.getStr "PrivateKeyPath".toList = some config.keyPath
  peers : Listed PeerUri.parse config.peers "Peers" base conf
  listen : Listed ListenUri.parse config.listen "Listen" base conf
  keys : Listed PublicKeyHex.parse config.allowedKeys "AllowedPublicKeys" base conf
  multicast : conf.get "MulticastInterfaces".toList =
    if config.noMulticast then some (.arr []) else base.get "MulticastInterfaces".toList
  kept : ∀ name, name ∉ managedFields → conf.get name = base.get name

section
variable {settings : NodeSettings} {base conf : Json}

theorem get_applied (h : applyToBaseConfig settings base = .ok conf) (name : Text) :
    conf.get name = (Json.lookup name (patches settings)).or (base.get name) := by
  have hnodup : ((patches settings).map Prod.fst).Nodup := by
    rw [patches_eq]
    exact (Json.present_names _).nodup (settingFields_nodup settings)
  rw [applyToBaseConfig] at h
  cases hobject : base.asObject with
  | none => simp [hobject] at h
  | some fields =>
    simp only [hobject] at h
    obtain rfl := Except.ok.inj h
    rw [Json.get, Json.get, hobject, Json.asObject, Option.bind_some, Option.bind_some,
      Json.lookup_insertFields hnodup]

theorem get_managed (h : applyToBaseConfig settings base = .ok conf) {name : Text}
    {value : Option Json} (hin : (name, value) ∈ settingFields settings) :
    conf.get name = value.or (base.get name) := by
  rw [get_applied h, patches_eq, Json.lookup_present (settingFields_nodup settings) hin]

theorem get_unmanaged (h : applyToBaseConfig settings base = .ok conf) {name : Text}
    (hname : name ∉ managedFields) : conf.get name = base.get name := by
  rw [get_applied h, patches_eq, Json.lookup_eq_none]
  · rfl
  · exact fun hin => hname ((Json.present_names _).subset hin)

theorem listed_of_rereads {α : Type} [DecidableEq α] {parse : Text → Except NodeError α}
    {render : α → Text} (hreads : Rereads parse render) {display : NodeError → String}
    {inputs : Option (List Text)} {what : String} {values : List α}
    (hvalues : parseEach display inputs what parse = .ok values) {name : String}
    (h : applyToBaseConfig settings base = .ok conf)
    (hin : (name.toList, if values ≠ [] then some (textList (values.map render)) else none) ∈
      settingFields settings) : Listed parse values name base conf := by
  have hget := get_managed h hin
  constructor
  · intro hnil
    rw [hget, if_neg (not_ne_iff.mpr hnil)]
    rfl
  · intro hsome
    rw [if_pos hsome] at hget
    exact ⟨_, hget, hreads.mapM (parseEntries_ok hvalues)⟩

end

theorem Validated.configured {raw : RawDaemonConfig} {config : ValidatedDaemonConfig}
    {base conf : Json} (hvalid : Validated raw config)
    (h : applyToBaseConfig config.nodeSettings base = .ok conf) : Configured config base conf where
  adminListen := by
    refine ⟨_, ?_, adminEndpoint_rereads _ _ (validateEndpoint_ok.mp hvalid.adminEndpoint)⟩
    rw [Json.getStr, get_managed h (List.mem_of_getElem? (i := 3) rfl)]
    rfl
  ifName := by
    refine ⟨_, ?_, ifName_rereads _ _ (validateIfname_ok.mp hvalid.ifName)⟩
    rw [Json.getStr, get_managed h (List.mem_of_getElem? (i := 4) rfl)]
    rfl
  keyPath := by
    rw [Json.getStr, get_managed h (List.mem_of_getElem? (i := 6) rfl)]
    rfl
  peers := listed_of_rereads peerUri_rereads hvalid.peers h (List.mem_of_getElem? (i := 0) rfl)
  listen := listed_of_rereads listenUri_rereads hvalid.listen h (List.mem_of_getElem? (i := 1) rfl)
  keys := listed_of_rereads publicKeyHex_rereads hvalid.keys h (List.mem_of_getElem? (i := 5) rfl)
  multicast := by
    rw [get_managed h (List.mem_of_getElem? (i := 2) rfl), ValidatedDaemonConfig.nodeSettings]
    cases config.noMulticast <;> rfl
  kept name hname := get_unmanaged h hname

def Generates (start : Start) (conf : Json) : Prop :=
  generateConfig start.config.yggdrasilBinary start.output start.config.nodeSettings = .ok conf

-- what `spawn_sidecar` has established by the time it is in a phase
def Prepared (start : Start) (dir : StateDir) : Spawning → Prop
  | .creatingDir | .generating | .refused _ => True
  | .checking conf | .loading conf => Generates start conf
  | .writingKey conf key stage opened =>
    Generates start conf ∧ TextWriting (toUtf8 key.key) ⟨stage, dir.key, opened⟩
  | .writingConf conf stage opened => Generates start conf ∧ (∃ content, HoldsKey dir.key content) ∧
      TextWriting (toUtf8 (start.render conf)) ⟨stage, dir.conf, opened⟩
  | .launching conf | .spawned conf => Generates start conf ∧ (∃ content, HoldsKey dir.key content) ∧
      dir.conf = some ⟨ownerMode, toUtf8 (start.render conf)⟩

theorem SpawnStep.prepared {stat : Stat} {start : Start} {s s' : Spawning × StateDir}
    (hs : Prepared start s.2 s.1) (hstep : SpawnStep stat start s s') : Prepared start s'.2 s'.1 := by
  cases hstep with
  | createDir dir => trivial
  | generate dir base h => exact h
  | generateFails dir error h => trivial
  | found dir base hstat => exact hs
  | absent dir base key hstat h => exact ⟨hs, rfl⟩
  | absentFails dir base error hstat h => trivial
  | load dir base file key hfile h =>
    have hcontent : dir.key.map (·.content) = some file.content := by rw [hfile]; rfl
    exact ⟨hs, ⟨file.content, hcontent, loadKey_ok h⟩, rfl⟩
  | loadFails dir base file error hfile h => trivial
  | writeKey dir base key stage stage' opened opened' file' h => exact ⟨hs.1, hs.2.step h⟩
  | keyWritten dir base key opened =>
    have hcontent : dir.key.map (·.content) = some (toUtf8 key.key) := by rw [hs.2]; rfl
    exact ⟨hs.1, ⟨_, hcontent, key.complete⟩, rfl⟩
  | writeConf dir base stage stage' opened opened' file' h => exact ⟨hs.1, hs.2.1, hs.2.2.step h⟩
  | confWritten dir base opened => exact hs
  | launch dir base => exact hs

theorem prepared_run {stat : Stat} {start : Start} {dir : StateDir} {s : Spawning × StateDir}
    (h : Reachable (FaultySpawn stat start) (.creatingDir, dir) s) : Prepared start s.2 s.1 := by
  induction h with
  | refl => trivial
  | tail _ hlast ih =>
    cases hlast with
    | step hstep => exact hstep.prepared ih
    | fail phase dir kind hrunning => trivial

theorem generates_base {start : Start} {conf : Json} (h : Generates start conf) :
    ∃ base, start.output = .printed (.ok base) ∧
      applyToBaseConfig start.config.nodeSettings base = .ok conf := by
  rw [Generates] at h
  rcases houtput : start.output with kind | stderr | reason | base
  · rw [houtput] at h
    cases h
  · rw [houtput] at h
    cases h
  · rw [houtput] at h
    cases h
  · rw [houtput] at h
    exact ⟨base, rfl, h⟩

-- what is on disk when the sidecar is launched with `conf`
structure Launched (start : Start) (conf : Json) (dir : StateDir) : Prop where
  configured : ∃ base, start.output = .printed (.ok base) ∧ Configured start.config base conf
  conf : dir.conf = some ⟨ownerMode, toUtf8 (start.render conf)⟩
  key : ∃ content, HoldsKey dir.key content

theorem spawn_sidecar_configured {raw : RawDaemonConfig} {start : Start} {dir left : StateDir}
    {conf : Json} (hvalid : validate raw = .ok start.config)
    (hrun : Reachable (FaultySpawn anyStat start) (.creatingDir, dir) (.spawned conf, left)) :
    Launched start conf left := by
  obtain ⟨hgenerated, hkey, hconf⟩ := prepared_run hrun
  obtain ⟨base, houtput, happlied⟩ := generates_base hgenerated
  exact ⟨⟨base, houtput, (validate_ok hvalid).configured happlied⟩, hconf, hkey⟩

def managedRaw : RawDaemonConfig :=
  { node := ⟨none, some "state".toList⟩
    yggdrasil := ⟨none, none, none, none, none, some true, none⟩
    exit := ⟨none, none, none, none, none, none⟩ }

theorem spawn_sidecar_configured_sample : ∃ conf left, Launched (sampleStart 'a') conf left := by
  have hlaunching := @launches_generated (sampleStart 'a') _ ⟨List.replicate 64 'a', by decide⟩
    ⟨false, none, none⟩ rfl rfl
  have hspawned := hlaunching.tail (.launch _ _)
  have hrun := Relation.ReflTransGen.mono (fun _ _ hstep => FaultySpawn.step hstep) _ _ hspawned
  exact ⟨_, _, @spawn_sidecar_configured managedRaw _ _ _ _ rfl hrun⟩

end SpiderNet.Node
