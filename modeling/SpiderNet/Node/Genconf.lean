import SpiderNet.Node.Generated
import SpiderNet.Node.Outcome

namespace SpiderNet.Node
open Exit Transition

structure GenconfArgs where
  peers : List Text
  listen : List Text
  admin : Text
  allowKey : List Text
  privateKeyPath : Option Text
  ifname : Text
  noMulticast : Bool
  yggdrasilBin : Text

def parseUris {α : Type} (inputs : List Text) (what : String) (parse : Text → Except NodeError α) :
    Except String (List α) :=
  inputs.mapM fun input => (parse input).mapError fun error => what ++ ": " ++ error.display

def genconfSettings (args : GenconfArgs) : Except String NodeSettings := do
  let peers ← parseUris args.peers "peer" PeerUri.parse
  let listen ← parseUris args.listen "listen" ListenUri.parse
  let adminListen ← (AdminEndpoint.parse args.admin).mapError NodeError.display
  let allowedPublicKeys ← args.allowKey.mapM fun key =>
    (PublicKeyHex.parse key).mapError NodeError.display
  let ifName ← (parseIfname args.ifname).mapError NodeError.display
  return {
    peers := peers
    listen := listen
    multicast := some (if args.noMulticast then .disabled else .platformDefault)
    adminListen := some adminListen
    ifName := some ifName
    allowedPublicKeys := allowedPublicKeys
    privateKeyPath := args.privateKeyPath }

-- `run_genconf` up to the config it writes
def runGenconf (args : GenconfArgs) (output : Genconf) : Except String Json := do
  let settings ← genconfSettings args
  (generateConfig args.yggdrasilBin output settings).mapError NodeError.display

-- the command line gives the overlay what the daemon's config gives it
structure SameValues (args : GenconfArgs) (raw : RawDaemonConfig) : Prop where
  peers : args.peers = raw.yggdrasil.peers.getD []
  listen : args.listen = raw.yggdrasil.listen.getD []
  admin : args.admin = raw.node.adminEndpoint.getD defaultAdminEndpoint
  allowKey : args.allowKey = raw.yggdrasil.allowKeys.getD []
  ifname : args.ifname = raw.yggdrasil.ifname.getD "auto".toList
  noMulticast : args.noMulticast = raw.yggdrasil.noMulticast.getD false
  binary : args.yggdrasilBin = raw.yggdrasil.binary.getD defaultYggdrasilBinary

theorem mapM_mapError {α ε ε' : Type} {parse : Text → Except ε α} {f : ε → ε'} {inputs : List Text}
    {values : List α} :
    (inputs.mapM fun input => (parse input).mapError f) = .ok values ↔
      List.Forall₂ (fun input value => parse input = .ok value) inputs values := by
  rw [mapM_ok_iff]
  simp only [mapError_eq_ok]

theorem parseEntries_ok_iff {α ε : Type} {display : ε → String} {what : String}
    {parse : Text → Except ε α} {inputs : List Text} {values : List α} :
    parseEntries display what parse inputs = .ok values ↔
      List.Forall₂ (fun input value => parse input = .ok value) inputs values := by
  refine ⟨parseEntries_ok, fun h => ?_⟩
  induction h with
  | nil => rfl
  | @cons input value inputs values hvalue _ ih =>
    rw [parseEntries, hvalue]
    simp only [ih]
    rfl

theorem genconfSettings_ok {args : GenconfArgs} {settings : NodeSettings} :
    genconfSettings args = .ok settings ↔ ∃ peers listen admin keys ifName,
      List.Forall₂ (fun input value => PeerUri.parse input = .ok value) args.peers peers ∧
      List.Forall₂ (fun input value => ListenUri.parse input = .ok value) args.listen listen ∧
      AdminEndpoint.parse args.admin = .ok admin ∧
      List.Forall₂ (fun input value => PublicKeyHex.parse input = .ok value) args.allowKey keys ∧
      parseIfname args.ifname = .ok ifName ∧
      settings = ⟨peers, listen, some (if args.noMulticast then .disabled else .platformDefault),
        some admin, some ifName, keys, args.privateKeyPath⟩ := by
  rw [genconfSettings]
  simp only [bind_eq_ok, parseUris, mapM_mapError, mapError_eq_ok]
  constructor
  · rintro ⟨peers, hpeers, listen, hlisten, admin, hadmin, keys, hkeys, ifName, hname, heq⟩
    exact ⟨peers, listen, admin, keys, ifName, hpeers, hlisten, hadmin, hkeys, hname,
      (Except.ok.inj heq).symm⟩
  · rintro ⟨peers, listen, admin, keys, ifName, hpeers, hlisten, hadmin, hkeys, hname, rfl⟩
    exact ⟨peers, hpeers, listen, hlisten, admin, hadmin, keys, hkeys, ifName, hname, rfl⟩

section
variable {args : GenconfArgs} {raw : RawDaemonConfig}

theorem genconfSettings_same (hsame : SameValues args raw) {settings : NodeSettings} :
    genconfSettings args = .ok settings ↔ ∃ peers listen admin keys ifName,
      parseEach NodeError.display raw.yggdrasil.peers "yggdrasil.peers" PeerUri.parse = .ok peers ∧
      parseEach NodeError.display raw.yggdrasil.listen "yggdrasil.listen" ListenUri.parse =
        .ok listen ∧
      validateEndpoint raw.node.adminEndpoint = .ok admin ∧
      parseEach NodeError.display raw.yggdrasil.allowKeys "yggdrasil.allow_keys" PublicKeyHex.parse =
        .ok keys ∧
      validateIfname raw.yggdrasil.ifname = .ok ifName ∧
      settings = ⟨peers, listen,
        some (if raw.yggdrasil.noMulticast.getD false then .disabled else .platformDefault),
        some admin, some ifName, keys, args.privateKeyPath⟩ := by
  rw [genconfSettings_ok, hsame.peers, hsame.listen, hsame.admin, hsame.allowKey, hsame.ifname,
    hsame.noMulticast]
  simp only [parseEach, parseEntries_ok_iff, validateEndpoint_ok, validateIfname_ok]

theorem genconfSettings_accepts (hsame : SameValues args raw) :
    (∃ settings, genconfSettings args = .ok settings) ↔ ∀ error, ¬OverlayFault raw error := by
  constructor
  · rintro ⟨settings, h⟩ error hfault
    obtain ⟨peers, listen, admin, keys, ifName, hpeers, hlisten, hadmin, hkeys, hname, _⟩ :=
      (genconfSettings_same hsame).mp h
    cases hfault with
    | endpoint hfield hbad =>
      rw [validateEndpoint_ok, hfield, Option.getD_some, hbad] at hadmin
      cases hadmin
    | peer hfield hbad => exact parseEntries_refuted hfield hbad hpeers
    | listen hfield hbad => exact parseEntries_refuted hfield hbad hlisten
    | key hfield hbad => exact parseEntries_refuted hfield hbad hkeys
    | ifname hfield hbad =>
      rw [validateIfname_ok, hfield, Option.getD_some, hbad] at hname
      cases hname
  · intro hclean
    have hok : ∀ {α : Type} (x : Except NodeError α),
        (∀ error, x = .error error → OverlayFault raw error) → ∃ value, x = .ok value := by
      intro α x hfault
      cases x with
      | ok value => exact ⟨value, rfl⟩
      | error error => exact absurd (hfault error rfl) (hclean error)
    obtain ⟨peers, hpeers⟩ := hok
      (parseEach NodeError.display raw.yggdrasil.peers "yggdrasil.peers" PeerUri.parse) fun error h => by
        obtain ⟨text, hfield, reason, hbad, rfl⟩ := parseEntries_error h
        exact .peer hfield hbad
    obtain ⟨listen, hlisten⟩ := hok
      (parseEach NodeError.display raw.yggdrasil.listen "yggdrasil.listen" ListenUri.parse)
      fun error h => by
        obtain ⟨text, hfield, reason, hbad, rfl⟩ := parseEntries_error h
        exact .listen hfield hbad
    obtain ⟨keys, hkeys⟩ := hok
      (parseEach NodeError.display raw.yggdrasil.allowKeys "yggdrasil.allow_keys" PublicKeyHex.parse)
      fun error h => by
        obtain ⟨text, hfield, reason, hbad, rfl⟩ := parseEntries_error h
        exact .key hfield hbad
    obtain ⟨admin, hadmin⟩ := hok _ fun error => validateEndpoint_fault
    obtain ⟨ifName, hname⟩ := hok _ fun error => validateIfname_fault
    exact ⟨_, (genconfSettings_same hsame).mpr
      ⟨peers, listen, admin, keys, ifName, hpeers, hlisten, hadmin, hkeys, hname, rfl⟩⟩

theorem genconfSettings_eq {config : ValidatedDaemonConfig} (hsame : SameValues args raw)
    (hvalid : Validated raw config) : genconfSettings args =
      .ok { config.nodeSettings with privateKeyPath := args.privateKeyPath } := by
  refine (genconfSettings_same hsame).mpr ⟨_, _, _, _, _, hvalid.peers, hvalid.listen,
    hvalid.adminEndpoint, hvalid.keys, hvalid.ifName, ?_⟩
  rw [← hvalid.noMulticast, ValidatedDaemonConfig.nodeSettings]

end

-- apart from the path of the key, which the daemon fixes and the command line may set
structure SameConf (args : GenconfArgs) (base conf conf' : Json) : Prop where
  fields : ∀ name, name ≠ "PrivateKeyPath".toList → conf'.get name = conf.get name
  keyPath : conf'.get "PrivateKeyPath".toList =
    (args.privateKeyPath.map .str).or (base.get "PrivateKeyPath".toList)

theorem settingFields_keyPath (settings : NodeSettings) (path : Option Text) :
    settingFields { settings with privateKeyPath := path } =
      (settingFields settings).dropLast ++ [("PrivateKeyPath".toList, path.map .str)] := rfl

theorem settings_sameConf {args : GenconfArgs} {settings : NodeSettings} {base conf conf' : Json}
    (h : applyToBaseConfig settings base = .ok conf)
    (h' : applyToBaseConfig { settings with privateKeyPath := args.privateKeyPath } base = .ok conf') :
    SameConf args base conf conf' where
  keyPath := get_managed h' (List.mem_of_getElem? (i := 6) rfl)
  fields name hname := by
    by_cases hmanaged : name ∈ managedFields
    · rw [← settingFields_names settings, List.mem_map] at hmanaged
      obtain ⟨⟨field, value⟩, hin, hfield⟩ := hmanaged
      obtain rfl : field = name := hfield
      have hfront : (field, value) ∈ (settingFields settings).dropLast := by
        rw [settingFields_keyPath settings settings.privateKeyPath] at hin
        refine (List.mem_append.mp hin).resolve_right fun hlast => ?_
        exact hname (congrArg Prod.fst (List.mem_singleton.mp hlast))
      rw [get_managed h hin, get_managed h' (List.mem_append_left _ hfront)]
    · rw [get_unmanaged h hmanaged, get_unmanaged h' hmanaged]

theorem generateConfig_sameConf {args : GenconfArgs} {settings : NodeSettings} {binary : Text}
    {output : Genconf} {conf : Json} (h : generateConfig binary output settings = .ok conf) :
    ∃ base conf', output = .printed (.ok base) ∧
      generateConfig binary output { settings with privateKeyPath := args.privateKeyPath } = .ok conf' ∧
      SameConf args base conf conf' := by
  rcases output with kind | stderr | reason | base
  · cases h
  · cases h
  · cases h
  · have happlied : applyToBaseConfig settings base = .ok conf := h
    have hobject : ∃ fields, base.asObject = some fields := by
      cases hfields : base.asObject with
      | some fields => exact ⟨fields, rfl⟩
      | none => simp [applyToBaseConfig, hfields] at happlied
    obtain ⟨fields, hfields⟩ := hobject
    obtain ⟨conf', hconf'⟩ : ∃ conf', applyToBaseConfig
        { settings with privateKeyPath := args.privateKeyPath } base = .ok conf' := by
      simp only [applyToBaseConfig, hfields]
      exact ⟨_, rfl⟩
    exact ⟨base, conf', rfl, hconf', settings_sameConf happlied hconf'⟩

theorem generateConfig_sameError {settings settings' : NodeSettings} {binary : Text}
    {output : Genconf} {error : NodeError} (h : generateConfig binary output settings = .error error) :
    generateConfig binary output settings' = .error error := by
  rcases output with kind | stderr | reason | base
  · exact h
  · exact h
  · exact h
  · rw [generateConfig, applyToBaseConfig] at h ⊢
    cases hfields : base.asObject with
    | none => simpa [hfields] using h
    | some fields => simp [hfields] at h

-- the start comes to run the sidecar with `conf` in yggdrasil.conf
def Spawns (start : Start) (dir : StateDir) (conf : Json) : Prop :=
  Inevitably (SpawnStep truthfulStat start) (fun s => s.1 = .spawned conf ∧
    s.2.conf = some ⟨ownerMode, toUtf8 (start.render conf)⟩) (.creatingDir, dir)

-- the start comes to be refused with `error`, both files left as they were
def Refuses (start : Start) (dir : StateDir) (error : NodeError) : Prop :=
  Inevitably (SpawnStep truthfulStat start)
    (fun s => s = (.refused error, { dir with present := true })) (.creatingDir, dir)

theorem spawns_of_launchConf {start : Start} {dir : StateDir} {conf : Json}
    (h : launchConf start dir = .ok conf) : Spawns start dir conf := by
  refine (spawn_ends start dir).mono fun s hends => ?_
  cases hends with
  | spawned hlaunched hconf =>
    obtain rfl := Except.ok.inj (hlaunched.symm.trans h)
    exact ⟨rfl, hconf⟩
  | refused herror => cases herror.symm.trans h

theorem refuses_of_launchConf {start : Start} {dir : StateDir} {error : NodeError}
    (h : launchConf start dir = .error error) : Refuses start dir error := by
  refine (spawn_ends start dir).mono fun s hends => ?_
  cases hends with
  | spawned hlaunched _ => cases hlaunched.symm.trans h
  | refused herror => rw [Except.error.inj (herror.symm.trans h)]

-- the daemon's start in `dir` beside the command line, the binary printing the same to both; only
-- the daemon needs a node key
structure StartAgrees (args : GenconfArgs) (start : Start) (dir : StateDir) : Prop where
  writes : ∀ written, runGenconf args start.output = .ok written → ∃ base conf,
    start.output = .printed (.ok base) ∧ SameConf args base conf written ∧
    (∀ key, nodeKey start dir conf = .ok key → Spawns start dir conf) ∧
    ∀ error, nodeKey start dir conf = .error error → Refuses start dir error
  fails : ∀ text, runGenconf args start.output = .error text →
    ∃ error, error.display = text ∧ Refuses start dir error

structure GenconfAgrees (args : GenconfArgs) (raw : RawDaemonConfig) : Prop where
  accepts : (∃ settings, genconfSettings args = .ok settings) ↔ ∀ error, ¬OverlayFault raw error
  starts : ∀ start dir, validate raw = .ok start.config → StartAgrees args start dir

theorem startAgrees {args : GenconfArgs} {start : Start}
    (hrun : runGenconf args start.output = (generateConfig start.config.yggdrasilBinary start.output
      { start.config.nodeSettings with privateKeyPath := args.privateKeyPath }).mapError
        NodeError.display) (dir : StateDir) : StartAgrees args start dir := by
  cases hgenerated : generateConfig start.config.yggdrasilBinary start.output
      start.config.nodeSettings with
  | error error =>
    rw [generateConfig_sameError hgenerated] at hrun
    refine ⟨fun written h => ?_, fun text h => ?_⟩
    · cases h.symm.trans hrun
    · exact ⟨error, Except.error.inj (hrun.symm.trans h),
        refuses_of_launchConf (launchConf_of_error hgenerated)⟩
  | ok conf =>
    obtain ⟨base, conf', houtput, hconf', hsameConf⟩ := @generateConfig_sameConf args _ _ _ _ hgenerated
    rw [hconf'] at hrun
    have hlaunch := @launchConf_of_ok start dir conf hgenerated
    refine ⟨fun written h => ?_, fun text h => ?_⟩
    · obtain rfl : conf' = written := Except.ok.inj (hrun.symm.trans h)
      refine ⟨base, conf, houtput, hsameConf, fun key hkey => ?_, fun error hkey => ?_⟩
      · exact spawns_of_launchConf (by rw [hlaunch, hkey]; rfl)
      · exact refuses_of_launchConf (by rw [hlaunch, hkey]; rfl)
    · cases h.symm.trans hrun

theorem genconf_agrees {args : GenconfArgs} {raw : RawDaemonConfig} (hsame : SameValues args raw) :
    GenconfAgrees args raw := by
  refine ⟨genconfSettings_accepts hsame, fun start dir hvalid => startAgrees ?_ dir⟩
  have hvalidated := validate_ok hvalid
  rw [runGenconf, genconfSettings_eq hsame hvalidated, ok_bind, hsame.binary, hvalidated.binary]

def sampleArgs : GenconfArgs :=
  { peers := []
    listen := []
    admin := defaultAdminEndpoint
    allowKey := []
    privateKeyPath := none
    ifname := "auto".toList
    noMulticast := true
    yggdrasilBin := defaultYggdrasilBinary }

-- in an empty directory the daemon spawns with what the command line writes
theorem genconf_agrees_sample : ∃ conf written, runGenconf sampleArgs (sampleStart 'a').output = .ok written ∧
    written.get "PrivateKey".toList = conf.get "PrivateKey".toList ∧
    Spawns (sampleStart 'a') ⟨false, none, none⟩ conf := by
  obtain ⟨_, hstarts⟩ := @genconf_agrees sampleArgs managedRaw ⟨rfl, rfl, rfl, rfl, rfl, rfl, rfl⟩
  obtain ⟨base, conf, _, hsame, hspawns, _⟩ :=
    (hstarts (sampleStart 'a') ⟨false, none, none⟩ rfl).writes _ rfl
  have hkey := hsame.fields "PrivateKey".toList (by decide)
  refine ⟨conf, _, rfl, hkey, hspawns ⟨List.replicate 64 'a', by decide⟩ ?_⟩
  rw [nodeKey, generatedKey, Json.getStr, ← hkey]
  rfl

end SpiderNet.Node
