import SpiderNet.Node.Supervision

namespace SpiderNet.Node
open Exit Transition

-- the sources a config may let in: those it lists, or in dev mode the loopback ones
def MayUse (raw : RawExitSection) (bind : ExitBind) (source : IpAddr) : Prop :=
  (∃ entry ∈ raw.allow.getD [], parseSource entry = .ok source) ∨
    raw.allow.getD [] = [] ∧ source.isLoopback = true ∧
      ∃ text addr, raw.bind = some text ∧ text ≠ [] ∧ parseBind text = .ok addr ∧
        addr.ip.isLoopback = true ∧ bind = .explicit addr

theorem parseEntries_ok {α ε : Type} {display : ε → String} {what : String}
    {parse : Text → Except ε α} {inputs : List Text} {values : List α}
    (h : parseEntries display what parse inputs = .ok values) :
    List.Forall₂ (fun input value => parse input = .ok value) inputs values := by
  induction inputs generalizing values with
  | nil =>
    obtain rfl := Except.ok.inj h
    exact .nil
  | cons input rest ih =>
    rw [parseEntries] at h
    cases hparse : parse input with
    | error error => simp [hparse] at h
    | ok value =>
      simp only [hparse] at h
      obtain ⟨later, hlater, heq⟩ := bind_eq_ok.mp h
      obtain rfl := Except.ok.inj heq
      exact .cons hparse (ih hlater)

theorem explicitBind_some {bind : Option Text} {addr : SocketAddr}
    (h : explicitBind bind = .ok (some addr)) :
    ∃ text, bind = some text ∧ text ≠ [] ∧ parseBind text = .ok addr := by
  rcases bind with _ | _ | ⟨c, rest⟩
  · cases h
  · cases h
  · rw [explicitBind] at h
    cases hparse : parseBind (c :: rest) with
    | error error => simp [hparse] at h
    | ok parsed =>
      simp only [hparse] at h
      obtain rfl := Option.some.inj (Except.ok.inj h)
      exact ⟨c :: rest, rfl, List.cons_ne_nil c rest, hparse⟩
    · exact List.cons_ne_nil c rest

theorem parseSources_nil {raw : RawExitSection}
    (h : parseEach displayExitError raw.allow "exit.allow" parseSource = .ok []) :
    raw.allow.getD [] = [] := List.forall₂_nil_right_iff.mp (parseEntries_ok h)

theorem parseSources_mem {raw : RawExitSection} {sources : List IpAddr} {source : IpAddr}
    (h : parseEach displayExitError raw.allow "exit.allow" parseSource = .ok sources)
    (hin : source ∈ sources) : ∃ entry ∈ raw.allow.getD [], parseSource entry = .ok source := by
  have hparsed := parseEntries_ok h
  generalize raw.allow.getD [] = entries at hparsed
  clear h
  induction hparsed with
  | nil => cases hin
  | @cons entry value entries values hentry _ ih =>
    rcases List.mem_cons.mp hin with rfl | hrest
    · exact ⟨entry, List.mem_cons_self, hentry⟩
    · obtain ⟨later, hlater, hparse⟩ := ih hrest
      exact ⟨later, List.mem_cons_of_mem entry hlater, hparse⟩

def allowlistFor (sources : List IpAddr) : SourceAllowlist :=
  if sources.isEmpty then .loopbackOnly else .new sources

theorem validateExit_ok {raw : RawExitSection} {exit : Option ExitServiceSettings}
    (h : validateExit raw = .ok exit) : ∃ explicit sources quota bind,
      explicitBind raw.bind = .ok explicit ∧
      parseEach displayExitError raw.allow "exit.allow" parseSource = .ok sources ∧
      (raw.enabled.getD false && sources.isEmpty && !devMode explicit) = false ∧
      (∀ addr, explicit = some addr → bind = .explicit addr) ∧
      (explicit = none → bind = .overlay (raw.port.getD defaultExitPort)) ∧
      validateQuota raw = .ok quota ∧
      exit = if raw.enabled.getD false then some ⟨bind, allowlistFor sources, quota⟩ else none := by
  rw [validateExit] at h
  obtain ⟨explicit, hexplicit, h⟩ := bind_eq_ok.mp h
  obtain ⟨sources, hsources, h⟩ := bind_eq_ok.mp h
  cases hrefused : raw.enabled.getD false && sources.isEmpty && !devMode explicit with
  | true =>
    rw [hrefused] at h
    cases h
  | false =>
    rw [hrefused] at h
    obtain ⟨quota, hquota, h⟩ := bind_eq_ok.mp h
    refine ⟨explicit, sources, quota, _, hexplicit, hsources, hrefused, ?_, ?_, hquota,
      (Except.ok.inj h).symm⟩
    · rintro addr rfl
      rfl
    · rintro rfl
      rfl

theorem validateExit_isSome {raw : RawExitSection} {exit : Option ExitServiceSettings}
    (h : validateExit raw = .ok exit) : exit.isSome ↔ raw.enabled = some true := by
  obtain ⟨explicit, sources, quota, bind, _, _, _, _, _, _, rfl⟩ := validateExit_ok h
  rcases raw.enabled with _ | _ | _ <;> simp

theorem validateExit_mayUse {raw : RawExitSection} {settings : ExitServiceSettings}
    {source : IpAddr} (h : validateExit raw = .ok (some settings))
    (hallowed : settings.allowlist.isAllowed source = true) : MayUse raw settings.bind source := by
  obtain ⟨explicit, sources, quota, bind, hexplicit, hsources, hrefused, hbind, _, _, hexit⟩ :=
    validateExit_ok h
  cases henabled : raw.enabled.getD false with
  | false => simp [henabled] at hexit
  | true =>
    rw [henabled] at hexit hrefused
    obtain rfl := Option.some.inj hexit
    cases sources with
    | cons first rest =>
      refine Or.inl (parseSources_mem hsources ?_)
      simpa [allowlistFor, SourceAllowlist.new, SourceAllowlist.isAllowed] using hallowed
    | nil =>
      have hloopback : source.isLoopback = true := by
        simpa [allowlistFor, SourceAllowlist.loopbackOnly, SourceAllowlist.isAllowed] using hallowed
      refine Or.inr ⟨parseSources_nil hsources, hloopback, ?_⟩
      have hdev : devMode explicit = true := by simpa using hrefused
      obtain ⟨addr, haddr⟩ : ∃ addr, explicit = some addr := by
        cases explicit with
        | none => cases hdev
        | some addr => exact ⟨addr, rfl⟩
      subst haddr
      obtain ⟨text, htext, hsome, hparse⟩ := explicitBind_some hexplicit
      exact ⟨text, addr, htext, hsome, hparse, hdev, hbind addr rfl⟩

theorem validate_exit_eq {raw : RawDaemonConfig} {config : ValidatedDaemonConfig}
    (h : validate raw = .ok config) : validateExit raw.exit = .ok config.exit := by
  rw [validate] at h
  obtain ⟨endpoint, _, h⟩ := bind_eq_ok.mp h
  obtain ⟨peers, _, h⟩ := bind_eq_ok.mp h
  obtain ⟨listen, _, h⟩ := bind_eq_ok.mp h
  obtain ⟨keys, _, h⟩ := bind_eq_ok.mp h
  obtain ⟨name, _, h⟩ := bind_eq_ok.mp h
  obtain ⟨exit, hexit, h⟩ := bind_eq_ok.mp h
  cases hidle : !raw.yggdrasil.manage.getD true && exit.isNone with
  | true =>
    rw [hidle] at h
    cases h
  | false =>
    rw [hidle] at h
    obtain rfl := Except.ok.inj h
    exact hexit

-- what the daemon serves is what the config settled, under the policy for public origins
def ServesSettled (config : ValidatedDaemonConfig) (d : Daemon) : Prop :=
  ∀ exitConfig, d.control = .serving exitConfig → exitConfig.originPolicy = .publicOnly ∧
    ∃ exit, config.exit = some exit ∧ exitConfig.allowlist = exit.allowlist

theorem exit_exposure (raw : RawDaemonConfig) (config : ValidatedDaemonConfig)
    (h : validate raw = .ok config) :
    (config.exit.isSome ↔ raw.exit.enabled = some true) ∧
    (∀ exit source, config.exit = some exit → exit.allowlist.isAllowed source = true →
      MayUse raw.exit exit.bind source) ∧
    ∀ start fromSlice dir now shutdown d, start.config = config →
      Reachable (DaemonStep start fromSlice) (startDaemon config dir now shutdown) d →
      ServesSettled config d := by
  have hvalidated := validate_exit_eq h
  refine ⟨validateExit_isSome hvalidated, fun exit source hexit hallowed => ?_, ?_⟩
  · rw [hexit] at hvalidated
    exact validateExit_mayUse hvalidated hallowed
  · rintro start fromSlice dir now shutdown d rfl hrun exitConfig hcontrol
    obtain ⟨_, exit, overlay, hexit, rfl⟩ := (supervising_run hrun).controlAt hcontrol
    exact ⟨rfl, exit, hexit, rfl⟩

def sampleRaw : RawDaemonConfig :=
  { node := ⟨none, none⟩
    yggdrasil := ⟨some false, none, none, none, none, none, none⟩
    exit := ⟨some true, some "127.0.0.1:8080".toList, none, none, some 0, none⟩ }

def sampleSettings : ExitServiceSettings :=
  ⟨.explicit ⟨.v4 (.ofOctets 127 0 0 1), 8080⟩, .loopbackOnly, none⟩

theorem exit_exposure_devMode : ∃ config d exitConfig, validate sampleRaw = .ok config ∧
    config.exit = some sampleSettings ∧
    MayUse sampleRaw.exit sampleSettings.bind (.v4 (.ofOctets 127 0 0 1)) ∧
    d.control = .serving exitConfig ∧ ServesSettled config d := by
  obtain ⟨config, hvalid, hmanage, hexit⟩ : ∃ config, validate sampleRaw = .ok config ∧
      config.manage = false ∧ config.exit = some sampleSettings := ⟨_, rfl, rfl, rfl⟩
  obtain ⟨_, hexposed, hserves⟩ := exit_exposure sampleRaw config hvalid
  have hbinding := @binding_reached ⟨config, 0o022, .notRun .other, fun _ => []⟩ (fun _ => .ok sampleSelf)
    sampleSettings [] _ hexit rfl _ _ _ _ (congrArg Daemon.control
      (@startDaemon_unmanaged config hmanage ⟨false, none, none⟩ 0))
    (by rw [startDaemon_unmanaged hmanage]; rfl)
  exact ⟨config, _, _, hvalid, hexit, hexposed _ _ hexit rfl, rfl,
    hserves _ _ _ _ _ _ rfl (hbinding.tail (.bind _ _ _ rfl))⟩

end SpiderNet.Node
