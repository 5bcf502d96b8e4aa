import SpiderNet.Node.ExitArgs

namespace SpiderNet.Node
open Exit

-- the loopback bind that makes an exit without an allowlist a development one
def DevBind (raw : RawExitSection) : Prop :=
  ∃ text addr, raw.bind = some text ∧ text ≠ [] ∧ parseBind text = .ok addr ∧ addr.ip.isLoopback = true

-- what is wrong with a field, and the error for it
inductive OverlayFault (raw : RawDaemonConfig) : NodeError → Prop
  | endpoint {text : Text} {error : NodeError} (hfield : raw.node.adminEndpoint = some text)
      (hbad : AdminEndpoint.parse text = .error error) :
      OverlayFault raw (fieldError "node.admin_endpoint" error.display)
  | peer {text : Text} {error : NodeError} (hfield : text ∈ raw.yggdrasil.peers.getD [])
      (hbad : PeerUri.parse text = .error error) :
      OverlayFault raw (fieldError "yggdrasil.peers" error.display)
  | listen {text : Text} {error : NodeError} (hfield : text ∈ raw.yggdrasil.listen.getD [])
      (hbad : ListenUri.parse text = .error error) :
      OverlayFault raw (fieldError "yggdrasil.listen" error.display)
  | key {text : Text} {error : NodeError} (hfield : text ∈ raw.yggdrasil.allowKeys.getD [])
      (hbad : PublicKeyHex.parse text = .error error) :
      OverlayFault raw (fieldError "yggdrasil.allow_keys" error.display)
  | ifname {text : Text} {error : NodeError} (hfield : raw.yggdrasil.ifname = some text)
      (hbad : parseIfname text = .error error) :
      OverlayFault raw (fieldError "yggdrasil.ifname" error.display)

-- found whether or not the exit is enabled, but for the missing neighbors
inductive ExitFault (raw : RawExitSection) : NodeError → Prop
  | bind {text : Text} {error : ExitError} (hfield : raw.bind = some text) (hsome : text ≠ [])
      (hbad : parseBind text = .error error) :
      ExitFault raw (fieldError "exit.bind" (displayExitError error))
  | source {text : Text} {error : ExitError} (hfield : text ∈ raw.allow.getD [])
      (hbad : parseSource text = .error error) :
      ExitFault raw (fieldError "exit.allow" (displayExitError error))
  | neighbors (henabled : raw.enabled = some true) (hnone : raw.allow.getD [] = [])
      (hpublic : ¬DevBind raw) : ExitFault raw (.daemonConfig noAllowlist)
  | quota (hlimited : raw.quotaMib.getD defaultQuotaMib ≠ 0) (hhours : raw.windowHours = some 0) :
      ExitFault raw
        (fieldError "exit.quota" (displayExitError (.invalidQuota "window must be non-zero")))

inductive Fault (raw : RawDaemonConfig) : NodeError → Prop
  | overlay {error : NodeError} (h : OverlayFault raw error) : Fault raw error
  | exit {error : NodeError} (h : ExitFault raw.exit error) : Fault raw error
  | idle (hmanage : raw.yggdrasil.manage = some false) (hdisabled : raw.exit.enabled ≠ some true) :
      Fault raw (.daemonConfig nothingToDo)

theorem bind_eq_error {ε α β : Type} {x : Except ε α} {f : α → Except ε β} {error : ε} :
    x >>= f = .error error ↔ x = .error error ∨ ∃ value, x = .ok value ∧ f value = .error error := by
  cases x with
  | error error => simp [bind, Except.bind]
  | ok value => simp [bind, Except.bind]

section
variable {α ε : Type} {display : ε → String} {what : String} {parse : Text → Except ε α}

theorem parseEntries_error {inputs : List Text} {error : NodeError}
    (h : parseEntries display what parse inputs = .error error) :
    ∃ input ∈ inputs, ∃ reason, parse input = .error reason ∧
      error = fieldError what (display reason) := by
  induction inputs with
  | nil => cases h
  | cons input rest ih =>
    rw [parseEntries] at h
    cases hparse : parse input with
    | error reason =>
      simp only [hparse] at h
      exact ⟨input, List.mem_cons_self, reason, hparse, (Except.error.inj h).symm⟩
    | ok value =>
      simp only [hparse] at h
      rcases bind_eq_error.mp h with hrest | ⟨values, _, hpure⟩
      · obtain ⟨later, hin, hlater⟩ := ih hrest
        exact ⟨later, List.mem_cons_of_mem input hin, hlater⟩
      · cases hpure

theorem parseEntries_refuted {inputs : List Text} {values : List α} {input : Text} {reason : ε}
    (hin : input ∈ inputs) (hbad : parse input = .error reason) :
    parseEntries display what parse inputs ≠ .ok values := by
  intro h
  have hparsed := parseEntries_ok h
  clear h
  induction hparsed with
  | nil => cases hin
  | cons hok _ ih =>
    rcases List.mem_cons.mp hin with rfl | hlater
    · cases hbad.symm.trans hok
    · exact ih hlater

end

theorem policyFor_error {quotaMib secs : UInt64} {error : ExitError} (hquota : quotaMib ≠ 0)
    (h : policyFor quotaMib secs = .error error) :
    secs = 0 ∧ error = .invalidQuota "window must be non-zero" := by
  by_cases hsecs : secs = 0
  · subst hsecs
    have hbytes : saturatingMul quotaMib mib ≠ 0 := mt (saturatingMul_eq_zero (by decide)).mp hquota
    have hwindow : fromSecs 0 = 0 := Nat.zero_mul _
    rw [policyFor, QuotaPolicy.tryNew, dif_neg hbytes, dif_pos hwindow] at h
    exact ⟨rfl, (Except.error.inj h).symm⟩
  · obtain ⟨quota, hok, _⟩ := policyFor_pos hquota hsecs
    cases hok.symm.trans h

theorem validateQuota_getD (raw : RawExitSection) : validateQuota raw =
    if raw.quotaMib.getD defaultQuotaMib = 0 then .ok none
    else configAnswer (policyFor (raw.quotaMib.getD defaultQuotaMib)
      (saturatingMul (raw.windowHours.getD defaultWindowHours) 3600)) := by
  rw [validateQuota, policyFor]
  split_ifs
  · rfl
  · cases QuotaPolicy.tryNew (saturatingMul (raw.quotaMib.getD defaultQuotaMib) mib)
      (fromSecs (saturatingMul (raw.windowHours.getD defaultWindowHours) 3600)) <;> rfl

-- the default window is not empty, so an empty one was asked for
theorem windowHours_zero {raw : RawExitSection} :
    saturatingMul (raw.windowHours.getD defaultWindowHours) 3600 = 0 ↔ raw.windowHours = some 0 := by
  rw [saturatingMul_eq_zero (by decide)]
  rcases raw.windowHours with _ | hours
  · exact iff_of_false (by decide) nofun
  · simp

theorem validateQuota_error {raw : RawExitSection} {error : NodeError}
    (h : validateQuota raw = .error error) : raw.quotaMib.getD defaultQuotaMib ≠ 0 ∧
      raw.windowHours = some 0 ∧
      error = fieldError "exit.quota" (displayExitError (.invalidQuota "window must be non-zero")) := by
  rw [validateQuota_getD] at h
  split_ifs at h with hmib
  cases hpolicy : policyFor (raw.quotaMib.getD defaultQuotaMib)
      (saturatingMul (raw.windowHours.getD defaultWindowHours) 3600) with
  | ok quota =>
    rw [hpolicy] at h
    cases h
  | error reason =>
    rw [hpolicy] at h
    obtain ⟨hsecs, rfl⟩ := policyFor_error hmib hpolicy
    exact ⟨hmib, windowHours_zero.mp hsecs, (Except.error.inj h).symm⟩

theorem validateQuota_refuted {raw : RawExitSection} {quota : Option QuotaPolicy}
    (hlimited : raw.quotaMib.getD defaultQuotaMib ≠ 0) (hhours : raw.windowHours = some 0) :
    validateQuota raw ≠ .ok quota := by
  intro h
  obtain ⟨reason, hpolicy⟩ := policyFor_zero hlimited
  rw [validateQuota_getD, if_neg hlimited, windowHours_zero.mpr hhours, hpolicy] at h
  cases h

theorem explicitBind_error {bind : Option Text} {error : NodeError}
    (h : explicitBind bind = .error error) : ∃ text reason, bind = some text ∧ text ≠ [] ∧
      parseBind text = .error reason ∧ error = fieldError "exit.bind" (displayExitError reason) := by
  rcases bind with _ | _ | ⟨c, rest⟩
  · cases h
  · cases h
  · rw [explicitBind] at h
    cases hparse : parseBind (c :: rest) with
    | error reason =>
      simp only [hparse] at h
      exact ⟨c :: rest, reason, rfl, List.cons_ne_nil c rest, hparse, (Except.error.inj h).symm⟩
    | ok addr => simp [hparse] at h
    · exact List.cons_ne_nil c rest

theorem explicitBind_eq {text : Text} (hsome : text ≠ []) : explicitBind (some text) =
    match parseBind text with
    | .error error => .error (fieldError "exit.bind" (displayExitError error))
    | .ok addr => .ok (some addr) := by
  cases text with
  | nil => exact absurd rfl hsome
  | cons c rest => rfl

theorem devMode_iff {raw : RawExitSection} {explicit : Option SocketAddr}
    (h : explicitBind raw.bind = .ok explicit) : devMode explicit = true ↔ DevBind raw := by
  constructor
  · intro hdev
    rcases explicit with _ | addr
    · cases hdev
    · obtain ⟨text, htext, hsome, hparse⟩ := explicitBind_some h
      exact ⟨text, addr, htext, hsome, hparse, hdev⟩
  · rintro ⟨text, addr, htext, hsome, hparse, hloopback⟩
    rw [htext, explicitBind_eq hsome, hparse] at h
    obtain rfl := Except.ok.inj h
    exact hloopback

theorem validateExit_fault {raw : RawExitSection} {error : NodeError}
    (h : validateExit raw = .error error) : ExitFault raw error := by
  rw [validateExit] at h
  rcases bind_eq_error.mp h with hbind | ⟨explicit, hexplicit, h⟩
  · obtain ⟨text, reason, hfield, hsome, hbad, rfl⟩ := explicitBind_error hbind
    exact .bind hfield hsome hbad
  rcases bind_eq_error.mp h with hallow | ⟨sources, hsources, h⟩
  · obtain ⟨text, hfield, reason, hbad, rfl⟩ := parseEntries_error hallow
    exact .source hfield hbad
  cases hrefused : raw.enabled.getD false && sources.isEmpty && !devMode explicit with
  | true =>
    rw [hrefused] at h
    obtain rfl := Except.error.inj h
    simp only [Bool.and_eq_true, Bool.not_eq_true', List.isEmpty_iff] at hrefused
    obtain ⟨⟨henabled, rfl⟩, hdev⟩ := hrefused
    refine .neighbors ?_ (parseSources_nil hsources) ?_
    · rcases hfield : raw.enabled with _ | _ | _ <;> simp [hfield] at henabled ⊢
    · rw [← devMode_iff hexplicit, hdev]
      exact Bool.false_ne_true
  | false =>
    rw [hrefused] at h
    rcases bind_eq_error.mp h with hquota | ⟨quota, _, hpure⟩
    · obtain ⟨hlimited, hhours, rfl⟩ := validateQuota_error hquota
      exact .quota hlimited hhours
    · cases hpure

theorem validateEndpoint_ok {text : Option Text} {endpoint : AdminEndpoint} :
    validateEndpoint text = .ok endpoint ↔
      AdminEndpoint.parse (text.getD defaultAdminEndpoint) = .ok endpoint := by
  rcases text with _ | text
  · rfl
  · simp only [validateEndpoint, Option.getD_some]
    cases hparse : AdminEndpoint.parse text <;> simp

theorem validateIfname_ok {ifname : Option Text} {name : IfName} :
    validateIfname ifname = .ok name ↔ parseIfname (ifname.getD "auto".toList) = .ok name := by
  rw [validateIfname]
  cases parseIfname (ifname.getD "auto".toList) <;> simp

section
variable {raw : RawDaemonConfig} {error : NodeError}

theorem validateEndpoint_fault (h : validateEndpoint raw.node.adminEndpoint = .error error) :
    OverlayFault raw error := by
  rcases hfield : raw.node.adminEndpoint with _ | text
  · rw [hfield] at h
    cases h
  · rw [hfield, validateEndpoint] at h
    cases hparse : AdminEndpoint.parse text with
    | ok endpoint => simp [hparse] at h
    | error reason =>
      simp only [hparse] at h
      obtain rfl := Except.error.inj h
      exact .endpoint hfield hparse

theorem validateIfname_fault (h : validateIfname raw.yggdrasil.ifname = .error error) :
    OverlayFault raw error := by
  rcases hfield : raw.yggdrasil.ifname with _ | text
  · rw [hfield] at h
    cases h
  · rw [hfield, validateIfname, Option.getD_some] at h
    cases hparse : parseIfname text with
    | ok name => simp [hparse] at h
    | error reason =>
      simp only [hparse] at h
      obtain rfl := Except.error.inj h
      exact .ifname hfield hparse

theorem validate_fault (h : validate raw = .error error) : Fault raw error := by
  rw [validate] at h
  rcases bind_eq_error.mp h with hendpoint | ⟨endpoint, _, h⟩
  · exact .overlay (validateEndpoint_fault hendpoint)
  rcases bind_eq_error.mp h with hpeers | ⟨peers, _, h⟩
  · obtain ⟨text, hfield, reason, hbad, rfl⟩ := parseEntries_error hpeers
    exact .overlay (.peer hfield hbad)
  rcases bind_eq_error.mp h with hlisten | ⟨listen, _, h⟩
  · obtain ⟨text, hfield, reason, hbad, rfl⟩ := parseEntries_error hlisten
    exact .overlay (.listen hfield hbad)
  rcases bind_eq_error.mp h with hkeys | ⟨keys, _, h⟩
  · obtain ⟨text, hfield, reason, hbad, rfl⟩ := parseEntries_error hkeys
    exact .overlay (.key hfield hbad)
  rcases bind_eq_error.mp h with hname | ⟨name, _, h⟩
  · exact .overlay (validateIfname_fault hname)
  rcases bind_eq_error.mp h with hexit | ⟨exit, hexit, h⟩
  · exact .exit (validateExit_fault hexit)
  cases hidle : !raw.yggdrasil.manage.getD true && exit.isNone with
  | true =>
    rw [hidle] at h
    obtain rfl := Except.error.inj h
    simp only [Bool.and_eq_true, Bool.not_eq_true'] at hidle
    refine .idle ?_ ?_
    · rcases hfield : raw.yggdrasil.manage with _ | _ | _ <;> simp [hfield] at hidle ⊢
    · intro henabled
      have hsome := (validateExit_isSome hexit).mpr henabled
      rw [Option.isNone_iff_eq_none.mp hidle.2] at hsome
      cases hsome
  | false =>
    rw [hidle] at h
    cases h

end

structure Validated (raw : RawDaemonConfig) (config : ValidatedDaemonConfig) : Prop where
  adminEndpoint : validateEndpoint raw.node.adminEndpoint = .ok config.adminEndpoint
  stateDir : config.stateDir = raw.node.stateDir.getD defaultStateDir
  manage : config.manage = raw.yggdrasil.manage.getD true
  binary : config.yggdrasilBinary = raw.yggdrasil.binary.getD defaultYggdrasilBinary
  peers : parseEach NodeError.display raw.yggdrasil.peers "yggdrasil.peers" PeerUri.parse = .ok config.peers
  listen : parseEach NodeError.display raw.yggdrasil.listen "yggdrasil.listen" ListenUri.parse =
    .ok config.listen
  keys : parseEach NodeError.display raw.yggdrasil.allowKeys "yggdrasil.allow_keys" PublicKeyHex.parse =
    .ok config.allowedKeys
  noMulticast : config.noMulticast = raw.yggdrasil.noMulticast.getD false
  ifName : validateIfname raw.yggdrasil.ifname = .ok config.ifName
  exit : validateExit raw.exit = .ok config.exit
  busy : config.manage = true ∨ config.exit.isSome

theorem validate_ok {raw : RawDaemonConfig} {config : ValidatedDaemonConfig}
    (h : validate raw = .ok config) : Validated raw config := by
  rw [validate] at h
  obtain ⟨endpoint, hendpoint, h⟩ := bind_eq_ok.mp h
  obtain ⟨peers, hpeers, h⟩ := bind_eq_ok.mp h
  obtain ⟨listen, hlisten, h⟩ := bind_eq_ok.mp h
  obtain ⟨keys, hkeys, h⟩ := bind_eq_ok.mp h
  obtain ⟨name, hname, h⟩ := bind_eq_ok.mp h
  obtain ⟨exit, hexit, h⟩ := bind_eq_ok.mp h
  cases hidle : !raw.yggdrasil.manage.getD true && exit.isNone with
  | true =>
    rw [hidle] at h
    cases h
  | false =>
    rw [hidle] at h
    obtain rfl := Except.ok.inj h
    refine ⟨hendpoint, rfl, rfl, rfl, hpeers, hlisten, hkeys, rfl, hname, hexit, ?_⟩
    cases hmanage : raw.yggdrasil.manage.getD true with
    | true => exact Or.inl rfl
    | false => exact Or.inr (by simpa [hmanage, Option.isSome_iff_ne_none] using hidle)

theorem validateExit_faultless {raw : RawExitSection} {exit : Option ExitServiceSettings}
    {error : NodeError} (h : validateExit raw = .ok exit) : ¬ExitFault raw error := by
  intro hfault
  obtain ⟨explicit, sources, quota, _, hexplicit, hsources, hrefused, _, _, hquota, _⟩ := validateExit_ok h
  cases hfault with
  | bind hfield hsome hbad =>
    rw [hfield, explicitBind_eq hsome, hbad] at hexplicit
    cases hexplicit
  | source hfield hbad => exact parseEntries_refuted hfield hbad hsources
  | neighbors henabled hnone hpublic =>
    rw [parseEach, hnone, parseEntries] at hsources
    obtain rfl := Except.ok.inj hsources
    rw [henabled, Option.getD_some, List.isEmpty_nil, Bool.true_and, Bool.true_and,
      Bool.not_eq_false'] at hrefused
    exact hpublic ((devMode_iff hexplicit).mp hrefused)
  | quota hlimited hhours => exact validateQuota_refuted hlimited hhours hquota

theorem Validated.faultless {raw : RawDaemonConfig} {config : ValidatedDaemonConfig} {error : NodeError}
    (h : Validated raw config) : ¬Fault raw error := by
  intro hfault
  cases hfault with
  | exit hfault => exact validateExit_faultless h.exit hfault
  | idle hmanage hdisabled =>
    have hbusy := h.busy
    rw [h.manage, hmanage, Option.getD_some, validateExit_isSome h.exit] at hbusy
    exact hdisabled (hbusy.resolve_left Bool.false_ne_true)
  | overlay hfault =>
    cases hfault with
    | endpoint hfield hbad =>
      have hok := validateEndpoint_ok.mp h.adminEndpoint
      rw [hfield, Option.getD_some] at hok
      cases hbad.symm.trans hok
    | peer hfield hbad => exact parseEntries_refuted hfield hbad h.peers
    | listen hfield hbad => exact parseEntries_refuted hfield hbad h.listen
    | key hfield hbad => exact parseEntries_refuted hfield hbad h.keys
    | ifname hfield hbad =>
      have hok := validateIfname_ok.mp h.ifName
      rw [hfield, Option.getD_some] at hok
      cases hbad.symm.trans hok

-- a config is refused exactly when it has a fault, and the error is that of a fault it has
theorem validate_faults (raw : RawDaemonConfig) :
    (∀ error, validate raw = .error error → Fault raw error) ∧
      ((∃ config, validate raw = .ok config) ↔ ∀ error, ¬Fault raw error) := by
  refine ⟨fun error h => validate_fault h, ?_, fun hclean => ?_⟩
  · rintro ⟨config, h⟩ error
    exact (validate_ok h).faultless
  · cases hresult : validate raw with
    | ok config => exact ⟨config, rfl⟩
    | error error => exact absurd (validate_fault hresult) (hclean error)

end SpiderNet.Node
