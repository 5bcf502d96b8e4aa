import SpiderNet.Node.Faults

namespace SpiderNet.Node
open Exit

-- the flags of the exit's own binary and the `exit` section say the same
structure SameExit (args : Args) (raw : RawExitSection) : Prop where
  enabled : raw.enabled = some true
  bind : raw.bind = some args.bind
  given : args.bind ≠ []
  allow : raw.allow = some args.allow
  quotaMib : raw.quotaMib = some args.quotaMib
  windowHours : raw.windowHours = some args.windowHours

-- nobody is let in, and the bind does not say that this is for development
def Unshared (args : Args) : Prop :=
  args.allow = [] ∧ ∃ addr, parseBind args.bind = .ok addr ∧ addr.ip.isLoopback = false

-- what is wrong with a flag, the field that stands for it in the section, and the text for it
inductive FlagFault (args : Args) : String → String → Prop
  | bind {error : ExitError} (hbad : parseBind args.bind = .error error) :
      FlagFault args "exit.bind" (displayExitError error)
  | source {text : Text} {error : ExitError} (hflag : text ∈ args.allow)
      (hbad : parseSource text = .error error) : FlagFault args "exit.allow" (displayExitError error)
  | quota (hlimited : args.quotaMib ≠ 0) (hhours : args.windowHours = 0) :
      FlagFault args "exit.quota" (displayExitError (.invalidQuota "window must be non-zero"))

-- without neighbors the binary serves loopback clients on any bind; the daemon does so on a loopback
-- bind only, and looks for that before it looks at the quota
inductive ExitAgrees (args : Args) (raw : RawExitSection) :
    Except String ExitConfig → Except NodeError (Option ExitServiceSettings) → Prop
  | same {config : ExitConfig} {settings : ExitServiceSettings} (hshared : ¬Unshared args)
      (h : ∀ overlay, ValidatedDaemonConfig.exitConfig settings overlay = config) :
      ExitAgrees args raw (.ok config) (.ok (some settings))
  | invalid {field text : String} (h : FlagFault args field text) :
      ExitAgrees args raw (.error text) (.error (fieldError field text))
  | unshared {addr : SocketAddr} {quota : Option QuotaPolicy} (h : Unshared args)
      (hbind : parseBind args.bind = .ok addr) (hquota : validateQuota raw = .ok quota) :
      ExitAgrees args raw (.ok (.new addr .loopbackOnly quota)) (.error (.daemonConfig noAllowlist))
  | unsharedInvalid {text : String} (h : Unshared args) (hfault : FlagFault args "exit.quota" text) :
      ExitAgrees args raw (.error text) (.error (.daemonConfig noAllowlist))

theorem parseEntries_eq {α ε : Type} (display : ε → String) (what : String)
    (parse : Text → Except ε α) (inputs : List Text) :
    parseEntries display what parse inputs =
      (inputs.mapM fun input => (parse input).mapError display).mapError (fieldError what) := by
  induction inputs with
  | nil => rfl
  | cons input rest ih =>
    rw [parseEntries, List.mapM_cons]
    cases parse input with
    | error error => rfl
    | ok value =>
      simp only [ih]
      cases rest.mapM fun input => (parse input).mapError display <;> rfl

def sourcesOf (allow : List Text) : Except String (List IpAddr) :=
  allow.mapM fun addr => (parseSource addr).mapError displayExitError

theorem sourcesOf_error {allow : List Text} {text : String} (h : sourcesOf allow = .error text) :
    ∃ input ∈ allow, ∃ error, parseSource input = .error error ∧ displayExitError error = text := by
  induction allow with
  | nil => cases h
  | cons input rest ih =>
    rw [sourcesOf, List.mapM_cons] at h
    rcases bind_eq_error.mp h with hinput | ⟨source, _, hrest⟩
    · cases hparse : parseSource input with
      | error error =>
        rw [hparse] at hinput
        exact ⟨input, List.mem_cons_self, error, hparse, Except.error.inj hinput⟩
      | ok source =>
        rw [hparse] at hinput
        cases hinput
    · rcases bind_eq_error.mp hrest with hrest | ⟨sources, _, hpure⟩
      · obtain ⟨later, hin, hlater⟩ := ih hrest
        exact ⟨later, List.mem_cons_of_mem input hin, hlater⟩
      · cases hpure

theorem sourcesOf_empty_iff {allow : List Text} {sources : List IpAddr}
    (h : sourcesOf allow = .ok sources) : sources.isEmpty = true ↔ allow = [] := by
  have hparsed := mapM_ok_iff.mp h
  rw [List.isEmpty_iff]
  constructor
  · rintro rfl
    exact List.forall₂_nil_right_iff.mp hparsed
  · rintro rfl
    exact List.forall₂_nil_left_iff.mp hparsed

theorem allowlistOf_eq (allow : List Text) :
    allowlistOf allow = (sourcesOf allow).map allowlistFor := by
  rw [allowlistOf, sourcesOf]
  cases allow with
  | nil => rfl
  | cons addr rest =>
    rw [List.mapM_cons]
    cases (parseSource addr).mapError displayExitError with
    | error text => rfl
    | ok source =>
      cases rest.mapM fun addr => (parseSource addr).mapError displayExitError <;> rfl

theorem configAnswer_eq (quota : Except ExitError QuotaPolicy) :
    configAnswer quota = (argsAnswer quota).mapError (fieldError "exit.quota") := by
  cases quota <;> rfl

theorem runConfig_eq {profile : Profile} {args : Args} {addr : SocketAddr}
    {answer : Except String (Option QuotaPolicy)} (hbind : parseBind args.bind = .ok addr)
    (hquota : quotaOf profile args.quotaMib args.windowHours = some answer) :
    runConfig profile args = some (do
      let sources ← sourcesOf args.allow
      let quota ← answer
      return .new addr (allowlistFor sources) quota) := by
  rw [runConfig, hbind]
  simp only [allowlistOf_eq, hquota]
  cases sourcesOf args.allow with
  | error text => rfl
  | ok sources => cases answer <;> rfl

section
variable {args : Args} {raw : RawExitSection} (hsame : SameExit args raw)
include hsame

theorem SameExit.explicitBind : explicitBind raw.bind =
    match parseBind args.bind with
    | .error error => .error (fieldError "exit.bind" (displayExitError error))
    | .ok addr => .ok (some addr) := by
  rw [hsame.bind]
  obtain ⟨c, rest, hbind⟩ := List.exists_cons_of_ne_nil hsame.given
  rw [hbind]
  rfl

theorem SameExit.sources : parseEach displayExitError raw.allow "exit.allow" parseSource =
    (sourcesOf args.allow).mapError (fieldError "exit.allow") := by
  rw [parseEach, hsame.allow, Option.getD_some, parseEntries_eq, sourcesOf]

theorem SameExit.quota (profile : Profile)
    (hfits : args.quotaMib = 0 ∨ args.windowHours.toNat * 3600 < 2 ^ 64) :
    ∃ answer, quotaOf profile args.quotaMib args.windowHours = some answer ∧
      validateQuota raw = answer.mapError (fieldError "exit.quota") ∧
      ∀ text, answer = .error text → FlagFault args "exit.quota" text := by
  rcases eq_or_ne args.quotaMib 0 with hzero | hquota
  · refine ⟨.ok none, ?_, ?_, nofun⟩
    · rw [quotaOf]
      exact if_pos hzero
    · rw [validateQuota, hsame.quotaMib]
      simp only [Option.getD_some, hzero, if_true]
      rfl
  · have hmul := (mul_eq_saturatingMul_iff profile args.windowHours).mpr (hfits.resolve_left hquota)
    refine ⟨argsAnswer (policyFor args.quotaMib (saturatingMul args.windowHours 3600)), ?_, ?_, ?_⟩
    · rw [quotaOf_eq hquota, hmul, Option.map_some]
    · rw [validateQuota_eq hquota hsame.quotaMib hsame.windowHours, configAnswer_eq]
    · intro text htext
      cases hpolicy : policyFor args.quotaMib (saturatingMul args.windowHours 3600) with
      | ok quota =>
        rw [hpolicy] at htext
        cases htext
      | error error =>
        obtain ⟨hsecs, rfl⟩ := policyFor_error hquota hpolicy
        rw [hpolicy] at htext
        obtain rfl := Except.error.inj htext
        exact .quota hquota ((saturatingMul_eq_zero (by decide)).mp hsecs)

theorem SameExit.validateExit_eq {addr : SocketAddr} (hbind : parseBind args.bind = .ok addr) :
    validateExit raw = (do
      let sources ← (sourcesOf args.allow).mapError (fieldError "exit.allow")
      if sources.isEmpty && !addr.ip.isLoopback then throw (.daemonConfig noAllowlist)
      let quota ← validateQuota raw
      return some ⟨.explicit addr, allowlistFor sources, quota⟩) := by
  have hexplicit := hsame.explicitBind
  rw [hbind] at hexplicit
  rw [validateExit, hexplicit, hsame.sources, hsame.enabled]
  rfl

-- the exit's own binary and the daemon settle the same exit, or refuse for the same reason
theorem standalone_agrees (profile : Profile)
    (hfits : args.quotaMib = 0 ∨ args.windowHours.toNat * 3600 < 2 ^ 64) :
    ∃ answer, runConfig profile args = some answer ∧ ExitAgrees args raw answer (validateExit raw) := by
  obtain ⟨answer, hanswer, hquota, hfault⟩ := hsame.quota profile hfits
  cases hbind : parseBind args.bind with
  | error error =>
    have hexplicit := hsame.explicitBind
    rw [hbind] at hexplicit
    refine ⟨.error (displayExitError error), by rw [runConfig, hbind], ?_⟩
    rw [validateExit, hexplicit]
    exact .invalid (.bind hbind)
  | ok addr =>
    refine ⟨_, runConfig_eq hbind hanswer, ?_⟩
    rw [hsame.validateExit_eq hbind]
    cases hsources : sourcesOf args.allow with
    | error text =>
      obtain ⟨input, hflag, error, hbad, rfl⟩ := sourcesOf_error hsources
      exact .invalid (.source hflag hbad)
    | ok sources =>
      have hunshared : (sources.isEmpty && !addr.ip.isLoopback) = true ↔ Unshared args := by
        rw [Bool.and_eq_true, sourcesOf_empty_iff hsources, Bool.not_eq_true', Unshared]
        refine and_congr_right fun _ => ⟨fun hpublic => ⟨addr, hbind, hpublic⟩, ?_⟩
        rintro ⟨other, hother, hpublic⟩
        rwa [Except.ok.inj (hbind.symm.trans hother)]
      cases hrefused : sources.isEmpty && !addr.ip.isLoopback with
      | true =>
        have hnobody := hunshared.mp hrefused
        obtain rfl : sources = [] := List.isEmpty_iff.mp ((sourcesOf_empty_iff hsources).mpr hnobody.1)
        simp only [Except.mapError, ok_bind, hrefused, if_true]
        cases answer with
        | error text => exact .unsharedInvalid hnobody (hfault text rfl)
        | ok quota => exact .unshared hnobody hbind hquota
      | false =>
        have hshared : ¬Unshared args := fun h => by
          rw [hunshared.mpr h] at hrefused
          cases hrefused
        simp only [Except.mapError, ok_bind, hrefused, hquota]
        cases answer with
        | error text => exact .invalid (hfault text rfl)
        | ok quota => exact .same hshared fun _ => rfl

end

def lanArgs : Args := ⟨"192.168.1.2:8080".toList, ["192.168.1.7".toList], 1024, 24⟩

def lanRaw : RawExitSection :=
  { enabled := some true, bind := some lanArgs.bind, port := none, allow := some lanArgs.allow,
    quotaMib := some 1024, windowHours := some 24 }

def openArgs : Args := { lanArgs with allow := [] }

def openRaw : RawExitSection := { lanRaw with allow := some [] }

-- served by both; served by the binary alone
theorem standalone_agrees_lan :
    (∃ config settings, runConfig .debug lanArgs = some (.ok config) ∧
      validateExit lanRaw = .ok (some settings) ∧
      ExitAgrees lanArgs lanRaw (.ok config) (.ok (some settings))) ∧
    ∃ config, runConfig .debug openArgs = some (.ok config) ∧ config.allowlist = .loopbackOnly ∧
      validateExit openRaw = .error (.daemonConfig noAllowlist) ∧
      ExitAgrees openArgs openRaw (.ok config) (.error (.daemonConfig noAllowlist)) := by
  constructor
  · obtain ⟨answer, hanswer, hagrees⟩ :=
      @standalone_agrees lanArgs lanRaw ⟨rfl, rfl, by decide, rfl, rfl, rfl⟩ .debug (Or.inr (by decide))
    obtain rfl := Option.some.inj hanswer
    exact ⟨_, _, hanswer, rfl, hagrees⟩
  · obtain ⟨answer, hanswer, hagrees⟩ :=
      @standalone_agrees openArgs openRaw ⟨rfl, rfl, by decide, rfl, rfl, rfl⟩ .debug (Or.inr (by decide))
    obtain rfl := Option.some.inj hanswer
    exact ⟨_, hanswer, rfl, rfl, hagrees⟩

end SpiderNet.Node
