import SpiderNet.Node.ExitPolicy

namespace SpiderNet.Node
open Exit

-- the two builds differ in what a product that does not fit does
inductive Profile where
  | debug
  | release
  deriving DecidableEq

-- `none` is a panic
def Profile.mul : Profile → UInt64 → UInt64 → Option UInt64
  | .debug, a, b => if a.toNat * b.toNat < 2 ^ 64 then some (a * b) else none
  | .release, a, b => some (a * b)

structure Args where
  bind : Text
  allow : List Text
  quotaMib : UInt64
  windowHours : UInt64

def quotaDisabled : UInt64 := 0

def allowlistOf (allow : List Text) : Except String SourceAllowlist :=
  if allow.isEmpty then .ok .loopbackOnly
  else (allow.mapM fun addr => (parseSource addr).mapError displayExitError).map .new

def quotaOf (profile : Profile) (quotaMib windowHours : UInt64) :
    Option (Except String (Option QuotaPolicy)) :=
  if quotaMib = quotaDisabled then some (.ok none)
  else do
    let maxBytes := saturatingMul quotaMib (1024 * 1024)
    let secs ← profile.mul windowHours 3600
    match QuotaPolicy.tryNew maxBytes (fromSecs secs) with
    | .error error => some (.error (displayExitError error))
    | .ok quota => some (.ok (some quota))

-- `run` of the exit's own binary, up to the config it serves
def runConfig (profile : Profile) (args : Args) : Option (Except String ExitConfig) :=
  match parseBind args.bind with
  | .error error => some (.error (displayExitError error))
  | .ok bind =>
    match allowlistOf args.allow with
    | .error error => some (.error error)
    | .ok allowlist => do
      let quota ← quotaOf profile args.quotaMib args.windowHours
      return quota.map fun quota => .new bind allowlist quota

inductive SameQuota (quotaMib windowHours : UInt64) :
    Except String (Option QuotaPolicy) → Except NodeError (Option QuotaPolicy) → Prop
  | unlimited : SameQuota quotaMib windowHours (.ok none) (.ok none)
  | limited (quota : QuotaPolicy) : SameQuota quotaMib windowHours (.ok (some quota)) (.ok (some quota))
  | invalid (hquota : quotaMib ≠ 0) (hwindow : windowHours = 0) (reason : String) :
      SameQuota quotaMib windowHours (.error (displayExitError (.invalidQuota reason)))
        (.error (fieldError "exit.quota" (displayExitError (.invalidQuota reason))))

section
variable {quotaMib windowHours : UInt64} {quota : Option QuotaPolicy}

theorem SameQuota.of_args {answer : Except NodeError (Option QuotaPolicy)}
    (h : SameQuota quotaMib windowHours (.ok quota) answer) : answer = .ok quota := by
  cases h <;> rfl

theorem SameQuota.of_config {answer : Except String (Option QuotaPolicy)}
    (h : SameQuota quotaMib windowHours answer (.ok quota)) : answer = .ok quota := by
  cases h <;> rfl

end

-- the quota of a window of so many seconds, however the path came by them
def policyFor (quotaMib secs : UInt64) : Except ExitError QuotaPolicy :=
  QuotaPolicy.tryNew (saturatingMul quotaMib mib) (fromSecs secs)

def argsAnswer : Except ExitError QuotaPolicy → Except String (Option QuotaPolicy)
  | .error error => .error (displayExitError error)
  | .ok quota => .ok (some quota)

def configAnswer : Except ExitError QuotaPolicy → Except NodeError (Option QuotaPolicy)
  | .error error => .error (fieldError "exit.quota" (displayExitError error))
  | .ok quota => .ok (some quota)

theorem toNat_saturatingMul (a b : UInt64) :
    (saturatingMul a b).toNat = min (a.toNat * b.toNat) (2 ^ 64 - 1) := toNat_toU64_min _

theorem fromSecs_injective {a b : UInt64} (h : fromSecs a = fromSecs b) : a = b := by
  apply UInt64.toNat_inj.mp
  exact Nat.eq_of_mul_eq_mul_right (by decide : 0 < 10 ^ 9) h

theorem saturatingMul_eq_zero {a b : UInt64} (hb : b ≠ 0) : saturatingMul a b = 0 ↔ a = 0 := by
  have hpos : b.toNat ≠ 0 := fun h => hb (UInt64.toNat_inj.mp h)
  have hzero : (0 : UInt64).toNat = 0 := rfl
  rw [← UInt64.toNat_inj, ← UInt64.toNat_inj, toNat_saturatingMul, hzero]
  constructor
  · intro h
    have hproduct : a.toNat * b.toNat = 0 := by omega
    exact (Nat.mul_eq_zero.mp hproduct).resolve_right hpos
  · intro h
    rw [h, Nat.zero_mul]
    rfl

section
variable {quotaMib : UInt64} (hquota : quotaMib ≠ 0)
include hquota

theorem policyFor_zero : ∃ reason, policyFor quotaMib 0 = .error (.invalidQuota reason) := by
  have hbytes : saturatingMul quotaMib mib ≠ 0 := mt (saturatingMul_eq_zero (by decide)).mp hquota
  have hwindow : fromSecs 0 = 0 := Nat.zero_mul _
  rw [policyFor, QuotaPolicy.tryNew, dif_neg hbytes, dif_pos hwindow]
  exact ⟨_, rfl⟩

theorem policyFor_pos {secs : UInt64} (hsecs : secs ≠ 0) :
    ∃ quota, policyFor quotaMib secs = .ok quota ∧ quota.window = fromSecs secs := by
  have hbytes : saturatingMul quotaMib mib ≠ 0 := mt (saturatingMul_eq_zero (by decide)).mp hquota
  have hwindow : fromSecs secs ≠ 0 := fun h => hsecs (fromSecs_injective (b := 0) h)
  rw [policyFor, QuotaPolicy.tryNew, dif_neg hbytes, dif_neg hwindow]
  exact ⟨_, rfl, rfl⟩

theorem quotaOf_eq (profile : Profile) (windowHours : UInt64) :
    quotaOf profile quotaMib windowHours =
      (profile.mul windowHours 3600).map fun secs => argsAnswer (policyFor quotaMib secs) := by
  have henabled : quotaMib ≠ quotaDisabled := hquota
  rw [quotaOf, if_neg henabled]
  cases profile.mul windowHours 3600 with
  | none => rfl
  | some secs =>
    rw [Option.map_some, Option.bind_eq_bind, Option.bind_some, policyFor, mib]
    cases QuotaPolicy.tryNew (saturatingMul quotaMib (1024 * 1024)) (fromSecs secs) <;> rfl

theorem validateQuota_eq {raw : RawExitSection} {windowHours : UInt64}
    (hmib : raw.quotaMib = some quotaMib) (hhours : raw.windowHours = some windowHours) :
    validateQuota raw = configAnswer (policyFor quotaMib (saturatingMul windowHours 3600)) := by
  rw [validateQuota]
  simp only [hmib, hhours, Option.getD_some, hquota, if_false]
  rw [policyFor]
  cases QuotaPolicy.tryNew (saturatingMul quotaMib mib) (fromSecs (saturatingMul windowHours 3600)) <;>
    rfl

theorem sameQuota_iff {windowHours secs secs' : UInt64} (hzero : secs' = 0 ↔ windowHours = 0) :
    SameQuota quotaMib windowHours (argsAnswer (policyFor quotaMib secs))
      (configAnswer (policyFor quotaMib secs')) ↔ secs = secs' := by
  obtain ⟨reason, hinvalid⟩ := policyFor_zero hquota
  constructor
  · intro hsame
    rcases eq_or_ne secs 0 with rfl | hsecs
    · rcases eq_or_ne secs' 0 with rfl | hsecs'
      · rfl
      · obtain ⟨quota', hquota', _⟩ := policyFor_pos hquota hsecs'
        rw [hinvalid, hquota'] at hsame
        cases hsame.of_config
    · obtain ⟨quota, hok, hwindow⟩ := policyFor_pos hquota hsecs
      rcases eq_or_ne secs' 0 with rfl | hsecs'
      · rw [hinvalid, hok] at hsame
        cases hsame.of_args
      · obtain ⟨quota', hok', hwindow'⟩ := policyFor_pos hquota hsecs'
        rw [hok, hok'] at hsame
        obtain rfl := Option.some.inj (Except.ok.inj hsame.of_args)
        exact fromSecs_injective (hwindow.symm.trans hwindow')
  · rintro rfl
    rcases eq_or_ne secs 0 with rfl | hsecs
    · rw [hinvalid]
      exact .invalid hquota (hzero.mp rfl) _
    · obtain ⟨quota, hok, _⟩ := policyFor_pos hquota hsecs
      rw [hok]
      exact .limited quota

end

-- a wrapped product of an even factor is even, so it is never the largest u64
theorem mul_eq_saturatingMul_iff (profile : Profile) (hours : UInt64) :
    profile.mul hours 3600 = some (saturatingMul hours 3600) ↔ hours.toNat * 3600 < 2 ^ 64 := by
  have hfactor : (3600 : UInt64).toNat = 3600 := rfl
  have hwrapped : (hours * 3600).toNat = hours.toNat * 3600 % 2 ^ 64 := UInt64.toNat_mul _ _
  have hcapped := toNat_saturatingMul hours 3600
  rw [hfactor] at hcapped
  have hequal : hours * 3600 = saturatingMul hours 3600 ↔ hours.toNat * 3600 < 2 ^ 64 := by
    rw [← UInt64.toNat_inj, hwrapped, hcapped]
    omega
  cases profile with
  | release => exact (Option.some_inj).trans hequal
  | debug =>
    rw [Profile.mul, hfactor]
    split_ifs with hfits
    · exact (Option.some_inj).trans hequal
    · exact iff_of_false nofun hfits

theorem quotas_agree {quotaMib windowHours : UInt64} {raw : RawExitSection} (profile : Profile)
    (hquota : quotaMib ≠ 0) (hmib : raw.quotaMib = some quotaMib)
    (hhours : raw.windowHours = some windowHours) :
    (∃ answer, quotaOf profile quotaMib windowHours = some answer ∧
      SameQuota quotaMib windowHours answer (validateQuota raw)) ↔
    profile.mul windowHours 3600 = some (saturatingMul windowHours 3600) := by
  have hzero : saturatingMul windowHours 3600 = 0 ↔ windowHours = 0 :=
    saturatingMul_eq_zero (by decide)
  rw [quotaOf_eq hquota, validateQuota_eq hquota hmib hhours]
  constructor
  · rintro ⟨answer, hanswer, hsame⟩
    obtain ⟨secs, hsecs, rfl⟩ := Option.map_eq_some_iff.mp hanswer
    rw [hsecs, (sameQuota_iff hquota hzero).mp hsame]
  · intro hsecs
    rw [hsecs]
    exact ⟨_, rfl, (sameQuota_iff hquota hzero).mpr rfl⟩

-- the two paths answer alike, and no step of theirs leaves its type
structure QuotaAgreement (profile : Profile) (quotaMib windowHours : UInt64) (raw : RawExitSection) :
    Prop where
  inRange : (quotaOf .debug quotaMib windowHours).isSome
  same : ∃ answer, quotaOf profile quotaMib windowHours = some answer ∧
    SameQuota quotaMib windowHours answer (validateQuota raw)

theorem quotaAgreement_of_disabled (profile : Profile) (windowHours : UInt64) {raw : RawExitSection}
    (hmib : raw.quotaMib = some 0) : QuotaAgreement profile 0 windowHours raw := by
  have hunlimited : validateQuota raw = .ok none := by
    rw [validateQuota]
    simp only [hmib, Option.getD_some, if_true]
  refine ⟨rfl, .ok none, rfl, ?_⟩
  rw [hunlimited]
  exact .unlimited

theorem quota_same_iff (profile : Profile) (quotaMib windowHours : UInt64) (raw : RawExitSection)
    (hmib : raw.quotaMib = some quotaMib) (hhours : raw.windowHours = some windowHours) :
    QuotaAgreement profile quotaMib windowHours raw ↔
      quotaMib = 0 ∨ windowHours.toNat * 3600 < 2 ^ 64 := by
  rcases eq_or_ne quotaMib 0 with rfl | hquota
  · exact iff_of_true (quotaAgreement_of_disabled profile windowHours hmib) (Or.inl rfl)
  · have hagree : ∀ profile, (∃ answer, quotaOf profile quotaMib windowHours = some answer ∧
        SameQuota quotaMib windowHours answer (validateQuota raw)) ↔ windowHours.toNat * 3600 < 2 ^ 64 :=
      fun profile =>
        (quotas_agree profile hquota hmib hhours).trans (mul_eq_saturatingMul_iff profile windowHours)
    rw [or_iff_right hquota]
    refine ⟨fun h => (hagree profile).mp h.same, fun hfits => ⟨?_, (hagree profile).mpr hfits⟩⟩
    obtain ⟨answer, hanswer, _⟩ := (hagree .debug).mpr hfits
    exact Option.isSome_of_eq_some hanswer

def dayRaw : RawExitSection :=
  { enabled := some true, bind := none, port := none, allow := none, quotaMib := some 1024,
    windowHours := some 24 }

theorem quota_same_iff_day : QuotaAgreement .release 1024 24 dayRaw :=
  (quota_same_iff .release 1024 24 dayRaw rfl rfl).mpr (Or.inr (by decide))

-- 2 ^ 60 hours
def endless : UInt64 := 1152921504606846976

def endlessRaw : RawExitSection := { dayRaw with windowHours := some endless }

theorem quota_wraps : quotaOf .debug 1024 endless = none ∧
    quotaOf .release 1024 endless = some (.error "invalid quota: window must be non-zero") ∧
    (∃ quota, validateQuota endlessRaw = .ok (some quota) ∧ quota.window = (2 ^ 64 - 1) * 10 ^ 9) ∧
    ∀ profile, ¬QuotaAgreement profile 1024 endless endlessRaw :=
  ⟨rfl, rfl, ⟨_, rfl, rfl⟩, fun _ h => Bool.false_ne_true h.inRange⟩

theorem runConfig_quota {profile : Profile} {args : Args} {config : ExitConfig}
    (h : runConfig profile args = some (.ok config)) :
    quotaOf profile args.quotaMib args.windowHours = some (.ok config.quota) := by
  rw [runConfig] at h
  cases hbind : parseBind args.bind with
  | error error => simp [hbind] at h
  | ok bind =>
    simp only [hbind] at h
    cases hallow : allowlistOf args.allow with
    | error error => simp [hallow] at h
    | ok allowlist =>
      simp only [hallow, Option.bind_eq_bind, Option.bind_eq_some_iff] at h
      obtain ⟨answer, hanswer, hconfig⟩ := h
      obtain ⟨quota, rfl, rfl⟩ := map_eq_ok.mp (Option.some.inj hconfig)
      exact hanswer

-- both binaries, started with the same values, enforce the same quota
theorem configs_same_quota {profile : Profile} {args : Args} {raw : RawExitSection} {config : ExitConfig}
    {settings : ExitServiceSettings} (hmib : raw.quotaMib = some args.quotaMib)
    (hhours : raw.windowHours = some args.windowHours)
    (hfits : args.windowHours.toNat * 3600 < 2 ^ 64)
    (hrun : runConfig profile args = some (.ok config))
    (hvalid : validateExit raw = .ok (some settings)) : settings.quota = config.quota := by
  obtain ⟨explicit, sources, quota, bind, _, _, _, _, _, hquota, hsettings⟩ := validateExit_ok hvalid
  have hsame : SameQuota args.quotaMib args.windowHours (.ok config.quota) (validateQuota raw) := by
    have hderived := runConfig_quota hrun
    rcases eq_or_ne args.quotaMib 0 with hzero | hne
    · rw [hzero] at hmib hderived ⊢
      obtain ⟨answer, hanswer, hsame⟩ :=
        (quotaAgreement_of_disabled profile args.windowHours hmib).same
      rwa [Option.some.inj (hanswer.symm.trans hderived)] at hsame
    · obtain ⟨answer, hanswer, hsame⟩ := (quotas_agree profile hne hmib hhours).mpr
        ((mul_eq_saturatingMul_iff profile _).mpr hfits)
      rwa [Option.some.inj (hanswer.symm.trans hderived)] at hsame
  rw [hquota] at hsame
  obtain rfl := Except.ok.inj hsame.of_args
  split_ifs at hsettings with henabled
  rw [Option.some.inj hsettings]

end SpiderNet.Node
