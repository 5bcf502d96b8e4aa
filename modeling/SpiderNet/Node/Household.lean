import SpiderNet.Exit.Metering
import SpiderNet.Node.Faults
import SpiderNet.Node.Wake

namespace SpiderNet.Node
open Exit Transition

-- the daemon and, from the moment it serves one, its exit
structure Household where
  daemon : Daemon
  exit : Option (ExitConfig × Service)

def Control.served : Control → Option ExitConfig
  | .serving config => some config
  | _ => none

-- what the accept loop ends with when the daemon leaves it; a loop that is dropped ends too
def closing : Control → Except ExitError Unit
  | .killing (.exit error) _ => .error error
  | _ => .ok ()

inductive HouseholdStep (start : Start) (fromSlice : Bytes → Except String Json) :
    Household → Household → Prop
  | daemon {d d' : Daemon} (exit : Option (ExitConfig × Service)) (h : DaemonStep start fromSlice d d')
      (hsame : d'.control.served = d.control.served) :
      HouseholdStep start fromSlice ⟨d, exit⟩ ⟨d', exit⟩
  | opens {d d' : Daemon} {config : ExitConfig} (exit : Option (ExitConfig × Service))
      (h : DaemonStep start fromSlice d d') (hbefore : d.control.served = none)
      (hafter : d'.control.served = some config) :
      HouseholdStep start fromSlice ⟨d, exit⟩ ⟨d', some (config, .start d'.now)⟩
  | closes {d d' : Daemon} {config : ExitConfig} (s : Service) (h : DaemonStep start fromSlice d d')
      (hbefore : d.control.served = some config) (hafter : d'.control.served = none) :
      HouseholdStep start fromSlice ⟨d, some (config, s)⟩
        ⟨d', some (config, { s with loop := .ended (closing d'.control) })⟩
  | connection (d : Daemon) {config : ExitConfig} {s s' : Service} (h : ServiceStep config s s')
      (hloop : s'.loop = s.loop) :
      HouseholdStep start fromSlice ⟨d, some (config, s)⟩ ⟨d, some (config, s')⟩

def startHousehold (config : ValidatedDaemonConfig) (dir : StateDir) (now : ℕ) (shutdown : Bool) :
    Household := ⟨startDaemon config dir now shutdown, none⟩

-- the exit runs under the config the daemon settled, and accepts while the daemon serves it
structure Hosted (config : ValidatedDaemonConfig) (d : Daemon) (exitConfig : ExitConfig) (s : Service) :
    Prop where
  settled : ∃ exit overlay, config.exit = some exit ∧ .reported overlay ∈ d.trace ∧
    exitConfig = ValidatedDaemonConfig.exitConfig exit overlay
  bound : .bound exitConfig.bind ∈ d.trace
  run : ∃ clock, serveUntil exitConfig clock s
  accepting : s.loop = .accepting ↔ d.control = .serving exitConfig

structure HouseholdOk (config : ValidatedDaemonConfig) (h : Household) : Prop where
  supervising : Supervising config h.daemon
  serving : ∀ exitConfig, h.daemon.control = .serving exitConfig →
    ∃ s, h.exit = some (exitConfig, s)
  hosted : ∀ exitConfig s, h.exit = some (exitConfig, s) → Hosted config h.daemon exitConfig s

theorem served_eq_some {control : Control} {config : ExitConfig} :
    control.served = some config ↔ control = .serving config := by
  cases control <;> simp [Control.served]

theorem trace_grows {start : Start} {fromSlice : Bytes → Except String Json} {d d' : Daemon}
    (h : DaemonStep start fromSlice d d') : d.trace ⊆ d'.trace := by
  cases h with
  | sidecarDies | spawned | wait | bind | terminate | graceEnds | kill =>
    exact List.subset_append_left _ _
  | _ => exact List.Subset.refl _

section
variable {start : Start} {fromSlice : Bytes → Except String Json} {d d' : Daemon}

theorem serving_entered (hs : Supervising start.config d) (h : DaemonStep start fromSlice d d')
    {exitConfig : ExitConfig} (hbefore : d.control.served = none)
    (hafter : d'.control.served = some exitConfig) :
    (∃ exit overlay, start.config.exit = some exit ∧ .reported overlay ∈ d'.trace ∧
      exitConfig = ValidatedDaemonConfig.exitConfig exit overlay) ∧
    .bound exitConfig.bind ∈ d'.trace := by
  cases h with
  | bind exit overlay hcontrol =>
    obtain ⟨_, _, hexit, hreported⟩ := hs.controlAt hcontrol
    obtain rfl := Option.some.inj hafter
    exact ⟨⟨exit, overlay, hexit, List.mem_append_left _ hreported, rfl⟩,
      List.mem_append_right _ List.mem_cons_self⟩
  | up deadline address hcontrol =>
    change (afterUp start.config address).served = some exitConfig at hafter
    rw [afterUp] at hafter
    cases hexit : start.config.exit <;> simp [hexit, Control.served] at hafter
  | pass | shutdownCompletes | sidecarDies => cases hbefore.symm.trans hafter
  | _ => cases hafter

theorem serving_left (h : DaemonStep start fromSlice d d') {exitConfig : ExitConfig}
    (hbefore : d.control = .serving exitConfig) (hafter : d'.control.served = none) {s : Service}
    (hloop : s.loop = .accepting) :
    ServiceStep exitConfig s { s with loop := .ended (closing d'.control) } := by
  cases h with
  | pass | shutdownCompletes | sidecarDies =>
    change d.control.served = none at hafter
    rw [hbefore] at hafter
    cases hafter
  | serveShutdown | serveSidecarExits => exact .shutdown hloop
  | acceptFails config kind hcontrol => exact .acceptFails kind hloop
  | spawn _ _ _ hcontrol _ | spawned _ hcontrol | spawnFails _ hcontrol | wait _ _ _ _ hcontrol _
  | up _ _ hcontrol | waitShutdown _ hcontrol | waitFails _ _ hcontrol | bind _ _ hcontrol
  | bindFails _ _ _ hcontrol | leechShutdown hcontrol _ | leechSidecarExits _ hcontrol _
  | terminateNone hcontrol _ | terminate hcontrol _ | graceEnds _ hcontrol _ _
  | terminated _ _ hcontrol _ _ | killNone _ hcontrol _ | kill _ hcontrol _ | killed _ _ hcontrol _ =>
    cases hbefore.symm.trans hcontrol

-- what has happened stays so; only whether the exit accepts is about the moment
theorem Hosted.later {config : ValidatedDaemonConfig} {exitConfig : ExitConfig} {s : Service}
    (hosted : Hosted config d exitConfig s) (h : DaemonStep start fromSlice d d') :
    (∃ exit overlay, config.exit = some exit ∧ .reported overlay ∈ d'.trace ∧
      exitConfig = ValidatedDaemonConfig.exitConfig exit overlay) ∧
    .bound exitConfig.bind ∈ d'.trace ∧ (∃ clock, serveUntil exitConfig clock s) ∧
    (s.loop = .accepting ↔ d.control = .serving exitConfig) := by
  obtain ⟨⟨exit, overlay, hsettled, hreported, hconfig⟩, hbound, hrun, haccepting⟩ := hosted
  exact ⟨⟨exit, overlay, hsettled, trace_grows h hreported, hconfig⟩, trace_grows h hbound, hrun,
    haccepting⟩

theorem HouseholdOk.step {h h' : Household} (hok : HouseholdOk start.config h)
    (hstep : HouseholdStep start fromSlice h h') : HouseholdOk start.config h' := by
  cases hstep with
  | @daemon d d' exit hdaemon hsame =>
    have hserves : ∀ config, d'.control = .serving config ↔ d.control = .serving config := by
      intro config
      rw [← served_eq_some, ← served_eq_some, hsame]
    refine ⟨hok.supervising.step hdaemon, fun config hserving => ?_, fun config s hexit => ?_⟩
    · exact hok.serving config ((hserves config).mp hserving)
    · obtain ⟨hsettled, hbound, hrun, haccepting⟩ := (hok.hosted config s hexit).later hdaemon
      exact ⟨hsettled, hbound, hrun, haccepting.trans (hserves config).symm⟩
  | @opens d d' config exit hdaemon hbefore hafter =>
    obtain ⟨hsettled, hbound⟩ := serving_entered hok.supervising hdaemon hbefore hafter
    have hserving := served_eq_some.mp hafter
    refine ⟨hok.supervising.step hdaemon, fun config' hserving' => ?_, fun config' s hexit => ?_⟩
    · obtain rfl := Control.serving.inj (hserving.symm.trans hserving')
      exact ⟨_, rfl⟩
    · obtain ⟨rfl, rfl⟩ := Prod.mk.inj (Option.some.inj hexit)
      exact ⟨hsettled, hbound, ⟨_, .refl _⟩, iff_of_true rfl hserving⟩
  | @closes d d' config s hdaemon hbefore hafter =>
    have hnot : ∀ config, d'.control ≠ .serving config := by
      intro config hserving
      rw [served_eq_some.mpr hserving] at hafter
      cases hafter
    refine ⟨hok.supervising.step hdaemon, fun config' hserving => absurd hserving (hnot config'),
      fun config' s' hexit => ?_⟩
    obtain ⟨rfl, rfl⟩ := Prod.mk.inj (Option.some.inj hexit)
    obtain ⟨hsettled, hbound, ⟨clock, hrun⟩, haccepting⟩ := (hok.hosted config s rfl).later hdaemon
    have hserving := served_eq_some.mp hbefore
    exact ⟨hsettled, hbound,
      ⟨clock, hrun.tail (serving_left hdaemon hserving hafter (haccepting.mpr hserving))⟩,
      iff_of_false (by simp) (hnot config)⟩
  | @connection d config s s' hservice hloop =>
    refine ⟨hok.supervising, fun config' hserving => ?_, fun config' t hexit => ?_⟩
    · obtain ⟨_, hexit⟩ := hok.serving config' hserving
      obtain ⟨rfl, _⟩ := Prod.mk.inj (Option.some.inj hexit)
      exact ⟨s', rfl⟩
    · obtain ⟨rfl, rfl⟩ := Prod.mk.inj (Option.some.inj hexit)
      obtain ⟨hsettled, hbound, ⟨clock, hrun⟩, haccepting⟩ := hok.hosted config s rfl
      exact ⟨hsettled, hbound, ⟨clock, hrun.tail hservice⟩, hloop ▸ haccepting⟩

theorem household_run {dir : StateDir} {now : ℕ} {shutdown : Bool} {h : Household}
    (hrun : Reachable (HouseholdStep start fromSlice) (startHousehold start.config dir now shutdown) h) :
    HouseholdOk start.config h := by
  refine hrun.invariant (fun hok hstep => hok.step hstep)
    ⟨startDaemon_supervising _ _ _ _, fun config hserving => ?_, fun _ _ hexit => by cases hexit⟩
  have hcontrol : (startDaemon start.config dir now shutdown).control.served = some config :=
    served_eq_some.mpr hserving
  rw [startDaemon] at hcontrol
  split at hcontrol <;> cases hcontrol

end

-- the daemon leaves the exit it serves for none
theorem served_next {start : Start} {fromSlice : Bytes → Except String Json} {d d' : Daemon}
    (h : DaemonStep start fromSlice d d') {config : ExitConfig}
    (hserving : d.control.served = some config) :
    d'.control.served = some config ∨ d'.control.served = none := by
  rw [served_eq_some] at hserving
  cases h with
  | pass | shutdownCompletes | sidecarDies => exact Or.inl (served_eq_some.mpr hserving)
  | bind exit overlay hcontrol => cases hserving.symm.trans hcontrol
  | up deadline address hcontrol => cases hserving.symm.trans hcontrol
  | _ => exact Or.inr rfl

-- the exit never keeps the daemon from what it can do alone
theorem daemon_lifts {start : Start} {fromSlice : Bytes → Except String Json} {d d' : Daemon}
    {exit : Option (ExitConfig × Service)} (hok : HouseholdOk start.config ⟨d, exit⟩)
    (hstep : DaemonStep start fromSlice d d') :
    ∃ exit', HouseholdStep start fromSlice ⟨d, exit⟩ ⟨d', exit'⟩ := by
  cases hbefore : d.control.served with
  | none =>
    cases hafter : d'.control.served with
    | none => exact ⟨_, .daemon exit hstep (hafter.trans hbefore.symm)⟩
    | some config => exact ⟨_, .opens exit hstep hbefore hafter⟩
  | some config =>
    rcases served_next hstep hbefore with hkept | hafter
    · exact ⟨_, .daemon exit hstep (hkept.trans hbefore.symm)⟩
    · obtain ⟨s, hexit⟩ := hok.serving config (served_eq_some.mp hbefore)
      obtain rfl : exit = some (config, s) := hexit
      exact ⟨_, .closes s hstep hbefore hafter⟩

theorem household_lifts {start : Start} {fromSlice : Bytes → Except String Json} {dir : StateDir}
    {now : ℕ} {shutdown : Bool} {d : Daemon}
    (hrun : Reachable (DaemonStep start fromSlice) (startDaemon start.config dir now shutdown) d) :
    ∃ exit, Reachable (HouseholdStep start fromSlice) (startHousehold start.config dir now shutdown)
      ⟨d, exit⟩ := by
  induction hrun with
  | refl => exact ⟨none, .refl _⟩
  | tail _ hlast ih =>
    obtain ⟨exit, hhousehold⟩ := ih
    obtain ⟨exit', hstep⟩ := daemon_lifts (household_run hhousehold) hlast
    exact ⟨exit', hhousehold.tail hstep⟩

-- the quota a config asks for, defaults filled in: what it bounds and over how long
def QuotaAsked (raw : RawExitSection) (quota : Option QuotaPolicy) : Prop :=
  (raw.quotaMib.getD defaultQuotaMib = 0 ∧ quota = none) ∨
  ∃ policy, quota = some policy ∧
    policy.maxBytes.toNat = min ((raw.quotaMib.getD defaultQuotaMib).toNat * 1048576) (2 ^ 64 - 1) ∧
    policy.window =
      min ((raw.windowHours.getD defaultWindowHours).toNat * 3600) (2 ^ 64 - 1) * 1000000000

theorem policyFor_ok {quotaMib secs : UInt64} {quota : QuotaPolicy}
    (h : policyFor quotaMib secs = .ok quota) :
    quota.maxBytes = saturatingMul quotaMib mib ∧ quota.window = fromSecs secs := by
  rw [policyFor, QuotaPolicy.tryNew] at h
  split_ifs at h
  obtain rfl := Except.ok.inj h
  exact ⟨rfl, rfl⟩

theorem validateQuota_asked {raw : RawExitSection} {quota : Option QuotaPolicy}
    (h : validateQuota raw = .ok quota) : QuotaAsked raw quota := by
  rw [validateQuota_getD] at h
  split_ifs at h with hmib
  · exact Or.inl ⟨hmib, (Except.ok.inj h).symm⟩
  · cases hpolicy : policyFor (raw.quotaMib.getD defaultQuotaMib)
        (saturatingMul (raw.windowHours.getD defaultWindowHours) 3600) with
    | error error =>
      rw [hpolicy] at h
      cases h
    | ok policy =>
      rw [hpolicy] at h
      obtain ⟨hbytes, hwindow⟩ := policyFor_ok hpolicy
      refine Or.inr ⟨policy, (Except.ok.inj h).symm, ?_, ?_⟩
      · rw [hbytes, toNat_saturatingMul]
        rfl
      · rw [hwindow, fromSecs, toNat_saturatingMul]
        rfl

-- where the bind and the port in the file put the exit
def BindAsked (raw : RawExitSection) (overlay : YggAddr) (addr : SocketAddr) : Prop :=
  (∃ text, raw.bind = some text ∧ text ≠ [] ∧ parseBind text = .ok addr) ∨
  (raw.bind.getD [] = [] ∧ addr = ⟨.v6 overlay.inner, raw.port.getD defaultExitPort⟩)

-- the exit goes from one state to the other in a step of the household's run
def ExitTakes (states : List Household) (config : ExitConfig) (mid next : Service) : Prop :=
  ∃ d d', Takes states ⟨d, some (config, mid)⟩ ⟨d', some (config, next)⟩

-- a connection that got as far as asking the resolver had the right to
structure Granted (raw : RawExitSection) (states : List Household) (config : ExitConfig) (pos : ℕ)
    (session : Session) : Prop where
  source : MayUse raw (.explicit config.bind) session.source
  origins : ∀ effect ∈ session.performed, ∀ addr, effect.origin = some addr → isPublicOrigin addr.ip
  metered : ∀ policy, config.quota = some policy → ∃ rest mid now later,
    Begun config (ExitTakes states config) pos session rest mid now later ∧
      mid.ledger = ledgerAfter policy mid.ops ∧
      recorded (windowAt policy mid.ops session.source now later) < policy.maxBytes.toNat

-- an exit is as the config file has it, for as long as the daemon lives
structure Enforced (raw : RawExitSection) (states : List Household) (d : Daemon) (config : ExitConfig)
    (s : Service) : Prop where
  enabled : raw.enabled = some true
  accepting : s.loop = .accepting ↔ d.control = .serving config
  bound : .bound config.bind ∈ d.trace
  listens : ∃ overlay, .reported overlay ∈ d.trace ∧ BindAsked raw overlay config.bind
  quota : QuotaAsked raw config.quota
  granted : ∀ (pos : ℕ) (session : Session), s.sessions[pos]? = some session →
    (∃ effect ∈ session.performed, effect.reachesOut = true) → Granted raw states config pos session

theorem explicitBind_none {bind : Option Text} (h : explicitBind bind = .ok none) : bind.getD [] = [] := by
  rcases bind with _ | _ | ⟨c, rest⟩
  · rfl
  · rfl
  · rw [explicitBind] at h
    cases hparse : parseBind (c :: rest) with
    | error error => simp [hparse] at h
    | ok parsed => simp [hparse] at h
    · exact List.cons_ne_nil c rest

theorem validateExit_bindAsked {raw : RawExitSection} {exit : ExitServiceSettings}
    (h : validateExit raw = .ok (some exit)) (overlay : YggAddr) :
    BindAsked raw overlay (exit.bind.resolve overlay) := by
  obtain ⟨explicit, _, _, bind, hexplicit, _, _, hgiven, hdefault, _, heq⟩ := validateExit_ok h
  split_ifs at heq
  obtain rfl := Option.some.inj heq
  cases explicit with
  | none =>
    refine Or.inr ⟨explicitBind_none hexplicit, ?_⟩
    rw [hdefault rfl]
    rfl
  | some addr =>
    obtain ⟨text, htext, hsome, hparse⟩ := explicitBind_some hexplicit
    refine Or.inl ⟨text, htext, hsome, ?_⟩
    rw [hgiven addr rfl]
    exact hparse

theorem MayUse.resolved {raw : RawExitSection} {bind : ExitBind} {source : IpAddr}
    (h : MayUse raw bind source) (overlay : YggAddr) :
    MayUse raw (.explicit (bind.resolve overlay)) source := by
  rcases h with hlisted | ⟨hnone, hloopback, text, addr, htext, hsome, hparse, hdev, rfl⟩
  · exact Or.inl hlisted
  · exact Or.inr ⟨hnone, hloopback, text, addr, htext, hsome, hparse, hdev, rfl⟩

theorem publicOrigins {config : ExitConfig} (hpolicy : config.originPolicy = .publicOnly)
    {source : IpAddr} {env : Exit.Surroundings} {effect : Effect}
    (hmem : effect ∈ (handleConnection config source env).1) {addr : SocketAddr}
    (horigin : effect.origin = some addr) : isPublicOrigin addr.ip := by
  rcases handleConnection_cases hpolicy source env with hrefused | ⟨host, port, hasked⟩ |
    ⟨host, port, effects, addrs, hserved, hwithin, hpermitted⟩
  · have hnone := (hrefused effect hmem).2 addr horigin
    cases hnone
  · rw [hasked] at hmem
    rw [List.mem_singleton.mp hmem] at horigin
    cases horigin
  · rw [hserved] at hmem
    rcases List.mem_cons.mp hmem with rfl | hmem
    · cases horigin
    · obtain ⟨_, _, _, _, _, _, hpublic, hin⟩ :=
        (hpermitted addr ((hwithin effect hmem).2 addr horigin)).checked
      exact hpublic addr hin

theorem ExitTakes.later {states : List Household} {config : ExitConfig} {mid next : Service}
    (h : ExitTakes states config mid next) (last : Household) :
    ExitTakes (states ++ [last]) config mid next := by
  obtain ⟨d, d', htakes⟩ := h
  exact ⟨d, d', htakes.later last⟩

section
variable {start : Start} {fromSlice : Bytes → Except String Json} {dir : StateDir} {now : ℕ}
  {shutdown : Bool} {states : List Household} {h : Household}

theorem household_stories (hrun : Run (HouseholdStep start fromSlice)
      (startHousehold start.config dir now shutdown) states h) {config : ExitConfig} {s : Service}
    (hexit : h.exit = some (config, s)) : Stories config (ExitTakes states config) s := by
  induction hrun generalizing config s with
  | start => cases hexit
  | next hrun hstep ih =>
    cases hstep with
    | daemon exit hdaemon hsame => exact (ih hexit).later fun htakes => htakes.later _
    | opens exit hdaemon hbefore hafter =>
      obtain ⟨rfl, rfl⟩ := Prod.mk.inj (Option.some.inj hexit)
      exact stories_start _ _ _
    | closes s hdaemon hbefore hafter =>
      obtain ⟨rfl, rfl⟩ := Prod.mk.inj (Option.some.inj hexit)
      exact (ih rfl).later fun htakes => htakes.later _
    | connection d hservice hloop =>
      obtain ⟨rfl, rfl⟩ := Prod.mk.inj (Option.some.inj hexit)
      exact (ih rfl).step (fun htakes => htakes.later _) ⟨d, d, hrun.takes_last _⟩ hservice

theorem ExitTakes.served (hrun : Run (HouseholdStep start fromSlice)
      (startHousehold start.config dir now shutdown) states h) {config : ExitConfig} {mid next : Service}
    (htakes : ExitTakes states config mid next) : ∃ clock, serveUntil config clock mid := by
  obtain ⟨d, d', htakes⟩ := htakes
  exact ((household_run (hrun.through htakes.mem).1).hosted config mid rfl).run

theorem granted_of_settled {raw : RawExitSection} {exit : ExitServiceSettings} {overlay : YggAddr}
    (hvalid : validateExit raw = .ok (some exit))
    (hrun : Run (HouseholdStep start fromSlice) (startHousehold start.config dir now shutdown) states h)
    {s : Service} (hexit : h.exit = some (ValidatedDaemonConfig.exitConfig exit overlay, s)) {pos : ℕ}
    {session : Session} (hget : s.sessions[pos]? = some session)
    (hout : ∃ effect ∈ session.performed, effect.reachesOut = true) :
    Granted raw states (ValidatedDaemonConfig.exitConfig exit overlay) pos session := by
  obtain ⟨effect, heffect, hreaches⟩ := hout
  have hstory := household_stories hrun hexit pos session hget
  unfold SessionStory at hstory
  cases hrest : session.rest with
  | none =>
    rw [hrest] at hstory
    rw [hstory] at heffect
    cases heffect
  | some rest =>
    rw [hrest] at hstory
    obtain ⟨mid, now, later, hbegun⟩ := hstory
    have hcourse : ∀ effect ∈ session.performed, effect ∈ (handleConnection
        (ValidatedDaemonConfig.exitConfig exit overlay) session.source
        (session.env.at mid.ledger now later)).1 :=
      fun effect heffect => hbegun.course ▸ List.mem_append_left rest heffect
    obtain ⟨hallowed, hadmitted⟩ := handleConnection_reachesOut (hcourse effect heffect) hreaches
    obtain ⟨clock, hmid⟩ := hbegun.decided.served hrun
    refine ⟨(validateExit_mayUse hvalid hallowed).resolved overlay,
      fun effect heffect addr horigin => publicOrigins rfl (hcourse effect heffect) horigin,
      fun policy hquota => ⟨rest, mid, now, later, hbegun, (serveUntil_meterInv hquota hmid).ledger, ?_⟩⟩
    rw [hquota] at hadmitted
    exact (serveUntil_allowed_iff hmid hquota session.source now later).mp hadmitted

end

theorem household_enforced {raw : RawDaemonConfig} {start : Start}
    {fromSlice : Bytes → Except String Json} {dir : StateDir} {now : ℕ} {shutdown : Bool}
    {states : List Household} {h : Household} (hvalid : validate raw = .ok start.config)
    (hrun : Run (HouseholdStep start fromSlice) (startHousehold start.config dir now shutdown) states h)
    {config : ExitConfig} {s : Service} (hexit : h.exit = some (config, s)) :
    Enforced raw.exit states h.daemon config s := by
  obtain ⟨⟨exit, overlay, hsettled, hreported, rfl⟩, hbound, _, haccepting⟩ :=
    (household_run hrun.reachable).hosted config s hexit
  have hvalidated := validate_exit_eq hvalid
  rw [hsettled] at hvalidated
  refine ⟨(validateExit_isSome hvalidated).mp rfl, haccepting, hbound,
    ⟨overlay, hreported, validateExit_bindAsked hvalidated overlay⟩, ?_,
    fun pos session hget hout => granted_of_settled hvalidated hrun hexit hget hout⟩
  obtain ⟨_, _, quota, _, _, _, _, _, _, hquota, heq⟩ := validateExit_ok hvalidated
  split_ifs at heq
  obtain rfl := Option.some.inj heq
  exact validateQuota_asked hquota

theorem loop_of_accepting {config : ExitConfig} {s s' : Service} (h : ServiceStep config s s')
    (haccepting : s'.loop = .accepting) : s'.loop = s.loop := by
  cases h with
  | accepted => rfl
  | shutdown | acceptFails => cases haccepting
  | decided => exact Service.ask_loop
  | performed => exact Service.charge_loop

-- what the exit does while it accepts leaves the daemon where it is
theorem service_lifts {start : Start} {fromSlice : Bytes → Except String Json} (d : Daemon)
    {config : ExitConfig} {s s' : Service} (hrun : Reachable (ServiceStep config) s s')
    (haccepting : s'.loop = .accepting) :
    Reachable (HouseholdStep start fromSlice) ⟨d, some (config, s)⟩ ⟨d, some (config, s')⟩ := by
  induction hrun with
  | refl => exact .refl _
  | tail _ hlast ih =>
    have hloop := loop_of_accepting hlast haccepting
    exact (ih (hloop ▸ haccepting)).tail (.connection d hlast hloop)

def hostedRaw : RawDaemonConfig :=
  { sampleRaw with exit := ⟨some true, some "127.0.0.1:3128".toList, none, none, some 1, some 1⟩ }

def hostedSettings : ExitServiceSettings :=
  ⟨.explicit ⟨localhost, 3128⟩, .loopbackOnly, some ⟨mib, fromSecs 3600, by decide, by decide⟩⟩

def hostedStart : Start :=
  { config := { sampleConfig with
      stateDir := defaultStateDir
      manage := false
      noMulticast := false
      exit := some hostedSettings }
    umask := 0o022
    output := .notRun .other
    render := fun _ => [] }

theorem hostedRaw_valid : validate hostedRaw = .ok hostedStart.config := rfl

-- its overlay is up at once and its exit listens
theorem hosted_serves : ∃ d d' overlay, d'.now = 0 ∧ d.control.served = none ∧
    d'.control.served = some (ValidatedDaemonConfig.exitConfig hostedSettings overlay) ∧
    DaemonStep hostedStart (fun _ => .ok sampleSelf) d d' ∧
    Reachable (DaemonStep hostedStart fun _ => .ok sampleSelf)
      (startDaemon hostedStart.config ⟨false, none, none⟩ 0 false) d := by
  have hasking := @startDaemon_unmanaged hostedStart.config rfl ⟨false, none, none⟩ 0
  rw [hasking]
  exact ⟨_, _, _, rfl, rfl, rfl, .bind _ _ _ rfl,
    @binding_reached hostedStart (fun _ => .ok sampleSelf) _ [] _ rfl rfl _ _ _ _ rfl rfl⟩

-- its exit has served a client and is ready for the next
theorem household_enforced_busy : ∃ states d config s, Enforced hostedRaw.exit states d config s ∧
    s.loop = .accepting ∧ ∃ session ∈ s.sessions, .connected exampleOrigin ∈ session.performed := by
  obtain ⟨d, d', overlay, hnow, hbefore, hafter, hbind, hdaemon⟩ := hosted_serves
  obtain ⟨exit, hhousehold⟩ := household_lifts hdaemon
  have hopened := hhousehold.tail (.opens exit hbind hbefore hafter)
  rw [hnow] at hopened
  obtain ⟨s, hserved, haccepting, hget⟩ :=
    busyService (ValidatedDaemonConfig.exitConfig hostedSettings overlay)
  obtain ⟨states, hrun⟩ := (hopened.trans (service_lifts d' hserved haccepting)).run
  refine ⟨states, d', _, s, household_enforced hostedRaw_valid hrun rfl, haccepting, _,
    List.mem_of_getElem? hget, ?_⟩
  rw [busySurroundings_effects rfl rfl rfl]
  simp

end SpiderNet.Node
