import SpiderNet.Fetch.Owners
import SpiderNet.Fetch.RetryRun
import SpiderNet.Fetch.Tracker
import SpiderNet.Text
import SpiderNet.Library.Decimal

namespace SpiderNet.Fetch
open Transition ListFacts

-- what the URL parser makes of a proxy address
structure Url where
  scheme : String
  text : String

def Egress.parseProxy (parseUrl : Text → Option Url) (input : Text) : Except FetchError Egress :=
  match parseUrl input with
  | none => .error (.invalidUrl (.ofList input))
  | some url =>
    if url.scheme = "http" ∨ url.scheme = "https" then .ok (.proxy url.text)
    else .error (.invalidUrl (.ofList input))

def nonZero (bits : Nat) (text : Text) : Option (NonZero bits) :=
  match Decimal.parse (2 ^ bits) (trim text) with
  | none => none
  | some value => if h : 0 < value ∧ value < 2 ^ bits then some ⟨value, h.1, h.2⟩ else none

def parseEgress (parseUrl : Text → Option Url) (pair rest : Text) : Except String (Text × Egress) :=
  match splitOnce '@' rest with
  | none => .ok (rest, .direct)
  | some (weight, proxy) =>
    match Egress.parseProxy parseUrl (trim proxy) with
    | .ok egress => .ok (weight, egress)
    | .error _ =>
      .error ("invalid proxy in exit spec `" ++ .ofList pair ++ "`: invalid url `" ++
        .ofList (trim proxy) ++ "`: scheme must be http or https")

def parseExit (parseUrl : Text → Option Url) (pair : Text) : Except String ExitSpec :=
  match splitOnce '=' pair with
  | none => .error ("invalid exit spec `" ++ .ofList pair ++ "`, expected `id=weight`")
  | some (id, rest) =>
    match nonZero 8 id with
    | none => .error ("invalid exit id `" ++ .ofList id ++ "` (must be a non-zero number)")
    | some id => do
      let (weight, egress) ← parseEgress parseUrl pair rest
      match nonZero 32 weight with
      | none => .error ("invalid exit weight `" ++ .ofList weight ++ "` (must be non-zero)")
      | some weight => return ⟨id, weight, egress⟩

def parseExits (parseUrl : Text → Option Url) (spec : Text) : Except String (List ExitSpec) :=
  (spec.splitOn ',').mapM (parseExit parseUrl)

-- `client` is whether the HTTP client of an exit can be built
def registerSpecs (client : ExitSpec → Except FetchError Unit) :
    List ExitSpec → ExitRegistry → Except FetchError ExitRegistry
  | [], registry => .ok registry
  | spec :: rest, registry => do
    client spec
    registerSpecs client rest (registry.insert spec.id spec.egress)

def registryFromSpecs (client : ExitSpec → Except FetchError Unit) (specs : List ExitSpec) :
    Except FetchError ExitRegistry := registerSpecs client specs .empty

theorem registerSpecs_ok {client : ExitSpec → Except FetchError Unit} {specs : List ExitSpec}
    {registry registry' : ExitRegistry} (h : registerSpecs client specs registry = .ok registry')
    (id : ExitId) : registry'.get? id = registry.get? id ∧ id ∉ specs.map (·.id) ∨
      ∃ spec ∈ specs, spec.id = id ∧ registry'.get? id = some spec.egress := by
  induction specs generalizing registry with
  | nil =>
    obtain rfl : registry = registry' := by simpa [registerSpecs] using h
    exact Or.inl ⟨rfl, by simp⟩
  | cons spec rest ih =>
    simp only [registerSpecs, bind_eq_ok] at h
    obtain ⟨_, _, hrest⟩ := h
    rcases ih hrest with ⟨hget, hnone⟩ | ⟨later, hin, hid, hget⟩
    · rw [OrdMap.get?_insert] at hget
      split_ifs at hget with heq
      · exact Or.inr ⟨spec, by simp, heq, hget⟩
      · exact Or.inl ⟨hget, by simp [Ne.symm heq, hnone]⟩
    · exact Or.inr ⟨later, List.mem_cons_of_mem _ hin, hid, hget⟩

theorem registryFromSpecs_get? {client : ExitSpec → Except FetchError Unit} {specs : List ExitSpec}
    {registry : ExitRegistry} (h : registryFromSpecs client specs = .ok registry) {spec : ExitSpec}
    (hin : spec ∈ specs) :
    ∃ kept ∈ specs, kept.id = spec.id ∧ registry.get? spec.id = some kept.egress := by
  rcases registerSpecs_ok h spec.id with ⟨_, hnone⟩ | hkept
  · exact absurd (List.mem_map_of_mem hin) hnone
  · exact hkept

theorem registerSpecs_total (specs : List ExitSpec) (registry : ExitRegistry) :
    ∃ registry', registerSpecs (fun _ => .ok ()) specs registry = .ok registry' := by
  induction specs generalizing registry with
  | nil => exact ⟨registry, rfl⟩
  | cons spec rest ih => exact ih (registry.insert spec.id spec.egress)

-- a segment is not requested, or its first request went through the exit it is planned on
def FirstTry (pos : ℕ) (events : List (ℕ × ProgressEvent)) (task : TaskState) : Prop :=
  (startedExits pos events = [] ∧ (task = spawn task.seg ∨ ∃ error, task.phase = .aborted error)) ∨
    (startedExits pos events).head? = some task.seg.exit

section
variable {cfg : Config} {pos : ℕ} {task task' : TaskState} {shared shared' : Shared}

theorem FirstTry.quiet {events events' : List (ℕ × ProgressEvent)}
    (hfires : Fires cfg pos task shared task' shared')
    (hevents : startedExits pos events' = startedExits pos events)
    (hphase : task.phase ≠ .starting) (h : FirstTry pos events task) : FirstTry pos events' task' := by
  rcases h with ⟨_, hspawned | ⟨error, haborted⟩⟩ | hfirst
  · exact absurd (congrArg TaskState.phase hspawned) hphase
  · exact absurd haborted (hfires.not_aborted error)
  · exact Or.inr (by rw [hevents, hfires.seg_eq, hfirst])

theorem Fires.firstTry (hfires : Fires cfg pos task shared task' shared')
    (h : FirstTry pos shared.events task) : FirstTry pos shared'.events task' := by
  have hquiet := fun hevents => @FirstTry.quiet _ _ _ _ _ _ shared.events shared'.events hfires hevents
  cases hfires with
  | started hphase hknown =>
    rcases h with ⟨hnone, hspawned | ⟨error, haborted⟩⟩ | hfirst
    · have hexit : task.exit = task.seg.exit := congrArg TaskState.exit hspawned
      exact Or.inr (by rw [Shared.emit, startedExits_started, hnone, hexit]; rfl)
    · rw [hphase] at haborted
      cases haborted
    · exact Or.inr (by rw [Shared.emit, startedExits_started, List.head?_append, hfirst]; rfl)
  | unknown hphase hunknown =>
    rcases h with ⟨hnone, _⟩ | hfirst
    · exact Or.inl ⟨hnone, Or.inr ⟨_, rfl⟩⟩
    · exact Or.inr hfirst
  | refused hphase hnetwork hopen => exact hquiet rfl (by simp [hphase]) h
  | opened hphase hnetwork hopen => exact hquiet rfl (by simp [hphase]) h
  | chunk hphase => exact hquiet rfl (by simp [hphase]) h
  | finished duration hphase hclose =>
    exact hquiet (startedExits_quiet rfl _) (by simp [hphase]) h
  | broken removed hphase hclose => exact hquiet (by simp) (by simp [hphase]) h
  | reported hphase => exact hquiet (startedExits_quiet rfl _) (by simp [hphase]) h
  | removed removed hphase => exact hquiet (by simp) (by simp [hphase]) h
  | marked now hphase hretryable => exact hquiet rfl (by simp [hphase]) h
  | gaveUp hphase hfinal => exact hquiet rfl (by simp [hphase]) h
  | exhausted hphase hlimit => exact hquiet rfl (by simp [hphase]) h
  | retried hphase hlimit => exact hquiet rfl (by simp [hphase]) h

end

structure FirstTries (cfg : Config) (s : RunState) : Prop where
  segments : s.tasks.map (·.seg) = cfg.segments ∨ s.tasks = []
  tries : ∀ pos task, s.tasks[pos]? = some task → FirstTry pos s.shared.events task
  nobody : ∀ pos, s.tasks[pos]? = none → startedExits pos s.shared.events = []

theorem FirstTries.step {cfg : Config} {s s' : RunState} (h : FirstTries cfg s)
    (hstep : Step cfg s s') : FirstTries cfg s' := by
  cases hstep with
  | task action hget hadmits hstep =>
    rename_i pos task task' shared'
    have hfires := taskStep_fires hadmits hstep
    refine ⟨?_, fun other task'' hother => ?_, fun other hnone => ?_⟩
    · rcases h.segments with hsegments | hnil
      · exact Or.inl ((ListFacts.map_set_same (·.seg) _ hget hfires.seg_eq).trans hsegments)
      · rw [hnil] at hget
        cases hget
    · rcases getElem?_set_cases hother with ⟨rfl, rfl, _⟩ | ⟨hne, hother⟩
      · exact hfires.firstTry (h.tries _ task hget)
      · rw [FirstTry, hfires.started_other (Ne.symm hne)]
        exact h.tries other task'' hother
    · have hout : s.tasks[other]? = none := by simpa using hnone
      have hne : pos ≠ other := by
        rintro rfl
        rw [hget] at hout
        cases hout
      rw [hfires.started_other hne]
      exact h.nobody other hout
  | caller hstep => exact ⟨h.segments, h.tries, h.nobody⟩

theorem firstTries_start (cfg : Config) (created : Bool) (parts : Dir) :
    FirstTries cfg (startRun cfg created parts) := by
  unfold startRun
  split
  · split
    · exact ⟨Or.inr rfl, nofun, fun _ _ => rfl⟩
    · refine ⟨Or.inl ?_, fun pos task hget => Or.inl ⟨rfl, Or.inl ?_⟩, fun _ _ => rfl⟩
      · rw [List.map_map]
        exact List.map_id _
      · obtain ⟨seg, _, rfl⟩ := List.mem_map.mp (List.mem_of_getElem? hget)
        rfl
  · exact ⟨Or.inr rfl, nofun, fun _ _ => rfl⟩

theorem first_request {cfg : Config} {created : Bool} {parts : Dir} {s : RunState}
    (hrun : runSegments cfg created parts s) {pos : ℕ} {exit : ExitId}
    (hfirst : (startedExits pos s.shared.events).head? = some exit) :
    ∃ seg, cfg.segments[pos]? = some seg ∧ seg.exit = exit := by
  have hinv : FirstTries cfg s :=
    hrun.invariant (fun h hstep => h.step hstep) (firstTries_start cfg created parts)
  cases hget : s.tasks[pos]? with
  | none =>
    rw [hinv.nobody pos hget] at hfirst
    cases hfirst
  | some task =>
    rcases hinv.segments with hsegments | hnil
    · refine ⟨task.seg, by rw [← hsegments, List.getElem?_map, hget]; rfl, ?_⟩
      rcases hinv.tries pos task hget with ⟨hnone, _⟩ | htask
      · rw [hnone] at hfirst
        cases hfirst
      · exact Option.some.inj (htask.symm.trans hfirst)
    · rw [hnil] at hget
      cases hget

-- in every run of every plan for the exits, the first request of a segment leaves through the
-- egress of the entry the segment is cut from
def RoutesToOwner (exits : List ExitSpec) : Prop :=
  ∀ {url fileSize segmentsPerExit minSegment plan client registry policy network created parts s},
    FetchPlan.build url fileSize exits segmentsPerExit minSegment = .ok plan →
    registryFromSpecs client exits = .ok registry →
    runSegments (planConfig plan registry policy network) created parts s →
    ∃ portions, plannedPortions fileSize exits segmentsPerExit minSegment = .ok portions ∧
      plan.segments.map (fun seg => (seg.range, seg.exit)) = assignmentsOf portions ∧
      ∀ pos portion exit, portions[pos]? = some portion →
        (startedExits pos s.shared.events).head? = some exit →
        registry.lookup exit = .ok portion.2.egress

def EgressPerId (exits : List ExitSpec) : Prop :=
  ∀ a ∈ exits, ∀ b ∈ exits, a.id = b.id → a.egress = b.egress

theorem planned_segment {plan : FetchPlan} {portions : List Portion}
    (h : plan.segments.map (fun seg => (seg.range, seg.exit)) = assignmentsOf portions) {pos : ℕ}
    {portion : Portion} {seg : SegmentPlan} (hportion : portions[pos]? = some portion)
    (hseg : plan.segments[pos]? = some seg) : seg.exit = portion.2.id := by
  have hget : (plan.segments.map fun seg => (seg.range, seg.exit))[pos]? =
      (assignmentsOf portions)[pos]? := by rw [h]
  rw [assignmentsOf, relabel, List.getElem?_map, List.getElem?_map, hseg, hportion] at hget
  exact (Prod.ext_iff.mp (Option.some.inj hget)).2

theorem routes_of_egressPerId {exits : List ExitSpec} (h : EgressPerId exits) :
    RoutesToOwner exits := by
  intro url fileSize segmentsPerExit minSegment plan client registry policy network created parts s
    hbuild hregistry hrun
  obtain ⟨portions, hplanned, hsegments⟩ := build_portions hbuild
  refine ⟨portions, hplanned, hsegments, fun pos portion exit hportion hfirst => ?_⟩
  obtain ⟨seg, hseg, rfl⟩ := first_request hrun hfirst
  rw [planned_segment hsegments hportion hseg]
  have hin := plannedPortions_owners hplanned portion (List.mem_of_getElem? hportion)
  obtain ⟨kept, hkept, hid, hget⟩ := registryFromSpecs_get? hregistry hin
  rw [ExitRegistry.lookup, hget, h kept hkept portion.2 hin hid]

section
variable {exits : List ExitSpec}

theorem length_le_totalWeight (exits : List ExitSpec) : exits.length ≤ totalWeight exits := by
  induction exits with
  | nil => exact Nat.zero_le _
  | cons exit rest ih =>
    have hpos := exit.weight.pos
    simp only [totalWeight, List.map_cons, List.sum_cons, List.length_cons] at ih ⊢
    omega

theorem totalWeight_lt (h : exits.length ≤ 2 ^ 32) : totalWeight exits < 2 ^ 64 := by
  have hsum : totalWeight exits ≤ exits.length * (2 ^ 32 - 1) := by
    rw [totalWeight, ← List.length_map (f := fun exit : ExitSpec => exit.weight.value)]
    refine List.sum_le_card_nsmul _ _ fun weight hweight => ?_
    obtain ⟨exit, _, rfl⟩ := List.mem_map.mp hweight
    exact Nat.le_pred_of_lt exit.weight.lt
  omega

theorem totalWeight_perm {exits' : List ExitSpec} (h : exits.Perm exits') :
    totalWeight exits = totalWeight exits' := (h.map _).sum_eq

-- a file of as many bytes as all weights together: every exit gets its weight in bytes
theorem splitLoop_exact {size cursor : ℕ} (hsize : size < 2 ^ 64)
    (hsum : cursor + totalWeight exits = size) :
    ∃ portions : List Portion, splitLoop id size size 1 exits cursor cursor = .ok (portions, size) ∧
      portions.map (·.2) = exits := by
  induction exits generalizing cursor with
  | nil =>
    obtain rfl : cursor = size := by simpa [totalWeight] using hsum
    exact ⟨[], rfl, rfl⟩
  | cons exit rest ih =>
    have hpos := exit.weight.pos
    have hweight := exit.weight.lt
    have hsplit : cursor + exit.weight.value + totalWeight rest = size := by
      simp only [totalWeight, List.map_cons, List.sum_cons] at hsum ⊢
      omega
    have hend : endExclusive size size cursor (unitsOf 1 exit) rest.isEmpty =
        cursor + exit.weight.value := by
      cases rest with
      | nil => simpa [endExclusive, totalWeight] using hsplit.symm
      | cons next later =>
        have hmul : size * exit.weight.value < 2 ^ 128 :=
          (Nat.mul_lt_mul'' hsize hweight).trans (by decide)
        rw [endExclusive, unitsOf, Nat.mul_one, Nat.mod_eq_of_lt hmul,
          Nat.mul_div_cancel_left _ (by omega)]
        rfl
    have hone : ∃ range, evenSubsplit cursor (cursor + exit.weight.value - 1) 1 = [range] := by
      have hfull := @evenSubsplit_full cursor exit.weight.value 1 Nat.one_pos hpos
      apply List.length_eq_one_iff.mp
      rw [← List.length_map (f := ByteRange.extent), hfull]
      rfl
    obtain ⟨range, hrange⟩ := hone
    obtain ⟨portions, hloop, howners⟩ := ih hsplit
    refine ⟨(range, exit) :: portions, ?_, by rw [List.map_cons, howners]⟩
    have hroom : cursor ≤ cursor + exit.weight.value - 1 := by omega
    rw [splitLoop, hend, tryIntoU64_ok (by omega), ok_bind, if_pos hroom, hrange, hloop]
    rfl

variable (hlimit : exits.length ≤ 2 ^ 32) (hne : exits ≠ [])

def exactSize (exits : List ExitSpec) (hlimit : exits.length ≤ 2 ^ 32) (hne : exits ≠ []) : FileSize :=
  ⟨totalWeight exits, totalWeight_pos hne, totalWeight_lt hlimit⟩

def oneEach : NonZero 64 := 1

theorem keptExits_exact : keptExits (exactSize exits hlimit hne) oneEach exits = sortById exits := by
  have hlength := length_le_totalWeight exits
  rw [keptExits]
  cases exits with
  | nil => rfl
  | cons exit rest =>
    rw [List.length_cons, dropWeakest, if_neg]
    simp only [exactSize, oneEach, NonZero.value_one, Nat.mul_one]
    omega

omit hlimit hne in
theorem splitCount_oneEach (fileSize : FileSize) (kept : List ExitSpec) :
    splitCount fileSize oneEach oneEach kept = oneEach := by
  unfold splitCount
  split_ifs <;> rfl

theorem assign_exact {fileSize : FileSize} {kept : List ExitSpec} (hne : kept ≠ [])
    (hsize : fileSize.value = totalWeight kept) :
    ∃ portions : List Portion, assign id fileSize oneEach kept = .ok portions ∧
      portions.map (·.2) = kept := by
  have hweighted : ∃ portions : List Portion, weightedSplit id fileSize oneEach kept = .ok portions ∧
      portions.map (·.2) = kept := by
    obtain ⟨portions, hloop, howners⟩ :=
      @splitLoop_exact kept fileSize.value 0 fileSize.lt (by rw [hsize, Nat.zero_add])
    refine ⟨portions, ?_, howners⟩
    have hunits : (kept.map (unitsOf oneEach.value)).sum = fileSize.value := by
      rw [sum_unitsOf, hsize]
      exact Nat.mul_one _
    rw [weightedSplit, hunits]
    change splitLoop id fileSize.value fileSize.value 1 kept 0 0 >>= _ = _
    rw [hloop, ok_bind]
    exact if_neg (lt_irrefl _)
  cases kept with
  | nil => exact absurd rfl hne
  | cons exit rest =>
    cases rest with
    | nil =>
      rw [assign, if_pos (show oneEach.value = 1 from rfl), ByteRange.tryNew_ok (Nat.zero_le _)]
      exact ⟨_, rfl, rfl⟩
    | cons second rest => exact hweighted

theorem mergeTinySegments_oneEach (portions : List Portion) :
    mergeTinySegments portions oneEach = portions := by
  rw [mergeTinySegments]
  cases hlength : portions.length with
  | zero => rfl
  | succ turns =>
    have hnone : portions.findIdx? (fun portion => portion.1.len < oneEach.value) = none := by
      refine List.findIdx?_eq_none_iff.mpr fun portion _ => ?_
      have hlen := portion.1.len_pos
      simpa [oneEach] using hlen.ne'
    rw [mergeLoop, hnone]

theorem plannedPortions_exact : ∃ portions,
    plannedPortions (exactSize exits hlimit hne) exits oneEach oneEach = .ok portions ∧
      portions.map (·.2) = sortById exits := by
  have hperm : (sortById exits).Perm exits := List.perm_insertionSort _ _
  have hkept : sortById exits ≠ [] := keptExits_exact hlimit hne ▸ keptExits_ne_nil hne
  obtain ⟨portions, hcut, howners⟩ :=
    @assign_exact (exactSize exits hlimit hne) _ hkept (totalWeight_perm hperm.symm)
  refine ⟨portions, ?_, howners⟩
  rw [plannedPortions, keptExits_exact, splitCount_oneEach]
  rw [hcut, ok_bind, mergeTinySegments_oneEach]
  rfl

theorem build_exact (url : TargetUrl) : ∃ plan,
    FetchPlan.build url (exactSize exits hlimit hne) exits oneEach oneEach = .ok plan := by
  have hperm : (sortById exits).Perm exits := List.perm_insertionSort _ _
  refine (build_isOk_iff url _ oneEach hne (by simpa [oneEach] using hlimit)).mpr ?_
  rw [Plannable, keptExits_exact, splitCount_oneEach, SharesJoin,
    if_pos (show oneEach.value = 1 from rfl)]
  refine Or.inr ?_
  rw [shares, ← totalWeight_perm hperm.symm]
  have htotal : 0 < totalWeight exits := totalWeight_pos hne
  cases sortById exits with
  | nil => simp [sharesFrom]
  | cons exit rest =>
    have hpos := exit.weight.pos
    rw [sharesFrom_cons, List.head?_cons, shareAt]
    simp only [exactSize, ne_eq, Option.some.injEq]
    split_ifs
    · omega
    · rw [Nat.mul_div_cancel_left _ htotal]
      omega

end

theorem first_request_sent {cfg : Config} (parts : Dir)
    (hplanned : ∀ seg ∈ cfg.segments, seg.exit ∈ cfg.exits.keys) {pos : ℕ} {seg : SegmentPlan}
    (hseg : cfg.segments[pos]? = some seg) :
    ∃ s, runSegments cfg true parts s ∧ (startedExits pos s.shared.events).head? = some seg.exit := by
  have hknown : cfg.exits.contains seg.exit :=
    OrdMap.get?_isSome.mpr (hplanned seg (List.mem_of_getElem? hseg))
  have hstart := startRun_ok parts hplanned
  have hget : (startRun cfg true parts).tasks[pos]? = some (spawn seg) := by
    rw [hstart, List.getElem?_map, hseg]
    rfl
  have htask : taskStep cfg.exits cfg.policy pos (spawn seg) (startRun cfg true parts).shared .start =
      some (⟨seg, seg.exit, 1, .requesting⟩, (startRun cfg true parts).shared.emit pos
        (.segmentStarted seg.index seg.exit 1)) := by
    simp only [taskStep, spawn, hknown, if_true]
    rfl
  refine ⟨_, (Reachable.refl _).tail (Step.task .start hget trivial htask), ?_⟩
  simp [hstart, Shared.emit, startedExits, startedExit?]

theorem egressPerId_of_routes {exits : List ExitSpec} (hlimit : exits.length ≤ 2 ^ 32)
    (h : RoutesToOwner exits) : EgressPerId exits := by
  rcases eq_or_ne exits [] with rfl | hne
  · exact fun a ha => absurd ha List.not_mem_nil
  obtain ⟨plan, hbuild⟩ := build_exact hlimit hne sampleUrl
  obtain ⟨registry, hregistry⟩ := registerSpecs_total exits .empty
  obtain ⟨portions, hplanned, howners⟩ := plannedPortions_exact hlimit hne
  obtain ⟨_, hplanned', hsegments⟩ := build_portions hbuild
  obtain rfl := Except.ok.inj (hplanned.symm.trans hplanned')
  have hkeys : ∀ seg ∈ plan.segments, seg.exit ∈ registry.keys := by
    intro seg hseg
    obtain ⟨spec, hin, hid⟩ := (build_wellFormed hbuild).2.2.owned seg hseg
    obtain ⟨kept, _, _, hget⟩ := registryFromSpecs_get? hregistry hin
    rw [← hid, ← OrdMap.get?_isSome, hget]
    rfl
  have hentry : ∀ spec ∈ exits, registry.lookup spec.id = .ok spec.egress := by
    intro spec hin
    have hsorted : spec ∈ portions.map (·.2) := by
      rw [howners]
      exact (List.mem_insertionSort _).mpr hin
    obtain ⟨portion, hmem, rfl⟩ := List.mem_map.mp hsorted
    obtain ⟨pos, hportion⟩ := List.mem_iff_getElem?.mp hmem
    obtain ⟨seg, hseg⟩ : ∃ seg, plan.segments[pos]? = some seg := by
      have hlength : plan.segments.length = portions.length := by
        have hmap := congrArg List.length hsegments
        rwa [List.length_map, assignmentsOf, length_relabel] at hmap
      have hlt := (List.getElem?_eq_some_iff.mp hportion).1
      exact ⟨_, List.getElem?_eq_getElem (hlength ▸ hlt)⟩
    obtain ⟨s, hrun, hfirst⟩ := @first_request_sent
      (planConfig plan registry samplePolicy anyNetwork) Dir.empty hkeys pos seg hseg
    obtain ⟨_, hplanned'', _, hlaw⟩ := h hbuild hregistry hrun
    obtain rfl := Except.ok.inj (hplanned.symm.trans hplanned'')
    rw [← planned_segment hsegments hportion hseg]
    exact hlaw pos portion seg.exit hportion hfirst
  intro a ha b hb hid
  have hsame := hentry a ha
  rw [hid, hentry b hb] at hsame
  exact (Except.ok.inj hsame).symm

theorem routesToOwner_iff (exits : List ExitSpec) : (EgressPerId exits → RoutesToOwner exits) ∧
    (exits.length ≤ 2 ^ 32 → (RoutesToOwner exits ↔ EgressPerId exits)) :=
  ⟨routes_of_egressPerId, fun hlimit => ⟨egressPerId_of_routes hlimit, routes_of_egressPerId⟩⟩

theorem routesToOwner_iff_sampleExits : RoutesToOwner sampleExits :=
  ((routesToOwner_iff sampleExits).2 (by decide)).mpr (by
    intro a ha b hb _
    simp only [sampleExits, List.mem_cons, List.not_mem_nil, or_false] at ha hb
    rcases ha with rfl | rfl <;> rcases hb with rfl | rfl <;> rfl)

def meshUrl (input : Text) : Option Url :=
  if input = "http://10.0.0.2:8118".toList then some ⟨"http", "http://10.0.0.2:8118/"⟩ else none

-- one id listed twice, once for the own uplink and once for a neighbor
theorem parseExits_same_id : ∃ exits,
    parseExits meshUrl "1=1,1=1@http://10.0.0.2:8118".toList = .ok exits ∧ ¬RoutesToOwner exits := by
  refine ⟨[⟨1, 1, .direct⟩, ⟨1, 1, .proxy "http://10.0.0.2:8118/"⟩], rfl, ?_⟩
  intro h
  have hsame := egressPerId_of_routes (by decide) h _ List.mem_cons_self _
    (List.mem_cons_of_mem _ List.mem_cons_self) rfl
  cases hsame

end SpiderNet.Fetch
