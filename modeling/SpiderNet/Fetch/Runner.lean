import SpiderNet.Fetch.History

namespace SpiderNet.Fetch

inductive RangeSupport where
  | supported
  | unsupported
  | unknown
  deriving DecidableEq

structure ProbeInfo where
  rangeSupport : RangeSupport
  contentLength : Option FileSize

-- a u64 in the source
def FileSize.tryNew (value : Nat) : Except FetchError FileSize :=
  if h : 0 < value ∧ value < 2 ^ 64 then .ok ⟨value, h.1, h.2⟩ else .error .zeroFileSize

-- how one call of `run_segments_with_policy` went
structure RanSegments (cfg : Config) (start : Dir) where
  created : Bool
  state : RunState
  result : Except FetchError (List SegmentAttemptStats)
  ran : runSegments cfg created start state
  returned : state.caller = .returned result

-- what a fetch meets: the probe's answer, how the segments of a plan went, what reading the parts
-- directory lists, the faults of `assemble`, and the reply to the single-stream request, where
-- `created` is about the output file
structure FetchEnv (options : FetchOptions) (exits : ExitRegistry) where
  probed : Except FetchError ProbeInfo
  network : ExitId → SegmentPlan → Reply → Prop
  start : Dir
  segments : (plan : FetchPlan) → RanSegments (rangedConfig options exits network plan) start
  listing : List FileName
  io : Faults
  reply : Reply
  duration : Nat

abbrev FetchOutcome := Except FetchError FetchReport × Option Bytes

section
variable {options : FetchOptions} {exits : ExitRegistry}

def runRanged (sha256 : Bytes → Sha256Digest) (target : TargetUrl) (env : FetchEnv options exits)
    (contentLength : Option FileSize) (output : Option Bytes) : FetchOutcome :=
  match contentLength with
  | none => (.error .zeroFileSize, output)
  | some fileSize =>
    match FetchPlan.build target fileSize options.exits options.segmentsPerExit options.minSegment with
    | .error error => (.error error, output)
    | .ok plan =>
      match (env.segments plan).result with
      | .error error => (.error error, output)
      | .ok stats =>
        finishRanged sha256 env.io target options fileSize stats (env.segments plan).state.shared.parts
          env.listing output

def checkWhole (sha256 : Bytes → Sha256Digest) (target : TargetUrl) (options : FetchOptions)
    (contentLength : Option FileSize) (duration : Nat) (content : Bytes) :
    Except FetchError FetchReport := do
  let written := content.length
  if let some expected := contentLength then
    if written ≠ expected.value then throw (.totalLengthMismatch written expected.value)
  if written = 0 then throw .zeroFileSize
  let digest := sha256 content
  if let some expected := options.expectedSha256 then
    if digest ≠ expected then throw (.hashMismatch expected.toHex digest.toHex)
  let fileSize ← FileSize.tryNew written
  return ⟨target, fileSize, [⟨0, written, duration⟩], some digest⟩

def runWhole (sha256 : Bytes → Sha256Digest) (target : TargetUrl) (env : FetchEnv options exits)
    (contentLength : Option FileSize) (output : Option Bytes) : FetchOutcome :=
  match options.exits with
  | [] => (.error (.invalidPlan "no exits given"), output)
  | exit :: _ =>
    match exits.lookup exit.id with
    | .error error => (.error error, output)
    | .ok _ =>
      match env.reply with
      | .noResponse => (.error (.http .transport), output)
      | .response status created chunks stop =>
        if 400 ≤ status ∧ status < 600 then (.error (.http (.status status)), output)
        else if created = false then (.error .io, output)
        else
          (match stop with
          | some stop => .error stop.error
          | none => checkWhole sha256 target options contentLength env.duration chunks.flatten,
            some chunks.flatten)

def run (sha256 : Bytes → Sha256Digest) (target : TargetUrl) (env : FetchEnv options exits)
    (output : Option Bytes) : FetchOutcome :=
  match env.probed with
  | .error error => (.error error, output)
  | .ok info =>
    match info.rangeSupport with
    | .supported => runRanged sha256 target env info.contentLength output
    | .unsupported => runWhole sha256 target env info.contentLength output
    | .unknown => runWhole sha256 target env info.contentLength output

end

def LeavesOutput (fetch : Option Bytes → FetchOutcome) : Prop :=
  ∀ output error, (fetch output).1 = .error error → (fetch output).2 = output

-- `assemble` gets past creating the output file
structure AssembleCreates (io : Faults) (listing : List FileName) : Prop where
  listed : io.fails .readDir = false
  collected : ∃ names, collectPartFiles io 0 listing = .ok names
  parent : io.fails .createParent = false
  output : io.fails .createOutput = false

section
variable {options : FetchOptions} {exits : ExitRegistry}

def RangedCreates (target : TargetUrl) (env : FetchEnv options exits)
    (contentLength : Option FileSize) : Prop :=
  ∃ fileSize plan stats, contentLength = some fileSize ∧
    FetchPlan.build target fileSize options.exits options.segmentsPerExit options.minSegment = .ok plan ∧
    (env.segments plan).result = .ok stats ∧ AssembleCreates env.io env.listing

def WholeCreates (env : FetchEnv options exits) : Prop :=
  ∃ exit rest egress status chunks stop, options.exits = exit :: rest ∧
    exits.lookup exit.id = .ok egress ∧ env.reply = .response status true chunks stop ∧
    ¬(400 ≤ status ∧ status < 600)

def Creates (target : TargetUrl) (env : FetchEnv options exits) : Prop :=
  ∃ info, env.probed = .ok info ∧
    if info.rangeSupport = .supported then RangedCreates target env info.contentLength
    else WholeCreates env

end

-- what a call does to the output file does not depend on what was there
structure Touches (creates : Prop) {α : Type} (call : Option Bytes → α × Option Bytes) : Prop where
  result : ∃ result, ∀ output, (call output).1 = result
  kept : ¬creates → ∀ output, (call output).2 = output
  written : creates → ∃ content, ∀ output, (call output).2 = some content

theorem touches_never {creates : Prop} (hnever : ¬creates) {α : Type} (result : α) :
    Touches creates fun output => (result, output) :=
  ⟨⟨result, fun _ => rfl⟩, fun _ _ => rfl, fun hcreates => absurd hcreates hnever⟩

theorem touches_always {creates : Prop} (halways : creates) {α : Type} (result : α) (content : Bytes) :
    Touches creates fun _ => (result, some content) :=
  ⟨⟨result, fun _ => rfl⟩, fun hnot => absurd halways hnot, fun _ => ⟨content, fun _ => rfl⟩⟩

theorem Touches.of_iff {creates creates' : Prop} {α : Type} {call : Option Bytes → α × Option Bytes}
    (h : Touches creates call) (hiff : creates' ↔ creates) : Touches creates' call :=
  ⟨h.result, fun hnot => h.kept fun hcreates => hnot (hiff.mpr hcreates),
    fun hcreates => h.written (hiff.mp hcreates)⟩

theorem Touches.leavesOutput_iff {creates : Prop} {call : Option Bytes → FetchOutcome}
    (h : Touches creates call) {output : Option Bytes} {error : FetchError}
    (herror : (call output).1 = .error error) : LeavesOutput call ↔ ¬creates := by
  constructor
  · intro hleaves hcreates
    obtain ⟨result, hresult⟩ := h.result
    obtain ⟨content, hcontent⟩ := h.written hcreates
    have hfails : (call none).1 = .error error := by rw [hresult, ← hresult output, herror]
    have hnone := hleaves none error hfails
    rw [hcontent] at hnone
    cases hnone
  · exact fun hnot output _ _ => h.kept hnot output

theorem assemble_touches (sha256 : Bytes → Sha256Digest) (io : Faults) (parts : Dir)
    (listing : List FileName) (expectedSize : FileSize) (expectedDigest : Option Sha256Digest) :
    Touches (AssembleCreates io listing) fun output =>
      assemble sha256 io parts listing output expectedSize expectedDigest := by
  simp only [assemble]
  cases hread : io.fails .readDir with
  | true => exact touches_never (fun h => by simp [h.listed] at hread) _
  | false =>
    cases hcollect : collectPartFiles io 0 listing with
    | error error =>
      refine touches_never (fun h => ?_) _
      obtain ⟨names, hnames⟩ := h.collected
      rw [hcollect] at hnames
      cases hnames
    | ok names =>
      cases hparent : io.fails .createParent with
      | true => exact touches_never (fun h => by simp [h.parent] at hparent) _
      | false =>
        cases houtput : io.fails .createOutput with
        | true => exact touches_never (fun h => by simp [h.output] at houtput) _
        | false =>
          have hcreates : AssembleCreates io listing := ⟨hread, ⟨names, hcollect⟩, hparent, houtput⟩
          simp only [Bool.false_eq_true, if_false, Bool.or_self]
          cases hcopy : copyParts io parts (sortPaths names) ⟨[], [], 0⟩ with
          | mk failure acc =>
            cases failure with
            | some error => exact touches_always hcreates _ _
            | none =>
              cases hflush : io.fails .flush with
              | true => exact touches_always hcreates _ _
              | false => exact touches_always hcreates _ _

theorem finishRanged_touches (sha256 : Bytes → Sha256Digest) (io : Faults) (target : TargetUrl)
    (options : FetchOptions) (fileSize : FileSize) (stats : List SegmentAttemptStats) (parts : Dir)
    (listing : List FileName) : Touches (AssembleCreates io listing) fun output =>
      finishRanged sha256 io target options fileSize stats parts listing output := by
  have h := assemble_touches sha256 io parts listing fileSize options.expectedSha256
  obtain ⟨result, hresult⟩ := h.result
  exact ⟨⟨_, fun output => congrArg (Except.map _) (hresult output)⟩, h.kept, h.written⟩

section
variable {options : FetchOptions} {exits : ExitRegistry}

theorem runRanged_touches (sha256 : Bytes → Sha256Digest) (target : TargetUrl)
    (env : FetchEnv options exits) (contentLength : Option FileSize) :
    Touches (RangedCreates target env contentLength) fun output =>
      runRanged sha256 target env contentLength output := by
  cases contentLength with
  | none => exact touches_never (fun ⟨_, _, _, h, _⟩ => nomatch h) _
  | some fileSize =>
    simp only [runRanged]
    cases hplan : FetchPlan.build target fileSize options.exits options.segmentsPerExit
      options.minSegment with
    | error error =>
      refine touches_never ?_ _
      rintro ⟨_, plan, _, heq, hplan', _⟩
      obtain rfl := Option.some.inj heq
      rw [hplan] at hplan'
      cases hplan'
    | ok plan =>
      cases hsegments : (env.segments plan).result with
      | error error =>
        simp only [hsegments]
        refine touches_never ?_ _
        rintro ⟨_, plan', _, heq, hplan', hsegments', _⟩
        obtain rfl := Option.some.inj heq
        rw [hplan] at hplan'
        obtain rfl := Except.ok.inj hplan'
        rw [hsegments] at hsegments'
        cases hsegments'
      | ok stats =>
        simp only [hsegments]
        refine (finishRanged_touches sha256 env.io target options fileSize stats _ env.listing).of_iff ?_
        exact ⟨fun ⟨_, _, _, _, _, _, h⟩ => h, fun h => ⟨fileSize, plan, stats, rfl, hplan, hsegments, h⟩⟩

theorem runWhole_touches (sha256 : Bytes → Sha256Digest) (target : TargetUrl)
    (env : FetchEnv options exits) (contentLength : Option FileSize) :
    Touches (WholeCreates env) fun output => runWhole sha256 target env contentLength output := by
  simp only [runWhole]
  cases hexits : options.exits with
  | nil =>
    refine touches_never ?_ _
    rintro ⟨_, _, _, _, _, _, hexits', _⟩
    rw [hexits] at hexits'
    cases hexits'
  | cons exit rest =>
    cases hlookup : exits.lookup exit.id with
    | error error =>
      simp only [hlookup]
      refine touches_never ?_ _
      rintro ⟨_, _, _, _, _, _, hexits', hlookup', _⟩
      rw [hexits] at hexits'
      cases hexits'
      rw [hlookup] at hlookup'
      cases hlookup'
    | ok egress =>
      cases hreply : env.reply with
      | noResponse =>
        simp only [hlookup]
        refine touches_never ?_ _
        rintro ⟨_, _, _, _, _, _, _, _, hreply', _⟩
        rw [hreply] at hreply'
        cases hreply'
      | response status created chunks stop =>
        by_cases hstatus : 400 ≤ status ∧ status < 600
        · simp only [hlookup, hstatus, and_self, if_true]
          refine touches_never ?_ _
          rintro ⟨_, _, _, _, _, _, _, _, hreply', hnot⟩
          rw [hreply] at hreply'
          cases hreply'
          exact hnot hstatus
        · simp only [hlookup, hstatus, if_false]
          cases created with
          | false =>
            refine touches_never ?_ _
            rintro ⟨_, _, _, _, _, _, _, _, hreply', _⟩
            rw [hreply] at hreply'
            cases hreply'
          | true =>
            exact touches_always
              ⟨exit, rest, egress, status, chunks, stop, hexits, hlookup, hreply, hstatus⟩ _ _

theorem run_touches (sha256 : Bytes → Sha256Digest) (target : TargetUrl)
    (env : FetchEnv options exits) :
    Touches (Creates target env) fun output => run sha256 target env output := by
  simp only [run]
  cases hprobed : env.probed with
  | error error =>
    refine touches_never ?_ _
    rintro ⟨_, hprobed', _⟩
    rw [hprobed] at hprobed'
    cases hprobed'
  | ok info =>
    have hcreates : Creates target env ↔ if info.rangeSupport = .supported
        then RangedCreates target env info.contentLength else WholeCreates env := by
      rw [Creates, hprobed]
      exact ⟨fun ⟨_, heq, h⟩ => Except.ok.inj heq ▸ h, fun h => ⟨info, rfl, h⟩⟩
    cases hsupport : info.rangeSupport with
    | supported =>
      rw [hsupport, if_pos rfl] at hcreates
      simp only [hsupport]
      exact (runRanged_touches sha256 target env info.contentLength).of_iff hcreates
    | unsupported =>
      rw [hsupport, if_neg nofun] at hcreates
      simp only [hsupport]
      exact (runWhole_touches sha256 target env info.contentLength).of_iff hcreates
    | unknown =>
      rw [hsupport, if_neg nofun] at hcreates
      simp only [hsupport]
      exact (runWhole_touches sha256 target env info.contentLength).of_iff hcreates

theorem failed_fetch_leaves_output_iff (sha256 : Bytes → Sha256Digest) (target : TargetUrl)
    (env : FetchEnv options exits) {output : Option Bytes} {error : FetchError}
    (herror : (run sha256 target env output).1 = .error error) :
    LeavesOutput (run sha256 target env) ↔ ¬Creates target env :=
  (run_touches sha256 target env).leavesOutput_iff herror

end

-- a server without range support announces three bytes and sends two
def cutShort : FetchEnv sampleOptions sampleRegistry where
  probed := .ok ⟨.unsupported, some 3⟩
  network := anyNetwork
  start := .empty
  segments _ := ⟨false, startRun _ false .empty, .error .io, .refl _, rfl⟩
  listing := []
  io := noFaults
  reply := .response 200 true [[7, 7]] none
  duration := 0

theorem failed_fetch_leaves_output_iff_sample :
    LeavesOutput (run (fun _ => ⟨.replicate 32 0⟩) sampleUrl cutShort) ↔ ¬Creates sampleUrl cutShort :=
  @failed_fetch_leaves_output_iff _ _ (fun _ => ⟨.replicate 32 0⟩) sampleUrl cutShort none
    (.totalLengthMismatch 2 3) rfl

theorem cut_short_replaces_output : ¬∀ (options : FetchOptions) (exits : ExitRegistry)
    (sha256 : Bytes → Sha256Digest) (target : TargetUrl) (env : FetchEnv options exits),
    LeavesOutput (run sha256 target env) := by
  intro h
  have hleft := h sampleOptions sampleRegistry (fun _ => ⟨.replicate 32 0⟩) sampleUrl cutShort
    (some [9, 9, 9]) (.totalLengthMismatch 2 3) rfl
  have hwritten : (run (fun _ => ⟨.replicate 32 0⟩) sampleUrl cutShort (some [9, 9, 9])).2 =
    some [7, 7] := rfl
  rw [hwritten] at hleft
  cases hleft

end SpiderNet.Fetch
