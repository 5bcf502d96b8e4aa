import SpiderNet.Fetch.Delivery
import SpiderNet.Fetch.Probe

namespace SpiderNet.Fetch
open Transition ListFacts

-- what a successful call promises about the output file, whatever the server sent
structure Sound (sha256 : Bytes → Sha256Digest) (target : TargetUrl) (expected : Option Sha256Digest)
    (announced : Option FileSize) (report : FetchReport) (content : Bytes) : Prop where
  url : report.url = target
  announced : ∀ size, announced = some size → content.length = size.value
  size : content.length = report.fileSize.value
  digest : report.sha256 = some (sha256 content)
  expected : ∀ digest, expected = some digest → sha256 content = digest
  segments : (report.segments.map (·.bytes)).sum = content.length

theorem checkAssembly_ok {sha256 : Bytes → Sha256Digest} {acc : Assembly} {size : FileSize}
    {expected : Option Sha256Digest} {digest : Sha256Digest}
    (h : checkAssembly sha256 acc size expected = .ok digest) :
    acc.total = size.value ∧ digest = sha256 acc.hashed ∧
      ∀ other, expected = some other → sha256 acc.hashed = other := by
  unfold checkAssembly at h
  split_ifs at h with hsize
  refine ⟨not_ne_iff.mp hsize, ?_⟩
  cases expected with
  | none => exact ⟨(Except.ok.inj h).symm, nofun⟩
  | some other =>
    simp only at h
    split_ifs at h with hdigest
    refine ⟨(Except.ok.inj h).symm, fun digest hexpected => ?_⟩
    rw [← Option.some.inj hexpected]
    exact not_ne_iff.mp hdigest

theorem assemble_checked {sha256 : Bytes → Sha256Digest} {io : Faults} {parts : Dir}
    {listing : List FileName} {output written : Option Bytes} {size : FileSize}
    {expected : Option Sha256Digest} {digest : Sha256Digest}
    (h : assemble sha256 io parts listing output size expected = (.ok digest, written)) :
    ∃ content, written = some content ∧
      checkAssembly sha256 ⟨content, content, content.length⟩ size expected = .ok digest := by
  cases hread : io.fails .readDir with
  | true => simp [assemble, hread] at h
  | false =>
    cases hcollect : collectPartFiles io 0 listing with
    | error error => simp [assemble, hread, hcollect] at h
    | ok names =>
      cases hcreate : io.fails .createParent || io.fails .createOutput with
      | true =>
        simp only [assemble, hread, hcollect, hcreate] at h
        cases h
      | false =>
        rcases hcopy : copyParts io parts (sortPaths names) ⟨[], [], 0⟩ with ⟨error, acc⟩
        simp only [assemble, hread, hcollect, hcreate, hcopy, Bool.false_eq_true, if_false] at h
        cases error with
        | some error => cases h
        | none =>
          cases hflush : io.fails .flush with
          | true => simp [hflush] at h
          | false =>
            simp only [hflush, Bool.false_eq_true, if_false] at h
            obtain ⟨hcheck, rfl⟩ := Prod.ext_iff.mp h
            obtain ⟨_, rfl⟩ := copyParts_ok hcopy
            simp only [Assembly.push, List.nil_append, Nat.zero_add] at hcheck ⊢
            exact ⟨_, rfl, hcheck⟩

structure WholeOk (sha256 : Bytes → Sha256Digest) (target : TargetUrl) (options : FetchOptions)
    (contentLength : Option FileSize) (duration : Nat) (content : Bytes) (report : FetchReport) :
    Prop where
  length : ∀ size, contentLength = some size → content.length = size.value
  expected : ∀ digest, options.expectedSha256 = some digest → sha256 content = digest
  report : ∃ fileSize, FileSize.tryNew content.length = .ok fileSize ∧
    report = ⟨target, fileSize, [⟨0, content.length, duration⟩], some (sha256 content)⟩

theorem checkWhole_ok {sha256 : Bytes → Sha256Digest} {target : TargetUrl} {options : FetchOptions}
    {contentLength : Option FileSize} {duration : ℕ} {content : Bytes} {report : FetchReport}
    (h : checkWhole sha256 target options contentLength duration content = .ok report) :
    WholeOk sha256 target options contentLength duration content report := by
  have hreport (hlast : (do
      let fileSize ← FileSize.tryNew content.length
      return (⟨target, fileSize, [⟨0, content.length, duration⟩], some (sha256 content)⟩ :
        FetchReport)) = Except.ok report) : ∃ fileSize, FileSize.tryNew content.length = .ok fileSize ∧
      report = ⟨target, fileSize, [⟨0, content.length, duration⟩], some (sha256 content)⟩ := by
    obtain ⟨fileSize, hsize, hlast⟩ := bind_eq_ok.mp hlast
    exact ⟨fileSize, hsize, (Except.ok.inj hlast).symm⟩
  have hrest (hlast : checkWhole sha256 target options none duration content = .ok report) :
      (∀ digest, options.expectedSha256 = some digest → sha256 content = digest) ∧
        ∃ fileSize, FileSize.tryNew content.length = .ok fileSize ∧
          report = ⟨target, fileSize, [⟨0, content.length, duration⟩], some (sha256 content)⟩ := by
    unfold checkWhole at hlast
    cases hexpected : options.expectedSha256 with
    | none =>
      simp only [hexpected] at hlast
      split_ifs at hlast with hempty
      · cases hlast
      · exact ⟨nofun, hreport hlast⟩
    | some expected =>
      simp only [hexpected] at hlast
      by_cases hempty : content.length = 0
      · rw [if_pos hempty] at hlast
        cases hlast
      · by_cases hdigest : sha256 content = expected
        · rw [if_neg hempty, if_neg (not_ne_iff.mpr hdigest)] at hlast
          exact ⟨fun digest heq => hdigest.trans (Option.some.inj heq), hreport hlast⟩
        · rw [if_neg hempty, if_pos hdigest] at hlast
          cases hlast
  cases contentLength with
  | none => exact ⟨nofun, (hrest h).1, (hrest h).2⟩
  | some size =>
    have hlength : content.length = size.value := by
      by_contra hne
      simp only [checkWhole, ne_eq, hne, not_false_eq_true, if_true] at h
      cases h
    have hsame : checkWhole sha256 target options (some size) duration content =
        checkWhole sha256 target options none duration content := by
      simp only [checkWhole, ne_eq, hlength, not_true_eq_false, if_false]
    rw [hsame] at h
    exact ⟨fun size' heq => Option.some.inj heq ▸ hlength, (hrest h).1, (hrest h).2⟩
section
variable {sha256 : Bytes → Sha256Digest} {target : TargetUrl} {options : FetchOptions}
  {exits : ExitRegistry} {report : FetchReport}

theorem WholeOk.sound {contentLength : Option FileSize} {duration : ℕ} {content : Bytes}
    (h : WholeOk sha256 target options contentLength duration content report) :
    Sound sha256 target options.expectedSha256 contentLength report content := by
  obtain ⟨fileSize, hsize, rfl⟩ := h.report
  refine ⟨rfl, h.length, (tryNew_value hsize).symm, rfl, h.expected, ?_⟩
  rw [List.map_singleton, List.sum_singleton]

theorem stats_total {plan : FetchPlan} {policy : RetryPolicy}
    {network : ExitId → SegmentPlan → Reply → Prop} {created : Bool} {parts : Dir} {s : RunState}
    (hvalid : plan.validate = .ok ())
    (hrun : runSegments (planConfig plan exits policy network) created parts s)
    {stats : List SegmentAttemptStats} (hreturned : s.caller = .returned (.ok stats)) :
    (stats.map (·.bytes)).sum = plan.fileSize.value := by
  have hdownloaded : Downloaded plan.segments parts s :=
    runSegments_downloaded (validate_indices_nodup hvalid) hrun hreturned
  have hcollected := (runSegments_deliveryInv hrun).collected
  rw [hreturned] at hcollected
  obtain ⟨collected, rfl, hlength, hcollected⟩ := hcollected
  have hlengths : collected.map (·.bytes) = plan.segments.map (·.range.len) := by
    rw [← hdownloaded.segments, List.map_map]
    exact hcollected.map_eq hlength fun task htask stat body hphase =>
      (stat_of_finished hvalid hrun htask hphase).2
  have hperm : (sortStats collected).Perm collected := List.perm_insertionSort _ _
  rw [(hperm.map _).sum_eq, hlengths, validate_sum_len hvalid]

-- how a ranged fetch that succeeds went
structure RangedRun (sha256 : Bytes → Sha256Digest) (target : TargetUrl)
    (env : FetchEnv options exits) (contentLength : Option FileSize) (output : Option Bytes)
    (report : FetchReport) (plan : FetchPlan) (stats : List SegmentAttemptStats) (content : Bytes) :
    Prop where
  length : contentLength = some plan.fileSize
  built : FetchPlan.build target plan.fileSize options.exits options.segmentsPerExit
    options.minSegment = .ok plan
  returned : (env.segments plan).result = .ok stats
  report : report = ⟨target, plan.fileSize, stats.map (·.toStats), some (sha256 content)⟩
  assembled : assemble sha256 env.io (env.segments plan).state.shared.parts env.listing output
    plan.fileSize options.expectedSha256 = (.ok (sha256 content), some content)

theorem runRanged_ok {env : FetchEnv options exits} {contentLength : Option FileSize}
    {output after : Option Bytes}
    (h : runRanged sha256 target env contentLength output = (.ok report, after)) :
    ∃ plan stats content, after = some content ∧
      RangedRun sha256 target env contentLength output report plan stats content := by
  cases contentLength with
  | none => cases h
  | some fileSize =>
    rw [runRanged] at h
    cases hbuild : FetchPlan.build target fileSize options.exits options.segmentsPerExit
      options.minSegment with
    | error error => simp [hbuild] at h
    | ok plan =>
      obtain ⟨_, rfl, _⟩ := build_ok hbuild
      cases hresult : (env.segments plan).result with
      | error error => simp [hbuild, hresult] at h
      | ok stats =>
        simp only [hbuild, hresult, finishRanged] at h
        rcases hassemble : assemble sha256 env.io (env.segments plan).state.shared.parts env.listing
          output plan.fileSize options.expectedSha256 with ⟨result, written⟩
        rw [hassemble] at h
        cases result with
        | error error => cases h
        | ok digest =>
          obtain ⟨hreport, rfl⟩ := Prod.ext_iff.mp h
          obtain ⟨content, rfl, hchecked⟩ := assemble_checked hassemble
          obtain ⟨_, rfl, _⟩ := checkAssembly_ok hchecked
          exact ⟨plan, stats, content, rfl, rfl, hbuild, hresult, (Except.ok.inj hreport).symm,
            hassemble⟩

theorem RangedRun.valid {env : FetchEnv options exits} {contentLength : Option FileSize}
    {output : Option Bytes} {plan : FetchPlan} {stats : List SegmentAttemptStats} {content : Bytes}
    (h : RangedRun sha256 target env contentLength output report plan stats content) :
    plan.validate = .ok () :=
  (build_ok h.built).2.2.1

theorem RangedRun.caller {env : FetchEnv options exits} {contentLength : Option FileSize}
    {output : Option Bytes} {plan : FetchPlan} {stats : List SegmentAttemptStats} {content : Bytes}
    (h : RangedRun sha256 target env contentLength output report plan stats content) :
    (env.segments plan).state.caller = .returned (.ok stats) :=
  (env.segments plan).returned.trans (congrArg Caller.returned h.returned)

theorem RangedRun.sound {env : FetchEnv options exits} {contentLength : Option FileSize}
    {output : Option Bytes} {plan : FetchPlan} {stats : List SegmentAttemptStats} {content : Bytes}
    (h : RangedRun sha256 target env contentLength output report plan stats content) :
    Sound sha256 target options.expectedSha256 contentLength report content := by
  obtain ⟨content', hsame, hchecked⟩ := assemble_checked h.assembled
  obtain rfl := Option.some.inj hsame
  obtain ⟨hlength, _, hexpected⟩ := checkAssembly_ok hchecked
  have htotal := stats_total h.valid (env.segments plan).ran h.caller
  rw [h.report]
  refine ⟨rfl, fun size heq => ?_, hlength, rfl, hexpected, ?_⟩
  · rw [h.length] at heq
    rw [← Option.some.inj heq]
    exact hlength
  · rw [List.map_map]
    exact htotal.trans hlength.symm

theorem runWhole_ok {env : FetchEnv options exits} {contentLength : Option FileSize}
    {output after : Option Bytes}
    (h : runWhole sha256 target env contentLength output = (.ok report, after)) :
    ∃ status chunks, env.reply = .response status true chunks none ∧ ¬(400 ≤ status ∧ status < 600) ∧
      after = some chunks.flatten ∧
      WholeOk sha256 target options contentLength env.duration chunks.flatten report := by
  rw [runWhole] at h
  cases hexits : options.exits with
  | nil => simp [hexits] at h
  | cons exit rest =>
    cases hlookup : exits.lookup exit.id with
    | error error => simp [hexits, hlookup] at h
    | ok egress =>
      cases hreply : env.reply with
      | noResponse => simp [hexits, hlookup, hreply] at h
      | response status created chunks stop =>
        simp only [hexits, hlookup, hreply] at h
        split_ifs at h with hstatus hcreated
        · cases h
        · cases h
        · cases stop with
          | some stop => cases h
          | none =>
            obtain ⟨hcheck, rfl⟩ := Prod.ext_iff.mp h
            rw [Bool.not_eq_false] at hcreated
            subst hcreated
            exact ⟨status, chunks, rfl, hstatus, rfl, checkWhole_ok hcheck⟩

theorem fetch_integrity (env : FetchEnv options exits) {output after : Option Bytes}
    (h : run sha256 target env output = (.ok report, after)) :
    ∃ info content, env.probed = .ok info ∧ after = some content ∧
      Sound sha256 target options.expectedSha256 info.contentLength report content := by
  rw [run] at h
  cases hprobed : env.probed with
  | error error =>
    rw [hprobed] at h
    cases h
  | ok info =>
    have hwhole (hrun : runWhole sha256 target env info.contentLength output = (.ok report, after)) :
        ∃ content, after = some content ∧
          Sound sha256 target options.expectedSha256 info.contentLength report content := by
      obtain ⟨_, chunks, _, _, hafter, hok⟩ := runWhole_ok hrun
      exact ⟨chunks.flatten, hafter, hok.sound⟩
    refine ⟨info, ?_⟩
    simp only [hprobed] at h
    cases hsupport : info.rangeSupport with
    | supported =>
      rw [hsupport] at h
      obtain ⟨plan, stats, content, hafter, hranged⟩ := runRanged_ok h
      exact ⟨content, rfl, hafter, hranged.sound⟩
    | unsupported =>
      rw [hsupport] at h
      obtain ⟨content, hafter, hsound⟩ := hwhole h
      exact ⟨content, rfl, hafter, hsound⟩
    | unknown =>
      rw [hsupport] at h
      obtain ⟨content, hafter, hsound⟩ := hwhole h
      exact ⟨content, rfl, hafter, hsound⟩

end

theorem fetch_integrity_whole : ∃ info content,
    cutShort.probed = .ok info ∧ some [7, 7, 9] = some content ∧
      Sound (fun _ => ⟨.replicate 32 0⟩) sampleUrl none info.contentLength
        ⟨sampleUrl, 3, [⟨0, 3, 0⟩], some ⟨.replicate 32 0⟩⟩ content :=
  @fetch_integrity (fun _ => ⟨.replicate 32 0⟩) sampleUrl sampleOptions sampleRegistry _
    { cutShort with reply := .response 200 true [[7, 7], [9]] none } none _ rfl

end SpiderNet.Fetch
