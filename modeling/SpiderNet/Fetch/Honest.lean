import SpiderNet.Fetch.Integrity
import SpiderNet.Fetch.Leftover
import SpiderNet.Fetch.RetryRun

namespace SpiderNet.Fetch
open Transition Tiling ListFacts

section
variable {planned : List SegmentPlan} {start : Dir} {s : RunState}

-- a file of the right length was put together from the downloaded parts alone
theorem Downloaded.assembled (hdone : Downloaded planned start s) (hnodup : (planNames planned).Nodup)
    {listing : List FileName} (hlisting : Lists s.shared.parts listing)
    {sha256 : Bytes → Sha256Digest} {io : Faults} {output written : Option Bytes} {size : FileSize}
    (hsize : (planned.map (·.range.len)).sum = size.value) {expected : Option Sha256Digest}
    {digest : Sha256Digest}
    (h : assemble sha256 io s.shared.parts listing output size expected = (.ok digest, written)) :
    written = some (delivered s.tasks) := by
  obtain ⟨names, rfl, _, _, htotal, rfl⟩ := assemble_ok h
  rw [List.length_flatMap] at htotal
  have hsplit := sum_filter_add (fun text => decide (text ∈ planNames planned))
    (fun text => (contentOf s.shared.parts text).length) names
  rw [((hdone.filter_perm hnodup hlisting).map _).sum_eq, hdone.sum_planNames, hsize,
    ← ((sortPaths_perm names).map _).sum_eq, htotal] at hsplit
  have hrest : ((names.filter fun text => !decide (text ∈ planNames planned)).map
      fun text => (contentOf s.shared.parts text).length).sum = 0 := by
    omega
  have hsorted : (sortPaths names).filter (· ∈ planNames planned) = sortPaths (planNames planned) := by
    refine (sortPaths_eq ?_ ((sortPaths_sorted names).filter _)).symm
    exact ((sortPaths_perm names).filter _).trans (hdone.filter_perm hnodup hlisting)
  rw [← hdone.delivered_eq, ← hsorted]
  refine congrArg some (flatMap_filter _ fun text htext hout => ?_).symm
  refine List.length_eq_zero_iff.mp (List.sum_eq_zero_iff.mp hrest _ (List.mem_map_of_mem ?_))
  exact List.mem_filter.mpr ⟨(sortPaths_perm names).subset htext, by simpa using hout⟩

theorem delivered_file {plan : FetchPlan} (hvalid : plan.validate = .ok ())
    (hsmall : plan.segments.length ≤ 10 ^ 6) (hdone : Downloaded plan.segments start s) {file : Bytes}
    (hfile : file.length = plan.fileSize.value)
    (hbodies : ∀ task ∈ s.tasks, task.body = slice file task.seg.range.extent) :
    delivered s.tasks = file := by
  have hnames : sortPaths (planNames plan.segments) = planNames plan.segments :=
    ((planNames_sorted_iff hvalid).mpr hsmall).insertionSort_eq
  have htiles := ((validate_iff plan).mp hvalid).1
  have hslices : plan.segments.flatMap (fun seg => slice file seg.range.extent) = file := by
    rw [← List.flatMap_map, ← FetchPlan.extents, htiles.flatMap_slice, ← hfile, slice_all]
  rw [← hdone.delivered_eq, hnames, hdone.planNames_eq, List.flatMap_map]
  refine Eq.trans ?_ hslices
  rw [← hdone.segments, List.flatMap_map]
  exact List.flatMap_congr fun task htask => (hdone.content_eq htask).trans (hbodies task htask)

end

section
variable {options : FetchOptions} {exits : ExitRegistry}

-- the server holds `file` and makes nothing up, but it may stop early without saying so
structure Serves (file : Bytes) (replies : ProbeReplies) (env : FetchEnv options exits) : Prop where
  probed : env.probed = probe replies
  announced : ∀ status headers size, replies.head = some (status, headers) →
    announcedLength headers.contentLength = some size → size.value = file.length
  ranged : ∀ id seg chunks stop, env.network id seg (.response 206 true chunks stop) →
    chunks.flatten <+: slice file seg.range.extent
  whole : ∀ status created chunks stop, env.reply = .response status created chunks stop →
    ¬(400 ≤ status ∧ status < 600) → chunks.flatten <+: file

def Planned (target : TargetUrl) (env : FetchEnv options exits) (plan : FetchPlan) : Prop :=
  ∃ info size, env.probed = .ok info ∧ info.contentLength = some size ∧
    FetchPlan.build target size options.exits options.segmentsPerExit options.minSegment = .ok plan

-- the parts directory is read back right, and it holds at most a million segments
structure ReadsBack (target : TargetUrl) (env : FetchEnv options exits) : Prop where
  listed : ∀ plan, Planned target env plan → Lists (env.segments plan).state.shared.parts env.listing
  small : ∀ plan, Planned target env plan → plan.segments.length ≤ 10 ^ 6

variable {file : Bytes} {replies : ProbeReplies} {env : FetchEnv options exits}

theorem Serves.length (h : Serves file replies env) {info : ProbeInfo} (hinfo : env.probed = .ok info)
    {size : FileSize} (hsize : info.contentLength = some size) : size.value = file.length := by
  obtain ⟨status, headers, hhead, hlength⟩ := probe_length (h.probed.symm.trans hinfo)
  exact h.announced status headers size hhead (hlength.symm.trans hsize)

theorem Serves.body (h : Serves file replies env) {task : TaskState} (hfrom : BodyFrom env.network task)
    (hdone : Done task) (hlength : task.body.length = task.seg.range.len)
    (hend : task.seg.range.extent.2 ≤ file.length) : task.body = slice file task.seg.range.extent := by
  obtain ⟨stat, body, hphase⟩ := hdone
  rw [BodyFrom, hphase] at hfrom
  obtain ⟨chunks, hreply, hbody⟩ := hfrom
  have hsame : task.body = body := by rw [TaskState.body, hphase]
  rw [hsame] at hlength ⊢
  have hprefix := h.ranged _ _ _ _ hreply
  rw [← hbody] at hprefix
  refine hprefix.eq_of_length ?_
  rw [hlength, length_slice hend]
  have hlen := task.seg.range.len_eq
  simp only [ByteRange.extent]
  omega

theorem Serves.delivered (h : Serves file replies env) {plan : FetchPlan}
    (hvalid : plan.validate = .ok ()) (hsmall : plan.segments.length ≤ 10 ^ 6)
    (hfile : file.length = plan.fileSize.value) {created : Bool} {start : Dir} {s : RunState}
    (hrun : runSegments (rangedConfig options exits env.network plan) created start s)
    {stats : List SegmentAttemptStats} (hreturned : s.caller = .returned (.ok stats)) :
    delivered s.tasks = file := by
  have hnodup := validate_indices_nodup hvalid
  have hdone : Downloaded plan.segments start s := runSegments_downloaded hnodup hrun hreturned
  refine delivered_file hvalid hsmall hdone hfile fun task htask => ?_
  have hended := (runSegments_partsInv hnodup hrun).awaited
  rw [hreturned] at hended
  refine h.body ((runSegments_deliveryInv hrun).body task htask) (hended task htask)
    (hdone.lengths task htask) ?_
  have hextent : task.seg.range.extent ∈ plan.extents := by
    rw [FetchPlan.extents, ← hdone.segments, List.map_map]
    exact List.mem_map_of_mem htask
  rw [hfile]
  exact (((validate_iff plan).mp hvalid).1.bounds hextent).2.2

theorem fetch_honest {sha256 : Bytes → Sha256Digest} {target : TargetUrl}
    (hserves : Serves file replies env) (hreads : ReadsBack target env) {report : FetchReport}
    {output after : Option Bytes} (h : run sha256 target env output = (.ok report, after)) :
    ∃ info content, env.probed = .ok info ∧ after = some content ∧ content <+: file ∧
      (info.contentLength.isSome → content = file) := by
  rw [run] at h
  cases hprobed : env.probed with
  | error error =>
    rw [hprobed] at h
    cases h
  | ok info =>
    have hwhole (hrun : runWhole sha256 target env info.contentLength output = (.ok report, after)) :
        ∃ content, after = some content ∧ content <+: file ∧
          (info.contentLength.isSome → content = file) := by
      obtain ⟨status, chunks, hreply, hstatus, hafter, hok⟩ := runWhole_ok hrun
      have hprefix := hserves.whole _ _ _ _ hreply hstatus
      refine ⟨chunks.flatten, hafter, hprefix, fun hsome => ?_⟩
      obtain ⟨size, hsize⟩ := Option.isSome_iff_exists.mp hsome
      exact hprefix.eq_of_length ((hok.length size hsize).trans (hserves.length hprobed hsize))
    refine ⟨info, ?_⟩
    simp only [hprobed] at h
    cases hsupport : info.rangeSupport with
    | supported =>
      rw [hsupport] at h
      obtain ⟨plan, stats, content, hafter, hranged⟩ := runRanged_ok h
      have hfile := (hserves.length hprobed hranged.length).symm
      have hplanned : Planned target env plan :=
        ⟨info, plan.fileSize, hprobed, hranged.length, hranged.built⟩
      have hdone : Downloaded plan.segments env.start (env.segments plan).state :=
        runSegments_downloaded (validate_indices_nodup hranged.valid) (env.segments plan).ran
          hranged.caller
      have hcontent := hdone.assembled (planNames_nodup hranged.valid)
        (hreads.listed plan hplanned) (validate_sum_len hranged.valid)
        hranged.assembled
      rw [hserves.delivered hranged.valid (hreads.small plan hplanned) hfile (env.segments plan).ran
        hranged.caller] at hcontent
      obtain rfl := Option.some.inj hcontent
      exact ⟨content, rfl, hafter, List.prefix_rfl, fun _ => rfl⟩
    | unsupported =>
      rw [hsupport] at h
      obtain ⟨content, hrest⟩ := hwhole h
      exact ⟨content, rfl, hrest⟩
    | unknown =>
      rw [hsupport] at h
      obtain ⟨content, hrest⟩ := hwhole h
      exact ⟨content, rfl, hrest⟩

-- a fetch that has nothing against it but exits that fail
structure Favourable (target : TargetUrl) (env : FetchEnv options exits) (size : FileSize)
    (plan : FetchPlan) (bad : Finset ExitId) : Prop where
  probed : env.probed = .ok ⟨.supported, some size⟩
  built : FetchPlan.build target size options.exits options.segmentsPerExit options.minSegment = .ok plan
  scenario : RetryScenario (rangedConfig options exits env.network plan) bad
  created : (env.segments plan).created = true
  harmless : Harmless plan.segments env.start
  faultless : env.io = noFaults

theorem Favourable.segments {target : TargetUrl} {size : FileSize} {plan : FetchPlan}
    {bad : Finset ExitId} (h : Favourable target env size plan bad) :
    ∃ stats, (env.segments plan).result = .ok stats := by
  have hrun := (env.segments plan).ran
  rw [h.created] at hrun
  have hinv : RetryInv (rangedConfig options exits env.network plan) bad (env.segments plan).state :=
    hrun.invariant (fun hinv hstep => hinv.step h.scenario hstep) (retryInv_start h.scenario _)
  cases hresult : (env.segments plan).result with
  | ok stats => exact ⟨stats, rfl⟩
  | error error =>
    refine absurd (env.segments plan).returned ?_
    rw [hresult]
    exact hinv.noError error

theorem fetch_delivers {sha256 : Bytes → Sha256Digest} {target : TargetUrl} {size : FileSize}
    {plan : FetchPlan} {bad : Finset ExitId} (h : Favourable target env size plan bad)
    (hserves : Serves file replies env) (hreads : ReadsBack target env)
    (hexpected : ∀ digest, options.expectedSha256 = some digest → digest = sha256 file)
    (output : Option Bytes) : ∃ report, run sha256 target env output = (.ok report, some file) ∧
      Sound sha256 target options.expectedSha256 (some size) report file := by
  obtain ⟨stats, hstats⟩ := h.segments
  obtain ⟨_, hsize, hvalid, _⟩ := build_ok h.built
  have hcaller := (env.segments plan).returned.trans (congrArg Caller.returned hstats)
  have hnodup := validate_indices_nodup hvalid
  have hdone : Downloaded plan.segments env.start (env.segments plan).state :=
    runSegments_downloaded hnodup (env.segments plan).ran hcaller
  have hplanned : Planned target env plan := ⟨_, size, h.probed, rfl, h.built⟩
  have hfile : size.value = file.length := hserves.length h.probed rfl
  have hdelivered : delivered (env.segments plan).state.tasks = file :=
    hserves.delivered hvalid (hreads.small plan hplanned) (by rw [hsize, hfile])
      (env.segments plan).ran hcaller
  have hchecked : checkAssembly sha256 ⟨file, file, file.length⟩ size options.expectedSha256 =
      .ok (sha256 file) := by
    unfold checkAssembly
    rw [if_neg (not_ne_iff.mpr hfile.symm)]
    cases hdigest : options.expectedSha256 with
    | none => rfl
    | some digest =>
      rw [hexpected digest hdigest]
      exact if_neg (not_ne_iff.mpr rfl)
  have hassembled := assemble_harmless sha256 hdone (planNames_nodup hvalid) h.harmless
    (hreads.listed plan hplanned) output size options.expectedSha256
  rw [hdelivered, hchecked] at hassembled
  have hran : run sha256 target env output =
      (.ok ⟨target, size, stats.map (·.toStats), some (sha256 file)⟩, some file) := by
    simp only [run, h.probed, runRanged, h.built, hstats, finishRanged, h.faultless, hassembled]
    rfl
  have htotal := stats_total hvalid (env.segments plan).ran hcaller
  refine ⟨_, hran, rfl, fun size' heq => ?_, hfile.symm, rfl, fun digest hdigest => ?_, ?_⟩
  · rw [← Option.some.inj heq]
    exact hfile.symm
  · exact (hexpected digest hdigest).symm
  · rw [List.map_map]
    refine Eq.trans htotal ?_
    rw [hsize, hfile]

end

theorem RetryScenario.completes {cfg : Config} {bad : Finset ExitId} (h : RetryScenario cfg bad)
    (parts : Dir) : ∃ s stats, runSegments cfg true parts s ∧ s.caller = .returned (.ok stats) := by
  have hdone : Inevitably (Step cfg) (Succeeded cfg) (startRun cfg true parts) :=
    Inevitably.of_measure (wellFounded_descends wellFounded_closer) (runDistance (bad.card + 1))
      (fun hinv hstep => hinv.step h hstep) (fun hinv hstep => hinv.distance_lt h hstep)
      (fun hinv => hinv.live h) (retryInv_start h parts)
  obtain ⟨s, hrun, ⟨stats, hreturned⟩, _⟩ := hdone.reachable
  exact ⟨s, stats, hrun, hreturned⟩

def sevens : Bytes := List.replicate 12 7

def sevensHead (acceptRanges : Text) : ProbeReplies :=
  ⟨some (200, ⟨some "12".toList, some acceptRanges⟩), none⟩

-- exit 1 never answers, exit 2 serves what it is asked for
def firstExitDown (id : ExitId) (seg : SegmentPlan) (reply : Reply) : Prop :=
  reply = if id = 1 then .noResponse else .response 206 true [slice sevens seg.range.extent] none

theorem firstExitDown_scenario :
    RetryScenario (rangedConfig sampleOptions sampleRegistry firstExitDown samplePlan) {1} := by
  refine ⟨by decide, ?_, ?_, fun id _ seg _ => ⟨_, rfl⟩, ⟨2, by decide, by decide⟩, by decide⟩
  · rintro id _ hbad seg _ reply rfl
    rw [Finset.mem_singleton.mp hbad]
    exact ⟨.http .transport, rfl, rfl⟩
  · rintro id _ hgood seg hseg reply rfl
    rw [Finset.mem_singleton] at hgood
    rw [if_neg hgood]
    rcases List.mem_cons.mp hseg with rfl | hseg
    · exact ⟨3, rfl⟩
    · obtain rfl := List.mem_singleton.mp hseg
      exact ⟨9, rfl⟩

theorem serves_sevens {acceptRanges : Text} {env : FetchEnv sampleOptions sampleRegistry}
    (hprobed : env.probed = probe (sevensHead acceptRanges)) (hnetwork : env.network = firstExitDown)
    (hreply : env.reply = .response 200 true [sevens] none) :
    Serves sevens (sevensHead acceptRanges) env := by
  refine ⟨hprobed, ?_, fun id seg chunks stop h => ?_, fun status created chunks stop h _ => ?_⟩
  · intro status headers size hhead hlength
    obtain ⟨_, rfl⟩ := Prod.ext_iff.mp (Option.some.inj hhead)
    obtain rfl := Option.some.inj (Eq.symm hlength)
    rfl
  · rw [hnetwork, firstExitDown] at h
    by_cases hid : id = 1
    · rw [if_pos hid] at h
      cases h
    · rw [if_neg hid] at h
      obtain ⟨_, _, rfl, _⟩ := Reply.response.inj h
      rw [List.flatten_singleton]
  · obtain ⟨_, _, rfl, _⟩ := Reply.response.inj (hreply.symm.trans h)
    rw [List.flatten_singleton]

def idle (plan : FetchPlan) : RanSegments (rangedConfig sampleOptions sampleRegistry firstExitDown plan)
    .empty :=
  ⟨false, startRun _ false .empty, .error .io, .refl _, rfl⟩

open Classical in
noncomputable def servedEnv
    (ran : RanSegments (rangedConfig sampleOptions sampleRegistry firstExitDown samplePlan) .empty) :
    FetchEnv sampleOptions sampleRegistry where
  probed := probe (sevensHead "bytes".toList)
  network := firstExitDown
  start := .empty
  segments plan := if h : plan = samplePlan then h ▸ ran else idle plan
  listing := samplePlan.segments.map fun seg => partFile seg.index
  io := noFaults
  reply := .response 200 true [sevens] none
  duration := 0

def wholeEnv : FetchEnv sampleOptions sampleRegistry where
  probed := probe (sevensHead "none".toList)
  network := firstExitDown
  start := .empty
  segments := idle
  listing := []
  io := noFaults
  reply := .response 200 true [sevens] none
  duration := 0

theorem fetch_honest_whole : ∃ info content, wholeEnv.probed = .ok info ∧ some sevens = some content ∧
    content <+: sevens ∧ (info.contentLength.isSome → content = sevens) := by
  have hreads : ReadsBack sampleUrl wholeEnv := by
    refine ⟨fun plan _ => ⟨List.nodup_nil, fun name => ?_⟩, ?_⟩
    · exact iff_of_false List.not_mem_nil Bool.false_ne_true
    · rintro plan ⟨info, size, hinfo, hsize, hbuild⟩
      obtain rfl := Except.ok.inj (hinfo : probe (sevensHead "none".toList) = .ok info)
      obtain rfl := Option.some.inj hsize
      obtain rfl := Except.ok.inj hbuild
      decide
  exact @fetch_honest _ _ _ _ wholeEnv (fun _ => ⟨.replicate 32 0⟩) sampleUrl
    (@serves_sevens "none".toList _ rfl rfl rfl)
    hreads _ none _ rfl

theorem servedEnv_segments
    (ran : RanSegments (rangedConfig sampleOptions sampleRegistry firstExitDown samplePlan) .empty) :
    (servedEnv ran).segments samplePlan = ran := dif_pos rfl

theorem servedEnv_readsBack
    (ran : RanSegments (rangedConfig sampleOptions sampleRegistry firstExitDown samplePlan) .empty)
    {stats : List SegmentAttemptStats} (hreturned : ran.state.caller = .returned (.ok stats)) :
    ReadsBack sampleUrl (servedEnv ran) := by
  have hvalid : samplePlan.validate = .ok () := (build_ok build_sample).2.2.1
  have honly (plan : FetchPlan) (h : Planned sampleUrl (servedEnv ran) plan) : plan = samplePlan := by
    obtain ⟨info, size, hinfo, hsize, hbuild⟩ := h
    obtain rfl := Except.ok.inj (hinfo : probe (sevensHead "bytes".toList) = .ok info)
    obtain rfl := Option.some.inj hsize
    exact (Except.ok.inj hbuild).symm
  have hdone : Downloaded samplePlan.segments .empty ran.state :=
    runSegments_downloaded (validate_indices_nodup hvalid) ran.ran hreturned
  constructor
  · intro plan h
    obtain rfl := honly plan h
    rw [servedEnv_segments]
    refine hdone.lists_plan (validate_indices_nodup hvalid) fun name hname => ?_
    cases hname
  · intro plan h
    obtain rfl := honly plan h
    decide

theorem servedEnv_favourable
    (ran : RanSegments (rangedConfig sampleOptions sampleRegistry firstExitDown samplePlan) .empty)
    (hcreated : ran.created = true) :
    Favourable sampleUrl (servedEnv ran) 12 samplePlan {1} := by
  refine ⟨rfl, build_sample, firstExitDown_scenario, ?_, fun name node hnode => ?_, rfl⟩
  · rw [servedEnv_segments]
    exact hcreated
  · cases hnode

theorem fetch_delivers_firstExitDown : ∃ env report,
    @run sampleOptions sampleRegistry (fun _ => ⟨.replicate 32 0⟩) sampleUrl env none =
      (.ok report, some sevens) := by
  obtain ⟨s, stats, hrun, hreturned⟩ := firstExitDown_scenario.completes .empty
  obtain ⟨report, hran, _⟩ := fetch_delivers (servedEnv_favourable ⟨true, s, .ok stats, hrun, hreturned⟩ rfl)
    (@serves_sevens "bytes".toList _ rfl rfl rfl) (servedEnv_readsBack _ hreturned)
    (fun digest hdigest => nomatch hdigest) none
  exact ⟨_, report, hran⟩

end SpiderNet.Fetch
