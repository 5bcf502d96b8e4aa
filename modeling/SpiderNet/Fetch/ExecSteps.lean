import SpiderNet.Fetch.Exec

namespace SpiderNet.Fetch

@[simp] theorem TaskState.to_seg (task : TaskState) (phase : Phase) : (task.to phase).seg = task.seg :=
  rfl

@[simp] theorem TaskState.to_exit (task : TaskState) (phase : Phase) :
    (task.to phase).exit = task.exit := rfl

@[simp] theorem TaskState.to_attempt (task : TaskState) (phase : Phase) :
    (task.to phase).attempt = task.attempt := rfl

@[simp] theorem TaskState.to_phase (task : TaskState) (phase : Phase) :
    (task.to phase).phase = phase := rfl

@[simp] theorem Shared.emit_lastFailed (shared : Shared) (pos : ℕ) (event : ProgressEvent) :
    (shared.emit pos event).lastFailed = shared.lastFailed := rfl

@[simp] theorem Shared.emit_parts (shared : Shared) (pos : ℕ) (event : ProgressEvent) :
    (shared.emit pos event).parts = shared.parts := rfl

@[simp] theorem Shared.emit_events (shared : Shared) (pos : ℕ) (event : ProgressEvent) :
    (shared.emit pos event).events = shared.events ++ [(pos, event)] := rfl

@[simp] theorem Shared.removePart_lastFailed (shared : Shared) (index : SegmentIndex)
    (removed : Bool) : (shared.removePart index removed).lastFailed = shared.lastFailed := by
  cases removed <;> rfl

@[simp] theorem Shared.removePart_events (shared : Shared) (index : SegmentIndex) (removed : Bool) :
    (shared.removePart index removed).events = shared.events := by
  cases removed <;> rfl

theorem closeBody_ok {seg : SegmentPlan} {received : Bytes} {stop : Option Break} {bytes : ℕ}
    (h : closeBody seg received stop = .ok bytes) :
    stop = none ∧ received.length = seg.range.len ∧ bytes = seg.range.len := by
  cases stop with
  | some stop => cases h
  | none =>
    simp only [closeBody] at h
    split_ifs at h with hlength
    have hequal := not_ne_iff.mp hlength
    exact ⟨rfl, hequal, (Except.ok.inj h).symm.trans hequal⟩

inductive Fires (cfg : Config) (pos : ℕ) (task : TaskState) (shared : Shared) :
    TaskState → Shared → Prop
  | started (hphase : task.phase = .starting) (hknown : cfg.exits.contains task.exit) :
      Fires cfg pos task shared ⟨task.seg, task.exit, task.attempt + 1, .requesting⟩
        (shared.emit pos (.segmentStarted task.seg.index task.exit (task.attempt + 1)))
  | unknown (hphase : task.phase = .starting) (hunknown : cfg.exits.contains task.exit = false) :
      Fires cfg pos task shared
        ⟨task.seg, task.exit, task.attempt + 1, .aborted (.unknownExit task.exit)⟩ shared
  | refused {reply : Reply} {error : FetchError} (hphase : task.phase = .requesting)
      (hnetwork : cfg.network task.exit task.seg reply)
      (hopen : openBody task.exit task.seg.index reply = .error error) :
      Fires cfg pos task shared (task.to (.failed error)) shared
  | opened {reply : Reply} {chunks : List Bytes} {stop : Option Break}
      (hphase : task.phase = .requesting) (hnetwork : cfg.network task.exit task.seg reply)
      (hopen : openBody task.exit task.seg.index reply = .ok (chunks, stop)) :
      Fires cfg pos task shared (task.to (.receiving [] chunks stop))
        { shared with parts := shared.parts.create (partFile task.seg.index) }
  | chunk {received chunk : Bytes} {chunks : List Bytes} {stop : Option Break}
      (hphase : task.phase = .receiving received (chunk :: chunks) stop) :
      Fires cfg pos task shared (task.to (.receiving (received ++ chunk) chunks stop))
        { shared with parts := shared.parts.append (partFile task.seg.index) chunk }
  | finished {received : Bytes} {stop : Option Break} {bytes : ℕ} (duration : ℕ)
      (hphase : task.phase = .receiving received [] stop)
      (hclose : closeBody task.seg received stop = .ok bytes) :
      Fires cfg pos task shared
        (task.to (.finished ⟨task.seg.index, task.exit, bytes, duration, task.attempt⟩ received))
        (shared.emit pos (.segmentFinished task.seg.index task.exit bytes duration))
  | broken {received : Bytes} {stop : Option Break} {error : FetchError} (removed : Bool)
      (hphase : task.phase = .receiving received [] stop)
      (hclose : closeBody task.seg received stop = .error error) :
      Fires cfg pos task shared (task.to (.failed error)) (shared.removePart task.seg.index removed)
  | reported {error : FetchError} (hphase : task.phase = .failed error) :
      Fires cfg pos task shared (task.to (.reported error))
        (shared.emit pos (.segmentFailed task.seg.index task.exit task.attempt error))
  | removed {error : FetchError} (removed : Bool) (hphase : task.phase = .reported error) :
      Fires cfg pos task shared (task.to (.removed error)) (shared.removePart task.seg.index removed)
  | marked {error : FetchError} (now : Instant) (hphase : task.phase = .removed error)
      (hretryable : isRetryable error) :
      Fires cfg pos task shared (task.to (.marked error))
        { shared with lastFailed := shared.lastFailed.insert task.exit now }
  | gaveUp {error : FetchError} (hphase : task.phase = .removed error)
      (hfinal : isRetryable error = false) :
      Fires cfg pos task shared (task.to (.aborted error)) shared
  | exhausted {error : FetchError} (hphase : task.phase = .marked error)
      (hlimit : cfg.policy.value ≤ task.attempt) :
      Fires cfg pos task shared
        (task.to (.aborted (.segmentAttemptsExhausted task.seg.index task.attempt error))) shared
  | retried {error : FetchError} (hphase : task.phase = .marked error)
      (hlimit : task.attempt < cfg.policy.value) :
      Fires cfg pos task shared
        ⟨task.seg, pickRetry cfg.exits.keys shared.lastFailed task.exit, task.attempt, .starting⟩
        shared

theorem taskStep_fires {cfg : Config} {pos : ℕ} {task task' : TaskState} {shared shared' : Shared}
    {action : Action} (hadmits : cfg.admits task action)
    (h : taskStep cfg.exits cfg.policy pos task shared action = some (task', shared')) :
    Fires cfg pos task shared task' shared' := by
  cases action with
  | start =>
    simp only [taskStep] at h
    split at h
    · rename_i hphase
      split at h
      · rename_i hknown
        obtain ⟨rfl, rfl⟩ := Prod.ext_iff.mp (Option.some.inj h)
        exact .started hphase hknown
      · rename_i hunknown
        obtain ⟨rfl, rfl⟩ := Prod.ext_iff.mp (Option.some.inj h)
        exact .unknown hphase (by simpa using hunknown)
    · cases h
  | reply reply =>
    simp only [taskStep] at h
    split at h
    · rename_i hphase
      split at h
      · rename_i error hopen
        obtain ⟨rfl, rfl⟩ := Prod.ext_iff.mp (Option.some.inj h)
        exact .refused hphase hadmits hopen
      · rename_i chunks stop hopen
        obtain ⟨rfl, rfl⟩ := Prod.ext_iff.mp (Option.some.inj h)
        exact .opened hphase hadmits hopen
    · cases h
  | chunk =>
    simp only [taskStep] at h
    split at h
    · rename_i hphase
      obtain ⟨rfl, rfl⟩ := Prod.ext_iff.mp (Option.some.inj h)
      exact .chunk hphase
    · cases h
  | close duration removed =>
    simp only [taskStep] at h
    split at h
    · rename_i hphase
      split at h
      · rename_i bytes hclose
        obtain ⟨rfl, rfl⟩ := Prod.ext_iff.mp (Option.some.inj h)
        exact .finished duration hphase hclose
      · rename_i error hclose
        obtain ⟨rfl, rfl⟩ := Prod.ext_iff.mp (Option.some.inj h)
        exact .broken _ hphase hclose
    · cases h
  | report =>
    simp only [taskStep] at h
    split at h
    · rename_i hphase
      obtain ⟨rfl, rfl⟩ := Prod.ext_iff.mp (Option.some.inj h)
      exact .reported hphase
    · cases h
  | remove removed =>
    simp only [taskStep] at h
    split at h
    · rename_i hphase
      obtain ⟨rfl, rfl⟩ := Prod.ext_iff.mp (Option.some.inj h)
      exact .removed removed hphase
    · cases h
  | mark now =>
    simp only [taskStep] at h
    split at h
    · rename_i hphase
      split at h
      · rename_i hretryable
        obtain ⟨rfl, rfl⟩ := Prod.ext_iff.mp (Option.some.inj h)
        exact .marked now hphase hretryable
      · rename_i hfinal
        obtain ⟨rfl, rfl⟩ := Prod.ext_iff.mp (Option.some.inj h)
        exact .gaveUp hphase (by simpa using hfinal)
    · cases h
  | retry =>
    simp only [taskStep] at h
    split at h
    · rename_i hphase
      split at h
      · rename_i hlimit
        obtain ⟨rfl, rfl⟩ := Prod.ext_iff.mp (Option.some.inj h)
        exact .exhausted hphase hlimit
      · rename_i hlimit
        obtain ⟨rfl, rfl⟩ := Prod.ext_iff.mp (Option.some.inj h)
        exact .retried hphase (not_le.mp hlimit)
    · cases h

section
variable {cfg : Config} {pos : ℕ} {task task' : TaskState} {shared shared' : Shared}

theorem Fires.seg_eq (h : Fires cfg pos task shared task' shared') : task'.seg = task.seg := by
  cases h <;> rfl

theorem Fires.not_finished (h : Fires cfg pos task shared task' shared')
    (stats : SegmentAttemptStats) (body : Bytes) : task.phase ≠ .finished stats body := by
  intro hfinished
  cases h <;> simp_all

theorem Fires.not_aborted (h : Fires cfg pos task shared task' shared') (error : FetchError) :
    task.phase ≠ .aborted error := by
  intro haborted
  cases h <;> simp_all

theorem Fires.lastFailed_eq (h : Fires cfg pos task shared task' shared') :
    shared'.lastFailed = shared.lastFailed ∨
    ∃ now error, shared'.lastFailed = shared.lastFailed.insert task.exit now ∧
      task.phase = .removed error := by
  cases h with
  | marked now hphase hretryable => exact Or.inr ⟨now, _, rfl, hphase⟩
  | _ => exact Or.inl (by simp)

theorem Fires.events_eq (h : Fires cfg pos task shared task' shared') :
    shared'.events = shared.events ∨ ∃ event, shared'.events = shared.events ++ [(pos, event)] := by
  cases h with
  | started hphase hknown => exact Or.inr ⟨_, rfl⟩
  | finished duration hphase hclose => exact Or.inr ⟨_, rfl⟩
  | reported hphase => exact Or.inr ⟨_, rfl⟩
  | _ => exact Or.inl (by simp)

end

theorem seg_index_ne {segments : List SegmentPlan} {tasks : List TaskState}
    (hnodup : (segments.map (·.index)).Nodup) (hsegments : tasks.map (·.seg) = segments) {i j : ℕ}
    {task other : TaskState} (htask : tasks[i]? = some task) (hother : tasks[j]? = some other)
    (hne : j ≠ i) : other.seg.index ≠ task.seg.index := by
  intro h
  rw [← hsegments, List.map_map] at hnodup
  have hlt : j < (tasks.map (·.seg.index)).length := by
    rw [List.length_map]
    exact (List.getElem?_eq_some_iff.mp hother).1
  refine hne ((List.getElem?_inj hlt hnodup).mp ?_)
  rw [List.getElem?_map, List.getElem?_map, hother, htask, Option.map_some, Option.map_some, h]

def Done (task : TaskState) : Prop := ∃ stats body, task.phase = .finished stats body

def Ended (task : TaskState) : Prop := Done task ∨ ∃ error, task.phase = .aborted error

theorem Fires.not_ended {cfg : Config} {pos : ℕ} {task task' : TaskState} {shared shared' : Shared}
    (h : Fires cfg pos task shared task' shared') : ¬Ended task := by
  rintro (⟨stats, body, hphase⟩ | ⟨error, hphase⟩)
  · exact h.not_finished stats body hphase
  · exact h.not_aborted error hphase

-- no task ever waits for another one
theorem canStep {cfg : Config} {task : TaskState} (hrunning : ¬Ended task)
    (hanswers : ∃ reply, cfg.network task.exit task.seg reply) (pos : ℕ) (shared : Shared) :
    ∃ action, cfg.admits task action ∧
      (taskStep cfg.exits cfg.policy pos task shared action).isSome := by
  cases hphase : task.phase with
  | starting =>
    refine ⟨.start, trivial, ?_⟩
    simp only [taskStep, hphase]
    split <;> rfl
  | requesting =>
    obtain ⟨reply, hreply⟩ := hanswers
    refine ⟨.reply reply, hreply, ?_⟩
    simp only [taskStep, hphase]
    split <;> rfl
  | receiving received chunks stop =>
    cases chunks with
    | nil =>
      refine ⟨.close 0 true, trivial, ?_⟩
      simp only [taskStep, hphase]
      split <;> rfl
    | cons chunk chunks => exact ⟨.chunk, trivial, by simp [taskStep, hphase]⟩
  | failed error => exact ⟨.report, trivial, by simp [taskStep, hphase]⟩
  | reported error => exact ⟨.remove true, trivial, by simp [taskStep, hphase]⟩
  | removed error =>
    refine ⟨.mark 0, trivial, ?_⟩
    simp only [taskStep, hphase]
    split <;> rfl
  | marked error =>
    refine ⟨.retry, trivial, ?_⟩
    simp only [taskStep, hphase]
    split <;> rfl
  | finished stats body => exact absurd (Or.inl ⟨stats, body, hphase⟩) hrunning
  | aborted error => exact absurd (Or.inr ⟨error, hphase⟩) hrunning

def Awaited (tasks : List TaskState) : Caller → Prop
  | .awaiting stats => stats.length ≤ tasks.length ∧
      ∀ i < stats.length, ∃ task, tasks[i]? = some task ∧ Done task
  | .returned (.ok _) => ∀ task ∈ tasks, Done task
  | .returned (.error _) => True

theorem awaited_start (tasks : List TaskState) : Awaited tasks (.awaiting []) :=
  ⟨Nat.zero_le _, fun i hi => absurd hi (Nat.not_lt_zero i)⟩

theorem Awaited.set {tasks : List TaskState} {pos : ℕ} {task task' : TaskState} {caller : Caller}
    (h : Awaited tasks caller) (hget : tasks[pos]? = some task) (hrunning : ¬Done task) :
    Awaited (tasks.set pos task') caller := by
  cases caller with
  | awaiting stats =>
    obtain ⟨hlength, hdone⟩ := h
    refine ⟨by rwa [List.length_set], fun i hi => ?_⟩
    obtain ⟨other, hother, hfinished⟩ := hdone i hi
    have hne : pos ≠ i := by
      rintro rfl
      rw [hget] at hother
      exact hrunning (Option.some.inj hother ▸ hfinished)
    exact ⟨other, by rwa [List.getElem?_set_ne hne], hfinished⟩
  | returned result =>
    cases result with
    | ok stats => exact absurd (h task (List.mem_of_getElem? hget)) hrunning
    | error error => exact h

theorem Awaited.step {tasks : List TaskState} {caller caller' : Caller} (h : Awaited tasks caller)
    (hstep : callerStep tasks caller = some caller') : Awaited tasks caller' := by
  cases caller with
  | returned result => cases hstep
  | awaiting stats =>
    obtain ⟨hlength, hdone⟩ := h
    rw [callerStep] at hstep
    cases hget : tasks[stats.length]? with
    | none =>
      rw [hget] at hstep
      obtain rfl := Option.some.inj hstep
      intro task htask
      obtain ⟨i, hi, rfl⟩ := List.mem_iff_getElem.mp htask
      have hend := List.getElem?_eq_none_iff.mp hget
      obtain ⟨other, hother, hfinished⟩ := hdone i (by omega)
      rw [List.getElem?_eq_getElem hi] at hother
      exact Option.some.inj hother ▸ hfinished
    | some task =>
      rw [hget] at hstep
      have hin := (List.getElem?_eq_some_iff.mp hget).1
      cases hphase : task.phase with
      | finished stats' body =>
        simp only [hphase, Option.some.injEq] at hstep
        subst hstep
        refine ⟨by rw [List.length_append, List.length_singleton]; omega, fun i hi => ?_⟩
        rw [List.length_append, List.length_singleton] at hi
        rcases Nat.lt_succ_iff_lt_or_eq.mp hi with hlt | rfl
        · exact hdone i hlt
        · exact ⟨task, hget, stats', body, hphase⟩
      | aborted error =>
        simp only [hphase, Option.some.injEq] at hstep
        subst hstep
        trivial
      | _ => simp [hphase] at hstep

theorem callerStep_error {tasks : List TaskState} {caller : Caller} {error : FetchError}
    (h : callerStep tasks caller = some (.returned (.error error))) :
    ∃ (pos : ℕ) (task : TaskState), tasks[pos]? = some task ∧ task.phase = .aborted error := by
  cases caller with
  | returned result => cases h
  | awaiting stats =>
    rw [callerStep] at h
    split at h
    · cases h
    · rename_i task hget
      refine ⟨_, task, hget, ?_⟩
      split at h
      · cases h
      · rename_i hphase
        cases h
        exact hphase
      · cases h

inductive Move where
  | task (pos : ℕ) (action : Action)
  | caller

def move (cfg : Config) (s : RunState) : Move → Option RunState
  | .task pos action => do
    let task ← s.tasks[pos]?
    let (task', shared') ← taskStep cfg.exits cfg.policy pos task s.shared action
    return { s with tasks := s.tasks.set pos task', shared := shared' }
  | .caller => do
    let caller' ← callerStep s.tasks s.caller
    return { s with caller := caller' }

def moves (cfg : Config) : List Move → RunState → Option RunState
  | [], s => some s
  | next :: rest, s => (move cfg s next).bind (moves cfg rest)

theorem move_step {cfg : Config} (hadmits : ∀ task action, cfg.admits task action)
    {s s' : RunState} {next : Move} (h : move cfg s next = some s') : Step cfg s s' := by
  cases next with
  | task pos action =>
    obtain ⟨task, hget, h⟩ := Option.bind_eq_some_iff.mp h
    obtain ⟨⟨task', shared'⟩, hstep, h⟩ := Option.bind_eq_some_iff.mp h
    obtain rfl := Option.some.inj h
    exact .task action hget (hadmits task action) hstep
  | caller =>
    obtain ⟨caller', hstep, h⟩ := Option.bind_eq_some_iff.mp h
    obtain rfl := Option.some.inj h
    exact .caller hstep

theorem moves_reachable {cfg : Config} (hadmits : ∀ task action, cfg.admits task action)
    {path : List Move} {s s' : RunState} (h : moves cfg path s = some s') :
    Transition.Reachable (Step cfg) s s' := by
  induction path generalizing s with
  | nil => exact Option.some.inj h ▸ .refl s
  | cons next rest ih =>
    obtain ⟨mid, hnext, hrest⟩ := Option.bind_eq_some_iff.mp h
    exact ((Transition.Reachable.refl s).tail (move_step hadmits hnext)).trans (ih hrest)

end SpiderNet.Fetch
