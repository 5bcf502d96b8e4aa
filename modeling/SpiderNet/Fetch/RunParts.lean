import SpiderNet.Fetch.ExecSteps
import SpiderNet.Fetch.Reassembly

namespace SpiderNet.Fetch
open Transition ListFacts

def TaskState.body (task : TaskState) : Bytes :=
  match task.phase with
  | .finished _ body => body
  | _ => []

def Held (parts : Dir) (task : TaskState) : Prop :=
  match task.phase with
  | .receiving received _ _ => parts (partFile task.seg.index) = some (.file received)
  | .finished _ body => parts (partFile task.seg.index) = some (.file body) ∧
      body.length = task.seg.range.len
  | _ => True

theorem Dir.create_self (parts : Dir) (name : FileName) : parts.create name name = some (.file []) :=
  if_pos rfl

theorem Dir.create_other (parts : Dir) {name other : FileName} (h : other ≠ name) :
    parts.create name other = parts other := if_neg h

theorem Dir.append_self {parts : Dir} {name : FileName} {content : Bytes}
    (h : parts name = some (.file content)) (data : Bytes) :
    parts.append name data name = some (.file (content ++ data)) := by
  rw [Dir.append, if_pos rfl, h]

theorem Dir.append_other (parts : Dir) {name other : FileName} (data : Bytes) (h : other ≠ name) :
    parts.append name data other = parts other := if_neg h

theorem Shared.removePart_other (shared : Shared) {index : SegmentIndex} (removed : Bool)
    {other : FileName} (h : other ≠ partFile index) :
    (shared.removePart index removed).parts other = shared.parts other := by
  cases removed
  · rfl
  · exact if_neg h

theorem Held.of_eq {parts parts' : Dir} {task : TaskState} (h : Held parts task)
    (heq : parts' (partFile task.seg.index) = parts (partFile task.seg.index)) : Held parts' task := by
  unfold Held at *
  rwa [heq]

section
variable {cfg : Config} {pos : ℕ} {task task' : TaskState} {shared shared' : Shared}

theorem Fires.parts_other (h : Fires cfg pos task shared task' shared') {other : FileName}
    (hother : other ≠ partFile task.seg.index) : shared'.parts other = shared.parts other := by
  cases h with
  | opened hphase hnetwork hopen => exact Dir.create_other _ hother
  | chunk hphase => exact Dir.append_other _ _ hother
  | broken removed hphase hclose => exact Shared.removePart_other _ _ hother
  | removed removed hphase => exact Shared.removePart_other _ _ hother
  | _ => rfl

theorem Fires.held (h : Fires cfg pos task shared task' shared') (hheld : Held shared.parts task) :
    Held shared'.parts task' := by
  cases h with
  | opened hphase hnetwork hopen => exact Dir.create_self _ _
  | chunk hphase =>
    simp only [Held, hphase] at hheld
    exact Dir.append_self hheld _
  | finished duration hphase hclose =>
    simp only [Held, hphase] at hheld
    exact ⟨hheld, (closeBody_ok hclose).2.1⟩
  | _ => trivial

end

structure PartsInv (cfg : Config) (start : Dir) (s : RunState) : Prop where
  segments : s.tasks.map (·.seg) = cfg.segments ∨
    s.tasks = [] ∧ ∃ error, s.caller = .returned (.error error)
  held : ∀ task ∈ s.tasks, Held s.shared.parts task
  frame : ∀ name, (∀ seg ∈ cfg.segments, name ≠ partFile seg.index) → s.shared.parts name = start name
  awaited : Awaited s.tasks s.caller

theorem PartsInv.step {cfg : Config} {start : Dir} (hnodup : (cfg.segments.map (·.index)).Nodup)
    {s s' : RunState} (h : PartsInv cfg start s) (hstep : Step cfg s s') : PartsInv cfg start s' := by
  cases hstep with
  | task action hget hadmits hstep =>
    rename_i pos task task' shared'
    have hfires := taskStep_fires hadmits hstep
    rcases h.segments with hsegments | ⟨hnil, _⟩
    · have hplanned : task.seg ∈ cfg.segments :=
        hsegments ▸ List.mem_map_of_mem (List.mem_of_getElem? hget)
      refine ⟨Or.inl ((ListFacts.map_set_same (·.seg) _ hget hfires.seg_eq).trans hsegments), fun other hother => ?_,
        fun name hname => ?_, h.awaited.set hget ?_⟩
      · obtain ⟨j, hj⟩ := List.mem_iff_getElem?.mp hother
        rcases getElem?_set_cases hj with ⟨rfl, rfl, _⟩ | ⟨hne, hj⟩
        · exact hfires.held (h.held task (List.mem_of_getElem? hget))
        · refine (h.held other (List.mem_of_getElem? hj)).of_eq ?_
          have hindex := seg_index_ne hnodup hsegments hget hj hne
          exact hfires.parts_other fun hname => hindex (partFile_injective hname)
      · rw [hfires.parts_other (hname task.seg hplanned)]
        exact h.frame name hname
      · rintro ⟨stats, body, hphase⟩
        exact hfires.not_finished stats body hphase
    · rw [hnil] at hget
      cases hget
  | caller hstep =>
    refine ⟨h.segments.imp_right ?_, h.held, h.frame, h.awaited.step hstep⟩
    rintro ⟨_, error, hcaller⟩
    rw [hcaller] at hstep
    cases hstep

theorem startRun_parts (cfg : Config) (created : Bool) (parts : Dir) :
    (startRun cfg created parts).shared.parts = parts := by
  unfold startRun
  split
  · split <;> rfl
  · rfl

theorem partsInv_start (cfg : Config) (created : Bool) (parts : Dir) :
    PartsInv cfg parts (startRun cfg created parts) := by
  unfold startRun
  split
  · split
    · exact ⟨Or.inr ⟨rfl, _, rfl⟩, by simp, fun _ _ => rfl, trivial⟩
    · refine ⟨Or.inl ?_, fun task htask => ?_, fun _ _ => rfl, awaited_start _⟩
      · rw [List.map_map]
        exact List.map_id _
      · obtain ⟨seg, _, rfl⟩ := List.mem_map.mp htask
        trivial
  · exact ⟨Or.inr ⟨rfl, _, rfl⟩, by simp, fun _ _ => rfl, trivial⟩

theorem runSegments_partsInv {cfg : Config} (hnodup : (cfg.segments.map (·.index)).Nodup)
    {created : Bool} {parts : Dir} {s : RunState} (hrun : runSegments cfg created parts s) :
    PartsInv cfg parts s :=
  hrun.invariant (fun h hstep => h.step hnodup hstep) (partsInv_start cfg created parts)

structure Downloaded (planned : List SegmentPlan) (start : Dir) (s : RunState) : Prop where
  segments : s.tasks.map (·.seg) = planned
  written : ∀ task ∈ s.tasks, s.shared.parts (partFile task.seg.index) = some (.file task.body)
  lengths : ∀ task ∈ s.tasks, task.body.length = task.seg.range.len
  frame : ∀ name, (∀ seg ∈ planned, name ≠ partFile seg.index) → s.shared.parts name = start name

theorem runSegments_downloaded {cfg : Config} (hnodup : (cfg.segments.map (·.index)).Nodup)
    {created : Bool} {parts : Dir} {s : RunState} (hrun : runSegments cfg created parts s)
    {stats : List SegmentAttemptStats} (hreturned : s.caller = .returned (.ok stats)) :
    Downloaded cfg.segments parts s := by
  have hinv := runSegments_partsInv hnodup hrun
  have hdone := hinv.awaited
  rw [hreturned] at hdone
  have hheld (task : TaskState) (htask : task ∈ s.tasks) :
      s.shared.parts (partFile task.seg.index) = some (.file task.body) ∧
        task.body.length = task.seg.range.len := by
    obtain ⟨stats', body, hphase⟩ := hdone task htask
    have hheld := hinv.held task htask
    simp only [Held, hphase] at hheld
    simpa only [TaskState.body, hphase] using hheld
  refine ⟨?_, fun task htask => (hheld task htask).1, fun task htask => (hheld task htask).2,
    hinv.frame⟩
  rcases hinv.segments with hsegments | ⟨_, error, hcaller⟩
  · exact hsegments
  · rw [hreturned] at hcaller
    cases hcaller

-- two runs that differ in the parts directory only
structure Alike (s t : RunState) : Prop where
  tasks : t.tasks = s.tasks
  caller : t.caller = s.caller
  lastFailed : t.shared.lastFailed = s.shared.lastFailed
  events : t.shared.events = s.shared.events

def Shared.on (shared : Shared) (parts : Dir) : Shared := { shared with parts := parts }

theorem Shared.removePart_on (shared : Shared) (index : SegmentIndex) (removed : Bool) (parts : Dir) :
    ∃ parts', (shared.on parts).removePart index removed = (shared.removePart index removed).on parts' := by
  cases removed
  · exact ⟨parts, rfl⟩
  · exact ⟨_, rfl⟩

-- no task ever looks at the directory
theorem taskStep_on {exits : ExitRegistry} {policy : RetryPolicy} {pos : ℕ} {task task' : TaskState}
    {shared shared' : Shared} {action : Action}
    (h : taskStep exits policy pos task shared action = some (task', shared')) (parts : Dir) :
    ∃ parts', taskStep exits policy pos task (shared.on parts) action =
      some (task', shared'.on parts') := by
  cases action with
  | start =>
    simp only [taskStep] at h ⊢
    split at h
    · split_ifs at h ⊢
      · obtain ⟨rfl, rfl⟩ := Prod.ext_iff.mp (Option.some.inj h)
        exact ⟨_, rfl⟩
      · obtain ⟨rfl, rfl⟩ := Prod.ext_iff.mp (Option.some.inj h)
        exact ⟨_, rfl⟩
    · cases h
  | reply reply =>
    simp only [taskStep] at h ⊢
    split at h
    · split at h
      · obtain ⟨rfl, rfl⟩ := Prod.ext_iff.mp (Option.some.inj h)
        exact ⟨_, rfl⟩
      · obtain ⟨rfl, rfl⟩ := Prod.ext_iff.mp (Option.some.inj h)
        exact ⟨_, rfl⟩
    · cases h
  | chunk =>
    simp only [taskStep] at h ⊢
    split at h
    · obtain ⟨rfl, rfl⟩ := Prod.ext_iff.mp (Option.some.inj h)
      exact ⟨_, rfl⟩
    · cases h
  | close duration removed =>
    simp only [taskStep] at h ⊢
    split at h
    · split at h
      · obtain ⟨rfl, rfl⟩ := Prod.ext_iff.mp (Option.some.inj h)
        exact ⟨_, rfl⟩
      · obtain ⟨rfl, rfl⟩ := Prod.ext_iff.mp (Option.some.inj h)
        obtain ⟨parts', hparts⟩ := shared.removePart_on _ _ parts
        exact ⟨parts', by rw [hparts]⟩
    · cases h
  | report =>
    simp only [taskStep] at h ⊢
    split at h
    · obtain ⟨rfl, rfl⟩ := Prod.ext_iff.mp (Option.some.inj h)
      exact ⟨_, rfl⟩
    · cases h
  | remove removed =>
    simp only [taskStep] at h ⊢
    split at h
    · obtain ⟨rfl, rfl⟩ := Prod.ext_iff.mp (Option.some.inj h)
      obtain ⟨parts', hparts⟩ := shared.removePart_on _ _ parts
      exact ⟨parts', by rw [hparts]⟩
    · cases h
  | mark now =>
    simp only [taskStep] at h ⊢
    split at h
    · split_ifs at h ⊢
      · obtain ⟨rfl, rfl⟩ := Prod.ext_iff.mp (Option.some.inj h)
        exact ⟨_, rfl⟩
      · obtain ⟨rfl, rfl⟩ := Prod.ext_iff.mp (Option.some.inj h)
        exact ⟨_, rfl⟩
    · cases h
  | retry =>
    simp only [taskStep] at h ⊢
    split at h
    · split_ifs at h ⊢
      · obtain ⟨rfl, rfl⟩ := Prod.ext_iff.mp (Option.some.inj h)
        exact ⟨_, rfl⟩
      · obtain ⟨rfl, rfl⟩ := Prod.ext_iff.mp (Option.some.inj h)
        exact ⟨_, rfl⟩
    · cases h

theorem Alike.step {cfg : Config} {s s' t : RunState} (h : Alike s t) (hstep : Step cfg s s') :
    ∃ t', Step cfg t t' ∧ Alike s' t' := by
  have hshared : t.shared = s.shared.on t.shared.parts := by
    rw [Shared.on, ← h.lastFailed, ← h.events]
  cases hstep with
  | task action hget hadmits hstep =>
    obtain ⟨parts', hstep'⟩ := taskStep_on hstep t.shared.parts
    rw [← hshared] at hstep'
    rw [← h.tasks] at hget
    exact ⟨_, .task action hget hadmits hstep', congrArg (List.set · _ _) h.tasks, h.caller, rfl, rfl⟩
  | caller hstep =>
    rw [← h.tasks, ← h.caller] at hstep
    exact ⟨_, .caller hstep, h.tasks, rfl, h.lastFailed, h.events⟩

theorem alike_start (cfg : Config) (created : Bool) (parts parts' : Dir) :
    Alike (startRun cfg created parts) (startRun cfg created parts') := by
  unfold startRun
  split
  · split <;> exact ⟨rfl, rfl, rfl, rfl⟩
  · exact ⟨rfl, rfl, rfl, rfl⟩

theorem runSegments_replay {cfg : Config} {created : Bool} {parts : Dir} {s : RunState}
    (hrun : runSegments cfg created parts s) (parts' : Dir) :
    ∃ t, runSegments cfg created parts' t ∧ Alike s t :=
  hrun.simulate Alike.step (alike_start cfg created parts parts')

end SpiderNet.Fetch
