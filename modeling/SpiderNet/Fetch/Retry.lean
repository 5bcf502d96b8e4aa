import SpiderNet.Fetch.ExecSteps
import SpiderNet.Fetch.RetryOrder
import Mathlib.Data.Finset.Card

namespace SpiderNet.Fetch
open Transition

def Marked (lastFailed : OrdMap ExitId Instant) (id : ExitId) : Prop := (lastFailed.get? id).isSome

theorem marked_insert {lastFailed : OrdMap ExitId Instant} {id other : ExitId} {now : Instant} :
    Marked (lastFailed.insert id now) other ↔ id = other ∨ Marked lastFailed other := by
  unfold Marked
  rw [OrdMap.get?_insert]
  split_ifs with heq <;> simp [heq]

section
variable {lastFailed : OrdMap ExitId Instant} {avoid : ExitId}

theorem not_marked_iff {id : ExitId} : ¬Marked lastFailed id ↔ lastFailure lastFailed id = ⊥ := by
  unfold Marked
  rw [Option.not_isSome_iff_eq_none]
  rfl

theorem pickRetry_unmarked {ids : List ExitId}
    (h : ∃ id ∈ ids, id ≠ avoid ∧ ¬Marked lastFailed id) :
    pickRetry ids lastFailed avoid ∈ ids ∧ ¬Marked lastFailed (pickRetry ids lastFailed avoid) := by
  obtain ⟨id, hmem, hne, hunmarked⟩ := h
  have hle := @pickRetry_le lastFailed avoid ids id hmem hne
  rw [not_marked_iff.mp hunmarked, le_bot_iff] at hle
  exact ⟨(pickRetry_listed ⟨id, hmem, hne⟩).1, not_marked_iff.mpr hle⟩

end

def startedExit? (pos : ℕ) : ℕ × ProgressEvent → Option ExitId
  | (origin, .segmentStarted _ exit _) => if origin = pos then some exit else none
  | _ => none

def startedExits (pos : ℕ) (events : List (ℕ × ProgressEvent)) : List ExitId :=
  events.filterMap (startedExit? pos)

theorem startedExits_append (pos : ℕ) (events : List (ℕ × ProgressEvent))
    (event : ℕ × ProgressEvent) : startedExits pos (events ++ [event]) =
      startedExits pos events ++ (startedExit? pos event).toList := by
  rw [startedExits, List.filterMap_append]
  congr 1

theorem startedExits_quiet {pos : ℕ} {event : ℕ × ProgressEvent}
    (h : startedExit? pos event = none) (events : List (ℕ × ProgressEvent)) :
    startedExits pos (events ++ [event]) = startedExits pos events := by
  rw [startedExits_append, h, Option.toList_none, List.append_nil]

theorem startedExits_started (pos : ℕ) (events : List (ℕ × ProgressEvent)) (index : SegmentIndex)
    (exit : ExitId) (attempt : ℕ) : startedExits pos (events ++
      [(pos, .segmentStarted index exit attempt)]) = startedExits pos events ++ [exit] := by
  rw [startedExits_append]
  simp [startedExit?]

theorem startedExits_other {pos other : ℕ} (h : other ≠ pos) (events : List (ℕ × ProgressEvent))
    (event : ProgressEvent) : startedExits pos (events ++ [(other, event)]) = startedExits pos events := by
  rw [startedExits_append]
  cases event <;> simp [startedExit?, h]

structure RetryScenario (cfg : Config) (bad : Finset ExitId) : Prop where
  planned : ∀ seg ∈ cfg.segments, seg.exit ∈ cfg.exits.keys
  failing : ∀ id ∈ cfg.exits.keys, id ∈ bad → ∀ seg ∈ cfg.segments, ∀ reply,
    cfg.network id seg reply → ∃ error, downloadAttempt id seg reply = .error error ∧ isRetryable error
  serving : ∀ id ∈ cfg.exits.keys, id ∉ bad → ∀ seg ∈ cfg.segments, ∀ reply,
    cfg.network id seg reply → ∃ bytes, downloadAttempt id seg reply = .ok bytes
  answers : ∀ id ∈ cfg.exits.keys, ∀ seg ∈ cfg.segments, ∃ reply, cfg.network id seg reply
  healthy : ∃ id ∈ cfg.exits.keys, id ∉ bad
  enough : bad.card + 1 ≤ cfg.policy.value

-- the exits tried before the current one are marked, and none was tried twice
def Underway (marked : ExitId → Prop) (tried : List ExitId) (exit : ExitId) : Prop :=
  ∃ earlier, tried = earlier ++ [exit] ∧ tried.Nodup ∧ ∀ id ∈ earlier, marked id

def Outcome (bad : Finset ExitId) (exit : ExitId) (result : Except FetchError ℕ) : Prop :=
  (exit ∈ bad → ∃ error, result = .error error ∧ isRetryable error) ∧
    (exit ∉ bad → ∃ bytes, result = .ok bytes)

def PhaseOk (bad : Finset ExitId) (marked : ExitId → Prop) (seg : SegmentPlan) (exit : ExitId)
    (tried : List ExitId) : Phase → Prop
  | .starting => tried.Nodup ∧ (∀ id ∈ tried, marked id) ∧ exit ∉ tried
  | .requesting => Underway marked tried exit
  | .receiving received chunks stop => Underway marked tried exit ∧
      Outcome bad exit (closeBody seg (received ++ chunks.flatten) stop)
  | .failed error => Underway marked tried exit ∧ exit ∈ bad ∧ isRetryable error
  | .reported error => Underway marked tried exit ∧ exit ∈ bad ∧ isRetryable error
  | .removed error => Underway marked tried exit ∧ exit ∈ bad ∧ isRetryable error
  | .marked _ => Underway marked tried exit ∧ exit ∈ bad ∧ marked exit
  | .finished stats _ => Underway marked tried exit ∧ stats.attempts = tried.length
  | .aborted _ => False

structure TaskOk (cfg : Config) (bad : Finset ExitId) (marked : ExitId → Prop)
    (tried : List ExitId) (task : TaskState) : Prop where
  planned : task.seg ∈ cfg.segments
  registered : task.exit ∈ cfg.exits.keys
  counted : task.attempt = tried.length
  phase : PhaseOk bad marked task.seg task.exit tried task.phase

theorem Underway.mono {marked marked' : ExitId → Prop} (hmono : ∀ id, marked id → marked' id)
    {tried : List ExitId} {exit : ExitId} (h : Underway marked tried exit) :
    Underway marked' tried exit := by
  obtain ⟨earlier, heq, hnodup, hall⟩ := h
  exact ⟨earlier, heq, hnodup, fun id hid => hmono id (hall id hid)⟩

theorem Underway.all_marked {marked : ExitId → Prop} {tried : List ExitId} {exit : ExitId}
    (h : Underway marked tried exit) (hexit : marked exit) : tried.Nodup ∧ ∀ id ∈ tried, marked id := by
  obtain ⟨earlier, rfl, hnodup, hall⟩ := h
  refine ⟨hnodup, fun id hid => ?_⟩
  rcases List.mem_append.mp hid with hid | hid
  · exact hall id hid
  · exact List.mem_singleton.mp hid ▸ hexit

theorem TaskOk.mono {cfg : Config} {bad : Finset ExitId} {marked marked' : ExitId → Prop}
    (hmono : ∀ id, marked id → marked' id) {tried : List ExitId} {task : TaskState}
    (h : TaskOk cfg bad marked tried task) : TaskOk cfg bad marked' tried task := by
  obtain ⟨hplanned, hregistered, hcounted, hphase⟩ := h
  refine ⟨hplanned, hregistered, hcounted, ?_⟩
  cases hp : task.phase with
  | starting =>
    rw [hp] at hphase
    exact ⟨hphase.1, fun id hid => hmono id (hphase.2.1 id hid), hphase.2.2⟩
  | requesting =>
    rw [hp] at hphase
    exact Underway.mono hmono hphase
  | marked error =>
    rw [hp] at hphase
    exact ⟨hphase.1.mono hmono, hphase.2.1, hmono _ hphase.2.2⟩
  | aborted error =>
    rw [hp] at hphase
    exact hphase
  | _ =>
    rw [hp] at hphase
    exact ⟨Underway.mono hmono hphase.1, hphase.2⟩

theorem Underway.length_le {bad : Finset ExitId} {marked : ExitId → Prop} {tried : List ExitId}
    {exit : ExitId} (hbad : ∀ id, marked id → id ∈ bad) (h : Underway marked tried exit) :
    tried.length ≤ bad.card + 1 := by
  obtain ⟨earlier, rfl, hnodup, hall⟩ := h
  have hcard : earlier.length ≤ bad.card := by
    rw [← List.toFinset_card_of_nodup (List.nodup_append.mp hnodup).1]
    exact Finset.card_le_card fun id hid => hbad id (hall id (List.mem_toFinset.mp hid))
  rw [List.length_append, List.length_singleton]
  omega

theorem length_le_of_marked {bad : Finset ExitId} {tried : List ExitId} (hnodup : tried.Nodup)
    (hall : ∀ id ∈ tried, id ∈ bad) : tried.length ≤ bad.card := by
  rw [← List.toFinset_card_of_nodup hnodup]
  exact Finset.card_le_card fun id hid => hall id (List.mem_toFinset.mp hid)

theorem outcome_of_reply {cfg : Config} {bad : Finset ExitId} (hscenario : RetryScenario cfg bad)
    {id : ExitId} (hid : id ∈ cfg.exits.keys) {seg : SegmentPlan} (hseg : seg ∈ cfg.segments)
    {reply : Reply} (hnetwork : cfg.network id seg reply) :
    Outcome bad id (downloadAttempt id seg reply) :=
  ⟨fun hbad => hscenario.failing id hid hbad seg hseg reply hnetwork,
    fun hgood => hscenario.serving id hid hgood seg hseg reply hnetwork⟩

theorem Outcome.of_error {bad : Finset ExitId} {exit : ExitId} {error : FetchError}
    (h : Outcome bad exit (.error error)) : exit ∈ bad ∧ isRetryable error := by
  by_cases hbad : exit ∈ bad
  · obtain ⟨error', heq, hretryable⟩ := h.1 hbad
    obtain rfl := Except.error.inj heq
    exact ⟨hbad, hretryable⟩
  · obtain ⟨bytes, heq⟩ := h.2 hbad
    cases heq

section
variable {cfg : Config} {bad : Finset ExitId} {pos : ℕ} {task task' : TaskState}
  {shared shared' : Shared}

theorem Fires.marked_mono (h : Fires cfg pos task shared task' shared') (id : ExitId)
    (hid : Marked shared.lastFailed id) : Marked shared'.lastFailed id := by
  rcases h.lastFailed_eq with heq | ⟨now, error, heq, _⟩
  · rwa [heq]
  · rw [heq]
    exact marked_insert.mpr (Or.inr hid)

theorem Fires.marked_bad (hok : TaskOk cfg bad (Marked shared.lastFailed)
      (startedExits pos shared.events) task) (hbad : ∀ id, Marked shared.lastFailed id → id ∈ bad)
    (h : Fires cfg pos task shared task' shared') :
    ∀ id, Marked shared'.lastFailed id → id ∈ bad := by
  intro id hid
  rcases h.lastFailed_eq with heq | ⟨now, error, heq, hphase⟩
  · exact hbad id (heq ▸ hid)
  · have hremoved := hok.phase
    rw [hphase] at hremoved
    rw [heq] at hid
    rcases marked_insert.mp hid with rfl | hid
    · exact hremoved.2.1
    · exact hbad id hid

theorem Fires.started_other {other : ℕ} (hne : pos ≠ other)
    (h : Fires cfg pos task shared task' shared') :
    startedExits other shared'.events = startedExits other shared.events := by
  rcases h.events_eq with heq | ⟨event, heq⟩
  · rw [heq]
  · rw [heq, startedExits_other hne]

theorem Fires.taskOk (hscenario : RetryScenario cfg bad)
    (hbad : ∀ id, Marked shared.lastFailed id → id ∈ bad)
    (hok : TaskOk cfg bad (Marked shared.lastFailed) (startedExits pos shared.events) task)
    (h : Fires cfg pos task shared task' shared') :
    TaskOk cfg bad (Marked shared'.lastFailed) (startedExits pos shared'.events) task' := by
  obtain ⟨hplanned, hregistered, hcounted, hok⟩ := hok
  cases h with
  | started hphase hknown =>
    rw [hphase] at hok
    obtain ⟨hnodup, hmarked, hfresh⟩ := hok
    rw [Shared.emit_events, startedExits_started, Shared.emit_lastFailed]
    refine ⟨hplanned, hregistered, by simp [hcounted], _, rfl, ?_, hmarked⟩
    exact List.nodup_append.mpr ⟨hnodup, List.nodup_singleton _, by
      rintro id hid _ hother rfl
      exact hfresh (List.mem_singleton.mp hother ▸ hid)⟩
  | unknown hphase hunknown =>
    have hknown : cfg.exits.contains task.exit = true := OrdMap.get?_isSome.mpr hregistered
    rw [hunknown] at hknown
    cases hknown
  | refused hphase hnetwork hopen =>
    rw [hphase] at hok
    have hresult := outcome_of_reply hscenario hregistered hplanned hnetwork
    rw [downloadAttempt, hopen] at hresult
    exact ⟨hplanned, hregistered, hcounted, hok, hresult.of_error⟩
  | opened hphase hnetwork hopen =>
    rw [hphase] at hok
    have hresult := outcome_of_reply hscenario hregistered hplanned hnetwork
    rw [downloadAttempt, hopen] at hresult
    exact ⟨hplanned, hregistered, hcounted, hok, hresult⟩
  | chunk hphase =>
    rw [hphase] at hok
    refine ⟨hplanned, hregistered, hcounted, hok.1, ?_⟩
    rw [List.append_assoc, ← List.flatten_cons]
    exact hok.2
  | finished duration hphase hclose =>
    rw [hphase] at hok
    rw [Shared.emit_events, startedExits_quiet rfl]
    exact ⟨hplanned, hregistered, hcounted, hok.1, hcounted⟩
  | broken removed hphase hclose =>
    rw [hphase] at hok
    obtain ⟨hunderway, hresult⟩ := hok
    rw [List.flatten_nil, List.append_nil, hclose] at hresult
    rw [Shared.removePart_lastFailed, Shared.removePart_events]
    exact ⟨hplanned, hregistered, hcounted, hunderway, hresult.of_error⟩
  | reported hphase =>
    rw [hphase] at hok
    rw [Shared.emit_events, startedExits_quiet rfl]
    exact ⟨hplanned, hregistered, hcounted, hok⟩
  | removed removed hphase =>
    rw [hphase] at hok
    rw [Shared.removePart_lastFailed, Shared.removePart_events]
    exact ⟨hplanned, hregistered, hcounted, hok⟩
  | marked now hphase hretryable =>
    rw [hphase] at hok
    refine ⟨hplanned, hregistered, hcounted, hok.1.mono fun id hid => ?_, hok.2.1, ?_⟩
    · exact marked_insert.mpr (Or.inr hid)
    · exact marked_insert.mpr (Or.inl rfl)
  | gaveUp hphase hfinal =>
    rw [hphase] at hok
    rw [hok.2.2] at hfinal
    cases hfinal
  | exhausted hphase hlimit =>
    rw [hphase] at hok
    obtain ⟨hunderway, hexit, hmarked⟩ := hok
    obtain ⟨hnodup, hmarks⟩ := hunderway.all_marked hmarked
    have hlength := length_le_of_marked hnodup fun id hid => hbad id (hmarks id hid)
    have henough := hscenario.enough
    omega
  | retried hphase hlimit =>
    rw [hphase] at hok
    obtain ⟨hunderway, hexit, hmarked⟩ := hok
    obtain ⟨hnodup, hmarks⟩ := hunderway.all_marked hmarked
    obtain ⟨good, hgood, hhealthy⟩ := hscenario.healthy
    have hne : good ≠ task.exit := fun h => hhealthy (h ▸ hexit)
    obtain ⟨hmem, hunmarked⟩ := pickRetry_unmarked
      ⟨good, hgood, hne, fun h => hhealthy (hbad good h)⟩
    exact ⟨hplanned, hmem, hcounted, hnodup, hmarks, fun h => hunmarked (hmarks _ h)⟩

end

end SpiderNet.Fetch
