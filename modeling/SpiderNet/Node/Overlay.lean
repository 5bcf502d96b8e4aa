import SpiderNet.Node.Yggdrasil
import SpiderNet.Library.Transition

namespace SpiderNet.Node
open Exit Transition

-- instants and durations in nanoseconds
def second : ℕ := 1000000000

def overlayWait : ℕ := 60 * second

def overlayPoll : ℕ := second

inductive AdminReply where
  | connected
  | answered (buffer : Bytes)
  | broken (kind : IoErrorKind)

inductive Query where
  | connecting (since : ℕ)
  | requesting (since : ℕ)

def Query.since : Query → ℕ
  | .connecting since | .requesting since => since

inductive Progress (α : Type) where
  | pending
  | moved (query : Query)
  | ready (result : α)

-- `get_self` and `get_peers` up to the parse of what was read: only connecting is timed
def Query.poll (timeout now : ℕ) (reply : Option AdminReply) :
    Query → Progress (Except NodeError Bytes)
  | .connecting since =>
    match reply with
    | some .connected => .moved (.requesting now)
    | some (.broken kind) => .ready (.error (.io kind))
    | _ => if since + timeout ≤ now then .ready (.error .timeout) else .pending
  | .requesting _ =>
    match reply with
    | some (.answered buffer) => .ready (.ok buffer)
    | some (.broken kind) => .ready (.error (.io kind))
    | _ => .pending

inductive OverlayOutcome where
  | up (address : YggAddr)
  | shutdown
  | failed (error : NodeError)

-- where `wait_for_overlay` awaits something; `timeout` is the attempt's
inductive Waiting where
  | asking (query : Query) (timeout : ℕ)
  | askingPeers (info : SelfInfo) (query : Query) (timeout : ℕ)
  | sleeping (since timeout : ℕ)
  | ended (outcome : OverlayOutcome)

-- what a poll finds: the time, whether the shutdown future and the sidecar are done
structure Surroundings where
  now : ℕ
  shutdown : Bool
  exited : Option String

section
variable (endpoint : AdminEndpoint) (fromSlice : Bytes → Except String Json) (deadline : ℕ)

def overlayNotUp : NodeError :=
  .overlayNotUp (.ofList endpoint.configValue) (overlayWait / second)

-- the branches of the select that come before the admin query
def interrupted (around : Surroundings) : Option OverlayOutcome :=
  if around.shutdown then some .shutdown
  else around.exited.map fun status => .failed (.sidecarExited status)

def attempt (around : Surroundings) : Waiting :=
  if deadline - around.now = 0 then .ended (.failed (overlayNotUp endpoint))
  else
    match interrupted around with
    | some outcome => .ended outcome
    | none => .asking (.connecting around.now) (min (deadline - around.now) overlayPoll)

def Waiting.poll (around : Surroundings) (reply : Option AdminReply) : Waiting → Option Waiting
  | .asking query timeout =>
    match interrupted around with
    | some outcome => some (.ended outcome)
    | none =>
      match query.poll timeout around.now reply with
      | .pending => none
      | .moved query => some (.asking query timeout)
      | .ready result =>
        match result.bind (selfAnswer fromSlice) with
        | .ok info => some (.askingPeers info (.connecting around.now) timeout)
        | .error _ => some (.sleeping around.now timeout)
  | .askingPeers info query timeout =>
    match query.poll timeout around.now reply with
    | .pending => none
    | .moved query => some (.askingPeers info query timeout)
    | .ready _ => some (.ended (.up info.address))
  | .sleeping since _ =>
    if since + overlayPoll ≤ around.now then some (attempt endpoint deadline around) else none
  | .ended _ => none

end

def Accepts (query : Query) (reply : Option AdminReply) : Prop :=
  (∃ since, query = .connecting since) ∧ reply = some .connected

def AttemptFails (fromSlice : Bytes → Except String Json) (query : Query) (timeout now : ℕ)
    (reply : Option AdminReply) : Prop :=
  ∃ result error, query.poll timeout now reply = .ready result ∧
    result.bind (selfAnswer fromSlice) = .error error

section
variable {endpoint : AdminEndpoint} {fromSlice : Bytes → Except String Json} {deadline : ℕ}

theorem query_moved {query query' : Query} {timeout now : ℕ} {reply : Option AdminReply} :
    query.poll timeout now reply = .moved query' ↔ Accepts query reply ∧ query' = .requesting now := by
  constructor
  · intro h
    cases query with
    | connecting since =>
      rcases reply with _ | _ | buffer | kind <;> simp only [Query.poll] at h
      · split at h <;> cases h
      · exact ⟨⟨⟨since, rfl⟩, rfl⟩, (Progress.moved.inj h).symm⟩
      · split at h <;> cases h
      · cases h
    | requesting since => rcases reply with _ | _ | buffer | kind <;> cases h
  · rintro ⟨⟨⟨since, rfl⟩, rfl⟩, rfl⟩
    rfl

theorem asking_poll {query : Query} {timeout : ℕ} {around : Surroundings} {reply : Option AdminReply}
    {place' : Waiting}
    (h : (Waiting.asking query timeout).poll endpoint fromSlice deadline around reply = some place') :
    (∃ outcome, interrupted around = some outcome ∧ place' = .ended outcome) ∨
      interrupted around = none ∧
      ((∃ query', query.poll timeout around.now reply = .moved query' ∧
          place' = .asking query' timeout) ∨
        (∃ result info, query.poll timeout around.now reply = .ready result ∧
          result.bind (selfAnswer fromSlice) = .ok info ∧
          place' = .askingPeers info (.connecting around.now) timeout) ∨
        (AttemptFails fromSlice query timeout around.now reply ∧
          place' = .sleeping around.now timeout)) := by
  rw [Waiting.poll] at h
  cases hstop : interrupted around with
  | some outcome =>
    rw [hstop] at h
    exact Or.inl ⟨outcome, rfl, (Option.some.inj h).symm⟩
  | none =>
    rw [hstop] at h
    refine Or.inr ⟨rfl, ?_⟩
    cases hpoll : query.poll timeout around.now reply with
    | pending => simp [hpoll] at h
    | moved query' =>
      rw [hpoll] at h
      exact Or.inl ⟨query', rfl, (Option.some.inj h).symm⟩
    | ready result =>
      simp only [hpoll] at h
      cases hanswer : result.bind (selfAnswer fromSlice) with
      | ok info =>
        rw [hanswer] at h
        exact Or.inr (Or.inl ⟨result, info, rfl, hanswer, (Option.some.inj h).symm⟩)
      | error error =>
        rw [hanswer] at h
        exact Or.inr (Or.inr ⟨⟨result, error, hpoll, hanswer⟩, (Option.some.inj h).symm⟩)

theorem askingPeers_poll {info : SelfInfo} {query : Query} {timeout : ℕ} {around : Surroundings}
    {reply : Option AdminReply} {place' : Waiting}
    (h : (Waiting.askingPeers info query timeout).poll endpoint fromSlice deadline around reply =
      some place') :
    (∃ query', query.poll timeout around.now reply = .moved query' ∧
      place' = .askingPeers info query' timeout) ∨
    ∃ result, query.poll timeout around.now reply = .ready result ∧
      place' = .ended (.up info.address) := by
  rw [Waiting.poll] at h
  cases hpoll : query.poll timeout around.now reply with
  | pending => simp [hpoll] at h
  | moved query' =>
    rw [hpoll] at h
    exact Or.inl ⟨query', rfl, (Option.some.inj h).symm⟩
  | ready result =>
    rw [hpoll] at h
    exact Or.inr ⟨result, rfl, (Option.some.inj h).symm⟩

theorem sleeping_poll {since timeout : ℕ} {around : Surroundings} {reply : Option AdminReply}
    {place' : Waiting}
    (h : (Waiting.sleeping since timeout).poll endpoint fromSlice deadline around reply = some place') :
    place' = attempt endpoint deadline around := by
  rw [Waiting.poll] at h
  by_cases hdue : since + overlayPoll ≤ around.now
  · rw [if_pos hdue] at h
    exact (Option.some.inj h).symm
  · rw [if_neg hdue] at h
    cases h

end

-- one call of `wait_for_overlay` and what goes on around it
structure Wait where
  around : Surroundings
  place : Waiting

inductive Happens (managed : Bool) : Surroundings → Surroundings → Prop
  | pass {around : Surroundings} (later : ℕ) (h : around.now ≤ later) :
      Happens managed around { around with now := later }
  | shutdown {around : Surroundings} : Happens managed around { around with shutdown := true }
  | sidecarExits {around : Surroundings} (status : String) (hmanaged : managed = true)
      (halive : around.exited = none) : Happens managed around { around with exited := some status }

inductive WaitStep (endpoint : AdminEndpoint) (fromSlice : Bytes → Except String Json)
    (deadline : ℕ) (managed : Bool) : Wait → Wait → Prop
  | happens {around around' : Surroundings} (place : Waiting) (h : Happens managed around around') :
      WaitStep endpoint fromSlice deadline managed ⟨around, place⟩ ⟨around', place⟩
  | wake {around : Surroundings} {place place' : Waiting} (reply : Option AdminReply)
      (h : place.poll endpoint fromSlice deadline around reply = some place') :
      WaitStep endpoint fromSlice deadline managed ⟨around, place⟩ ⟨around, place'⟩

def overlayDeadline (around : Surroundings) : ℕ := around.now + overlayWait

def startWait (endpoint : AdminEndpoint) (around : Surroundings) : Wait :=
  ⟨around, attempt endpoint (overlayDeadline around) around⟩

end SpiderNet.Node
