import SpiderNet.Library.Transition

namespace Polling
open Transition
variable {ε β : Type}

inductive Poll (ε α : Type) where
  | pending
  | ready (result : Except ε α)

-- a stream is told how much it may read, and what there is to write
inductive Call (β : Type) where
  | read (room : ℕ)
  | write (items : List β)
  | flush
  | shutdown

-- a call and what it was answered
inductive Exchange (ε β : Type) where
  | read (room : ℕ) (answer : Poll ε (List β))
  | write (items : List β) (answer : Poll ε ℕ)
  | flush (answer : Poll ε Unit)
  | shutdown (answer : Poll ε Unit)

namespace Exchange

def call : Exchange ε β → Call β
  | .read room _ => .read room
  | .write items _ => .write items
  | .flush _ => .flush
  | .shutdown _ => .shutdown

def received : Exchange ε β → List β
  | .read _ (.ready (.ok items)) => items
  | _ => []

-- what a write delivered, if it was one that went through
def delivery : Exchange ε β → Option (List β)
  | .write items (.ready (.ok count)) => some (items.take count)
  | _ => none

def accepted (exchange : Exchange ε β) : List β := exchange.delivery.getD []

theorem accepted_of_ne {exchange : Exchange ε β} (h : ∀ items, exchange.call ≠ .write items) :
    exchange.accepted = [] := by
  cases exchange with
  | write items answer => exact absurd rfl (h items)
  | _ => rfl

theorem accepted_prefix {exchange : Exchange ε β} {items : List β} (h : exchange.call = .write items) :
    exchange.accepted <+: items := by
  cases exchange with
  | write given answer =>
    obtain rfl := Call.write.inj h
    rcases answer with _ | _ | count
    · exact List.nil_prefix
    · exact List.nil_prefix
    · exact List.take_prefix count given
  | read | flush | shutdown => cases h

end Exchange

class Polled (ε β : outParam Type) (T : Type) where
  pollRead : T → ℕ → T × Poll ε (List β)
  pollWrite : T → List β → T × Poll ε ℕ
  pollFlush : T → T × Poll ε Unit
  pollShutdown : T → T × Poll ε Unit

open Polled

def poll {T : Type} [Polled ε β T] (t : T) : Call β → T × Exchange ε β
  | .read room => ((pollRead t room).1, .read room (pollRead t room).2)
  | .write items => ((pollWrite t items).1, .write items (pollWrite t items).2)
  | .flush => ((pollFlush t).1, .flush (pollFlush t).2)
  | .shutdown => ((pollShutdown t).1, .shutdown (pollShutdown t).2)

theorem poll_call {T : Type} [Polled ε β T] (t : T) (call : Call β) : (poll t call).2.call = call := by
  cases call <;> rfl

-- `incoming` is what the other end has still to say; a write takes no more than it is given
class Channel (ε β : outParam Type) (T : Type) extends Polled ε β T where
  incoming : T → List β
  poll_incoming : ∀ t call, (poll t call).2.received ++ incoming (poll t call).1 = incoming t
  write_le : ∀ t items count, (pollWrite t items).2 = .ready (.ok count) → count ≤ items.length

open Channel

inductive Side where
  | near
  | far
  deriving DecidableEq

def Side.other : Side → Side
  | .near => .far
  | .far => .near

abbrev Log (ε β : Type) := List (Side × Exchange ε β)

-- code that polls two streams: the next call it makes, by what it has been answered so far
abbrev Client (ε β : Type) := Log ε β → Option (Side × Call β)

def receivedFrom (side : Side) (log : Log ε β) : List β :=
  log.flatMap fun entry => if entry.1 = side then entry.2.received else []

def acceptedBy (side : Side) (log : Log ε β) : List β :=
  log.flatMap fun entry => if entry.1 = side then entry.2.accepted else []

theorem receivedFrom_append (side : Side) (log later : Log ε β) :
    receivedFrom side (log ++ later) = receivedFrom side log ++ receivedFrom side later :=
  List.flatMap_append

theorem acceptedBy_append (side : Side) (log later : Log ε β) :
    acceptedBy side (log ++ later) = acceptedBy side log ++ acceptedBy side later :=
  List.flatMap_append

theorem acceptedBy_cons (side at_ : Side) (exchange : Exchange ε β) (later : Log ε β) :
    acceptedBy side ((at_, exchange) :: later) =
      (if at_ = side then exchange.accepted else []) ++ acceptedBy side later :=
  List.flatMap_cons

theorem receivedFrom_single (side at_ : Side) (exchange : Exchange ε β) :
    receivedFrom side [(at_, exchange)] = if at_ = side then exchange.received else [] :=
  List.flatMap_singleton _ _

theorem acceptedBy_single (side at_ : Side) (exchange : Exchange ε β) :
    acceptedBy side [(at_, exchange)] = if at_ = side then exchange.accepted else [] :=
  List.flatMap_singleton _ _

-- the calls of the log are those the client makes, whatever they were answered
inductive Follows (client : Client ε β) : Log ε β → Prop
  | start : Follows client []
  | call {log : Log ε β} {side : Side} {exchange : Exchange ε β} (h : Follows client log)
      (hcall : client log = some (side, exchange.call)) : Follows client (log ++ [(side, exchange)])

-- each side is given, in order, what came from the other
structure InOrder (log : Log ε β) : Prop where
  delivered : ∀ side, acceptedBy side log <+: receivedFrom side.other log

-- a client that writes only what it has read and not yet delivered
theorem inOrder_follows {client : Client ε β} (hclient : ∀ log side items, InOrder log →
    client log = some (side, .write items) → acceptedBy side log ++ items <+: receivedFrom side.other log)
    {log : Log ε β} (h : Follows client log) : InOrder log := by
  induction h with
  | start => exact ⟨fun _ => List.nil_prefix⟩
  | @call log at_ exchange _ hcall ih =>
    refine ⟨fun side => ?_⟩
    rw [acceptedBy_append, acceptedBy_single, receivedFrom_append]
    refine List.IsPrefix.trans ?_ (List.prefix_append _ _)
    split_ifs with hside
    · subst hside
      cases hwrite : exchange.call with
      | write items =>
        have hitems := hclient log at_ items ih (hwrite ▸ hcall)
        exact ((List.prefix_append_right_inj _).mpr (Exchange.accepted_prefix hwrite)).trans hitems
      | _ =>
        rw [Exchange.accepted_of_ne (by simp [hwrite]), List.append_nil]
        exact ih.delivered at_
    · rw [List.append_nil]
      exact ih.delivered side

structure Duplex (ε β A B : Type) where
  near : A
  far : B
  log : Log ε β

namespace Duplex
variable {A B : Type}

def start (near : A) (far : B) : Duplex ε β A B := ⟨near, far, []⟩

def poll [Polled ε β A] [Polled ε β B] (s : Duplex ε β A B) : Side × Call β → Duplex ε β A B
  | (.near, call) => { s with
      near := (Polling.poll s.near call).1
      log := s.log ++ [(.near, (Polling.poll s.near call).2)] }
  | (.far, call) => { s with
      far := (Polling.poll s.far call).1
      log := s.log ++ [(.far, (Polling.poll s.far call).2)] }

end Duplex

inductive Polls {A B : Type} [Polled ε β A] [Polled ε β B] (client : Client ε β) :
    Duplex ε β A B → Duplex ε β A B → Prop
  | poll {s : Duplex ε β A B} {call : Side × Call β} (hcall : client s.log = some call) :
      Polls client s (s.poll call)

section
variable {A B : Type} {client : Client ε β} {near : A} {far : B} {s : Duplex ε β A B}

theorem polls_follows [Polled ε β A] [Polled ε β B] (h : Reachable (Polls client) (.start near far) s) :
    Follows client s.log := by
  induction h with
  | refl => exact .start
  | tail _ hstep ih =>
    cases hstep with
    | @poll call hcall =>
      obtain ⟨side, call⟩ := call
      cases side with
      | near => exact .call ih (by rw [poll_call, hcall])
      | far => exact .call ih (by rw [poll_call, hcall])

variable [Channel ε β A] [Channel ε β B]

theorem polls_incoming (h : Reachable (Polls client) (.start near far) s) :
    receivedFrom .near s.log ++ incoming s.near = incoming near ∧
      receivedFrom .far s.log ++ incoming s.far = incoming far := by
  induction h with
  | refl => exact ⟨rfl, rfl⟩
  | tail _ hstep ih =>
    cases hstep with
    | @poll call _ =>
      obtain ⟨side, call⟩ := call
      cases side with
      | near =>
        rw [Duplex.poll, receivedFrom_append, receivedFrom_append, receivedFrom_single,
          receivedFrom_single, if_pos rfl, if_neg (by decide), List.append_nil, List.append_assoc,
          poll_incoming]
        exact ih
      | far =>
        rw [Duplex.poll, receivedFrom_append, receivedFrom_append, receivedFrom_single,
          receivedFrom_single, if_pos rfl, if_neg (by decide), List.append_nil, List.append_assoc,
          poll_incoming]
        exact ih

end

def runFor {A B : Type} [Polled ε β A] [Polled ε β B] (client : Client ε β) :
    ℕ → Duplex ε β A B → Duplex ε β A B
  | 0, s => s
  | fuel + 1, s =>
    match client s.log with
    | some call => runFor client fuel (s.poll call)
    | none => s

theorem runFor_reachable {A B : Type} [Polled ε β A] [Polled ε β B] {client : Client ε β} (fuel : ℕ)
    (s : Duplex ε β A B) : Reachable (Polls client) s (runFor client fuel s) := by
  induction fuel generalizing s with
  | zero => exact .refl s
  | succ fuel ih =>
    rw [runFor]
    cases hcall : client s.log with
    | none => exact .refl s
    | some call => exact ((Reachable.refl s).tail (.poll hcall)).trans (ih (s.poll call))

-- a wrapper that answers every poll as what it wraps
def Wraps {W T : Type} [Polled ε β W] [Polled ε β T] (inner : W → T) : Prop :=
  ∀ w call, inner (poll w call).1 = (poll (inner w) call).1 ∧ (poll w call).2 = (poll (inner w) call).2

section
variable {V W S T : Type} [Polled ε β V] [Polled ε β W] [Polled ε β S] [Polled ε β T]
  {outer : V → S} {inner : W → T}

def Duplex.unwrap (outer : V → S) (inner : W → T) (s : Duplex ε β V W) : Duplex ε β S T :=
  ⟨outer s.near, inner s.far, s.log⟩

theorem Duplex.unwrap_poll (houter : Wraps outer) (hinner : Wraps inner) (s : Duplex ε β V W)
    (call : Side × Call β) : (s.poll call).unwrap outer inner = (s.unwrap outer inner).poll call := by
  obtain ⟨side, call⟩ := call
  cases side with
  | near =>
    obtain ⟨hstream, hanswer⟩ := houter s.near call
    simp only [Duplex.poll, Duplex.unwrap, hstream, hanswer]
  | far =>
    obtain ⟨hstream, hanswer⟩ := hinner s.far call
    simp only [Duplex.poll, Duplex.unwrap, hstream, hanswer]

-- the client cannot tell, and what is wrapped is called as it would be alone
theorem polls_unwrap (houter : Wraps outer) (hinner : Wraps inner) {client : Client ε β}
    {s s' : Duplex ε β V W} (h : Reachable (Polls client) s s') :
    Reachable (Polls client) (s.unwrap outer inner) (s'.unwrap outer inner) := by
  induction h with
  | refl => exact .refl _
  | tail _ hstep ih =>
    cases hstep with
    | poll hcall =>
      rw [Duplex.unwrap_poll houter hinner]
      exact ih.tail (.poll hcall)

end
end Polling
