import SpiderNet.Exit.Accounting
import SpiderNet.Exit.Windows
import SpiderNet.Library.Transition
import SpiderNet.Library.ListFacts

namespace SpiderNet.Exit
open Transition ListFacts

-- the task of an accepted connection; `rest` is what it has still to do once it has read its head
-- and asked the ledger. The ledger and the clock in `env` are those it will find there.
structure Session where
  source : IpAddr
  env : Surroundings
  performed : List Effect
  rest : Option (List Effect)

inductive AcceptLoop where
  | accepting
  | ended (result : Except ExitError Unit)

-- `ops` keeps what was done to the ledger, in order
structure Service where
  loop : AcceptLoop
  ledger : QuotaLedger
  ops : List LedgerOp
  clock : Instant
  sessions : List Session

def Service.start (clock : Instant) : Service := ⟨.accepting, .new, [], clock, []⟩

-- `handle_connection` gets as far as `admit`
def asksLedger (config : ExitConfig) (source : IpAddr) (env : Surroundings) : Bool :=
  match readHead env.stop (env.neighbor.take env.arrived) with
  | .error _ => false
  | .ok _ => config.allowlist.isAllowed source

def logged (quota : Option QuotaPolicy) (op : LedgerOp) : List LedgerOp :=
  match quota with
  | none => []
  | some _ => [op]

namespace Service

def replace (s : Service) (pos : ℕ) (session : Session) : Service :=
  { s with sessions := s.sessions.set pos session }

def ask (s : Service) (config : ExitConfig) (session : Session) (now later : Instant) : Service :=
  if asksLedger config session.source session.env then
    { s with
      ledger := (s.ledger.admitSource session.source config.quota now later).2
      ops := s.ops ++ logged config.quota (.admitSource session.source now later)
      clock := later }
  else { s with clock := later }

def answered (s : Service) (config : ExitConfig) (session : Session) (now later : Instant) : Session :=
  { session with
    rest := some (handleConnection config session.source (session.env.at s.ledger now later)).1 }

def charge (s : Service) (config : ExitConfig) (source : IpAddr) (effect : Effect) (now : Instant) :
    Service :=
  match effect with
  | .record bytes =>
    { s with
      ledger := s.ledger.record source (.ofNat bytes) config.quota now
      ops := s.ops ++ logged config.quota (.record source (.ofNat bytes) now)
      clock := now }
  | _ => { s with clock := now }

end Service

def Session.perform (session : Session) (effect : Effect) (rest : List Effect) : Session :=
  { session with performed := session.performed ++ [effect], rest := some rest }

-- `serve_until` and the tasks it has spawned; those outlive it
inductive ServiceStep (config : ExitConfig) : Service → Service → Prop
  | accepted {s : Service} (source : IpAddr) (env : Surroundings) (hloop : s.loop = .accepting) :
      ServiceStep config s { s with sessions := s.sessions ++ [⟨source, env, [], none⟩] }
  | shutdown {s : Service} (hloop : s.loop = .accepting) :
      ServiceStep config s { s with loop := .ended (.ok ()) }
  | acceptFails {s : Service} (kind : IoErrorKind) (hloop : s.loop = .accepting) :
      ServiceStep config s { s with loop := .ended (.error (.io kind)) }
  | decided {s : Service} {pos : ℕ} {session : Session} {now later : Instant}
      (hget : s.sessions[pos]? = some session) (hrest : session.rest = none) (hnow : s.clock ≤ now)
      (hlater : now ≤ later) :
      ServiceStep config s
        ((s.ask config session now later).replace pos (s.answered config session now later))
  | performed {s : Service} {pos : ℕ} {session : Session} {effect : Effect} {rest : List Effect}
      {now : Instant} (hget : s.sessions[pos]? = some session)
      (hrest : session.rest = some (effect :: rest)) (hnow : s.clock ≤ now) :
      ServiceStep config s
        ((s.charge config session.source effect now).replace pos (session.perform effect rest))

-- where the service can be after starting to accept at `clock`
def serveUntil (config : ExitConfig) (clock : Instant) (s : Service) : Prop :=
  Reachable (ServiceStep config) (Service.start clock) s

namespace Service
variable {config : ExitConfig} {s : Service} {session : Session} {source : IpAddr} {effect : Effect}
  {now later : Instant}

@[simp] theorem ask_sessions : (s.ask config session now later).sessions = s.sessions := by
  unfold ask
  split_ifs <;> rfl

@[simp] theorem ask_clock : (s.ask config session now later).clock = later := by
  unfold ask
  split_ifs <;> rfl

@[simp] theorem ask_loop : (s.ask config session now later).loop = s.loop := by
  unfold ask
  split_ifs <;> rfl

@[simp] theorem charge_sessions : (s.charge config source effect now).sessions = s.sessions := by
  cases effect <;> rfl

@[simp] theorem charge_loop : (s.charge config source effect now).loop = s.loop := by
  cases effect <;> rfl

end Service
end SpiderNet.Exit
