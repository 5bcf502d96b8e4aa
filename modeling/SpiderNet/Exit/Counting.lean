import SpiderNet.Exit.Relay
import SpiderNet.Library.Polling

namespace SpiderNet.Exit
open Transition Polling Polled Channel

-- the counters wrap around
structure CountingIo (T : Type) where
  inner : T
  read : UInt64
  written : UInt64

namespace CountingIo
variable {T : Type}

def new (inner : T) : CountingIo T := ⟨inner, 0, 0⟩

def writtenBytes (io : CountingIo T) : UInt64 := io.written

def pollRead [Polled IoErrorKind UInt8 T] (io : CountingIo T) (room : ℕ) :
    CountingIo T × Poll IoErrorKind Bytes :=
  let (inner, result) := Polled.pollRead io.inner room
  match result with
  | .ready (.ok bytes) => ({ io with inner := inner, read := io.read + .ofNat bytes.length }, result)
  | _ => ({ io with inner := inner }, result)

def pollWrite [Polled IoErrorKind UInt8 T] (io : CountingIo T) (bytes : Bytes) :
    CountingIo T × Poll IoErrorKind ℕ :=
  let (inner, result) := Polled.pollWrite io.inner bytes
  match result with
  | .ready (.ok count) => ({ io with inner := inner, written := io.written + .ofNat count }, result)
  | _ => ({ io with inner := inner }, result)

def pollFlush [Polled IoErrorKind UInt8 T] (io : CountingIo T) : CountingIo T × Poll IoErrorKind Unit :=
  let (inner, result) := Polled.pollFlush io.inner
  ({ io with inner := inner }, result)

def pollShutdown [Polled IoErrorKind UInt8 T] (io : CountingIo T) :
    CountingIo T × Poll IoErrorKind Unit :=
  let (inner, result) := Polled.pollShutdown io.inner
  ({ io with inner := inner }, result)

instance [Polled IoErrorKind UInt8 T] : Polled IoErrorKind UInt8 (CountingIo T) :=
  ⟨pollRead, pollWrite, pollFlush, pollShutdown⟩

theorem wraps [Polled IoErrorKind UInt8 T] : Wraps (inner : CountingIo T → T) := by
  intro io call
  cases call with
  | read room =>
    simp only [poll, Polled.pollRead, pollRead]
    split <;> exact ⟨rfl, rfl⟩
  | write bytes =>
    simp only [poll, Polled.pollWrite, pollWrite]
    split <;> exact ⟨rfl, rfl⟩
  | flush => exact ⟨rfl, rfl⟩
  | shutdown => exact ⟨rfl, rfl⟩

instance [Channel IoErrorKind UInt8 T] : Channel IoErrorKind UInt8 (CountingIo T) where
  incoming io := incoming io.inner
  poll_incoming io call := by
    rw [(wraps io call).1, (wraps io call).2]
    exact poll_incoming _ _
  write_le io bytes count h := by
    have hanswer := (wraps io (.write bytes)).2
    simp only [poll, Exchange.write.injEq, true_and] at hanswer
    exact write_le io.inner bytes count (hanswer ▸ h)

theorem written_poll [Channel IoErrorKind UInt8 T] (io : CountingIo T) (call : Call UInt8) :
    (poll io call).1.written = io.written + .ofNat (poll io call).2.accepted.length := by
  have hnone : io.written = io.written + .ofNat ([] : Bytes).length := (UInt64.add_zero _).symm
  cases call with
  | read room =>
    simp only [poll, Polled.pollRead, pollRead]
    split <;> exact hnone
  | write bytes =>
    simp only [poll, Polled.pollWrite, pollWrite]
    split
    · rename_i count hcount
      simp only [Exchange.accepted, Exchange.delivery, hcount, Option.getD_some]
      rw [List.length_take, min_eq_left (write_le _ _ _ hcount)]
    · rename_i hother
      rw [Exchange.accepted, Exchange.delivery]
      · exact hnone
      · exact fun items count heq => hother count (by simp at heq; exact heq.2)
  | flush => exact hnone
  | shutdown => exact hnone

end CountingIo

section
variable {A B : Type} [Channel IoErrorKind UInt8 A] [Channel IoErrorKind UInt8 B]
  {client : Client IoErrorKind UInt8} {a : CountingIo A} {b : CountingIo B}
  {s : Duplex IoErrorKind UInt8 (CountingIo A) (CountingIo B)}

theorem polls_written (h : Reachable (Polls client) (.start a b) s) :
    s.near.written = a.written + .ofNat (acceptedBy .near s.log).length ∧
      s.far.written = b.written + .ofNat (acceptedBy .far s.log).length := by
  induction h with
  | refl => exact ⟨(UInt64.add_zero _).symm, (UInt64.add_zero _).symm⟩
  | tail _ hstep ih =>
    cases hstep with
    | @poll call _ =>
      obtain ⟨side, call⟩ := call
      cases side with
      | near =>
        simp only [Duplex.poll, acceptedBy_append, acceptedBy_single, if_true, List.length_append,
          UInt64.ofNat_add, CountingIo.written_poll, ih.1, UInt64.add_assoc, reduceCtorEq, if_false,
          List.append_nil, ih.2, and_self]
      | far =>
        simp only [Duplex.poll, acceptedBy_append, acceptedBy_single, if_true, List.length_append,
          UInt64.ofNat_add, CountingIo.written_poll, ih.1, UInt64.add_assoc, reduceCtorEq, if_false,
          List.append_nil, ih.2, and_self]

end

-- the runtime's `write_all` and `copy_bidirectional`: the polls they make, and what the former returns
structure Runtime where
  writeAll : Bytes → Client IoErrorKind UInt8
  wrote : Bytes → Log IoErrorKind UInt8 → Option (Except IoErrorKind Unit)
  copyBidirectional : Client IoErrorKind UInt8

-- what they are documented to do; `write_all` is given the origin alone
structure Documented (runtime : Runtime) : Prop where
  writes : ∀ bytes log side call, runtime.writeAll bytes log = some (side, call) →
    side = .far ∧ ∃ rest, call = .write rest
  wrotePart : ∀ bytes log, Follows (runtime.writeAll bytes) log → acceptedBy .far log <+: bytes
  wroteAll : ∀ bytes log, Follows (runtime.writeAll bytes) log →
    runtime.wrote bytes log = some (.ok ()) → acceptedBy .far log = bytes
  copies : ∀ log, Follows runtime.copyBidirectional log → InOrder log

-- the bytes of a write are taken by the neighbor or by the origin
def effectOf (addr : SocketAddr) (entry : Side × Exchange IoErrorKind UInt8) : Option Effect :=
  entry.2.delivery.map fun bytes =>
    match entry.1 with
    | .near => .toNeighbor bytes
    | .far => .toOrigin addr bytes

def relayedOf (entry : Side × Exchange IoErrorKind UInt8) : Option Relayed :=
  entry.2.delivery.map fun bytes =>
    match entry.1 with
    | .near => .down bytes.length
    | .far => .up bytes.length

-- `handle_connection` from the connected origin to the ledger; the copy may end after any poll
inductive RelayRun {A B : Type} [Polled IoErrorKind UInt8 A] [Polled IoErrorKind UInt8 B]
    (runtime : Runtime) (head : RequestHead) (rawHead : Bytes) (addr : SocketAddr) (neighbor : A)
    (origin : B) : List Effect → Option (A × B) → Prop
  | unforwarded {s : Duplex IoErrorKind UInt8 A B} {error : IoErrorKind}
      (hforward : head.target = .forward)
      (hwrite : Reachable (Polls (runtime.writeAll rawHead)) (.start neighbor origin) s)
      (hwrote : runtime.wrote rawHead s.log = some (.error error)) :
      RelayRun runtime head rawHead addr neighbor origin [.toOrigin addr (acceptedBy .far s.log)] none
  | tunnelled {s : Duplex IoErrorKind UInt8 A B} (htunnel : head.target = .tunnel)
      (hcopy : Reachable (Polls runtime.copyBidirectional) (.start neighbor origin) s) :
      RelayRun runtime head rawHead addr neighbor origin (s.log.filterMap (effectOf addr))
        (some (s.near, s.far))
  | forwarded {w s : Duplex IoErrorKind UInt8 A B} (hforward : head.target = .forward)
      (hwrite : Reachable (Polls (runtime.writeAll rawHead)) (.start neighbor origin) w)
      (hwrote : runtime.wrote rawHead w.log = some (.ok ()))
      (hcopy : Reachable (Polls runtime.copyBidirectional) (.start w.near w.far) s) :
      RelayRun runtime head rawHead addr neighbor origin
        (.toOrigin addr (acceptedBy .far w.log) :: s.log.filterMap (effectOf addr))
        (some (s.near, s.far))

theorem relayFrom_log (addr : SocketAddr) {log : Log IoErrorKind UInt8} {uplink downlink : Bytes}
    (hup : acceptedBy .far log <+: uplink) (hdown : acceptedBy .near log <+: downlink) :
    relayFrom addr (log.filterMap relayedOf) uplink downlink = log.filterMap (effectOf addr) := by
  induction log generalizing uplink downlink with
  | nil => rfl
  | cons entry rest ih =>
    obtain ⟨side, exchange⟩ := entry
    rw [acceptedBy_cons] at hup hdown
    cases hdelivery : exchange.delivery with
    | none =>
      have hnone : exchange.accepted = [] := by rw [Exchange.accepted, hdelivery, Option.getD_none]
      rw [hnone, ite_self, List.nil_append] at hup hdown
      rw [List.filterMap_cons_none (by rw [relayedOf, hdelivery]; rfl),
        List.filterMap_cons_none (by rw [effectOf, hdelivery]; rfl)]
      exact ih hup hdown
    | some bytes =>
      have hsome : exchange.accepted = bytes := by rw [Exchange.accepted, hdelivery, Option.getD_some]
      rw [hsome] at hup hdown
      cases side with
      | near =>
        have hrelayed : relayedOf (.near, exchange) = some (.down bytes.length) := by
          rw [relayedOf, hdelivery]
          rfl
        have heffect : effectOf addr (.near, exchange) = some (.toNeighbor bytes) := by
          rw [effectOf, hdelivery]
          rfl
        obtain ⟨left, rfl⟩ := hdown
        rw [List.filterMap_cons_some hrelayed, List.filterMap_cons_some heffect, if_pos rfl,
          List.append_assoc, relayFrom, List.take_left, List.drop_left,
          ih hup (List.prefix_append _ _)]
      | far =>
        have hrelayed : relayedOf (.far, exchange) = some (.up bytes.length) := by
          rw [relayedOf, hdelivery]
          rfl
        have heffect : effectOf addr (.far, exchange) = some (.toOrigin addr bytes) := by
          rw [effectOf, hdelivery]
          rfl
        obtain ⟨left, rfl⟩ := hup
        rw [List.filterMap_cons_some hrelayed, List.filterMap_cons_some heffect, if_pos rfl,
          List.append_assoc, relayFrom, List.take_left, List.drop_left,
          ih (List.prefix_append _ _) hdown]

theorem counted_log (addr : SocketAddr) (log : Log IoErrorKind UInt8) :
    ((log.filterMap (effectOf addr)).map Effect.counted).sum =
      (acceptedBy .far log).length + (acceptedBy .near log).length := by
  induction log with
  | nil => rfl
  | cons entry rest ih =>
    obtain ⟨side, exchange⟩ := entry
    rw [acceptedBy_cons, acceptedBy_cons, List.length_append, List.length_append]
    cases hdelivery : exchange.delivery with
    | none =>
      have hnone : exchange.accepted = [] := by rw [Exchange.accepted, hdelivery, Option.getD_none]
      rw [List.filterMap_cons_none (by rw [effectOf, hdelivery]; rfl), ih, hnone, ite_self, ite_self]
      simp
    | some bytes =>
      have hsome : exchange.accepted = bytes := by rw [Exchange.accepted, hdelivery, Option.getD_some]
      have hhead : ∀ effect, effectOf addr (side, exchange) = some effect →
          effect.counted = bytes.length := by
        intro effect heffect
        rw [effectOf, hdelivery] at heffect
        obtain rfl := Option.some.inj heffect
        cases side <;> rfl
      obtain ⟨effect, heffect⟩ : ∃ effect, effectOf addr (side, exchange) = some effect := by
        rw [effectOf, hdelivery]
        exact ⟨_, rfl⟩
      rw [List.filterMap_cons_some heffect, List.map_cons, List.sum_cons, hhead effect heffect, ih, hsome]
      cases side with
      | near =>
        rw [if_neg (by decide), if_pos rfl, List.length_nil]
        omega
      | far =>
        rw [if_pos rfl, if_neg (by decide), List.length_nil]
        omega

section
variable {A B : Type} [Channel IoErrorKind UInt8 A] [Channel IoErrorKind UInt8 B]
  {runtime : Runtime} (hdoc : Documented runtime) {bytes rawHead : Bytes} {head : RequestHead}
  {env : Surroundings}
include hdoc

-- the head goes to the origin; neither side is read from
theorem writeAll_apart {a : A} {b : B} {s : Duplex IoErrorKind UInt8 A B}
    (h : Reachable (Polls (runtime.writeAll bytes)) (.start a b) s) :
    s.near = a ∧ incoming s.far = incoming b := by
  induction h with
  | refl => exact ⟨rfl, rfl⟩
  | tail _ hstep ih =>
    cases hstep with
    | @poll call hcall =>
      obtain ⟨side, call⟩ := call
      obtain ⟨rfl, rest, rfl⟩ := hdoc.writes _ _ _ _ hcall
      exact ⟨ih.1, (poll_incoming _ (.write rest)).trans ih.2⟩

theorem copy_relayEffects {a : A} {b : B} {s : Duplex IoErrorKind UInt8 A B}
    (hcopy : Reachable (Polls runtime.copyBidirectional) (.start a b) s) (addr : SocketAddr)
    (ha : incoming a = env.neighbor.drop rawHead.length) (hb : incoming b = env.origin) :
    relayEffects head rawHead addr
        { env with forwarded := .done, relay := s.log.filterMap relayedOf } =
      headEffects head rawHead addr ++ s.log.filterMap (effectOf addr) := by
  have hordered := (hdoc.copies _ (polls_follows hcopy)).delivered
  obtain ⟨hnear, hfar⟩ := polls_incoming hcopy
  have hup : acceptedBy .far s.log <+: env.neighbor.drop rawHead.length :=
    (hordered .far).trans ⟨_, hnear.trans ha⟩
  have hdown : acceptedBy .near s.log <+: env.origin := (hordered .near).trans ⟨_, hfar.trans hb⟩
  rw [relayEffects, relayFrom_log addr hup hdown]

end

section
variable {A B : Type} [Channel IoErrorKind UInt8 A] [Channel IoErrorKind UInt8 B]

-- what becomes of a connected origin, poll by poll, is what the model's relay makes of it
structure RelayRefined (runtime : Runtime) (head : RequestHead) (rawHead : Bytes) (addr : SocketAddr)
    (neighbor : A) (origin : B) (env : Surroundings) (effects : List Effect)
    (ends : Option (CountingIo A × CountingIo B)) : Prop where
  plain : RelayRun runtime head rawHead addr neighbor origin effects
    (ends.map fun ends => (ends.1.inner, ends.2.inner))
  modelled : ∃ forwarded relay, (relayOrigin head rawHead addr
    { env with forwarded := forwarded, relay := relay }).1 = effects ++
      ends.toList.map fun _ => .record (effects.map Effect.counted).sum
  recorded : ∀ a b, ends = some (a, b) →
    b.writtenBytes + a.writtenBytes = .ofNat (effects.map Effect.counted).sum

variable {runtime : Runtime} {head : RequestHead} {rawHead : Bytes} {addr : SocketAddr} {neighbor : A}
  {origin : B} {effects : List Effect} {ends : Option (CountingIo A × CountingIo B)}

-- the wrapped sockets are polled as the bare ones would be
theorem relayRun_unwrap
    (h : RelayRun runtime head rawHead addr (CountingIo.new neighbor) (CountingIo.new origin) effects
      ends) : RelayRun runtime head rawHead addr neighbor origin effects
        (ends.map fun ends => (ends.1.inner, ends.2.inner)) := by
  cases h with
  | unforwarded hforward hwrite hwrote =>
    exact .unforwarded hforward (polls_unwrap CountingIo.wraps CountingIo.wraps hwrite) hwrote
  | tunnelled htunnel hcopy =>
    exact .tunnelled htunnel (polls_unwrap CountingIo.wraps CountingIo.wraps hcopy)
  | forwarded hforward hwrite hwrote hcopy =>
    exact .forwarded hforward (polls_unwrap CountingIo.wraps CountingIo.wraps hwrite) hwrote
      (polls_unwrap CountingIo.wraps CountingIo.wraps hcopy)

theorem counted_relay_refines (hdoc : Documented runtime)
    (hrun : RelayRun runtime head rawHead addr (CountingIo.new neighbor) (CountingIo.new origin) effects
      ends) {env : Surroundings} (hneighbor : incoming neighbor = env.neighbor.drop rawHead.length)
    (horigin : incoming origin = env.origin) :
    RelayRefined runtime head rawHead addr neighbor origin env effects ends := by
  have hplain := relayRun_unwrap hrun
  cases hrun with
  | @unforwarded s error hforward hwrite hwrote =>
    obtain ⟨left, hsent⟩ := hdoc.wrotePart rawHead _ (polls_follows hwrite)
    refine ⟨hplain, ⟨.failed (acceptedBy .far s.log).length, [], ?_⟩, ?_⟩
    · rw [relayOrigin_unforwarded hforward rfl]
      nth_rewrite 1 [← hsent]
      rw [List.take_left]
      rfl
    · intro a b hnone
      cases hnone
  | @tunnelled s htunnel hcopy =>
    refine ⟨hplain, ⟨.done, s.log.filterMap relayedOf, ?_⟩, ?_⟩
    · rw [relayOrigin_forwarded fun _ => rfl, copy_relayEffects hdoc hcopy addr hneighbor horigin]
      simp [headEffects, htunnel]
    · rintro a b ⟨rfl, rfl⟩
      obtain ⟨hnear, hfar⟩ := polls_written hcopy
      rw [counted_log, UInt64.ofNat_add, CountingIo.writtenBytes, CountingIo.writtenBytes, hnear, hfar]
      simp only [CountingIo.new, UInt64.zero_add]
  | @forwarded w s hforward hwrite hwrote hcopy =>
    have hwhole := hdoc.wroteAll rawHead _ (polls_follows hwrite) hwrote
    obtain ⟨hsame, hincoming⟩ := writeAll_apart hdoc hwrite
    have hneighbor' : incoming w.near = env.neighbor.drop rawHead.length := by
      rw [hsame]
      exact hneighbor
    refine ⟨hplain, ⟨.done, s.log.filterMap relayedOf, ?_⟩, ?_⟩
    · rw [relayOrigin_forwarded fun _ => rfl,
        copy_relayEffects hdoc hcopy addr hneighbor' (hincoming.trans horigin), hwhole]
      simp [headEffects, hforward]
    · rintro a b ⟨rfl, rfl⟩
      obtain ⟨hnear, hfar⟩ := polls_written hcopy
      obtain ⟨_, hforwarded⟩ := polls_written hwrite
      rw [List.map_cons, List.sum_cons, counted_log, Effect.counted, UInt64.ofNat_add, UInt64.ofNat_add,
        CountingIo.writtenBytes, CountingIo.writtenBytes, hnear, hfar, hforwarded, hsame]
      simp only [CountingIo.new, UInt64.zero_add]
      ac_rfl

end

-- a socket that moves at most `most` bytes at once
structure Pipe where
  waiting : Bytes
  most : ℕ

instance : Polled IoErrorKind UInt8 Pipe where
  pollRead pipe room := ({ pipe with waiting := pipe.waiting.drop (min room pipe.most) },
    .ready (.ok (pipe.waiting.take (min room pipe.most))))
  pollWrite pipe bytes := (pipe, .ready (.ok (min bytes.length pipe.most)))
  pollFlush pipe := (pipe, .ready (.ok ()))
  pollShutdown pipe := (pipe, .ready (.ok ()))

instance : Channel IoErrorKind UInt8 Pipe where
  incoming := Pipe.waiting
  poll_incoming pipe call := by
    cases call with
    | read room => exact List.take_append_drop _ _
    | write | flush | shutdown => rfl
  write_le pipe bytes count h := by
    cases h
    exact min_le_left _ _

def failure (log : Log IoErrorKind UInt8) : Option IoErrorKind :=
  log.findSome? fun entry =>
    match entry.2 with
    | .write _ (.ready (.error error)) => some error
    | .write _ (.ready (.ok 0)) => some .other
    | _ => none

def unsent (bytes : Bytes) (log : Log IoErrorKind UInt8) : Bytes :=
  bytes.drop (acceptedBy .far log).length

def asked (side : Side) (log : Log IoErrorKind UInt8) (p : Exchange IoErrorKind UInt8 → Bool) : Bool :=
  log.any fun entry => entry.1 = side && p entry.2

-- what was read from `source` is written to `target`, which is shut down once `source` has ended
def oneWay (source target : Side) : Client IoErrorKind UInt8 := fun log =>
  let waiting := (receivedFrom source log).drop (acceptedBy target log).length
  if waiting ≠ [] then some (target, .write waiting)
  else if !asked source log (fun exchange => exchange matches .read _ (.ready (.ok []))) then
    some (source, .read 8192)
  else if !asked target log (fun exchange => exchange matches .flush _) then some (target, .flush)
  else if !asked target log (fun exchange => exchange matches .shutdown _) then some (target, .shutdown)
  else none

def plainRuntime : Runtime where
  writeAll bytes log :=
    if failure log = none ∧ unsent bytes log ≠ [] then some (.far, .write (unsent bytes log)) else none
  wrote bytes log :=
    match failure log with
    | some error => some (.error error)
    | none => if unsent bytes log = [] then some (.ok ()) else none
  copyBidirectional log := (oneWay .near .far log).or (oneWay .far .near log)

theorem plainRuntime_writeAll {bytes : Bytes} {log : Log IoErrorKind UInt8} {call : Side × Call UInt8}
    (h : plainRuntime.writeAll bytes log = some call) : call = (.far, .write (unsent bytes log)) := by
  simp only [plainRuntime] at h
  split_ifs at h
  exact (Option.some.inj h).symm

theorem plainRuntime_part {bytes : Bytes} {log : Log IoErrorKind UInt8}
    (h : Follows (plainRuntime.writeAll bytes) log) : acceptedBy .far log <+: bytes := by
  induction h with
  | start => exact List.nil_prefix
  | @call log side exchange _ hcall ih =>
    obtain ⟨rfl, hwrite⟩ := Prod.mk.inj (plainRuntime_writeAll hcall)
    rw [acceptedBy_append, acceptedBy_single, if_pos rfl]
    have hrest : acceptedBy .far log ++ unsent bytes log = bytes := List.prefix_iff_eq_append.mp ih
    have hmore := (List.prefix_append_right_inj (acceptedBy .far log)).mpr
      (Exchange.accepted_prefix hwrite)
    rwa [hrest] at hmore

theorem oneWay_write {source target side : Side} {log : Log IoErrorKind UInt8} {items : Bytes}
    (h : oneWay source target log = some (side, .write items)) : side = target ∧
      items = (receivedFrom source log).drop (acceptedBy target log).length := by
  simp only [oneWay] at h
  split_ifs at h
  · obtain ⟨rfl, hitems⟩ := Prod.mk.inj (Option.some.inj h)
    exact ⟨rfl, (Call.write.inj hitems).symm⟩
  · cases (Prod.mk.inj (Option.some.inj h)).2
  · cases (Prod.mk.inj (Option.some.inj h)).2
  · cases (Prod.mk.inj (Option.some.inj h)).2

theorem plainRuntime_documented : Documented plainRuntime where
  writes bytes log side call h := by
    obtain ⟨rfl, rfl⟩ := Prod.mk.inj (plainRuntime_writeAll h)
    exact ⟨rfl, _, rfl⟩
  wrotePart bytes log h := plainRuntime_part h
  wroteAll bytes log h hwrote := by
    have hrest := List.prefix_iff_eq_append.mp (plainRuntime_part h)
    simp only [plainRuntime] at hwrote
    split at hwrote
    · cases hwrote
    · split_ifs at hwrote with hnone
      rw [unsent] at hnone
      rwa [hnone, List.append_nil] at hrest
  copies log h := by
    refine inOrder_follows (fun log side items hordered hcall => ?_) h
    rcases Option.or_eq_some_iff.mp hcall with hup | ⟨_, hdown⟩
    · obtain ⟨rfl, rfl⟩ := oneWay_write hup
      have hnear : acceptedBy .far log <+: receivedFrom .near log := hordered.delivered .far
      rw [List.prefix_iff_eq_append.mp hnear]
      exact List.prefix_rfl
    · obtain ⟨rfl, rfl⟩ := oneWay_write hdown
      have hfar : acceptedBy .near log <+: receivedFrom .far log := hordered.delivered .near
      rw [List.prefix_iff_eq_append.mp hfar]
      exact List.prefix_rfl

def forwardHead : Bytes := toUtf8 "GET http://example.com/ HTTP/1.1\r\n\r\n".toList

def pipesStart : Duplex IoErrorKind UInt8 (CountingIo Pipe) (CountingIo Pipe) :=
  .start (.new ⟨[7, 8], 2⟩) (.new ⟨[1, 2, 3], 64⟩)

def pipesWritten : Duplex IoErrorKind UInt8 (CountingIo Pipe) (CountingIo Pipe) :=
  runFor (plainRuntime.writeAll forwardHead) 1 pipesStart

def pipesCopied : Duplex IoErrorKind UInt8 (CountingIo Pipe) (CountingIo Pipe) :=
  runFor plainRuntime.copyBidirectional 12 (.start pipesWritten.near pipesWritten.far)

-- the head goes through in one piece, the answer in two
theorem counted_relay_refines_pipes :
    RelayRefined plainRuntime ⟨.forward, "example.com".toList, 80⟩ forwardHead exampleOrigin
      (⟨[7, 8], 2⟩ : Pipe) (⟨[1, 2, 3], 64⟩ : Pipe)
      { busySurroundings with neighbor := forwardHead ++ [7, 8] }
      [.toOrigin exampleOrigin forwardHead, .toOrigin exampleOrigin [7, 8], .toNeighbor [1, 2],
        .toNeighbor [3]] (some (pipesCopied.near, pipesCopied.far)) ∧
    pipesCopied.far.writtenBytes + pipesCopied.near.writtenBytes = 41 := by
  have hwrote : plainRuntime.wrote forwardHead pipesWritten.log = some (.ok ()) := by decide +kernel
  have heffects : Effect.toOrigin exampleOrigin (acceptedBy .far pipesWritten.log) ::
      pipesCopied.log.filterMap (effectOf exampleOrigin) =
      [.toOrigin exampleOrigin forwardHead, .toOrigin exampleOrigin [7, 8], .toNeighbor [1, 2],
        .toNeighbor [3]] := by decide +kernel
  have hrun := @RelayRun.forwarded _ _ _ _ plainRuntime ⟨.forward, "example.com".toList, 80⟩ _
    exampleOrigin _ _ _ _ rfl (runFor_reachable 1 pipesStart) hwrote (runFor_reachable 12 _)
  refine ⟨?_, by decide +kernel⟩
  rw [← heffects]
  exact counted_relay_refines plainRuntime_documented hrun rfl rfl

end SpiderNet.Exit
