import SpiderNet.Node.Overlay

namespace SpiderNet.Node
open Exit Transition

def quiet (now : ℕ) : Surroundings := ⟨now, false, none⟩

-- when the timeout of the attempt would fire, had it been armed for what is awaited now
def Waiting.limit : Waiting → ℕ
  | .asking query timeout | .askingPeers _ query timeout => query.since + timeout
  | .sleeping since timeout => since + timeout
  | .ended _ => 0

def Waiting.Up : Waiting → Prop
  | .askingPeers _ _ _ => True
  | _ => False

section
variable (endpoint : AdminEndpoint) (fromSlice : Bytes → Except String Json) (deadline : ℕ)

-- the wait goes on although the admin server is silent
def Wakes (around : Surroundings) (place : Waiting) : Prop :=
  (place.poll endpoint fromSlice deadline around none).isSome

-- the last clause is that not only the server can end the wait
structure WakeLaw (place : Waiting) : Prop where
  timely : (∀ now, Wakes endpoint fromSlice deadline ⟨now, true, none⟩ place) ∨
    Wakes endpoint fromSlice deadline (quiet place.limit) place
  bounded : ¬place.Up → Wakes endpoint fromSlice deadline (quiet deadline) place
  ends : ∃ around, Wakes endpoint fromSlice deadline around place

def Lawful (place : Waiting) : Prop :=
  (∃ outcome, place = .ended outcome) ∨ WakeLaw endpoint fromSlice deadline place

-- the server accepts a connection, or an attempt fails too late for a whole pause
def Risky (around : Surroundings) (reply : Option AdminReply) : Waiting → Prop
  | .asking query timeout => interrupted around = none ∧ (Accepts query reply ∨
      AttemptFails fromSlice query timeout around.now reply ∧ deadline < around.now + overlayPoll)
  | .askingPeers _ query _ => Accepts query reply
  | _ => False

def Uncovered : Waiting → Prop
  | .asking (.requesting _) _ | .askingPeers _ (.requesting _) _ => True
  | .sleeping since _ => deadline < since + overlayPoll
  | _ => False

-- the attempt's timeout is a whole poll interval, or there is less than that left
def Timed (now : ℕ) : Waiting → Prop
  | .asking (.connecting since) timeout => since < deadline ∧ since ≤ now ∧
      timeout = min (deadline - since) overlayPoll
  | .asking (.requesting _) timeout => timeout = overlayPoll ∨ deadline < now + overlayPoll
  | .sleeping since timeout => timeout = overlayPoll ∨ deadline < since + overlayPoll
  | _ => True

variable {endpoint fromSlice deadline}

theorem timed_attempt (around : Surroundings) :
    Timed deadline around.now (attempt endpoint deadline around) := by
  rw [attempt]
  by_cases hended : deadline - around.now = 0
  · rw [if_pos hended]
    trivial
  · rw [if_neg hended]
    cases interrupted around with
    | some outcome => trivial
    | none => exact ⟨by omega, le_rfl, rfl⟩

theorem Timed.mono {now later : ℕ} {place : Waiting} (h : Timed deadline now place)
    (hle : now ≤ later) : Timed deadline later place := by
  cases place with
  | asking query timeout =>
    cases query with
    | connecting since => exact ⟨h.1, h.2.1.trans hle, h.2.2⟩
    | requesting since => exact h.imp_right fun hlate => by omega
  | askingPeers info query timeout => trivial
  | sleeping since timeout => exact h
  | ended outcome => trivial

theorem attempt_covered (around : Surroundings) :
    ¬Uncovered deadline (attempt endpoint deadline around) := by
  rw [attempt]
  split
  · exact id
  · cases interrupted around with
    | some outcome => exact id
    | none => exact id

theorem Timed.short {now timeout : ℕ} {query : Query} (h : Timed deadline now (.asking query timeout)) :
    timeout = overlayPoll ∨ deadline < now + overlayPoll := by
  cases query with
  | connecting since =>
    obtain ⟨hlt, hle, htimeout⟩ := h
    rcases Nat.le_total (deadline - since) overlayPoll with hshort | hlong
    · rcases hshort.eq_or_lt with heq | hless
      · exact Or.inl (htimeout.trans ((min_eq_left hshort).trans heq))
      · exact Or.inr (by omega)
    · exact Or.inl (htimeout.trans (min_eq_right hlong))
  | requesting since => exact h

theorem Timed.wake {around : Surroundings} {reply : Option AdminReply} {place place' : Waiting}
    (h : Timed deadline around.now place)
    (hpoll : place.poll endpoint fromSlice deadline around reply = some place') :
    Timed deadline around.now place' := by
  cases place with
  | asking query timeout =>
    rcases asking_poll hpoll with ⟨outcome, _, rfl⟩ | ⟨_, ⟨query', hmoved, rfl⟩ |
      ⟨result, info, _, _, rfl⟩ | ⟨_, rfl⟩⟩
    · trivial
    · rw [(query_moved.mp hmoved).2]
      exact h.short
    · trivial
    · exact h.short
  | askingPeers info query timeout =>
    rcases askingPeers_poll hpoll with ⟨query', _, rfl⟩ | ⟨result, _, rfl⟩
    · trivial
    · trivial
  | sleeping since timeout =>
    rw [sleeping_poll hpoll]
    exact timed_attempt around
  | ended outcome => cases hpoll

theorem wake_covered_iff {around : Surroundings} {reply : Option AdminReply} {place place' : Waiting}
    (hpoll : place.poll endpoint fromSlice deadline around reply = some place') :
    Uncovered deadline place' ↔ Risky fromSlice deadline around reply place := by
  cases place with
  | asking query timeout =>
    rcases asking_poll hpoll with ⟨outcome, hstop, rfl⟩ | ⟨hstop, ⟨query', hmoved, rfl⟩ |
      ⟨result, info, hready, hok, rfl⟩ | ⟨hfails, rfl⟩⟩
    · simp [Uncovered, Risky, hstop]
    · obtain ⟨haccepts, rfl⟩ := query_moved.mp hmoved
      exact iff_of_true trivial ⟨hstop, Or.inl haccepts⟩
    · refine iff_of_false id ?_
      rintro ⟨_, haccepts | ⟨⟨result', error, hready', herror⟩, _⟩⟩
      · cases hready.symm.trans (query_moved.mpr ⟨haccepts, rfl⟩)
      · obtain rfl := Progress.ready.inj (hready.symm.trans hready')
        cases hok.symm.trans herror
    · obtain ⟨result, error, hready, herror⟩ := hfails
      constructor
      · exact fun hlate => ⟨hstop, Or.inr ⟨⟨result, error, hready, herror⟩, hlate⟩⟩
      · rintro ⟨_, haccepts | ⟨_, hlate⟩⟩
        · cases hready.symm.trans (query_moved.mpr ⟨haccepts, rfl⟩)
        · exact hlate
  | askingPeers info query timeout =>
    rcases askingPeers_poll hpoll with ⟨query', hmoved, rfl⟩ | ⟨result, hready, rfl⟩
    · obtain ⟨haccepts, rfl⟩ := query_moved.mp hmoved
      exact iff_of_true trivial haccepts
    · refine iff_of_false id fun haccepts => ?_
      cases hready.symm.trans (query_moved.mpr ⟨haccepts, rfl⟩)
  | sleeping since timeout =>
    rw [sleeping_poll hpoll]
    exact iff_of_false (attempt_covered around) id
  | ended outcome => cases hpoll

theorem asking_times_out {since timeout now : ℕ} (h : since + timeout ≤ now) :
    Wakes endpoint fromSlice deadline (quiet now) (.asking (.connecting since) timeout) := by
  simp [Wakes, Waiting.poll, interrupted, quiet, Query.poll, h, Except.bind]

theorem askingPeers_times_out {info : SelfInfo} {since timeout now : ℕ} (h : since + timeout ≤ now) :
    Wakes endpoint fromSlice deadline (quiet now) (.askingPeers info (.connecting since) timeout) := by
  simp [Wakes, Waiting.poll, quiet, Query.poll, h]

theorem sleeping_wakes_iff {since timeout : ℕ} {around : Surroundings} :
    Wakes endpoint fromSlice deadline around (.sleeping since timeout) ↔
      since + overlayPoll ≤ around.now := by
  simp [Wakes, Waiting.poll]

theorem lawful_iff {now : ℕ} {place : Waiting} (h : Timed deadline now place) :
    Lawful endpoint fromSlice deadline place ↔ ¬Uncovered deadline place := by
  cases place with
  | asking query timeout =>
    cases query with
    | connecting since =>
      obtain ⟨hlt, _, rfl⟩ := h
      refine iff_of_true (Or.inr ⟨Or.inl fun now => rfl, fun _ => ?_, ⟨⟨0, true, none⟩, rfl⟩⟩) id
      have hleft : since + min (deadline - since) overlayPoll ≤ deadline := by omega
      exact asking_times_out hleft
    | requesting since =>
      refine iff_of_false ?_ (not_not_intro trivial)
      rintro (⟨outcome, hended⟩ | hlaw)
      · cases hended
      · cases hlaw.bounded id
  | askingPeers info query timeout =>
    cases query with
    | connecting since =>
      have hwakes : Wakes endpoint fromSlice deadline (quiet (since + timeout))
          (.askingPeers info (.connecting since) timeout) := askingPeers_times_out le_rfl
      exact iff_of_true (Or.inr ⟨Or.inr hwakes, fun hup => absurd trivial hup, _, hwakes⟩) id
    | requesting since =>
      refine iff_of_false ?_ (not_not_intro trivial)
      rintro (⟨outcome, hended⟩ | hlaw)
      · cases hended
      · obtain ⟨around, hwakes⟩ := hlaw.ends
        cases hwakes
  | sleeping since timeout =>
    constructor
    · rintro (⟨outcome, hended⟩ | hlaw) hlate
      · cases hended
      · exact absurd (sleeping_wakes_iff.mp (hlaw.bounded id)) (not_le.mpr hlate)
    · intro htime
      have hdue : since + overlayPoll ≤ deadline := not_lt.mp htime
      obtain rfl : timeout = overlayPoll := h.resolve_right htime
      have hwakes : Wakes endpoint fromSlice deadline (quiet deadline)
          (.sleeping since overlayPoll) := sleeping_wakes_iff.mpr hdue
      exact Or.inr ⟨Or.inr (sleeping_wakes_iff.mpr le_rfl), fun _ => hwakes, _, hwakes⟩
  | ended outcome => exact iff_of_true (Or.inl ⟨outcome, rfl⟩) id

theorem WaitStep.timed {managed : Bool} {w w' : Wait} (h : Timed deadline w.around.now w.place)
    (hstep : WaitStep endpoint fromSlice deadline managed w w') :
    Timed deadline w'.around.now w'.place := by
  cases hstep with
  | happens place hhappens =>
    cases hhappens with
    | pass later hle => exact h.mono hle
    | shutdown => exact h
    | sidecarExits status hmanaged halive => exact h
  | wake reply hpoll => exact h.wake hpoll

theorem timed_run {managed : Bool} {w w' : Wait} (h : Timed deadline w.around.now w.place)
    (hrun : Reachable (WaitStep endpoint fromSlice deadline managed) w w') :
    Timed deadline w'.around.now w'.place := by
  induction hrun with
  | refl => exact h
  | tail _ hlast ih => exact WaitStep.timed ih hlast

end

inductive CoveredStep (endpoint : AdminEndpoint) (fromSlice : Bytes → Except String Json)
    (deadline : ℕ) (managed : Bool) : Wait → Wait → Prop
  | happens {around around' : Surroundings} (place : Waiting) (h : Happens managed around around') :
      CoveredStep endpoint fromSlice deadline managed ⟨around, place⟩ ⟨around', place⟩
  | wake {around : Surroundings} {place place' : Waiting} (reply : Option AdminReply)
      (h : place.poll endpoint fromSlice deadline around reply = some place')
      (hcovered : ¬Risky fromSlice deadline around reply place) :
      CoveredStep endpoint fromSlice deadline managed ⟨around, place⟩ ⟨around, place'⟩

section
variable {endpoint : AdminEndpoint} {fromSlice : Bytes → Except String Json} {managed : Bool}

theorem CoveredStep.step {deadline : ℕ} {w w' : Wait}
    (h : CoveredStep endpoint fromSlice deadline managed w w') :
    WaitStep endpoint fromSlice deadline managed w w' := by
  cases h with
  | happens place h => exact .happens place h
  | wake reply h hcovered => exact .wake reply h

theorem covered_run {deadline : ℕ} {w w' : Wait} (h : ¬Uncovered deadline w.place)
    (hrun : Reachable (CoveredStep endpoint fromSlice deadline managed) w w') :
    ¬Uncovered deadline w'.place := by
  induction hrun with
  | refl => exact h
  | tail _ hlast ih =>
    cases hlast with
    | happens place hhappens => exact ih
    | wake reply hpoll hcovered => exact fun hlacks => hcovered ((wake_covered_iff hpoll).mp hlacks)

end

theorem startWait_quiet (endpoint : AdminEndpoint) (now : ℕ) :
    startWait endpoint (quiet now) = ⟨quiet now, .asking (.connecting now) overlayPoll⟩ := by
  have hleft : overlayDeadline (quiet now) - (quiet now).now = overlayWait :=
    Nat.add_sub_cancel_left now _
  have hwait : overlayWait ≠ 0 := by decide
  have hpoll : overlayPoll ≤ overlayWait := by decide
  have hquiet : interrupted (quiet now) = none := rfl
  simp only [startWait, attempt, hleft, hquiet, if_neg hwait, min_eq_right hpoll]
  rfl

theorem wakeLaw_covered (endpoint : AdminEndpoint) (fromSlice : Bytes → Except String Json)
    (managed : Bool) (around : Surroundings) :
    (∀ w, Reachable (CoveredStep endpoint fromSlice (overlayDeadline around) managed)
        (startWait endpoint around) w →
      Lawful endpoint fromSlice (overlayDeadline around) w.place) ∧
    ∀ w reply place', Reachable (WaitStep endpoint fromSlice (overlayDeadline around) managed)
        (startWait endpoint around) w →
      w.place.poll endpoint fromSlice (overlayDeadline around) w.around reply = some place' →
      (Lawful endpoint fromSlice (overlayDeadline around) place' ↔
        ¬Risky fromSlice (overlayDeadline around) w.around reply w.place) := by
  have hstart := @timed_attempt endpoint (overlayDeadline around) around
  constructor
  · intro w hrun
    have htimed := timed_run hstart (Relation.ReflTransGen.mono (fun _ _ h => h.step) _ _ hrun)
    exact (lawful_iff htimed).mpr (covered_run (attempt_covered around) hrun)
  · intro w reply place' hrun hpoll
    rw [lawful_iff ((timed_run hstart hrun).wake hpoll)]
    exact not_congr (wake_covered_iff hpoll)

theorem wakeLaw_covered_start :
    Lawful (.unix "admin".toList) (fun _ => .error "") (overlayDeadline (quiet 0))
      (startWait (.unix "admin".toList) (quiet 0)).place ∧
    ¬Lawful (.unix "admin".toList) (fun _ => .error "") (overlayDeadline (quiet 0))
      (.asking (.requesting 0) overlayPoll) := by
  have hlaw := wakeLaw_covered (.unix "admin".toList) (fun _ => .error "") true (quiet 0)
  refine ⟨hlaw.1 _ (.refl _), fun hcovered => ?_⟩
  have hstep := hlaw.2 _ (some .connected) (.asking (.requesting 0) overlayPoll) (.refl _)
  rw [startWait_quiet] at hstep
  exact (hstep rfl).mp hcovered ⟨rfl, Or.inl ⟨⟨0, rfl⟩, rfl⟩⟩

-- a server that answers the first query, accepts the second connection and stays silent
theorem silent_after_answer (endpoint : AdminEndpoint) {fromSlice : Bytes → Except String Json}
    (managed : Bool) {buffer : Bytes} {info : SelfInfo} (h : selfAnswer fromSlice buffer = .ok info) :
    ∃ w, Reachable (WaitStep endpoint fromSlice (overlayDeadline (quiet 0)) managed)
        (startWait endpoint (quiet 0)) w ∧ (¬∃ outcome, w.place = .ended outcome) ∧
      ∀ around, ¬Wakes endpoint fromSlice (overlayDeadline (quiet 0)) around w.place := by
  have hconnected : WaitStep endpoint fromSlice (overlayDeadline (quiet 0)) managed
      (startWait endpoint (quiet 0)) ⟨quiet 0, .asking (.requesting 0) overlayPoll⟩ :=
    startWait_quiet endpoint 0 ▸ .wake (some .connected) rfl
  have hanswered : WaitStep endpoint fromSlice (overlayDeadline (quiet 0)) managed
      ⟨quiet 0, .asking (.requesting 0) overlayPoll⟩
      ⟨quiet 0, .askingPeers info (.connecting 0) overlayPoll⟩ := by
    apply WaitStep.wake (some (.answered buffer))
    simp [Waiting.poll, interrupted, quiet, Query.poll, Except.bind, h]
  have hpeers : WaitStep endpoint fromSlice (overlayDeadline (quiet 0)) managed
      ⟨quiet 0, .askingPeers info (.connecting 0) overlayPoll⟩
      ⟨quiet 0, .askingPeers info (.requesting 0) overlayPoll⟩ := .wake (some .connected) rfl
  refine ⟨_, (((Reachable.refl _).tail hconnected).tail hanswered).tail hpeers, ?_, ?_⟩
  · rintro ⟨outcome, hended⟩
    cases hended
  · intro around hwakes
    cases hwakes

def sampleSelf : Json :=
  .obj [("status".toList, .str "success".toList), ("response".toList,
    .obj [("200::1".toList, .obj [("key".toList, .str "00".toList)])])]

theorem wait_ended_by_server_only : ∃ w,
    Reachable (WaitStep (.unix "admin".toList) (fun _ => .ok sampleSelf) (overlayDeadline (quiet 0))
      true) (startWait (.unix "admin".toList) (quiet 0)) w ∧
    ¬Lawful (.unix "admin".toList) (fun _ => .ok sampleSelf) (overlayDeadline (quiet 0)) w.place := by
  obtain ⟨w, hrun, hwaits, hsilent⟩ := @silent_after_answer (.unix "admin".toList)
    (fun _ => .ok sampleSelf) true [] _ rfl
  refine ⟨w, hrun, ?_⟩
  rintro (hended | hlaw)
  · exact hwaits hended
  · obtain ⟨around, hwakes⟩ := hlaw.ends
    exact hsilent around hwakes

end SpiderNet.Node
