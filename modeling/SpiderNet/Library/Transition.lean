import Mathlib.Logic.Relation
import Mathlib.Logic.Hydra
import Mathlib.Data.List.Basic

namespace Transition
variable {σ : Type}

def Reachable (step : σ → σ → Prop) : σ → σ → Prop := Relation.ReflTransGen step

theorem Reachable.refl {step : σ → σ → Prop} (s : σ) : Reachable step s s := Relation.ReflTransGen.refl

theorem Reachable.tail {step : σ → σ → Prop} {a b c : σ} (hab : Reachable step a b) (hbc : step b c) :
    Reachable step a c := Relation.ReflTransGen.tail hab hbc

theorem Reachable.trans {step : σ → σ → Prop} {a b c : σ} (hab : Reachable step a b)
    (hbc : Reachable step b c) : Reachable step a c := Relation.ReflTransGen.trans hab hbc

theorem Reachable.invariant {step : σ → σ → Prop} {Inv : σ → Prop}
    (hstep : ∀ {s s'}, Inv s → step s s' → Inv s') {s s' : σ} (hs : Inv s)
    (h : Reachable step s s') : Inv s' := by
  induction h with
  | refl => exact hs
  | tail _ hlast ih => exact hstep ih hlast

theorem Reachable.simulate {τ : Type} {step : σ → σ → Prop} {step' : τ → τ → Prop} {R : σ → τ → Prop}
    (hsim : ∀ {s s' t}, R s t → step s s' → ∃ t', step' t t' ∧ R s' t') {s s' : σ} {t : τ}
    (hst : R s t) (h : Reachable step s s') : ∃ t', Reachable step' t t' ∧ R s' t' := by
  induction h with
  | refl => exact ⟨t, .refl t, hst⟩
  | tail _ hlast ih =>
    obtain ⟨mid, hreach, hmid⟩ := ih
    obtain ⟨next, hnext, hrel⟩ := hsim hmid hlast
    exact ⟨next, hreach.tail hnext, hrel⟩

theorem Reachable.simulate_star {τ : Type} {step : σ → σ → Prop} {step' : τ → τ → Prop}
    {R : σ → τ → Prop} (hsim : ∀ {s s' t}, R s t → step s s' → ∃ t', Reachable step' t t' ∧ R s' t')
    {s s' : σ} {t : τ} (hst : R s t) (h : Reachable step s s') : ∃ t', Reachable step' t t' ∧ R s' t' := by
  induction h with
  | refl => exact ⟨t, .refl t, hst⟩
  | tail _ hlast ih =>
    obtain ⟨mid, hreach, hmid⟩ := ih
    obtain ⟨next, hnext, hrel⟩ := hsim hmid hlast
    exact ⟨next, hreach.trans hnext, hrel⟩

-- a run that keeps the states it goes through, in order
inductive Run (step : σ → σ → Prop) (start : σ) : List σ → σ → Prop
  | start : Run step start [start] start
  | next {states : List σ} {b c : σ} (hrun : Run step start states b) (hstep : step b c) :
      Run step start (states ++ [c]) c

-- a run through the states goes from the one state right to the other
def Takes (states : List σ) (before after : σ) : Prop := [before, after] <:+: states

section
variable {step : σ → σ → Prop} {start last mid : σ} {states : List σ}

theorem Run.reachable (h : Run step start states last) : Reachable step start last := by
  induction h with
  | start => exact .refl start
  | next _ hstep ih => exact ih.tail hstep

theorem Reachable.run (h : Reachable step start last) : ∃ states, Run step start states last := by
  induction h with
  | refl => exact ⟨[start], .start⟩
  | tail _ hstep ih =>
    obtain ⟨states, hrun⟩ := ih
    exact ⟨_, hrun.next hstep⟩

theorem Run.ends (h : Run step start states last) : ∃ front, states = front ++ [last] := by
  cases h with
  | start => exact ⟨[], rfl⟩
  | next _ _ => exact ⟨_, rfl⟩

theorem Run.last_mem (h : Run step start states last) : last ∈ states := by
  obtain ⟨front, rfl⟩ := h.ends
  exact List.mem_append_right front List.mem_cons_self

theorem Reachable.run_all {P : σ → Prop} (hstart : P start)
    (h : Reachable (fun a b => step a b ∧ P b) start last) :
    ∃ states, Run step start states last ∧ ∀ mid ∈ states, P mid := by
  induction h with
  | refl => exact ⟨[start], .start, List.forall_mem_singleton.mpr hstart⟩
  | tail _ hstep ih =>
    obtain ⟨states, hrun, hall⟩ := ih
    refine ⟨_, hrun.next hstep.1, List.forall_mem_append.mpr ⟨hall, ?_⟩⟩
    exact List.forall_mem_singleton.mpr hstep.2

theorem Run.takes_last (h : Run step start states mid) (next : σ) : Takes (states ++ [next]) mid next := by
  obtain ⟨front, rfl⟩ := h.ends
  exact ⟨front, [], by simp⟩

theorem Takes.later {before after : σ} (h : Takes states before after) (next : σ) :
    Takes (states ++ [next]) before after := List.IsInfix.trans h (List.prefix_append _ _).isInfix

theorem Takes.mem {before after : σ} (h : Takes states before after) : before ∈ states :=
  h.subset List.mem_cons_self

theorem Run.through (h : Run step start states last) (hmid : mid ∈ states) :
    Reachable step start mid ∧ Reachable step mid last := by
  induction h with
  | start =>
    obtain rfl := List.mem_singleton.mp hmid
    exact ⟨.refl mid, .refl mid⟩
  | next hrun hstep ih =>
    rcases List.mem_append.mp hmid with hmid | hmid
    · obtain ⟨hbefore, hafter⟩ := ih hmid
      exact ⟨hbefore, hafter.tail hstep⟩
    · obtain rfl := List.mem_singleton.mp hmid
      exact ⟨hrun.reachable.tail hstep, .refl mid⟩

end

-- every maximal run from the state meets the goal
inductive Inevitably (step : σ → σ → Prop) (goal : σ → Prop) : σ → Prop
  | now {s : σ} (h : goal s) : Inevitably step goal s
  | later {s : σ} (hlive : ∃ s', step s s') (h : ∀ s', step s s' → Inevitably step goal s') :
      Inevitably step goal s

-- every run meets the goal, and until then some step is sure to be possible
inductive Assured (sure step : σ → σ → Prop) (goal : σ → Prop) : σ → Prop
  | now {s : σ} (h : goal s) : Assured sure step goal s
  | later {s : σ} (hlive : ∃ s', sure s s') (h : ∀ s', step s s' → Assured sure step goal s') :
      Assured sure step goal s

theorem Assured.of_measure {α : Type} {r : α → α → Prop} (hr : WellFounded r) (measure : σ → α)
    {sure step : σ → σ → Prop} {goal Inv : σ → Prop} (hstep : ∀ {s s'}, Inv s → step s s' → Inv s')
    (hless : ∀ {s s'}, Inv s → step s s' → r (measure s') (measure s))
    (hlive : ∀ {s}, Inv s → goal s ∨ ∃ s', sure s s') {s : σ} (hs : Inv s) :
    Assured sure step goal s := by
  induction hm : measure s using hr.induction generalizing s with
  | _ value ih =>
    subst hm
    rcases hlive hs with hgoal | hnext
    · exact .now hgoal
    · exact .later hnext fun s' hs' => ih _ (hless hs hs') (hstep hs hs') rfl

theorem Assured.inevitably {sure step : σ → σ → Prop} {goal : σ → Prop} {s : σ}
    (hsure : ∀ {a b}, sure a b → step a b) (h : Assured sure step goal s) : Inevitably step goal s := by
  induction h with
  | now h => exact .now h
  | later hlive _ ih =>
    obtain ⟨next, hnext⟩ := hlive
    exact .later ⟨next, hsure hnext⟩ ih

theorem Inevitably.mono {step : σ → σ → Prop} {goal goal' : σ → Prop} {s : σ}
    (hgoal : ∀ s, goal s → goal' s) (h : Inevitably step goal s) : Inevitably step goal' s := by
  induction h with
  | now h => exact .now (hgoal _ h)
  | later hlive _ ih => exact .later hlive ih

theorem Inevitably.of_measure {α : Type} {r : α → α → Prop} (hr : WellFounded r) (measure : σ → α)
    {step : σ → σ → Prop} {goal Inv : σ → Prop} (hstep : ∀ {s s'}, Inv s → step s s' → Inv s')
    (hless : ∀ {s s'}, Inv s → step s s' → r (measure s') (measure s))
    (hlive : ∀ {s}, Inv s → goal s ∨ ∃ s', step s s') {s : σ} (hs : Inv s) :
    Inevitably step goal s := by
  have hassured : Assured step step goal s :=
    Assured.of_measure hr measure (fun hs hnext => hstep hs hnext) (fun hs hnext => hless hs hnext)
      (fun hs => hlive hs) hs
  exact hassured.inevitably id

theorem Inevitably.reachable {step : σ → σ → Prop} {goal : σ → Prop} {s : σ}
    (h : Inevitably step goal s) : ∃ s', Reachable step s s' ∧ goal s' := by
  induction h with
  | now h => exact ⟨_, .refl _, h⟩
  | later hlive _ ih =>
    obtain ⟨s', hstep⟩ := hlive
    obtain ⟨last, hrun, hgoal⟩ := ih s' hstep
    exact ⟨last, ((Reachable.refl _).tail hstep).trans hrun, hgoal⟩

def Descends {α : Type} (r : α → α → Prop) (xs' xs : List α) : Prop :=
  ∃ pre post a a', xs = pre ++ a :: post ∧ xs' = pre ++ a' :: post ∧ r a' a

theorem wellFounded_descends {α : Type} {r : α → α → Prop} (hr : WellFounded r) :
    WellFounded (Descends r) := by
  refine Subrelation.wf ?_ (InvImage.wf (fun xs : List α => (xs : Multiset α)) hr.cutExpand)
  rintro _ _ ⟨pre, post, a, a', rfl, rfl, hlt⟩
  refine ⟨{a'}, a, fun b hb => ?_, ?_⟩
  · rw [Multiset.mem_singleton.mp hb]
    exact hlt
  · refine Multiset.coe_eq_coe.mpr ?_
    have hsplit : (pre ++ a' :: post ++ [a]).Perm (pre ++ a :: post ++ [a']) := by
      rw [List.append_assoc, List.append_assoc]
      refine List.Perm.append_left pre ?_
      exact (List.perm_append_singleton a (a' :: post)).trans
        ((List.Perm.swap a' a post).trans (List.perm_append_singleton a' (a :: post)).symm)
    exact hsplit

theorem descends_set {α β : Type} {r : α → α → Prop} (f : β → α) {xs : List β} {i : ℕ} {x y : β}
    (hget : xs[i]? = some x) (h : r (f y) (f x)) : Descends r ((xs.set i y).map f) (xs.map f) := by
  obtain ⟨hi, rfl⟩ := List.getElem?_eq_some_iff.mp hget
  refine ⟨(xs.take i).map f, (xs.drop (i + 1)).map f, f xs[i], f y, ?_, ?_, h⟩
  · rw [← List.map_cons, ← List.map_append, List.getElem_cons_drop, List.take_append_drop]
  · rw [← List.map_cons, ← List.map_append, List.set_eq_take_append_cons_drop, if_pos hi]

theorem Descends.cons {α : Type} {r : α → α → Prop} {xs xs' : List α} (x : α)
    (h : Descends r xs' xs) : Descends r (x :: xs') (x :: xs) := by
  obtain ⟨pre, post, a, a', rfl, rfl, hlt⟩ := h
  exact ⟨x :: pre, post, a, a', rfl, rfl, hlt⟩

theorem Descends.head {α : Type} {r : α → α → Prop} {x x' : α} (xs : List α) (h : r x' x) :
    Descends r (x' :: xs) (x :: xs) := ⟨[], xs, x, x', rfl, rfl, h⟩

end Transition
