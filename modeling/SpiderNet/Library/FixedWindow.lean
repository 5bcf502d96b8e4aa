import Mathlib.Data.List.Infix
import Mathlib.Data.List.TakeWhile
import Mathlib.Data.List.Sort

namespace FixedWindow
variable {β : Type} (time : β → ℕ) (width : ℕ)

def During (first event : β) : Bool := time event < time first + width

-- each window is the event that opens it and the events up to its end; the next event opens another
def windows : List β → List (β × List β)
  | [] => []
  | first :: rest =>
    (first, rest.takeWhile (During time width first)) ::
      windows (rest.dropWhile (During time width first))
termination_by events => events.length
decreasing_by
  exact Nat.lt_succ_of_le (List.dropWhile_suffix _).length_le

def current (events : List β) : Option (β × List β) := (windows time width events).getLast?

variable {time width}

theorem windows_ne_nil {events : List β} (h : events ≠ []) : windows time width events ≠ [] := by
  cases events with
  | nil => exact absurd rfl h
  | cons first rest =>
    rw [windows]
    exact List.cons_ne_nil _ _

theorem windows_single (event : β) : windows time width [event] = [(event, [])] := by
  rw [windows, List.takeWhile_nil, List.dropWhile_nil, windows]

theorem current_nil : current time width ([] : List β) = none := by
  rw [current, windows]
  rfl

theorem current_cons_of_later {first : β} {rest : List β}
    (h : rest.dropWhile (During time width first) ≠ []) :
    current time width (first :: rest) =
      current time width (rest.dropWhile (During time width first)) := by
  rw [current, windows, List.getLast?_cons, current,
    List.getLast?_eq_getLast_of_ne_nil (windows_ne_nil h)]
  rfl

theorem current_cons_of_all {first : β} {rest : List β}
    (h : ∀ event ∈ rest, During time width first event) :
    current time width (first :: rest) = some (first, rest) := by
  have htake : rest.takeWhile (During time width first) = rest := List.takeWhile_eq_self_iff.mpr h
  have hdrop : rest.dropWhile (During time width first) = [] := List.dropWhile_eq_nil_iff.mpr h
  rw [current, windows, htake, hdrop, windows]
  rfl

-- an event joins the current window or, at or after its end, opens the next one
theorem current_snoc (events : List β) (event : β) : current time width (events ++ [event]) =
    match current time width events with
    | none => some (event, [])
    | some (first, block) =>
      if During time width first event then some (first, block ++ [event]) else some (event, []) := by
  induction events using windows.induct time width with
  | case1 => rw [current_nil, List.nil_append, current, windows_single]; rfl
  | case2 first rest ih =>
    rw [List.cons_append]
    by_cases hall : ∀ other ∈ rest, During time width first other
    · rw [current_cons_of_all hall]
      simp only
      split_ifs with hevent
      · refine current_cons_of_all fun other hother => ?_
        rcases List.mem_append.mp hother with hother | hother
        · exact hall other hother
        · rwa [List.mem_singleton.mp hother]
      · have hdrop : (rest ++ [event]).dropWhile (During time width first) = [event] := by
          rw [List.dropWhile_append_of_pos hall, List.dropWhile_cons_of_neg hevent]
        rw [current_cons_of_later (by rw [hdrop]; exact List.cons_ne_nil _ _), hdrop, current,
          windows_single]
        rfl
    · have hlater : rest.dropWhile (During time width first) ≠ [] :=
        fun hnil => hall (List.dropWhile_eq_nil_iff.mp hnil)
      have hdrop : (rest ++ [event]).dropWhile (During time width first) =
          rest.dropWhile (During time width first) ++ [event] := by
        rw [List.dropWhile_append, if_neg]
        rwa [List.isEmpty_iff]
      rw [current_cons_of_later (by rw [hdrop]; simp), hdrop, current_cons_of_later hlater]
      exact ih

theorem current_suffix {events block : List β} {first : β}
    (h : current time width events = some (first, block)) :
    first :: block <:+ events ∧ ∀ event ∈ block, During time width first event := by
  induction events using List.reverseRecOn generalizing first block with
  | nil =>
    rw [current_nil] at h
    cases h
  | append_singleton events event ih =>
    rw [current_snoc] at h
    cases hcurrent : current time width events with
    | none =>
      rw [hcurrent] at h
      cases h
      exact ⟨List.suffix_append _ _, nofun⟩
    | some window =>
      obtain ⟨opened, inside⟩ := window
      rw [hcurrent] at h
      obtain ⟨⟨before, rfl⟩, hinside⟩ := ih hcurrent
      simp only at h
      split_ifs at h with hevent
      · cases h
        refine ⟨⟨before, by simp⟩, fun other hother => ?_⟩
        rcases List.mem_append.mp hother with hother | hother
        · exact hinside other hother
        · rwa [List.mem_singleton.mp hother]
      · cases h
        exact ⟨List.suffix_append _ _, nofun⟩

theorem mem_current {events block : List β} {first last : β}
    (h : current time width (events ++ [last]) = some (first, block)) : last ∈ first :: block := by
  rw [current_snoc] at h
  cases hcurrent : current time width events with
  | none =>
    rw [hcurrent] at h
    cases h
    exact List.mem_cons_self
  | some window =>
    rw [hcurrent] at h
    simp only at h
    split_ifs at h
    · cases h
      simp
    · cases h
      exact List.mem_cons_self

-- with events in order, a window that takes in one more event holds nothing older than its width
theorem current_recent {events block : List β} {first last : β} (hwidth : 0 < width)
    (hsorted : (events ++ [last]).Pairwise fun earlier later => time earlier ≤ time later)
    (h : current time width (events ++ [last]) = some (first, block)) :
    ∀ event ∈ first :: block, time last < time event + width := by
  obtain ⟨hsuffix, hduring⟩ := current_suffix h
  have hordered := hsorted.sublist hsuffix.sublist
  have hlast : last ∈ first :: block := mem_current h
  have hfirst : time last < time first + width := by
    rcases List.mem_cons.mp hlast with rfl | hlast
    · exact Nat.lt_add_of_pos_right hwidth
    · simpa [During] using hduring last hlast
  intro event hevent
  rcases List.mem_cons.mp hevent with rfl | hevent
  · exact hfirst
  · have hle : time first ≤ time event := (List.pairwise_cons.mp hordered).1 event hevent
    omega

end FixedWindow
