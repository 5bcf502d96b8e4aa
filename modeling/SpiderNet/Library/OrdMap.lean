import Mathlib.Data.List.Sort
import Mathlib.Order.Basic

structure OrdMap (K V : Type) [LinearOrder K] where
  entries : List (K × V)
  sorted : entries.Pairwise (fun a b => a.1 < b.1)

namespace OrdMap
variable {K V W : Type} [LinearOrder K]

def insertEntry (k : K) (v : V) : List (K × V) → List (K × V)
  | [] => [(k, v)]
  | x :: xs =>
    if k < x.1 then (k, v) :: x :: xs
    else if k = x.1 then (k, v) :: xs
    else x :: insertEntry k v xs

theorem mem_insertEntry {k : K} {v : V} {x : K × V} {xs : List (K × V)}
    (h : x ∈ insertEntry k v xs) : x = (k, v) ∨ x ∈ xs := by
  induction xs with
  | nil => simpa [insertEntry] using h
  | cons y ys ih =>
    simp only [insertEntry] at h
    split_ifs at h with hlt heq
    · simpa using h
    · rcases List.mem_cons.mp h with h | h
      · exact Or.inl h
      · exact Or.inr (List.mem_cons_of_mem _ h)
    · rcases List.mem_cons.mp h with h | h
      · exact Or.inr (by simp [h])
      · rcases ih h with h | h
        · exact Or.inl h
        · exact Or.inr (List.mem_cons_of_mem _ h)

theorem sorted_insertEntry (k : K) (v : V) {xs : List (K × V)}
    (h : xs.Pairwise (fun a b => a.1 < b.1)) :
    (insertEntry k v xs).Pairwise (fun a b => a.1 < b.1) := by
  induction xs with
  | nil => simp [insertEntry]
  | cons x xs ih =>
    obtain ⟨hx, hxs⟩ := List.pairwise_cons.mp h
    simp only [insertEntry]
    split_ifs with hlt heq
    · refine List.pairwise_cons.mpr ⟨?_, h⟩
      intro y hy
      rcases List.mem_cons.mp hy with rfl | hy
      · exact hlt
      · exact hlt.trans (hx y hy)
    · exact List.pairwise_cons.mpr ⟨fun y hy => heq ▸ hx y hy, hxs⟩
    · refine List.pairwise_cons.mpr ⟨?_, ih hxs⟩
      intro y hy
      rcases mem_insertEntry hy with rfl | hy
      · exact lt_of_le_of_ne (not_lt.mp hlt) (Ne.symm heq)
      · exact hx y hy

def empty : OrdMap K V := ⟨[], List.Pairwise.nil⟩

def insert (m : OrdMap K V) (k : K) (v : V) : OrdMap K V :=
  ⟨insertEntry k v m.entries, sorted_insertEntry k v m.sorted⟩

def find (k : K) : List (K × V) → Option V
  | [] => none
  | x :: xs => if x.1 = k then some x.2 else find k xs

def get? (m : OrdMap K V) (k : K) : Option V := find k m.entries

def contains (m : OrdMap K V) (k : K) : Bool := (m.get? k).isSome

def keys (m : OrdMap K V) : List K := m.entries.map Prod.fst

def values (m : OrdMap K V) : List V := m.entries.map Prod.snd

def extend (m n : OrdMap K V) : OrdMap K V :=
  n.entries.foldl (fun acc x => acc.insert x.1 x.2) m

theorem find_eq_none {k : K} {xs : List (K × V)} : find k xs = none ↔ ∀ x ∈ xs, x.1 ≠ k := by
  induction xs with
  | nil => simp [find]
  | cons x xs ih =>
    by_cases hx : x.1 = k <;> simp [find, hx, ih]

theorem find_insertEntry (k k' : K) (v : V) (xs : List (K × V)) :
    find k' (insertEntry k v xs) = if k = k' then some v else find k' xs := by
  induction xs with
  | nil => by_cases h : k = k' <;> simp [insertEntry, find, h]
  | cons x xs ih =>
    by_cases hlt : k < x.1
    · simp [insertEntry, hlt, find]
    · by_cases heq : k = x.1
      · subst heq
        by_cases hk : x.1 = k' <;> simp [insertEntry, find, hk]
      · rw [insertEntry, if_neg hlt, if_neg heq, find, find, ih]
        by_cases hk : k = k'
        · subst hk
          simp [Ne.symm heq]
        · simp [hk]

@[simp] theorem get?_empty (k : K) : (empty : OrdMap K V).get? k = none := rfl

theorem get?_insert (m : OrdMap K V) (k k' : K) (v : V) :
    (m.insert k v).get? k' = if k = k' then some v else m.get? k' :=
  find_insertEntry k k' v m.entries

@[simp] theorem get?_insert_self (m : OrdMap K V) (k : K) (v : V) :
    (m.insert k v).get? k = some v := by simp [get?_insert]

theorem get?_insert_ne (m : OrdMap K V) {k k' : K} (h : k ≠ k') (v : V) :
    (m.insert k v).get? k' = m.get? k' := by simp [get?_insert, h]

theorem fresh_cons {α : Type} {key : α → K} {x : α} {rest : List α} {m : OrdMap K V} {v : V}
    (hx : m.get? (key x) = none) (hnodup : (rest.map key).Nodup)
    (hrest : ∀ y ∈ rest, (m.insert (key x) v).get? (key y) = none) :
    ((x :: rest).map key).Nodup ∧ (∀ y ∈ x :: rest, m.get? (key y) = none) ∧
      ∀ y ∈ rest, key x ≠ key y := by
  have hnew : ∀ y ∈ rest, key x ≠ key y ∧ m.get? (key y) = none := by
    intro y hy
    have hfresh := hrest y hy
    rw [get?_insert] at hfresh
    split_ifs at hfresh with heq
    exact ⟨heq, hfresh⟩
  refine ⟨List.nodup_cons.mpr ⟨?_, hnodup⟩, ?_, fun y hy => (hnew y hy).1⟩
  · intro hmem
    obtain ⟨y, hy, heq⟩ := List.mem_map.mp hmem
    exact (hnew y hy).1 heq.symm
  · intro y hy
    rcases List.mem_cons.mp hy with rfl | hy
    · exact hx
    · exact (hnew y hy).2

theorem find_eq_some {k : K} {v : V} {xs : List (K × V)}
    (h : xs.Pairwise (fun a b => a.1 < b.1)) : find k xs = some v ↔ (k, v) ∈ xs := by
  induction xs with
  | nil => simp [find]
  | cons x xs ih =>
    obtain ⟨hx, hxs⟩ := List.pairwise_cons.mp h
    by_cases heq : x.1 = k
    · have hno : (k, v) ∉ xs := fun hm => (hx _ hm).ne heq
      simp only [find, if_pos heq, Option.some.injEq, List.mem_cons, hno, or_false]
      constructor
      · rintro rfl; exact Prod.ext heq.symm rfl
      · rintro rfl; rfl
    · have hne : (k, v) ≠ x := fun h => heq (by rw [← h])
      simp only [find, if_neg heq, ih hxs, List.mem_cons, hne, false_or]

theorem get?_eq_some {m : OrdMap K V} {k : K} {v : V} :
    m.get? k = some v ↔ (k, v) ∈ m.entries := find_eq_some m.sorted

theorem get?_isSome {m : OrdMap K V} {k : K} : (m.get? k).isSome ↔ k ∈ m.keys := by
  rw [Option.isSome_iff_exists]
  simp [keys, get?_eq_some]

theorem keys_sorted (m : OrdMap K V) : m.keys.Pairwise (· < ·) :=
  List.pairwise_map.mpr m.sorted

theorem ext_get? {m n : OrdMap K V} (h : ∀ k, m.get? k = n.get? k) : m = n := by
  have hmem : ∀ x, x ∈ m.entries ↔ x ∈ n.entries := by
    rintro ⟨k, v⟩
    rw [← get?_eq_some, ← get?_eq_some, h k]
  have hnodup : ∀ {l : List (K × V)}, l.Pairwise (fun a b => a.1 < b.1) → l.Nodup :=
    fun hl => hl.imp (fun hab heq => (heq ▸ hab).ne rfl)
  have hperm : m.entries.Perm n.entries :=
    (List.perm_ext_iff_of_nodup (hnodup m.sorted) (hnodup n.sorted)).mpr hmem
  have heq : m.entries = n.entries :=
    hperm.eq_of_pairwise (fun a b _ _ hab hba => absurd hab (not_lt.mpr hba.le)) m.sorted n.sorted
  cases m; cases n; simpa using heq

theorem get?_foldl_insert {f : V → W} (xs : List (K × V)) (m : OrdMap K W) (k : K)
    (hxs : xs.Pairwise (fun a b => a.1 < b.1)) :
    (xs.foldl (fun acc x => acc.insert x.1 (f x.2)) m).get? k =
      ((find k xs).map f).or (m.get? k) := by
  induction xs generalizing m with
  | nil => simp [find]
  | cons x xs ih =>
    obtain ⟨hx, hxs⟩ := List.pairwise_cons.mp hxs
    rw [List.foldl_cons, ih _ hxs, get?_insert, find]
    by_cases heq : x.1 = k
    · have hno : find k xs = none := find_eq_none.mpr (fun y hy h => ((hx y hy).trans_eq h).ne heq)
      simp [heq, hno]
    · simp [heq]

theorem get?_extend (m n : OrdMap K V) (k : K) :
    (m.extend n).get? k = (n.get? k).or (m.get? k) := by
  simpa [extend, get?] using get?_foldl_insert (f := id) n.entries m k n.sorted

theorem keys_nodup (m : OrdMap K V) : m.keys.Nodup := m.keys_sorted.imp ne_of_lt

theorem keys_perm {m : OrdMap K V} {ks : List K} (hks : ks.Nodup)
    (h : ∀ k, (m.get? k).isSome ↔ k ∈ ks) : m.keys.Perm ks :=
  (List.perm_ext_iff_of_nodup m.keys_nodup hks).mpr (fun k => get?_isSome.symm.trans (h k))

theorem values_eq_map_keys (m : OrdMap K V) (v : V) :
    m.values = m.keys.map fun k => (m.get? k).getD v := by
  rw [values, keys, List.map_map]
  refine List.map_congr_left (fun x hx => ?_)
  have hget : m.get? x.1 = some x.2 := get?_eq_some.mpr hx
  simp [hget]

end OrdMap
