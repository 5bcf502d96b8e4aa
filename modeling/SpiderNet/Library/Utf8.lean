import Mathlib.Data.List.Basic

namespace Utf8

def encode (text : List Char) : List UInt8 := text.flatMap String.utf8EncodeChar

theorem encode_append (front back : List Char) : encode (front ++ back) = encode front ++ encode back :=
  List.flatMap_append

theorem encode_cons (c : Char) (text : List Char) :
    encode (c :: text) = String.utf8EncodeChar c ++ encode text := List.flatMap_cons

-- a byte below 128 is a whole character
theorem encodeChar_of_ascii {c : Char} {b : UInt8} (hb : b.toNat < 128)
    (hmem : b ∈ String.utf8EncodeChar c) : String.utf8EncodeChar c = [b] := by
  unfold String.utf8EncodeChar at hmem ⊢
  dsimp only at hmem ⊢
  split_ifs at hmem ⊢ with h1 h2 h3
  · rw [List.mem_singleton.mp hmem]
  all_goals
    exfalso
    simp only [List.mem_cons, List.not_mem_nil, or_false] at hmem
  · rcases hmem with rfl | rfl <;> simp at hb <;> omega
  · rcases hmem with rfl | rfl | rfl <;> simp at hb <;> omega
  · rcases hmem with rfl | rfl | rfl | rfl <;> simp at hb <;> omega

theorem encode_split {text : List Char} {b : UInt8} (hb : b.toNat < 128) {front rest : List UInt8}
    (h : encode text = front ++ b :: rest) : ∃ before c after,
      text = before ++ c :: after ∧ encode before = front ∧ String.utf8EncodeChar c = [b] ∧
        encode after = rest := by
  induction text generalizing front with
  | nil => exact absurd h (by simp [encode])
  | cons c text ih =>
    rw [encode_cons] at h
    rcases List.append_eq_append_iff.mp h with ⟨front', rfl, htext⟩ | ⟨tail, hc, hrest⟩
    · obtain ⟨before, d, after, rfl, rfl, hd, rfl⟩ := ih htext
      exact ⟨c :: before, d, after, rfl, encode_cons _ _, hd, rfl⟩
    · cases tail with
      | nil =>
        obtain ⟨before, d, after, rfl, hbefore, hd, rfl⟩ := @ih [] hrest.symm
        refine ⟨c :: before, d, after, rfl, ?_, hd, rfl⟩
        rw [encode_cons, hbefore, hc, List.append_nil, List.append_nil]
      | cons b' tail =>
        obtain ⟨rfl, rfl⟩ := List.cons.inj hrest
        have hsingle : String.utf8EncodeChar c = [b] := encodeChar_of_ascii hb (by rw [hc]; simp)
        rw [hsingle] at hc
        obtain ⟨rfl, rfl⟩ : front = [] ∧ tail = [] := by
          rcases front with _ | ⟨first, front⟩
          · exact ⟨rfl, (List.cons.inj hc).2.symm⟩
          · simp at hc
        exact ⟨[], c, text, rfl, rfl, hsingle, rfl⟩

end Utf8
