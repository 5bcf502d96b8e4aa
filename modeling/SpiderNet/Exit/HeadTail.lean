import SpiderNet.Exit.RequestLine

namespace SpiderNet.Exit

def crlf : Bytes := [13, 10]

theorem fromUtf8_crlf {front rest : Bytes} {text : Text} : fromUtf8 (front ++ crlf ++ rest) = some text ↔
    ∃ before after, fromUtf8 front = some before ∧ fromUtf8 rest = some after ∧
      text = before ++ '\r' :: '\n' :: after := by
  simp only [fromUtf8_eq_some]
  constructor
  · intro h
    have hlf : toUtf8 text = (front ++ [13]) ++ 10 :: rest := by
      rw [← h, crlf]
      simp
    obtain ⟨line, after, rfl, hline, rfl⟩ := toUtf8_split (c := '\n') rfl (by decide) hlf
    obtain ⟨before, last, rfl, rfl, hlast⟩ := toUtf8_split (c := '\r') rfl (by decide) hline
    obtain rfl : last = [] := toUtf8_injective hlast
    exact ⟨before, after, rfl, rfl, by simp⟩
  · rintro ⟨before, after, rfl, rfl, rfl⟩
    rw [toUtf8_eq, toUtf8_eq, toUtf8_eq, Utf8.encode_append, Utf8.encode_cons, Utf8.encode_cons,
      List.append_assoc]
    rfl

theorem firstLine_tail (front rest rest' : Text) :
    firstLine (front ++ '\n' :: rest) = firstLine (front ++ '\n' :: rest') := by
  have htake : ∀ rest : Text, (front ++ '\n' :: rest).takeWhile (· ≠ '\n') = front.takeWhile (· ≠ '\n') := by
    intro rest
    rw [List.takeWhile_append, List.takeWhile_cons_of_neg (by simp)]
    split_ifs with hall
    · rw [List.append_nil, (List.takeWhile_sublist _).eq_of_length hall]
    · rfl
  simp only [firstLine, htake]
  simp

theorem firstLine_crlf_tail (front rest rest' : Text) :
    firstLine (front ++ '\r' :: '\n' :: rest) = firstLine (front ++ '\r' :: '\n' :: rest') := by
  have htail := firstLine_tail (front ++ ['\r']) rest rest'
  simpa using htail

section
variable {front rest : Bytes}

theorem requestLineOf_crlf {line : Text} : RequestLineOf (front ++ crlf ++ rest) line ↔
    (fromUtf8 rest).isSome ∧ RequestLineOf (front ++ crlf) line := by
  have hempty : fromUtf8 [] = some [] := rfl
  constructor
  · rintro ⟨_, htext, hline⟩
    obtain ⟨before, after, hbefore, hafter, rfl⟩ := fromUtf8_crlf.mp htext
    refine ⟨Option.isSome_of_eq_some hafter, before ++ ['\r', '\n'], ?_, ?_⟩
    · have hclosed := fromUtf8_crlf.mpr ⟨before, [], hbefore, hempty, rfl⟩
      rwa [List.append_nil] at hclosed
    · exact (firstLine_crlf_tail before [] after).trans hline
  · rintro ⟨hrest, text, htext, hline⟩
    obtain ⟨after, hafter⟩ := Option.isSome_iff_exists.mp hrest
    rw [← List.append_nil (front ++ crlf)] at htext
    obtain ⟨before, last, hbefore, hlast, rfl⟩ := fromUtf8_crlf.mp htext
    obtain rfl := Option.some.inj (hempty.symm.trans hlast)
    exact ⟨_, fromUtf8_crlf.mpr ⟨before, after, hbefore, hafter, rfl⟩,
      (firstLine_crlf_tail before after []).trans hline⟩

-- the rest decides only through being UTF-8 or not
theorem parseRequestHead_crlf {head : RequestHead} : parseRequestHead (front ++ crlf ++ rest) = .ok head ↔
    (fromUtf8 rest).isSome ∧ parseRequestHead (front ++ crlf) = .ok head := by
  simp only [parseRequestHead_ok_iff, requestLineOf_crlf]
  tauto

end

def FirstLineOnly (front rest rest' : Bytes) : Prop := ∀ head,
  parseRequestHead (front ++ crlf ++ rest) = .ok head ↔ parseRequestHead (front ++ crlf ++ rest') = .ok head

theorem parseRequestHead_firstLineOnly_iff (front rest rest' : Bytes) :
    FirstLineOnly front rest rest' ↔ ∀ line, RequestLineOf (front ++ crlf) line → TargetNamed line →
      ((fromUtf8 rest).isSome ↔ (fromUtf8 rest').isSome) := by
  simp only [FirstLineOnly, parseRequestHead_crlf]
  constructor
  · rintro h line hline ⟨head, hread⟩
    have hok := parseRequestHead_ok_iff.mpr ⟨line, hline, hread⟩
    exact ⟨fun hrest => ((h head).mp ⟨hrest, hok⟩).1, fun hrest => ((h head).mpr ⟨hrest, hok⟩).1⟩
  · intro h head
    refine and_congr_left fun hok => ?_
    obtain ⟨line, hline, hread⟩ := parseRequestHead_ok_iff.mp hok
    exact h line hline ⟨head, hread⟩

theorem parseRequestHead_reads_headers :
    ¬FirstLineOnly (toUtf8 "CONNECT a:1 HTTP/1.1".toList) (toUtf8 "X: y\r\n\r\n".toList)
      (toUtf8 "X: ".toList ++ 255 :: toUtf8 "\r\n\r\n".toList) := by
  intro h
  have hline : RequestLineOf (toUtf8 "CONNECT a:1 HTTP/1.1".toList ++ crlf) "CONNECT a:1 HTTP/1.1".toList :=
    ⟨"CONNECT a:1 HTTP/1.1\r\n".toList, by decide, by decide⟩
  have hok : parseRequestHead (toUtf8 "CONNECT a:1 HTTP/1.1".toList ++ crlf) =
      .ok ⟨.tunnel, "a".toList, 1⟩ := parseRequestHead_ok_iff.mpr ⟨_, hline, .tunnel (by decide)⟩
  have hvalid := parseRequestHead_crlf.mp ((h _).mp (parseRequestHead_crlf.mpr
    ⟨Option.isSome_of_eq_some (fromUtf8_toUtf8 _), hok⟩))
  exact absurd hvalid.1 (by decide)

end SpiderNet.Exit
