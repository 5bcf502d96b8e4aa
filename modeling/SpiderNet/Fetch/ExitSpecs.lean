import SpiderNet.Fetch.Routing

namespace SpiderNet.Fetch
open ListFacts

def writeEgress : Egress → Text
  | .direct => []
  | .proxy text => '@' :: text.toList

def writeExit (spec : ExitSpec) : Text :=
  numeral spec.id.value ++ '=' :: (numeral spec.weight.value ++ writeEgress spec.egress)

def writeExits (exits : List ExitSpec) : Text := List.intercalate [','] (exits.map writeExit)

-- what a URL is written as, the URL parser takes for the same URL
structure Normalizes (parseUrl : Text → Option Url) : Prop where
  again : ∀ {input url}, parseUrl input = some url → parseUrl url.text.toList = some url
  trimmed : ∀ {input url}, parseUrl input = some url → trim url.text.toList = url.text.toList

-- a comma ends an entry, and there is no way to write one
def NoComma (spec : ExitSpec) : Prop := ',' ∉ writeEgress spec.egress

-- an exit the command line can name
def Nameable (parseUrl : Text → Option Url) (spec : ExitSpec) : Prop :=
  match spec.egress with
  | .direct => True
  | .proxy text => Egress.parseProxy parseUrl text.toList = .ok (.proxy text) ∧
      trim text.toList = text.toList

section
variable {parseUrl : Text → Option Url}

theorem parseProxy_ok {input : Text} {egress : Egress} :
    Egress.parseProxy parseUrl input = .ok egress ↔ ∃ url, parseUrl input = some url ∧
      (url.scheme = "http" ∨ url.scheme = "https") ∧ egress = .proxy url.text := by
  rw [Egress.parseProxy]
  cases hurl : parseUrl input with
  | none => simp
  | some url =>
    simp only
    split_ifs with hscheme
    · simp only [Except.ok.injEq, Option.some.injEq, exists_eq_left', hscheme, true_and]
      exact eq_comm
    · simp [hscheme]

theorem Normalizes.nameable (h : Normalizes parseUrl) {input : Text} {egress : Egress}
    (hproxy : Egress.parseProxy parseUrl input = .ok egress) (id : ExitId) (weight : ExitWeight) :
    Nameable parseUrl ⟨id, weight, egress⟩ := by
  obtain ⟨url, hurl, hscheme, rfl⟩ := parseProxy_ok.mp hproxy
  exact ⟨parseProxy_ok.mpr ⟨url, h.again hurl, hscheme, rfl⟩, h.trimmed hurl⟩

theorem parseEgress_ok {pair rest weight : Text} {egress : Egress}
    (h : parseEgress parseUrl pair rest = .ok (weight, egress)) :
    egress = .direct ∨ ∃ proxy, Egress.parseProxy parseUrl proxy = .ok egress := by
  rw [parseEgress] at h
  cases hsplit : splitOnce '@' rest with
  | none =>
    rw [hsplit] at h
    exact Or.inl (Prod.mk.inj (Except.ok.inj h)).2.symm
  | some split =>
    obtain ⟨front, proxy⟩ := split
    simp only [hsplit] at h
    cases hproxy : Egress.parseProxy parseUrl (trim proxy) with
    | error error =>
      rw [hproxy] at h
      cases h
    | ok found =>
      rw [hproxy] at h
      obtain ⟨rfl, rfl⟩ := Prod.mk.inj (Except.ok.inj h)
      exact Or.inr ⟨_, hproxy⟩

theorem parseExit_ok {pair : Text} {spec : ExitSpec} (h : parseExit parseUrl pair = .ok spec) :
    ∃ rest weight, parseEgress parseUrl pair rest = .ok (weight, spec.egress) := by
  rw [parseExit] at h
  cases hsplit : splitOnce '=' pair with
  | none =>
    rw [hsplit] at h
    cases h
  | some split =>
    obtain ⟨idText, rest⟩ := split
    simp only [hsplit] at h
    cases hid : nonZero 8 idText with
    | none =>
      rw [hid] at h
      cases h
    | some id =>
      simp only [hid, bind_eq_ok] at h
      obtain ⟨⟨weightText, egress⟩, hegress, hweight⟩ := h
      cases hvalue : nonZero 32 weightText with
      | none =>
        rw [hvalue] at hweight
        cases hweight
      | some weight =>
        rw [hvalue] at hweight
        obtain rfl := Except.ok.inj hweight
        exact ⟨rest, weightText, hegress⟩

theorem parseExit_nameable (h : Normalizes parseUrl) {pair : Text} {spec : ExitSpec}
    (hparse : parseExit parseUrl pair = .ok spec) : Nameable parseUrl spec := by
  obtain ⟨rest, weight, hegress⟩ := parseExit_ok hparse
  rcases parseEgress_ok hegress with hdirect | ⟨proxy, hproxy⟩
  · rw [Nameable, hdirect]
    trivial
  · exact h.nameable hproxy spec.id spec.weight

theorem nonZero_numeral {bits : ℕ} (n : NonZero bits) : nonZero bits (numeral n.value) = some n := by
  rw [nonZero, (numeral_clean _).trim, numeral, Decimal.parse_toDigits n.lt]
  exact dif_pos ⟨n.pos, n.lt⟩

theorem parseEgress_write {spec : ExitSpec} (h : Nameable parseUrl spec) (pair : Text) :
    parseEgress parseUrl pair (numeral spec.weight.value ++ writeEgress spec.egress) =
      .ok (numeral spec.weight.value, spec.egress) := by
  have hweight : '@' ∉ numeral spec.weight.value := not_mem_numeral (by decide) _
  cases hegress : spec.egress with
  | direct =>
    rw [writeEgress, List.append_nil, parseEgress, splitOnce_eq_none.mpr hweight]
  | proxy text =>
    rw [Nameable, hegress] at h
    obtain ⟨hproxy, htrim⟩ := h
    rw [writeEgress, parseEgress, splitOnce_append hweight]
    simp only [htrim, hproxy]

theorem parseExit_write {spec : ExitSpec} (h : Nameable parseUrl spec) :
    parseExit parseUrl (writeExit spec) = .ok spec := by
  rw [parseExit, writeExit, splitOnce_append (not_mem_numeral (by decide) spec.id.value)]
  simp only [nonZero_numeral, parseEgress_write h, ok_bind]
  rfl

theorem writeExit_noComma {spec : ExitSpec} (h : NoComma spec) : ',' ∉ writeExit spec := by
  have hid : ',' ∉ numeral spec.id.value := not_mem_numeral (by decide) _
  have hweight : ',' ∉ numeral spec.weight.value := not_mem_numeral (by decide) _
  have hegress : ',' ∉ writeEgress spec.egress := h
  simp [writeExit, hid, hweight, hegress]

theorem parseExits_write {exits : List ExitSpec} (hne : exits ≠ [])
    (hcommas : ∀ spec ∈ exits, NoComma spec) (h : ∀ spec ∈ exits, Nameable parseUrl spec) :
    parseExits parseUrl (writeExits exits) = .ok exits := by
  have hpieces : ∀ piece ∈ exits.map writeExit, ',' ∉ piece := by
    intro piece hpiece
    obtain ⟨spec, hspec, rfl⟩ := List.mem_map.mp hpiece
    exact writeExit_noComma (hcommas spec hspec)
  rw [parseExits, writeExits, List.splitOn_intercalate _ hpieces (by simpa using hne), mapM_ok_iff,
    List.forall₂_map_left_iff]
  exact List.forall₂_same.mpr fun spec hspec => parseExit_write (h spec hspec)

theorem parseExits_nameable (h : Normalizes parseUrl) {text : Text} {exits : List ExitSpec}
    (hparse : parseExits parseUrl text = .ok exits) :
    exits ≠ [] ∧ ∀ spec ∈ exits, Nameable parseUrl spec := by
  have hparsed := mapM_ok_iff.mp hparse
  refine ⟨?_, fun spec hspec => ?_⟩
  · rintro rfl
    exact List.splitOn_ne_nil _ _ (List.forall₂_nil_right_iff.mp hparsed)
  · obtain ⟨piece, _, hpiece⟩ := forall₂_mem_right hparsed hspec
    exact parseExit_nameable h hpiece

-- whatever text the exits were given in, they can be given again in their plainest
theorem parseExits_canonical (h : Normalizes parseUrl) {text : Text} {exits : List ExitSpec}
    (hparse : parseExits parseUrl text = .ok exits) (hcommas : ∀ spec ∈ exits, NoComma spec) :
    parseExits parseUrl (writeExits exits) = .ok exits := by
  obtain ⟨hne, hnameable⟩ := parseExits_nameable h hparse
  exact parseExits_write hne hcommas hnameable

end

def slashUrl (input : Text) : Option Url :=
  if input = "http://10.0.0.2:8118".toList ∨ input = "http://10.0.0.2:8118/".toList then
    some ⟨"http", "http://10.0.0.2:8118/"⟩
  else none

theorem slashUrl_normalizes : Normalizes slashUrl := by
  have htext : ∀ {input url}, slashUrl input = some url → url = ⟨"http", "http://10.0.0.2:8118/"⟩ := by
    intro input url h
    rw [slashUrl] at h
    split_ifs at h
    exact (Option.some.inj h).symm
  refine ⟨fun h => ?_, fun h => ?_⟩
  · rw [htext h]
    exact if_pos (Or.inr rfl)
  · rw [htext h]
    rfl

theorem parseExits_canonical_mesh : ∃ exits,
    parseExits slashUrl "01 = 3 ,2=+1@ http://10.0.0.2:8118".toList = .ok exits ∧
    writeExits exits = "1=3,2=1@http://10.0.0.2:8118/".toList ∧
    parseExits slashUrl (writeExits exits) = .ok exits := by
  have hparse : parseExits slashUrl "01 = 3 ,2=+1@ http://10.0.0.2:8118".toList =
      .ok [⟨1, 3, .direct⟩, ⟨2, 1, .proxy "http://10.0.0.2:8118/"⟩] := rfl
  refine ⟨_, hparse, by decide, parseExits_canonical slashUrl_normalizes hparse fun spec hspec => ?_⟩
  rcases List.mem_pair.mp hspec with rfl | rfl
  · exact List.not_mem_nil
  · rw [NoComma]
    decide

end SpiderNet.Fetch
