import SpiderNet.Fair.Model
import SpiderNet.Text
import SpiderNet.Library.Decimal

namespace SpiderNet.Fair

def nonZero (bits : ℕ) (text : Text) : Option (NonZero bits) :=
  (Decimal.parse (2 ^ bits) text).bind fun value =>
    if hpos : 0 < value then
      if hlt : value < 2 ^ bits then some ⟨value, hpos, hlt⟩ else none
    else none

def ParticipantId.fromStr (s : Text) : Except String ParticipantId :=
  match nonZero 16 (trim s) with
  | some id => .ok id
  | none =>
    .error ("invalid participant id `" ++ .ofList s ++
      "`: expected a decimal number greater than zero")

def contributing : Text := "contributing".toList

def leeching : Text := "leeching".toList

def invalidParticipation (spec participation : Text) : String :=
  "invalid participation `" ++ .ofList participation ++ "` in `" ++ .ofList spec ++
    "`, expected `contributing[:weight]` or `leeching`"

def parseWeight (spec weight : Text) : Except String Weight :=
  match nonZero 32 (trim weight) with
  | some weight => .ok weight
  | none =>
    .error ("invalid weight `" ++ .ofList weight ++ "` in `" ++ .ofList spec ++
      "` (must be a non-zero number)")

-- without a weight a contributor has the default one
def parseParticipation (spec participation : Text) : Except String Participation :=
  match stripPrefix contributing participation with
  | some [] => .ok (.contributing 1)
  | some rest =>
    match stripPrefix [':'] rest with
    | some weight => (parseWeight spec weight).map .contributing
    | none => .error (invalidParticipation spec participation)
  | none =>
    if participation = leeching then .ok .leeching
    else .error (invalidParticipation spec participation)

def parseParticipantSpec (spec : Text) : Except String (ParticipantId × Participation) :=
  match splitOnce '=' spec with
  | none =>
    .error ("invalid participant spec `" ++ .ofList spec ++
      "`, expected `id=contributing[:weight]` or `id=leeching`")
  | some (id, participation) => do
    let participant ← (ParticipantId.fromStr (trim id)).mapError fun error =>
      "invalid participant spec `" ++ .ofList spec ++ "`: " ++ error
    let participation ← parseParticipation spec (trim participation)
    return (participant, participation)

def parseRate (spec rate : Text) : Except String Rate :=
  match Decimal.parse (2 ^ 64) (trim rate) with
  | some value => .ok (.ofNat value)
  | none =>
    .error ("invalid rate `" ++ .ofList rate ++ "` in `" ++ .ofList spec ++
      "` (must be a non-negative number)")

def parseDemandSpec (spec : Text) : Except String (ParticipantId × Rate) :=
  match splitOnce '=' spec with
  | none => .error ("invalid demand spec `" ++ .ofList spec ++ "`, expected `id=rate`")
  | some (id, rate) => do
    let participant ← (ParticipantId.fromStr (trim id)).mapError fun error =>
      "invalid demand spec `" ++ .ofList spec ++ "`: " ++ error
    let rate ← parseRate spec rate
    return (participant, rate)

def writeParticipation : Participation → Text
  | .contributing weight => contributing ++ ':' :: numeral weight.value
  | .leeching => leeching

def writeParticipant (participant : ParticipantId × Participation) : Text :=
  numeral participant.1.value ++ '=' :: writeParticipation participant.2

def writeDemand (demand : ParticipantId × Rate) : Text :=
  numeral demand.1.value ++ '=' :: numeral demand.2.toNat

theorem contributing_clean : Clean contributing := clean_of_all (by decide) rfl

theorem leeching_clean : Clean leeching := clean_of_all (by decide) rfl

theorem writeParticipation_clean (participation : Participation) :
    Clean (writeParticipation participation) := by
  cases participation with
  | contributing weight =>
    refine ⟨by simp [writeParticipation], fun c hc => ?_⟩
    rcases List.mem_append.mp hc with hc | hc
    · exact contributing_clean.2 c hc
    · rcases List.mem_cons.mp hc with rfl | hc
      · rfl
      · exact (numeral_clean weight.value).2 c hc
  | leeching => exact leeching_clean

theorem nonZero_numeral {bits : ℕ} (n : NonZero bits) : nonZero bits (numeral n.value) = some n := by
  rw [nonZero, numeral, Decimal.parse_toDigits n.lt, Option.bind_some, dif_pos n.pos, dif_pos n.lt]

theorem fromStr_numeral (id : ParticipantId) :
    ParticipantId.fromStr (trim (numeral id.value)) = .ok id := by
  have hclean := numeral_clean id.value
  rw [ParticipantId.fromStr, hclean.trim, hclean.trim, nonZero_numeral]

theorem parseParticipation_write (spec : Text) (participation : Participation) :
    parseParticipation spec (trim (writeParticipation participation)) = .ok participation := by
  rw [(writeParticipation_clean participation).trim]
  cases participation with
  | contributing weight =>
    have hweight : parseWeight spec (numeral weight.value) = .ok weight := by
      rw [parseWeight, (numeral_clean weight.value).trim, nonZero_numeral]
    rw [parseParticipation, writeParticipation, stripPrefix_append]
    simp only [stripPrefix_cons, hweight]
    rfl
  | leeching => rfl

theorem parseParticipantSpec_write (participant : ParticipantId × Participation) :
    parseParticipantSpec (writeParticipant participant) = .ok participant := by
  rw [parseParticipantSpec, writeParticipant,
    splitOnce_append (not_mem_numeral (by decide) participant.1.value)]
  simp only [fromStr_numeral, Except.mapError, ok_bind, parseParticipation_write]
  rfl

theorem parseDemandSpec_write (demand : ParticipantId × Rate) :
    parseDemandSpec (writeDemand demand) = .ok demand := by
  have hrate : ∀ spec, parseRate spec (numeral demand.2.toNat) = .ok demand.2 := by
    intro spec
    rw [parseRate, (numeral_clean _).trim, numeral, Decimal.parse_toDigits demand.2.toNat_lt]
    simp
  rw [parseDemandSpec, writeDemand, splitOnce_append (not_mem_numeral (by decide) demand.1.value)]
  simp only [fromStr_numeral, Except.mapError, ok_bind, hrate]
  rfl

end SpiderNet.Fair
