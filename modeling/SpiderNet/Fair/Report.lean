import SpiderNet.Fair.Specs
import SpiderNet.Fair.Checked

namespace SpiderNet.Fair

structure Args where
  capacity : UInt64
  participants : List (ParticipantId × Participation)
  demands : List (ParticipantId × Rate)

-- what the command line makes of the texts it is given
def parseArgs (capacity : UInt64) (participants demands : List Text) : Except String Args := do
  let participants ← participants.mapM parseParticipantSpec
  let demands ← demands.mapM parseDemandSpec
  return ⟨capacity, participants, demands⟩

def Capacity.tryNew (value : UInt64) : Except String Capacity :=
  if h : 0 < value.toNat then .ok ⟨value, h⟩ else .error "capacity must be greater than zero"

def FairnessError.display : FairnessError → String
  | .unknownParticipant id => "demand references unknown participant " ++ .ofList (numeral id.value)
  | .duplicateDemand id => "duplicate demand for participant " ++ .ofList (numeral id.value)
  | .duplicateParticipant id => "duplicate participant " ++ .ofList (numeral id.value)
  | .conflictingParticipation id =>
    "conflicting participation classes for participant " ++ .ofList (numeral id.value)

abbrev Cells := Fin 5 → Text

def headers : Cells
  | 0 => "participant".toList
  | 1 => "class".toList
  | 2 => "weight".toList
  | 3 => "demand".toList
  | 4 => "allocation".toList

def className : Participation → Text
  | .contributing _ => contributing
  | .leeching => leeching

def weightCell : Participation → Text
  | .contributing weight => numeral weight.value
  | .leeching => "-".toList

def cellsOf (demandOf : OrdMap ParticipantId UInt64) (share : FairShare) (participant : Participant) :
    Cells
  | 0 => numeral participant.id.value
  | 1 => className participant.participation
  | 2 => weightCell participant.participation
  | 3 => ((demandOf.get? participant.id).map fun demand => numeral demand.toNat).getD "0".toList
  | 4 => numeral (share.rateOf participant.id).toNat

-- `len` counts bytes, the padding counts characters
def widthsOf (rows : List Cells) : Fin 5 → ℕ :=
  rows.foldl (fun widths row index => max (widths index) (toUtf8 (row index)).length)
    fun index => (toUtf8 (headers index)).length

def padding (width : ℕ) (cell : Text) : Text := List.replicate (width - cell.length) ' '

def alignLeft (width : ℕ) (cell : Text) : Text := cell ++ padding width cell

def alignRight (width : ℕ) (cell : Text) : Text := padding width cell ++ cell

def gap : Text := "  ".toList

def printRow (cells : Cells) (widths : Fin 5 → ℕ) : Text :=
  alignLeft (widths 0) (cells 0) ++ gap ++ alignLeft (widths 1) (cells 1) ++ gap ++
    alignRight (widths 2) (cells 2) ++ gap ++ alignRight (widths 3) (cells 3) ++ gap ++
    alignRight (widths 4) (cells 4)

def println (line : Text) : Text := line ++ ['\n']

def reportLines (capacity : Capacity) (rows : List Cells) (share : FairShare) : List Text :=
  ["NO WARRANTY — SpiderNet sn-fair (AGPL-3.0, no liability)".toList, [],
    "pooled capacity: ".toList ++ numeral capacity.value.toNat ++ " Mbit/s".toList, [],
    printRow headers (widthsOf rows)] ++
  rows.map (printRow · (widthsOf rows)) ++
  [[], "total allocated: ".toList ++ numeral share.totalAllocated.toNat,
    "unused:          ".toList ++ numeral share.unused.toNat]

def printReport (capacity : Capacity) (participants : List Participant)
    (demandOf : OrdMap ParticipantId UInt64) (share : FairShare) : Text :=
  (reportLines capacity (participants.map (cellsOf demandOf share)) share).flatMap println

def Args.participantList (args : Args) : List Participant :=
  args.participants.map fun participant => ⟨participant.1, participant.2⟩

def Args.demandList (args : Args) : List Demand :=
  args.demands.map fun demand => ⟨demand.1, demand.2⟩

def Args.demandOf (args : Args) : OrdMap ParticipantId UInt64 :=
  args.demands.foldl (fun demands demand => demands.insert demand.1 demand.2) .empty

-- what the command prints, or the error it reports
def run (args : Args) : Except String Text := do
  let capacity ← Capacity.tryNew args.capacity
  let share ← (allocate capacity args.participantList args.demandList).mapError FairnessError.display
  return printReport capacity args.participantList args.demandOf share

structure Row where
  id : ParticipantId
  participation : Participation
  demand : Rate
  allocation : Rate

structure Reading where
  capacity : UInt64
  rows : List Row
  total : Rate
  unused : Rate

def readNumber (text : Text) : Option UInt64 := (Decimal.parse (2 ^ 64) text).map .ofNat

def readParticipation (participation weight : Text) : Option Participation :=
  if participation = leeching then some .leeching
  else (nonZero 32 weight).map .contributing

def readRow (line : Text) : Option Row :=
  match splitWhitespace line with
  | [id, participation, weight, demand, allocation] => do
    return ⟨← nonZero 16 id, ← readParticipation participation weight, ← readNumber demand,
      ← readNumber allocation⟩
  | _ => none

-- the first word after the label
def readAfter (label line : Text) : Option UInt64 :=
  (stripPrefix label line).bind fun rest => (splitWhitespace rest).head?.bind readNumber

-- the table ends with an empty line
def readLines : List Text → Option Reading
  | _ :: _ :: capacity :: _ :: _ :: rest =>
    let rows := rest.takeWhile (· ≠ [])
    match rest.drop rows.length with
    | [_, total, unused, _] => do
      return ⟨← readAfter "pooled capacity:".toList capacity, ← rows.mapM readRow,
        ← readAfter "total allocated:".toList total, ← readAfter "unused:".toList unused⟩
    | _ => none
  | _ => none

def readReport (text : Text) : Option Reading := readLines (text.splitOn '\n')

theorem padding_blank (width : ℕ) (cell : Text) : ∀ c ∈ padding width cell, isWhitespace c := by
  intro c hc
  rw [List.eq_of_mem_replicate hc]
  rfl

theorem gap_blank : ∀ c ∈ gap, isWhitespace c := by
  intro c hc
  obtain rfl : c = ' ' := by simpa [gap] using hc
  rfl

theorem words_alignLeft {cell : Text} (hclean : Clean cell) (width : ℕ) (rest : Text) :
    splitWhitespace (alignLeft width cell ++ gap ++ rest) = cell :: splitWhitespace rest := by
  rw [alignLeft, List.append_assoc, List.append_assoc, ← List.append_assoc (padding width cell)]
  refine Scan.words_spaced hclean.1 hclean.2 (fun c hc => ?_) (by simp [gap]) rest
  exact (List.mem_append.mp hc).elim (padding_blank _ _ c) (gap_blank c)

theorem words_alignRight {cell : Text} (hclean : Clean cell) (width : ℕ) (rest : Text) :
    splitWhitespace (alignRight width cell ++ gap ++ rest) = cell :: splitWhitespace rest := by
  rw [alignRight, List.append_assoc, List.append_assoc, splitWhitespace_eq,
    Scan.words_gap (padding_blank _ _)]
  exact Scan.words_spaced hclean.1 hclean.2 gap_blank (by decide) rest

theorem words_printRow {cells : Cells} (hclean : ∀ index, Clean (cells index)) (widths : Fin 5 → ℕ) :
    splitWhitespace (printRow cells widths) = [cells 0, cells 1, cells 2, cells 3, cells 4] := by
  have hlast : splitWhitespace (alignRight (widths 4) (cells 4)) = [cells 4] := by
    rw [alignRight, splitWhitespace_eq, Scan.words_gap (padding_blank _ _)]
    exact Scan.words_single (hclean 4).1 (hclean 4).2
  have hassoc : printRow cells widths = alignLeft (widths 0) (cells 0) ++ gap ++
      (alignLeft (widths 1) (cells 1) ++ gap ++ (alignRight (widths 2) (cells 2) ++ gap ++
        (alignRight (widths 3) (cells 3) ++ gap ++ alignRight (widths 4) (cells 4)))) := by
    simp only [printRow, List.append_assoc]
  rw [hassoc, words_alignLeft (hclean 0), words_alignLeft (hclean 1), words_alignRight (hclean 2),
    words_alignRight (hclean 3), hlast]

theorem readNumber_numeral (n : UInt64) : readNumber (numeral n.toNat) = some n := by
  rw [readNumber, numeral, Decimal.parse_toDigits n.toNat_lt]
  simp

theorem readParticipation_cells (participation : Participation) :
    readParticipation (className participation) (weightCell participation) = some participation := by
  cases participation with
  | contributing weight =>
    have hclass : contributing ≠ leeching := by decide
    rw [className, weightCell, readParticipation, if_neg hclass, nonZero_numeral]
    rfl
  | leeching => rfl

def rowOf (demandOf : OrdMap ParticipantId UInt64) (share : FairShare) (participant : Participant) :
    Row :=
  ⟨participant.id, participant.participation, (demandOf.get? participant.id).getD 0,
    share.rateOf participant.id⟩

section
variable (demandOf : OrdMap ParticipantId UInt64) (share : FairShare) (participant : Participant)

theorem demandCell : cellsOf demandOf share participant 3 =
    numeral ((demandOf.get? participant.id).getD 0).toNat := by
  rw [cellsOf]
  cases demandOf.get? participant.id <;> rfl

theorem className_clean (participation : Participation) : Clean (className participation) := by
  cases participation with
  | contributing weight => exact contributing_clean
  | leeching => exact leeching_clean

theorem weightCell_clean (participation : Participation) : Clean (weightCell participation) := by
  cases participation with
  | contributing weight => exact numeral_clean weight.value
  | leeching => exact clean_of_all (by decide) rfl

theorem cellsOf_clean (index : Fin 5) : Clean (cellsOf demandOf share participant index) := by
  match index with
  | 0 => exact numeral_clean _
  | 1 => exact className_clean _
  | 2 => exact weightCell_clean _
  | 3 =>
    rw [demandCell]
    exact numeral_clean _
  | 4 => exact numeral_clean _

theorem readRow_printRow (widths : Fin 5 → ℕ) :
    readRow (printRow (cellsOf demandOf share participant) widths) =
      some (rowOf demandOf share participant) := by
  rw [readRow, words_printRow (cellsOf_clean demandOf share participant), demandCell]
  simp only [cellsOf, nonZero_numeral, readParticipation_cells, readNumber_numeral]
  rfl

end

theorem readRows (demandOf : OrdMap ParticipantId UInt64) (share : FairShare)
    (participants : List Participant) (widths : Fin 5 → ℕ) :
    ((participants.map (cellsOf demandOf share)).map (printRow · widths)).mapM readRow =
      some (participants.map (rowOf demandOf share)) := by
  rw [List.map_map, List.mapM_map]
  refine mapM_some fun participant _ => ?_
  simp only [Function.comp_apply]
  exact readRow_printRow demandOf share participant widths

theorem mem_printRow {cells : Cells} {widths : Fin 5 → ℕ} {c : Char}
    (h : c ∈ printRow cells widths) : c = ' ' ∨ ∃ index, c ∈ cells index := by
  have hpadding : ∀ {width : ℕ} {cell : Text}, c ∈ padding width cell → c = ' ' :=
    fun hc => List.eq_of_mem_replicate hc
  have hgap : c ∈ gap → c = ' ' := by
    intro hc
    simpa [gap] using hc
  have hleft : ∀ {index : Fin 5}, c ∈ alignLeft (widths index) (cells index) →
      c = ' ' ∨ ∃ index, c ∈ cells index := fun hc =>
    (List.mem_append.mp hc).elim (fun hc => Or.inr ⟨_, hc⟩) (fun hc => Or.inl (hpadding hc))
  have hright : ∀ {index : Fin 5}, c ∈ alignRight (widths index) (cells index) →
      c = ' ' ∨ ∃ index, c ∈ cells index := fun hc =>
    (List.mem_append.mp hc).elim (fun hc => Or.inl (hpadding hc)) (fun hc => Or.inr ⟨_, hc⟩)
  simp only [printRow, List.mem_append] at h
  rcases h with ((((((((h | h) | h) | h) | h) | h) | h) | h) | h)
  · exact hleft h
  · exact Or.inl (hgap h)
  · exact hleft h
  · exact Or.inl (hgap h)
  · exact hright h
  · exact Or.inl (hgap h)
  · exact hright h
  · exact Or.inl (hgap h)
  · exact hright h

theorem printRow_no_newline {cells : Cells} (hclean : ∀ index, Clean (cells index))
    (widths : Fin 5 → ℕ) : '\n' ∉ printRow cells widths := by
  intro hmem
  rcases mem_printRow hmem with hblank | ⟨index, hcell⟩
  · cases hblank
  · exact (hclean index).no_newline hcell

theorem printRow_ne_nil {cells : Cells} (hclean : ∀ index, Clean (cells index))
    (widths : Fin 5 → ℕ) : printRow cells widths ≠ [] := by
  intro hnil
  have hwords := words_printRow hclean widths
  rw [hnil] at hwords
  cases hwords

theorem headers_clean (index : Fin 5) : Clean (headers index) := by
  match index with
  | 0 | 1 | 2 | 3 | 4 => exact clean_of_all (by decide) rfl

theorem readAfter_line (label blank tail : Text) (hblank : blank.all isWhitespace = true)
    (htail : tail.head?.all isWhitespace = true) (n : UInt64) :
    readAfter label (label ++ (blank ++ (numeral n.toNat ++ tail))) = some n := by
  have hclean := numeral_clean n.toNat
  have hwords : (splitWhitespace (numeral n.toNat ++ tail)).head? = some (numeral n.toNat) := by
    cases tail with
    | nil => rw [List.append_nil, splitWhitespace_eq, Scan.words_single hclean.1 hclean.2, List.head?_cons]
    | cons c rest =>
      rw [splitWhitespace_eq, Scan.words_append hclean.1 hclean.2 htail, List.head?_cons]
  have hblanks : splitWhitespace (blank ++ (numeral n.toNat ++ tail)) =
      splitWhitespace (numeral n.toNat ++ tail) := Scan.words_gap (List.all_eq_true.mp hblank) _
  rw [readAfter, stripPrefix_append, Option.bind_some, hblanks, hwords, Option.bind_some,
    readNumber_numeral]

theorem readAfter_capacity (n : UInt64) : readAfter "pooled capacity:".toList
    ("pooled capacity: ".toList ++ (numeral n.toNat ++ " Mbit/s".toList)) = some n := by
  have hlabel : "pooled capacity: ".toList = "pooled capacity:".toList ++ " ".toList := rfl
  rw [hlabel, List.append_assoc]
  exact readAfter_line _ _ _ rfl rfl n

theorem readAfter_total (n : UInt64) : readAfter "total allocated:".toList
    ("total allocated: ".toList ++ numeral n.toNat) = some n := by
  have hlabel : "total allocated: ".toList = "total allocated:".toList ++ " ".toList := rfl
  rw [hlabel, List.append_assoc, ← List.append_nil (numeral _)]
  exact readAfter_line _ _ _ rfl rfl n

theorem readAfter_unused (n : UInt64) : readAfter "unused:".toList
    ("unused:          ".toList ++ numeral n.toNat) = some n := by
  have hlabel : "unused:          ".toList = "unused:".toList ++ "          ".toList := rfl
  rw [hlabel, List.append_assoc, ← List.append_nil (numeral _)]
  exact readAfter_line _ _ _ rfl rfl n

theorem reportLines_no_newline (capacity : Capacity) {rows : List Cells} (share : FairShare)
    (hclean : ∀ row ∈ rows, ∀ index, Clean (row index)) :
    ∀ line ∈ reportLines capacity rows share, '\n' ∉ line := by
  have hnumber : ∀ n, '\n' ∉ numeral n := fun n => (numeral_clean n).no_newline
  intro line hline
  simp only [reportLines, List.mem_append, List.mem_cons, List.mem_map, List.not_mem_nil,
    or_false] at hline
  rcases hline with ((rfl | rfl | rfl | rfl | rfl) | ⟨row, hrow, rfl⟩) | rfl | rfl | rfl
  · decide
  · exact List.not_mem_nil
  · simp [hnumber]
  · exact List.not_mem_nil
  · exact printRow_no_newline headers_clean _
  · exact printRow_no_newline (hclean row hrow) _
  · exact List.not_mem_nil
  · simp [hnumber]
  · simp [hnumber]

theorem readLines_table {table : List Text} (hfilled : ∀ line ∈ table, line ≠ [])
    {banner blank capacity space header total unused last : Text} {reading : Reading}
    (hcapacity : readAfter "pooled capacity:".toList capacity = some reading.capacity)
    (hrows : table.mapM readRow = some reading.rows)
    (htotal : readAfter "total allocated:".toList total = some reading.total)
    (hunused : readAfter "unused:".toList unused = some reading.unused) :
    readLines (banner :: blank :: capacity :: space :: header :: (table ++ [[], total, unused, last])) =
      some reading := by
  have htable : (table ++ [[], total, unused, last]).takeWhile (· ≠ []) = table :=
    Scan.takeWhile_stops (fun line hline => decide_eq_true (hfilled line hline)) (by simp)
  simp only [readLines, htable, List.drop_left, hcapacity, hrows, htotal, hunused]
  rfl

theorem readReport_printReport (capacity : Capacity) (participants : List Participant)
    (demandOf : OrdMap ParticipantId UInt64) (share : FairShare) :
    readReport (printReport capacity participants demandOf share) =
      some ⟨capacity.value, participants.map (rowOf demandOf share), share.totalAllocated,
        share.unused⟩ := by
  have hclean : ∀ row ∈ participants.map (cellsOf demandOf share), ∀ index, Clean (row index) := by
    intro row hrow index
    obtain ⟨participant, _, rfl⟩ := List.mem_map.mp hrow
    exact cellsOf_clean demandOf share participant index
  have hlines : (printReport capacity participants demandOf share).splitOn '\n' = _ :=
    Scan.splitOn_terminated (reportLines_no_newline capacity share hclean)
  simp only [reportLines, List.cons_append, List.nil_append, List.append_assoc] at hlines
  rw [readReport, hlines]
  refine readLines_table (fun line hline => ?_) ?_ ?_ ?_ ?_
  · obtain ⟨row, hrow, rfl⟩ := List.mem_map.mp hline
    exact printRow_ne_nil (hclean row hrow) _
  · exact readAfter_capacity capacity.value
  · exact readRows demandOf share participants _
  · exact readAfter_total share.totalAllocated
  · exact readAfter_unused share.unused

end SpiderNet.Fair
