import Mathlib
import NodeTelemetry.Exposition
import NodeTelemetry.Aggregator
import NodeTelemetry.Proofs.TextLines
import NodeTelemetry.Proofs.TickLoop

/-!
# Reading exposed records

A record can be read back without knowing what was written.  A label is read up to the first quote
that is not escaped (`readLabel_escapeLabel`), so a value line gives back the name of the node and
the text of the value (`readValue_valueLine`).  A line holds no line feed of its own, so the lines
of a text are those that were written, and the empty ones end the records (`toList_join_render`).
The lines of a record are read from the last one to the first: the values wait for the help line of
their gauge (`readLines_gaugeLines`).  What is read of a stream of records is the names and the
printed values of each (`readRecords_join_render`), and these determine its text (`render_eq_iff`).
-/

namespace NodeTelemetry

namespace Exposition

/-! ## A reader of records -/

/-- The values of a gauge as they stand in a record: the names of nodes, each with the text of its
value. -/
structure GaugeReading where
  name : String
  values : List (String × String)
  deriving DecidableEq, Repr

/-- Reads a label up to the quote that ends it, and gives what follows too. -/
def readLabel : List Char → Option (List Char × List Char)
  | [] => none
  | ['\\'] => none
  | '"' :: text => some ([], text)
  | '\\' :: c :: text =>
    (readLabel text).map fun (label, rest) => ((if c = 'n' then '\n' else c) :: label, rest)
  | c :: text => (readLabel text).map fun (label, rest) => (c :: label, rest)

/-- Reads a value line: the label between the quotes and the text after the closing brace. -/
def readValue (line : List Char) : Option (String × String) :=
  match line.dropWhile (· ≠ '"') with
  | [] => none
  | _ :: quoted =>
    match readLabel quoted with
    | some (label, '\x7d' :: ' ' :: value) => some (String.ofList label, String.ofList value)
    | _ => none

/-- What is read of the last lines of a record: the values that wait for the name of their gauge,
and the gauges after them. -/
structure PartialReading where
  values : List (String × String)
  gauges : List GaugeReading

/-- Reads the line before those that are read.  A help line names the gauge of the waiting values,
and other lines that start with a number sign are skipped. -/
def readLine (line : List Char) (later : PartialReading) : Option PartialReading :=
  match line with
  | '#' :: ' ' :: 'H' :: 'E' :: 'L' :: 'P' :: ' ' :: text =>
    some ⟨[], ⟨String.ofList (text.takeWhile (· ≠ ' ')), later.values⟩ :: later.gauges⟩
  | '#' :: _ => some later
  | _ => (readValue line).map fun v => { later with values := v :: later.values }

/-- Reads lines from the last one to the first. -/
def readLines : List (List Char) → PartialReading → Option PartialReading
  | [], later => some later
  | line :: lines, later => (readLines lines later).bind (readLine line)

/-- Reads the lines of a record, without the empty one that ends it. -/
def readRecord (lines : List (List Char)) : Option (List GaugeReading) :=
  match readLines lines ⟨[], []⟩ with
  | some ⟨[], gauges⟩ => some gauges
  | _ => none

/-- Reads a stream of records, each ended by an empty line. -/
def readRecords (text : String) : Option (List (List GaugeReading)) :=
  (linesOf [] (linesOf '\n' text.toList)).mapM readRecord

/-- The names of the nodes, each with the printed value of a gauge. -/
def printed (g : Gauge) (snapshots : List Snapshot) : List (String × String) :=
  snapshots.map fun s => (s.nodeName, Decimal.twoPlaces (g.value s))

/-- What can be read of a record: for each gauge the names of the nodes and the printed values. -/
def readings (snapshots : List Snapshot) : List GaugeReading :=
  gauges.map fun g => ⟨g.name, printed g snapshots⟩

/-! ## Labels -/

/-- An escaped label is read back, whatever follows its quote. -/
lemma readLabel_escapeLabel (label rest : List Char) :
    readLabel (escapeLabel label ++ '"' :: rest) = some (label, rest) := by
  induction label with
  | nil => simp [escapeLabel, readLabel]
  | cons c label ih =>
    unfold escapeLabel
    split_ifs with hbackslash hquote hfeed
    · simp [readLabel, ih, hbackslash]
    · simp [readLabel, ih, hquote]
    · simp [readLabel, ih, hfeed]
    · rw [List.cons_append, readLabel, ih]
      · rfl
      all_goals simp_all

/-- An escaped label stays on its line. -/
lemma lineFeed_notMem_escapeLabel (label : List Char) : '\n' ∉ escapeLabel label := by
  induction label with
  | nil => exact List.not_mem_nil
  | cons c label ih =>
    unfold escapeLabel
    split_ifs with hbackslash hquote hfeed <;> simp_all [eq_comm]

end Exposition

/-! ## Printed values -/

namespace Decimal

/-- The characters of which printed values are made. -/
def IsValueChar (c : Char) : Prop := c.isDigit = true ∨ c ∈ ['-', '.', 'N', 'a', 'i', 'n', 'f']

instance (c : Char) : Decidable (IsValueChar c) :=
  inferInstanceAs (Decidable (c.isDigit = true ∨ c ∈ ['-', '.', 'N', 'a', 'i', 'n', 'f']))

lemma isValueChar_of_mem_toString {n : ℕ} : ∀ c ∈ (toString n).toList, IsValueChar c := by
  intro c hc
  rw [Nat.toString_eq_repr, Nat.toList_repr] at hc
  exact Or.inl (Nat.isDigit_of_mem_toDigits (by norm_num) le_rfl hc)

lemma isValueChar_of_mem_hundredthsText {n : ℕ} :
    ∀ c ∈ (hundredthsText n).toList, IsValueChar c := by
  have hzero : ∀ c ∈ (if n % 100 < 10 then "0" else "").toList, IsValueChar c := by
    split_ifs <;> simp [IsValueChar]
  have hpoint : ∀ c ∈ ".".toList, IsValueChar c := by simp [IsValueChar]
  simp only [hundredthsText, String.toList_append, List.forall_mem_append]
  exact ⟨⟨⟨isValueChar_of_mem_toString, hpoint⟩, hzero⟩, isValueChar_of_mem_toString⟩

/-- A printed value is made of digits, a sign, a point, and the letters of what is no number. -/
lemma isValueChar_of_mem_twoPlaces {x : Float} : ∀ c ∈ (twoPlaces x).toList, IsValueChar c := by
  unfold twoPlaces
  split
  · simp [IsValueChar]
  · split_ifs <;> simp [IsValueChar]
  · rename_i negative m q _
    have hsign : ∀ c ∈ (if negative = true then "-" else "").toList, IsValueChar c := by
      split_ifs <;> simp [IsValueChar]
    rw [String.toList_append, List.forall_mem_append]
    exact ⟨hsign, isValueChar_of_mem_hundredthsText⟩

lemma lineFeed_notMem_twoPlaces (x : Float) : '\n' ∉ (twoPlaces x).toList :=
  fun h => absurd (isValueChar_of_mem_twoPlaces _ h) (by decide)

/-- A printed value is not empty. -/
lemma toList_twoPlaces_ne_nil (x : Float) : (twoPlaces x).toList ≠ [] := by
  unfold twoPlaces
  split
  · simp
  · split_ifs <;> simp
  · simp [hundredthsText]

end Decimal

/-! ## Lines -/

/-- The name and the help of a gauge fit on its lines: the name has no blank, quote or number sign,
and neither has a line feed. -/
structure Gauge.IsPlain (g : Gauge) : Prop where
  name_ne : g.name.toList ≠ []
  blank : ' ' ∉ g.name.toList
  quote : '"' ∉ g.name.toList
  numberSign : '#' ∉ g.name.toList
  lineFeed : '\n' ∉ g.name.toList
  help : '\n' ∉ g.help.toList

lemma isPlain_of_mem_gauges : ∀ g ∈ gauges, g.IsPlain := by
  have h : ∀ g ∈ gauges, g.name.toList ≠ [] ∧ ' ' ∉ g.name.toList ∧ '"' ∉ g.name.toList ∧
      '#' ∉ g.name.toList ∧ '\n' ∉ g.name.toList ∧ '\n' ∉ g.help.toList := by decide +kernel
  intro g hg
  obtain ⟨h₁, h₂, h₃, h₄, h₅, h₆⟩ := h g hg
  exact ⟨h₁, h₂, h₃, h₄, h₅, h₆⟩

namespace Exposition

variable {g : Gauge}

/-- A value line in characters. -/
lemma toList_valueLine (g : Gauge) (s : Snapshot) :
    (valueLine g s).toList = (g.name.toList ++ ['\x7b', 'n', 'o', 'd', 'e', '=']) ++
      '"' :: (escapeLabel s.nodeName.toList ++
        '"' :: '\x7d' :: ' ' :: (Decimal.twoPlaces (g.value s)).toList) := by
  simp [valueLine]

/-- A value line gives back the name of the node and the text of the value. -/
lemma readValue_valueLine (hg : g.IsPlain) (s : Snapshot) :
    readValue (valueLine g s).toList = some (s.nodeName, Decimal.twoPlaces (g.value s)) := by
  have hfront : ∀ c ∈ g.name.toList ++ ['\x7b', 'n', 'o', 'd', 'e', '='],
      decide (c ≠ '"') = true := by
    refine List.forall_mem_append.mpr ⟨fun c hc => decide_eq_true ?_, by simp⟩
    rintro rfl
    exact hg.quote hc
  unfold readValue
  rw [toList_valueLine, List.dropWhile_append_of_pos hfront]
  simp [readLabel_escapeLabel]

/-- A line that does not start with a number sign is read as a value line. -/
lemma readLine_of_head?_ne {line : List Char} (h : line.head? ≠ some '#') (later : PartialReading) :
    readLine line later =
      (readValue line).map fun v => { later with values := v :: later.values } := by
  unfold readLine
  split <;> simp_all

lemma head?_valueLine (hg : g.IsPlain) (s : Snapshot) :
    (valueLine g s).toList.head? ≠ some '#' := by
  rw [toList_valueLine, List.append_assoc, List.head?_append_of_ne_nil _ hg.name_ne]
  exact fun h => hg.numberSign (List.mem_of_mem_head? h)

lemma readLine_valueLine (hg : g.IsPlain) (s : Snapshot) (later : PartialReading) :
    readLine (valueLine g s).toList later = some
      { later with values := (s.nodeName, Decimal.twoPlaces (g.value s)) :: later.values } := by
  rw [readLine_of_head?_ne (head?_valueLine hg s), readValue_valueLine hg]
  rfl

lemma readLine_typeLine (g : Gauge) (later : PartialReading) :
    readLine ("# TYPE " ++ g.name ++ " gauge").toList later = some later := by
  simp [readLine]

/-- A help line names the gauge of the values after it. -/
lemma readLine_helpLine (hg : g.IsPlain) (later : PartialReading) :
    readLine ("# HELP " ++ g.name ++ " " ++ g.help).toList later =
      some ⟨[], ⟨g.name, later.values⟩ :: later.gauges⟩ := by
  have hname : ∀ c ∈ g.name.toList, decide (c ≠ ' ') = true := by
    rintro c hc
    refine decide_eq_true ?_
    rintro rfl
    exact hg.blank hc
  have htext : (g.name.toList ++ ' ' :: g.help.toList).takeWhile (fun c => decide (c ≠ ' ')) =
      g.name.toList := by
    rw [List.takeWhile_append_of_pos hname]
    simp
  have hline : ("# HELP " ++ g.name ++ " " ++ g.help).toList =
      '#' :: ' ' :: 'H' :: 'E' :: 'L' :: 'P' :: ' ' ::
        (g.name.toList ++ ' ' :: g.help.toList) := by
    simp
  rw [hline, readLine, htext, String.ofList_toList]

/-! ## Records -/

/-- The lines of a record in characters, without the empty one that ends it. -/
def bodyLines (snapshots : List Snapshot) : List (List Char) :=
  (gauges.flatMap fun g => gaugeLines g snapshots).map String.toList

lemma readLines_append (lines lines' : List (List Char)) (later : PartialReading) :
    readLines (lines ++ lines') later = (readLines lines' later).bind (readLines lines) := by
  induction lines with
  | nil => simp [readLines]
  | cons line lines ih => simp only [List.cons_append, readLines, ih, Option.bind_assoc]

/-- Value lines put their values in front of those that wait. -/
lemma readLines_valueLines (hg : g.IsPlain) (snapshots : List Snapshot) (later : PartialReading) :
    readLines ((snapshots.map (valueLine g)).map String.toList) later =
      some { later with values := printed g snapshots ++ later.values } := by
  induction snapshots with
  | nil => rfl
  | cons s snapshots ih =>
    rw [List.map_cons, List.map_cons, readLines, ih, Option.bind_some, readLine_valueLine hg]
    rfl

/-- The lines of a gauge put its reading in front of those of the gauges after it. -/
lemma readLines_gaugeLines (hg : g.IsPlain) (snapshots : List Snapshot)
    (later : List GaugeReading) :
    readLines ((gaugeLines g snapshots).map String.toList) ⟨[], later⟩ =
      some ⟨[], ⟨g.name, printed g snapshots⟩ :: later⟩ := by
  simp only [gaugeLines, List.map_cons, readLines, readLines_valueLines hg, Option.bind_some,
    readLine_typeLine, readLine_helpLine hg, List.append_nil]

/-- A record is read back from its lines. -/
lemma readRecord_bodyLines (snapshots : List Snapshot) :
    readRecord (bodyLines snapshots) = some (readings snapshots) := by
  have hlines : ∀ gs : List Gauge, (∀ g ∈ gs, g.IsPlain) →
      readLines ((gs.flatMap fun g => gaugeLines g snapshots).map String.toList) ⟨[], []⟩ =
        some ⟨[], gs.map fun g => ⟨g.name, printed g snapshots⟩⟩ := by
    intro gs hgs
    induction gs with
    | nil => rfl
    | cons g gs ih =>
      obtain ⟨hg, hrest⟩ := List.forall_mem_cons.mp hgs
      rw [List.flatMap_cons, List.map_append, readLines_append, ih hrest, Option.bind_some,
        readLines_gaugeLines hg]
      rfl
  unfold readRecord bodyLines
  rw [hlines gauges isPlain_of_mem_gauges]
  rfl

/-- The lines of a gauge are not empty and hold no line feed. -/
lemma lineFeed_notMem_gaugeLines (hg : g.IsPlain) (snapshots : List Snapshot) :
    ∀ line ∈ gaugeLines g snapshots, line.toList ≠ [] ∧ '\n' ∉ line.toList := by
  simp only [gaugeLines, List.forall_mem_cons, List.forall_mem_map]
  refine ⟨⟨by simp, ?_⟩, ⟨by simp, ?_⟩, fun s _ => ⟨?_, ?_⟩⟩
  · simp [hg.lineFeed, hg.help]
  · simp [hg.lineFeed]
  · simp [toList_valueLine]
  · simp [toList_valueLine, hg.lineFeed, lineFeed_notMem_escapeLabel,
      Decimal.lineFeed_notMem_twoPlaces]

lemma lineFeed_notMem_bodyLines (snapshots : List Snapshot) :
    ∀ line ∈ bodyLines snapshots, line ≠ [] ∧ '\n' ∉ line := by
  simp only [bodyLines, List.forall_mem_map, List.mem_flatMap]
  rintro line ⟨g, hg, hline⟩
  exact lineFeed_notMem_gaugeLines (isPlain_of_mem_gauges g hg) snapshots line hline

/-- A gauge has two lines, and one for each snapshot. -/
lemma length_gaugeLines (g : Gauge) (snapshots : List Snapshot) :
    (gaugeLines g snapshots).length = 2 + snapshots.length := by
  rw [gaugeLines, List.length_cons, List.length_cons, List.length_map]
  omega

/-- A record of `n` snapshots has `6 * (2 + n)` lines before the empty one. -/
lemma length_bodyLines (snapshots : List Snapshot) :
    (bodyLines snapshots).length = 6 * (2 + snapshots.length) := by
  have hgauges : gauges.length = 6 := rfl
  simp only [bodyLines, List.length_map, List.length_flatMap, length_gaugeLines, List.map_const',
    List.sum_replicate, hgauges, smul_eq_mul]

/-- The text of a record is its lines and an empty one. -/
lemma toList_render {snapshots : List Snapshot} (hne : snapshots ≠ []) :
    (render snapshots).toList = terminated '\n' (bodyLines snapshots ++ [[]]) := by
  simp [render, recordLines, hne, bodyLines, terminated, List.flatMap_map, List.map_flatMap,
    List.flatMap_assoc]

/-- A stream of records is a text of lines, and its lines are those of the records, with an empty
one after each record. -/
lemma toList_join_render {records : List (List Snapshot)} (hne : ∀ r ∈ records, r ≠ []) :
    (String.join (records.map render)).toList =
      terminated '\n' (terminated [] (records.map bodyLines)) := by
  rw [String.toList_join]
  induction records with
  | nil => rfl
  | cons r records ih =>
    obtain ⟨hr, hrest⟩ := List.forall_mem_cons.mp hne
    have hsplit : terminated [] ((r :: records).map bodyLines) =
        (bodyLines r ++ [[]]) ++ terminated [] (records.map bodyLines) := by simp
    rw [List.map_cons, List.flatMap_cons, ih hrest, toList_render hr, hsplit,
      terminated_append '\n' (bodyLines r ++ [[]])]

/-- A stream of records is read back, record by record. -/
lemma readRecords_join_render {records : List (List Snapshot)} (hne : ∀ r ∈ records, r ≠ []) :
    readRecords (String.join (records.map render)) = some (records.map readings) := by
  have hlines : ∀ line ∈ terminated [] (records.map bodyLines), '\n' ∉ line := by
    simp only [terminated, List.mem_flatMap, List.mem_append, List.mem_singleton, List.mem_map]
    rintro line ⟨-, ⟨r, -, rfl⟩, hline | rfl⟩
    · exact (lineFeed_notMem_bodyLines r line hline).2
    · exact List.not_mem_nil
  have hgroups : ∀ lines ∈ records.map bodyLines, [] ∉ lines := by
    rintro lines hmem hnil
    obtain ⟨r, -, rfl⟩ := List.mem_map.mp hmem
    exact (lineFeed_notMem_bodyLines r [] hnil).1 rfl
  unfold readRecords
  rw [toList_join_render hne, linesOf_terminated hlines, linesOf_terminated hgroups,
    List.mapM_map]
  clear hne hlines hgroups
  induction records with
  | nil => rfl
  | cons r records ih => simp_all [List.mapM_cons, readRecord_bodyLines]

/-! ## What a record says -/

/-- A value line depends on the name of the node and on the text of the value only. -/
lemma gaugeLines_eq_of_printed_eq {g : Gauge} {snapshots snapshots' : List Snapshot}
    (h : printed g snapshots = printed g snapshots') :
    gaugeLines g snapshots = gaugeLines g snapshots' := by
  have hlines : ∀ ss : List Snapshot, ss.map (valueLine g) = (printed g ss).map fun v =>
      g.name ++ "\x7bnode=\"" ++ String.ofList (escapeLabel v.1.toList) ++ "\"\x7d " ++ v.2 := by
    intro ss
    rw [printed, List.map_map]
    rfl
  rw [gaugeLines, gaugeLines, hlines, hlines, h]

/-- A record is read back from its text. -/
lemma readRecords_render {snapshots : List Snapshot} (hne : snapshots ≠ []) :
    readRecords (render snapshots) = some [readings snapshots] := by
  have h := readRecords_join_render (List.forall_mem_singleton.mpr hne)
  rwa [List.map_singleton, String.join_cons, String.join_nil, String.append_empty] at h

/-- Two texts of snapshots are the same exactly if the names and the printed values are. -/
lemma render_eq_iff {snapshots snapshots' : List Snapshot} :
    render snapshots = render snapshots' ↔ readings snapshots = readings snapshots' := by
  constructor
  · intro h
    have hread : readRecords (render []) = some [] := rfl
    rcases eq_or_ne snapshots [] with rfl | hne <;> rcases eq_or_ne snapshots' [] with rfl | hne'
    · rfl
    · rw [h, readRecords_render hne'] at hread
      cases hread
    · rw [← h, readRecords_render hne] at hread
      cases hread
    · have hreads := congrArg readRecords h
      rw [readRecords_render hne, readRecords_render hne'] at hreads
      exact (List.cons.inj (Option.some.inj hreads)).1
  · intro h
    have hprinted : ∀ g ∈ gauges, printed g snapshots = printed g snapshots' := fun g hg =>
      (GaugeReading.mk.inj (List.map_inj_left.mp h g hg)).2
    have hlines : gauges.flatMap (gaugeLines · snapshots) =
        gauges.flatMap (gaugeLines · snapshots') :=
      List.flatMap_congr fun g hg => gaugeLines_eq_of_printed_eq (hprinted g hg)
    have hempty : snapshots.isEmpty = snapshots'.isEmpty := by
      simpa [printed] using congrArg List.isEmpty (hprinted _ List.mem_cons_self)
    rw [render, render, recordLines, recordLines, hempty, hlines]

/-- Two streams of records with one text have the same texts of records. -/
lemma map_render_eq_of_join_eq {records records' : List (List Snapshot)}
    (hne : ∀ r ∈ records, r ≠ []) (hne' : ∀ r ∈ records', r ≠ [])
    (h : String.join (records'.map render) = String.join (records.map render)) :
    records'.map render = records.map render := by
  have hreadings : records'.map readings = records.map readings := by
    have hreads := congrArg readRecords h
    rw [readRecords_join_render hne, readRecords_join_render hne'] at hreads
    exact Option.some.inj hreads
  have hfactors : Function.FactorsThrough render readings := fun _ _ => render_eq_iff.mpr
  obtain ⟨write, hwrite⟩ := (Function.factorsThrough_iff render).mp hfactors
  rw [hwrite, ← List.map_map, ← List.map_map, hreadings]

end Exposition

end NodeTelemetry
