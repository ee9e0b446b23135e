import Mathlib
import NodeTelemetry.Proofs.RecordStream
import NodeTelemetry.Proofs.RecordReading
import NodeTelemetry.Proofs.ExportRun

/-!
# Boundaries of records at a sink

The bytes of a record are lines that end with a line feed.  All records have one first line, and no
other line ends with it: the lines of types and the later lines of help are known, and the other
lines end with a value (`Exposition.framing`).  So the theory of streams of records applies to what
a sink takes.  A sink that fails after a part of a record keeps that part, and the exporter does not
go on with it at the next tick.  What the sink has is thus a stream of whole records as long as no
export is cut (`Exporter.isComplete_exportAll_iff`), and it is no stream of records any more once a
record is put out after a cut one (`Exporter.not_isStream_of_isCut`).
-/

namespace NodeTelemetry

/-! ## Bytes of a text -/

lemma byteArray_toList_loop (b : ByteArray) (i : ℕ) (r : List UInt8) :
    ByteArray.toList.loop b i r = r.reverse ++ b.data.toList.drop i := by
  fun_induction ByteArray.toList.loop b i r with
  | case1 i r hlt ih =>
    have hlt : i < b.data.toList.length := hlt
    have hget : b.get! i = b.data.toList[i] := getElem!_pos b.data i hlt
    rw [ih, List.drop_eq_getElem_cons hlt, hget, List.reverse_cons, List.append_assoc,
      List.singleton_append]
  | case2 i r hge =>
    have hlength : b.data.toList.length ≤ i := not_lt.mp hge
    rw [List.drop_of_length_le hlength, List.append_nil]

/-- The bytes of a text are those of its characters. -/
lemma toList_toUTF8 (text : String) :
    text.toUTF8.toList = text.toList.flatMap String.utf8EncodeChar := by
  rw [String.toUTF8_eq_toByteArray, ← String.utf8Encode_toList, ByteArray.toList,
    byteArray_toList_loop, List.utf8Encode, List.toList_data_toByteArray]
  rfl

/-- A byte below 128 stands for the character with its number. -/
lemma toNat_eq_of_mem_utf8EncodeChar {c : Char} {b : UInt8} (hb : b ∈ String.utf8EncodeChar c)
    (hlt : b.toNat < 128) : c.toNat = b.toNat := by
  have hsize := c.val.toNat_lt
  have hvalue : c.toNat = c.val.toNat := rfl
  unfold String.utf8EncodeChar at hb
  dsimp only at hb
  split_ifs at hb
  · obtain rfl := List.mem_singleton.mp hb
    rw [UInt8.toNat_ofNat']
    omega
  all_goals
    simp only [List.mem_cons, List.not_mem_nil, or_false] at hb
    rcases hb with rfl | rfl | rfl | rfl <;> (rw [UInt8.toNat_ofNat'] at hlt; omega)

/-! ## Lines of a record in bytes -/

/-- The bytes of some characters. -/
def encoded (text : List Char) : List UInt8 := text.flatMap String.utf8EncodeChar

lemma encoded_append (text text' : List Char) :
    encoded (text ++ text') = encoded text ++ encoded text' := List.flatMap_append

lemma encoded_cons (c : Char) (text : List Char) :
    encoded (c :: text) = String.utf8EncodeChar c ++ encoded text := List.flatMap_cons

/-- The bytes of a line feed. -/
def lineFeed : UInt8 := 10

lemma lineFeed_notMem_encoded {line : List Char} (h : '\n' ∉ line) : lineFeed ∉ encoded line := by
  intro hmem
  obtain ⟨c, hc, hbyte⟩ := List.mem_flatMap.mp hmem
  have hfeed : c.toNat = '\n'.toNat := toNat_eq_of_mem_utf8EncodeChar hbyte (by decide)
  exact h (Char.toNat_inj.mp hfeed ▸ hc)

lemma encoded_ne_nil {line : List Char} (h : line ≠ []) : encoded line ≠ [] := by
  intro hnil
  obtain ⟨c, hc⟩ := List.exists_mem_of_ne_nil line h
  have hchar := List.flatMap_eq_nil_iff.mp hnil c hc
  have hsize := String.length_utf8EncodeChar c
  rw [hchar] at hsize
  exact absurd hsize.symm c.utf8Size_pos.ne'

lemma encoded_terminated (lines : List (List Char)) :
    encoded (terminated '\n' lines) = terminated lineFeed (lines.map encoded) := by
  have hfeed : String.utf8EncodeChar '\n' = [lineFeed] := rfl
  induction lines with
  | nil => rfl
  | cons line lines ih =>
    rw [terminated_cons, List.map_cons, terminated_cons, ← ih, encoded_append, encoded_cons, hfeed]
    rfl

namespace Exposition

/-- The first line of all records: the help of the first gauge. -/
def firstLine : List UInt8 :=
  encoded ("# HELP " ++ "ebpf_rtt_p50_milliseconds" ++ " " ++
    "50th percentile RTT in milliseconds").toList

/-- The other lines of a record, without the empty one at its end. -/
def laterLines (snapshots : List Snapshot) : List (List UInt8) :=
  (bodyLines snapshots).tail.map encoded

lemma map_encoded_bodyLines (snapshots : List Snapshot) :
    (bodyLines snapshots).map encoded = firstLine :: laterLines snapshots := by
  unfold laterLines bodyLines firstLine
  rfl

/-- The bytes of a record are its lines and an empty one. -/
lemma toList_toUTF8_render {snapshots : List Snapshot} (hne : snapshots ≠ []) :
    (render snapshots).toUTF8.toList =
      terminated lineFeed (framedLines firstLine (laterLines snapshots)) := by
  have hencoded : (render snapshots).toUTF8.toList = encoded (render snapshots).toList :=
    toList_toUTF8 _
  have hnil : encoded [] = [] := rfl
  rw [hencoded, toList_render hne, encoded_terminated, List.map_append, map_encoded_bodyLines,
    List.map_singleton, hnil, List.cons_append, ← framedLines]

/-- A value line does not end as the first line does, since no value ends with the letter s. -/
lemma not_firstLine_suffix_valueLine (g : Gauge) (s : Snapshot) :
    ¬ firstLine <:+ encoded (valueLine g s).toList := by
  rintro ⟨front, hfront⟩
  have hlast := congrArg List.getLast? hfront
  have hfirst : firstLine.getLast? = some 115 := by decide +kernel
  have hvalue : encoded (Decimal.twoPlaces (g.value s)).toList ≠ [] :=
    encoded_ne_nil (Decimal.toList_twoPlaces_ne_nil _)
  have hline : encoded (valueLine g s).toList =
      encoded (g.name.toList ++ ['\x7b', 'n', 'o', 'd', 'e', '='] ++ '"' ::
        (escapeLabel s.nodeName.toList ++ ['"', '\x7d', ' '])) ++
      encoded (Decimal.twoPlaces (g.value s)).toList := by
    rw [toList_valueLine, ← encoded_append]
    simp
  rw [hline, List.getLast?_append_of_ne_nil _ hvalue,
    List.getLast?_append_of_ne_nil _ (by decide), hfirst] at hlast
  obtain ⟨c, hc, hbyte⟩ := List.mem_flatMap.mp (List.mem_of_getLast? hlast.symm)
  have hletter : c.toNat = 's'.toNat := toNat_eq_of_mem_utf8EncodeChar hbyte (by decide)
  obtain rfl := Char.toNat_inj.mp hletter
  exact absurd (Decimal.isValueChar_of_mem_twoPlaces _ hc) (by decide)

/-- After its help, no line of a gauge ends as the first line does. -/
lemma not_firstLine_suffix_of_mem_tail {g : Gauge} (hg : g ∈ gauges) (snapshots : List Snapshot) :
    ∀ line ∈ (gaugeLines g snapshots).tail, ¬ firstLine <:+ encoded line.toList := by
  have htypes : ∀ g ∈ gauges,
      ¬ firstLine <:+ encoded ("# TYPE " ++ g.name ++ " gauge").toList := by decide +kernel
  rw [gaugeLines, List.tail_cons, List.forall_mem_cons, List.forall_mem_map]
  exact ⟨htypes g hg, fun s _ => not_firstLine_suffix_valueLine g s⟩

/-- Nor does the help of a later gauge. -/
lemma not_firstLine_suffix_laterLines (snapshots : List Snapshot) :
    ∀ line ∈ laterLines snapshots, ¬ firstLine <:+ line := by
  have hhelps : ∀ g ∈ gauges.tail,
      ¬ firstLine <:+ encoded ("# HELP " ++ g.name ++ " " ++ g.help).toList := by decide +kernel
  have hsplit : (gauges.flatMap fun g => gaugeLines g snapshots).tail =
      (gaugeLines (gauges.head (List.cons_ne_nil _ _)) snapshots).tail ++
        gauges.tail.flatMap fun g => gaugeLines g snapshots := rfl
  rw [laterLines, bodyLines, ← List.map_tail, hsplit, List.map_map, List.forall_mem_map,
    List.forall_mem_append]
  refine ⟨not_firstLine_suffix_of_mem_tail List.mem_cons_self snapshots, ?_⟩
  intro line hline
  obtain ⟨g, hg, hmem⟩ := List.mem_flatMap.mp hline
  rcases List.mem_cons.mp hmem with rfl | htail
  · exact hhelps g hg
  · exact not_firstLine_suffix_of_mem_tail (List.mem_of_mem_tail hg) snapshots line htail

/-- The bytes of a record of some snapshots. -/
def IsRecord (bytes : List UInt8) : Prop :=
  ∃ snapshots, snapshots ≠ [] ∧ bytes = (render snapshots).toUTF8.toList

/-- Records start with their first line and end with an empty line. -/
lemma framing : Framing lineFeed firstLine IsRecord where
  first_ne := by decide +kernel
  stop_notMem := by decide +kernel
  exists_middle := by
    rintro _ ⟨snapshots, hne, rfl⟩
    have hlater : ∀ line ∈ (bodyLines snapshots).tail, line ≠ [] ∧ '\n' ∉ line := fun line hline =>
      lineFeed_notMem_bodyLines snapshots line (List.mem_of_mem_tail hline)
    exact ⟨laterLines snapshots,
      ⟨List.forall_mem_map.mpr fun line hline => lineFeed_notMem_encoded (hlater line hline).2,
        List.forall_mem_map.mpr fun line hline => encoded_ne_nil (hlater line hline).1,
        not_firstLine_suffix_laterLines snapshots⟩, toList_toUTF8_render hne⟩

end Exposition

/-! ## Exports -/

/-- An export is cut if the sink took a part of its record only. -/
def ExportStep.IsCut (e : ExportStep) : Prop := e.taken ≠ [] ∧ e.taken ≠ e.record

instance (e : ExportStep) : Decidable e.IsCut :=
  inferInstanceAs (Decidable (e.taken ≠ [] ∧ e.taken ≠ e.record))

namespace ExportStep

variable {writes : List WriteReply} {flushes : List (Option String)} {e : ExportStep}

/-- An export is cut exactly if a write fails after the sink took a part. -/
lemma Accounted.isCut_iff (h : e.Accounted writes flushes) :
    e.IsCut ↔ e.taken ≠ [] ∧ e.writeFailure? writes ≠ none := by
  rw [IsCut, ne_eq (e.taken) e.record, h.taken_iff]

/-- The bytes of an export with snapshots are a record. -/
lemma isRecord_record (hne : e.snapshots ≠ []) : Exposition.IsRecord e.record :=
  ⟨e.snapshots, hne, rfl⟩

/-- What the sink takes during an export is the front of a record, if it takes anything. -/
lemma Accounted.isRecord (h : e.Accounted writes flushes) (hne : e.taken ≠ []) :
    Exposition.IsRecord e.record := by
  refine isRecord_record fun hnil => hne ?_
  rw [ExportStep.taken, (h.idle hnil).2, List.drop_length]

/-- The record of an export with snapshots is not empty. -/
lemma record_ne_nil (hne : e.snapshots ≠ []) : e.record ≠ [] := by
  intro hnil
  have hfirst := Exposition.framing.first_prefix_of_record (isRecord_record hne)
  rw [hnil, List.prefix_nil] at hfirst
  exact absurd hfirst (List.append_ne_nil_of_right_ne_nil _ (List.cons_ne_nil _ _))

/-- An export that puts out a record is not cut. -/
lemma Accounted.taken_eq_of_exported (h : e.Accounted writes flushes) (hexported : e.exported) :
    e.taken = e.record := ((h.result_ok_iff hexported.1).mp hexported.2).1

/-- What the sink takes during some exports, with their records. -/
def pieces (exports : List ExportStep) : List (List UInt8 × List UInt8) :=
  exports.map fun e => (e.taken, e.record)

lemma flatMap_fst_pieces (exports : List ExportStep) :
    (pieces exports).flatMap Prod.fst = exports.flatMap ExportStep.taken := by
  rw [pieces, List.flatMap_map]

lemma arePieces_pieces {exports : List ExportStep}
    (h : ∀ e ∈ exports, e.Accounted writes flushes) :
    ArePieces Exposition.IsRecord (pieces exports) :=
  List.forall_mem_map.mpr fun e he => ⟨(h e he).accepted.2, (h e he).isRecord⟩

lemma areWhole_pieces_iff {exports : List ExportStep} :
    AreWhole (pieces exports) ↔ ∀ e ∈ exports, ¬ e.IsCut := by
  rw [AreWhole, pieces, List.forall_mem_map]
  refine forall₂_congr fun e _ => ?_
  rw [IsCut, not_and, not_not]

end ExportStep

namespace Exporter

variable {writes : List WriteReply} {flushes : List (Option String)}

/-- What the sink has after a run is pieces of records, one for each export. -/
lemma accepted_eq_pieces (writes : List WriteReply) (flushes : List (Option String))
    (ticks : List (List Snapshot)) :
    let x := ofSink (.ofReplies writes flushes)
    let pieces := ExportStep.pieces (x.history ticks)
    ArePieces Exposition.IsRecord pieces ∧
      (x.exportAll ticks).sink.accepted = pieces.flatMap Prod.fst := by
  intro x pieces
  have hfollows := follows_ofReplies writes flushes
  refine ⟨ExportStep.arePieces_pieces fun e he => (hfollows.history ticks e he).accounted, ?_⟩
  rw [ExportStep.flatMap_fst_pieces]
  exact hfollows.accepted_exportAll ticks

/-- After a run the sink has whole records exactly if no export of the run was cut. -/
lemma isComplete_exportAll_iff (writes : List WriteReply) (flushes : List (Option String))
    (ticks : List (List Snapshot)) :
    let x := ofSink (.ofReplies writes flushes)
    IsComplete Exposition.IsRecord (x.exportAll ticks).sink.accepted ↔
      ∀ e ∈ x.history ticks, ¬ e.IsCut := by
  intro x
  obtain ⟨hpieces, haccepted⟩ := accepted_eq_pieces writes flushes ticks
  rw [haccepted, ← ExportStep.areWhole_pieces_iff]
  exact ⟨Exposition.framing.areWhole_of_isComplete hpieces, hpieces.isComplete⟩

/-- These are the pieces before some export, the one of that export, and those after it. -/
lemma accepted_eq_pieces_cons (writes : List WriteReply) (flushes : List (Option String))
    (earlier : List (List Snapshot)) (snapshots : List Snapshot) (later : List (List Snapshot)) :
    let x := ofSink (.ofReplies writes flushes)
    let e : ExportStep := ⟨x.exportAll earlier, snapshots⟩
    let pieces := ExportStep.pieces (x.history earlier) ++
      (e.taken, e.record) :: ExportStep.pieces (e.after.history later)
    ArePieces Exposition.IsRecord pieces ∧
      (e.after.exportAll later).sink.accepted = pieces.flatMap Prod.fst := by
  intro x e pieces
  have hpieces : ExportStep.pieces (x.history (earlier ++ snapshots :: later)) = pieces := by
    rw [history_append]
    exact List.map_append
  have hrun : x.exportAll (earlier ++ snapshots :: later) = e.after.exportAll later :=
    exportAll_append x earlier _
  rw [← hpieces, ← hrun]
  exact accepted_eq_pieces writes flushes (earlier ++ snapshots :: later)

/-- If no export before some export was cut and the sink took nothing after it, the sink has whole
records and one that may be incomplete. -/
lemma isStream_of_not_isCut (earlier : List (List Snapshot)) (snapshots : List Snapshot)
    (later : List (List Snapshot)) :
    let x := ofSink (.ofReplies writes flushes)
    let e : ExportStep := ⟨x.exportAll earlier, snapshots⟩
    (∀ e' ∈ x.history earlier, ¬ e'.IsCut) → (∀ e' ∈ e.after.history later, e'.taken = []) →
      IsStream Exposition.IsRecord (e.after.exportAll later).sink.accepted := by
  intro x e hwhole hnothing
  obtain ⟨hpieces, haccepted⟩ := accepted_eq_pieces_cons writes flushes earlier snapshots later
  have hrecord : Exposition.IsRecord
      (Exposition.render [⟨0, "", 0, 0, 0, 0, 0, 0⟩]).toUTF8.toList :=
    ⟨_, List.cons_ne_nil _ _, rfl⟩
  rw [haccepted]
  refine hpieces.isStream (ExportStep.areWhole_pieces_iff.mpr hwhole) ?_ hrecord
  exact List.forall_mem_map.mpr hnothing

/-- If an export was cut and the sink took the whole record of a later one, it has more than whole
records and an incomplete one at the end. -/
lemma not_isStream_of_isCut {earlier : List (List Snapshot)} {snapshots : List Snapshot}
    (later : List (List Snapshot)) :
    let x := ofSink (.ofReplies writes flushes)
    let e : ExportStep := ⟨x.exportAll earlier, snapshots⟩
    (∃ e' ∈ x.history earlier, e'.IsCut) → snapshots ≠ [] → e.taken = e.record →
      ¬ IsStream Exposition.IsRecord (e.after.exportAll later).sink.accepted := by
  rintro x e ⟨e', he', hcut⟩ hsnapshots hwhole hstream
  obtain ⟨hpieces, haccepted⟩ := accepted_eq_pieces_cons writes flushes earlier snapshots later
  have hne : e.taken ≠ [] := hwhole ▸ ExportStep.record_ne_nil hsnapshots
  rw [haccepted] at hstream
  exact ExportStep.areWhole_pieces_iff.mp
    (Exposition.framing.areWhole_of_isStream hpieces hne hwhole hstream) e' he' hcut

/-- **When records run into each other.**  An export starts at the end of a record exactly if no
export before it was cut, that is, if no write failed after a part of a record.  If none was cut but
the last one during which the sink took anything, the sink has whole records and an incomplete one
at most at the end.  Once it took a whole record after a cut one, as it does when an export
succeeds, this is lost. -/
theorem isComplete_before_iff_and_isStream (writes : List WriteReply)
    (flushes : List (Option String)) (earlier : List (List Snapshot)) (snapshots : List Snapshot)
    (later : List (List Snapshot)) :
    let x := ofSink (.ofReplies writes flushes)
    let e : ExportStep := ⟨x.exportAll earlier, snapshots⟩
    let accepted := (x.exportAll (earlier ++ snapshots :: later)).sink.accepted
    (IsComplete Exposition.IsRecord e.before.sink.accepted ↔
      ∀ e' ∈ x.history earlier, ¬ e'.IsCut) ∧
    (∀ e' ∈ x.history earlier,
      (e'.IsCut ↔ e'.taken ≠ [] ∧ e'.writeFailure? writes ≠ none)) ∧
    ((∀ e' ∈ x.history earlier, ¬ e'.IsCut) → (∀ e' ∈ e.after.history later, e'.taken = []) →
      IsStream Exposition.IsRecord accepted) ∧
    ((∃ e' ∈ x.history earlier, e'.IsCut) → snapshots ≠ [] → e.taken = e.record →
      ¬ IsStream Exposition.IsRecord accepted) ∧
    (e.exported → e.taken = e.record) := by
  intro x e accepted
  have hfollows := follows_ofReplies writes flushes
  have hrun : accepted = (e.after.exportAll later).sink.accepted :=
    congrArg (fun y : Exporter => y.sink.accepted) (exportAll_append x earlier _)
  have haccounted : e.Accounted writes flushes := (hfollows.exportAll earlier).accounted
  rw [hrun]
  refine ⟨isComplete_exportAll_iff writes flushes earlier, fun e' he' => ?_,
    isStream_of_not_isCut earlier snapshots later, not_isStream_of_isCut later,
    haccounted.taken_eq_of_exported⟩
  exact (hfollows.history earlier e' he').accounted.isCut_iff

/-- A write fails before the sink took anything, and the record is written in parts and put out at
the next tick: it starts at the end of a record. -/
theorem isComplete_before_of_failure_before_part :
    let a : List Snapshot := [⟨0, "a", 0, 0, 0, 0, 0, 0⟩]
    let writes : List WriteReply := [.all, .failed "disk full", .part 10, .interrupted]
    let x := ofSink (.ofReplies writes [])
    let e : ExportStep := ⟨x.exportAll [a, a], a⟩
    (x.history [a, a]).map ExportStep.result = [.ok (), .error (.writing "disk full")] ∧
    (∀ e' ∈ x.history [a, a], ¬ e'.IsCut) ∧
    IsComplete Exposition.IsRecord e.before.sink.accepted ∧ e.exported ∧
    IsStream Exposition.IsRecord (x.exportAll [a, a, a]).sink.accepted := by
  intro a writes x e
  have hticks : [a, a] ++ a :: [] = [a, a, a] := rfl
  have hboundaries := isComplete_before_iff_and_isStream writes [] [a, a] a []
  rw [hticks] at hboundaries
  obtain ⟨hcomplete, hcut_iff, hstream, -⟩ := hboundaries
  have hnone : ∀ e' ∈ x.history [a, a], e'.taken = [] ∨ e'.writeFailure? writes = none := by
    decide +kernel
  have hcut : ∀ e' ∈ x.history [a, a], ¬ e'.IsCut := by
    intro e' he' hcut
    obtain ⟨hpart, hfailure⟩ := (hcut_iff e' he').mp hcut
    exact (hnone e' he').elim hpart hfailure
  exact ⟨by decide +kernel, hcut, hcomplete.mpr hcut, by decide +kernel,
    hstream hcut fun e' he' => absurd he' List.not_mem_nil⟩

/-- The sink takes ten bytes of a record and fails; the next export succeeds, and its record starts
within the other one. -/
theorem not_isComplete_of_failure_after_part :
    let a : List Snapshot := [⟨0, "a", 0, 0, 0, 0, 0, 0⟩]
    let b : List Snapshot := [⟨0, "b", 0, 0, 0, 0, 0, 0⟩]
    let x := ofSink (.ofReplies [.part 10, .failed "disk full"] [])
    (x.history [a, b]).map ExportStep.result = [.error (.writing "disk full"), .ok ()] ∧
    ¬ IsComplete Exposition.IsRecord (x.exportAll [a]).sink.accepted ∧
    ¬ IsStream Exposition.IsRecord (x.exportAll [a, b]).sink.accepted := by
  intro a b x
  have hcut : ∃ e' ∈ x.history [a], e'.IsCut := ⟨⟨x, a⟩, List.mem_cons_self, by decide +kernel⟩
  have hfollows := (follows_ofReplies [.part 10, .failed "disk full"] []).exportAll [a]
  have haccounted : (ExportStep.mk (x.exportAll [a]) b).Accounted _ _ := hfollows.accounted
  have hwhole := haccounted.taken_eq_of_exported (by decide +kernel)
  refine ⟨by decide +kernel, fun hcomplete => ?_,
    not_isStream_of_isCut [] hcut (List.cons_ne_nil _ _) hwhole⟩
  obtain ⟨e', he', hcut⟩ := hcut
  exact (isComplete_exportAll_iff _ _ [a]).mp hcomplete e' he' hcut

end Exporter

end NodeTelemetry
