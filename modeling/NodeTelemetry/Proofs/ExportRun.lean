import Mathlib
import NodeTelemetry.Exposition.Sink

/-!
# Runs of an exporter

Writing offers the rest of a record until the sink has all of it or fails, so what the sink takes is
the front of the record, and the whole of it exactly if no answer on the way was a failure
(`Sink.delivers_transfer`).  An export flushes what it wrote as a whole and counts it if that
succeeds too (`Exporter.Follows.accounted`).  Each call gets the next answer of the script, whatever
came of the exports before it (`Exporter.Follows.after`), so this holds of every export of a run,
and the count at the end is the number of records put out (`Exporter.accounted_history`).
-/

namespace NodeTelemetry

/-- The cause of the failure, if an answer ends the writing of what is left. -/
def WriteReply.failure? : WriteReply → Option String
  | .failed cause => some cause
  | .part 0 => some "failed to write whole buffer"
  | _ => none

/-- The answer made of the first failure is an error exactly if there is one. -/
lemma elim_eq_error_iff {failure : Option String} {cause : String} :
    failure.elim (.ok ()) .error = (.error cause : Except String Unit) ↔ failure = some cause := by
  cases failure <;> simp

lemma elim_eq_ok_iff {failure : Option String} :
    failure.elim (.ok ()) .error = (.ok () : Except String Unit) ↔ failure = none := by
  cases failure <;> simp

/-! ## Writing -/

namespace Sink

/-- What came of writing bytes: the sink took the front of them, and all of them exactly if none of
the answers used is a failure. -/
structure Delivers (bytes : List UInt8) (replies : List WriteReply) (t : Transfer) : Prop where
  taken : t.taken <+: bytes
  taken_iff : t.taken = bytes ↔ t.result = .ok ()
  result : t.result = ((replies.take t.offers).findSome? WriteReply.failure?).elim (.ok ()) .error
  replies_eq : t.replies = replies.drop t.offers
  offers_le : t.offers ≤ replies.length + 1

/-- An answer that is no failure takes the front of the bytes, and the rest is written after it. -/
lemma Delivers.cons {bytes : List UInt8} {reply : WriteReply} {replies : List WriteReply}
    {t : Transfer} (h : Delivers bytes replies t) (front : List UInt8)
    (hreply : reply.failure? = none) :
    Delivers (front ++ bytes) (reply :: replies)
      { t with taken := front ++ t.taken, offers := t.offers + 1 } where
  taken := (List.prefix_append_right_inj front).mpr h.taken
  taken_iff := by rw [List.append_right_inj, h.taken_iff]
  result := by rw [List.take_succ_cons, List.findSome?_cons, hreply, h.result]
  replies_eq := by rw [List.drop_succ_cons, h.replies_eq]
  offers_le := Nat.succ_le_succ h.offers_le

/-- Writing delivers the bytes, whatever the answers are. -/
lemma delivers_transfer (bytes : List UInt8) (replies : List WriteReply) :
    Delivers bytes replies (transfer bytes replies) := by
  -- nothing to write, no answer left, and the answers: all, failed, interrupted, nothing, a part
  fun_induction transfer bytes replies with
  | case1 replies => exact ⟨List.nil_prefix, by simp, by simp, by simp, by simp⟩
  | case2 bytes hne => exact ⟨List.prefix_rfl, by simp, by simp, by simp, by simp⟩
  | case3 bytes replies hne =>
    exact ⟨List.prefix_rfl, by simp, by simp [WriteReply.failure?], by simp, by simp⟩
  | case4 bytes cause replies hne =>
    exact ⟨List.nil_prefix, by simpa [eq_comm] using hne, by simp [WriteReply.failure?], by simp,
      by simp⟩
  | case5 bytes replies hne t ih =>
    have hpass : WriteReply.interrupted.failure? = none := rfl
    exact ih.cons [] hpass
  | case6 bytes replies hne =>
    exact ⟨List.nil_prefix, by simpa [eq_comm] using hne, by simp [WriteReply.failure?], by simp,
      by simp⟩
  | case7 bytes limit replies hne hlimit t ih =>
    have hpass : (WriteReply.part limit).failure? = none := by
      cases limit with
      | zero => exact absurd rfl hlimit
      | succ n => rfl
    have h := ih.cons (bytes.take limit) hpass
    rwa [List.take_append_drop] at h

end Sink

/-! ## One export -/

/-- An export of a run: the exporter before it, and the snapshots of its tick. -/
structure ExportStep where
  before : Exporter
  snapshots : List Snapshot

namespace ExportStep

/-- What the export answers. -/
def result (e : ExportStep) : Except AgentError Unit := (e.before.exportRecord e.snapshots).1

/-- The exporter after the export. -/
def after (e : ExportStep) : Exporter := (e.before.exportRecord e.snapshots).2

/-- The bytes of the record. -/
def record (e : ExportStep) : List UInt8 := (Exposition.render e.snapshots).toUTF8.toList

/-- The bytes that the sink takes during the export. -/
def taken (e : ExportStep) : List UInt8 :=
  e.after.sink.accepted.drop e.before.sink.accepted.length

/-- The cause of the first failure among the answers to the writes of the export, given the answers
to all writes. -/
def writeFailure? (writes : List WriteReply) (e : ExportStep) : Option String :=
  ((writes.drop e.before.sink.writes).take (e.after.sink.writes - e.before.sink.writes)).findSome?
    WriteReply.failure?

/-- The cause of the failure, if the next flush fails, given the answers to all flushes. -/
def flushFailure? (flushes : List (Option String)) (e : ExportStep) : Option String :=
  flushes[e.before.sink.flushes]?.join

/-- The export puts out a record. -/
def exported (e : ExportStep) : Prop := e.snapshots ≠ [] ∧ e.result = .ok ()

instance (e : ExportStep) : Decidable e.exported :=
  inferInstanceAs (Decidable (e.snapshots ≠ [] ∧ e.result = .ok ()))

/-- What an export does, given the answers to all writes and flushes of its run. -/
structure Accounted (writes : List WriteReply) (flushes : List (Option String)) (e : ExportStep) :
    Prop where
  /-- Without snapshots it succeeds and the sink is not called. -/
  idle : e.snapshots = [] → e.result = .ok () ∧ e.after = e.before
  /-- The sink keeps what it took before and takes the front of the record. -/
  accepted : e.after.sink.accepted = e.before.sink.accepted ++ e.taken ∧ e.taken <+: e.record
  /-- It takes all of it exactly if no answer to a write is a failure. -/
  taken_iff : e.taken = e.record ↔ e.writeFailure? writes = none
  /-- There is one write at most after the last answer of the script. -/
  writes_le : e.after.sink.writes ≤
    e.before.sink.writes + (writes.length - e.before.sink.writes) + 1
  /-- There is one flush if the sink took the whole record, and none otherwise. -/
  flushes_eq : e.after.sink.flushes =
    e.before.sink.flushes + if e.snapshots ≠ [] ∧ e.taken = e.record then 1 else 0
  /-- It succeeds exactly if the sink took the whole record and the flush succeeds. -/
  result_ok_iff : e.snapshots ≠ [] →
    (e.result = .ok () ↔ e.taken = e.record ∧ e.flushFailure? flushes = none)
  /-- Else it reports the cause of the failure. -/
  result_error : e.result ≠ .ok () → ∃ cause, e.result = .error (.writing cause) ∧
    (e.writeFailure? writes).or (e.flushFailure? flushes) = some cause
  /-- It counts exactly if it puts out a record. -/
  exports_eq : e.after.exports = e.before.exports + if e.exported then 1 else 0

end ExportStep

namespace Exporter

/-- The next answers of the sink are those of the script after the calls made so far. -/
structure Follows (writes : List WriteReply) (flushes : List (Option String)) (x : Exporter) :
    Prop where
  writeReplies : x.sink.writeReplies = writes.drop x.sink.writes
  flushReplies : x.sink.flushReplies = flushes.drop x.sink.flushes

variable {writes : List WriteReply} {flushes : List (Option String)} {x : Exporter}
  {snapshots : List Snapshot}

/-- What an export of some snapshots can do: the write fails, or the flush after it, or neither. -/
lemma exportRecord_cases (x : Exporter) (hne : snapshots ≠ []) :
    let t := Sink.transfer (Exposition.render snapshots).toUTF8.toList x.sink.writeReplies
    let written : Sink := ⟨t.replies, x.sink.flushReplies, x.sink.accepted ++ t.taken,
      x.sink.writes + t.offers, x.sink.flushes⟩
    let flushed : Sink := { written with
      flushReplies := x.sink.flushReplies.drop 1, flushes := x.sink.flushes + 1 }
    (∃ cause, t.result = .error cause ∧
      x.exportRecord snapshots = (.error (.writing cause), ⟨written, x.exports⟩)) ∨
    (∃ cause, t.result = .ok () ∧ x.sink.flushReplies.head?.join = some cause ∧
      x.exportRecord snapshots = (.error (.writing cause), ⟨flushed, x.exports⟩)) ∨
    (t.result = .ok () ∧ x.sink.flushReplies.head?.join = none ∧
      x.exportRecord snapshots = (.ok (), ⟨flushed, x.exports + 1⟩)) := by
  intro t written flushed
  have hempty : ¬ snapshots.isEmpty := by simpa using hne
  have hwrite : x.sink.writeAll (Exposition.render snapshots).toUTF8.toList =
    (t.result, written) := rfl
  rw [exportRecord, if_neg hempty, hwrite]
  cases hresult : t.result with
  | error cause => exact .inl ⟨cause, rfl, rfl⟩
  | ok =>
    rcases hreplies : x.sink.flushReplies with _ | ⟨_ | cause, replies⟩
    · refine .inr (.inr ⟨rfl, rfl, ?_⟩)
      simp [Sink.flush, written, flushed, hreplies]
    · refine .inr (.inr ⟨rfl, rfl, ?_⟩)
      simp [Sink.flush, written, flushed, hreplies]
    · refine .inr (.inl ⟨cause, rfl, rfl, ?_⟩)
      simp [Sink.flush, written, flushed, hreplies]

/-- An export leaves the answers of the script that its calls did not use. -/
lemma Follows.after (h : Follows writes flushes x) :
    Follows writes flushes (x.exportRecord snapshots).2 := by
  rcases eq_or_ne snapshots [] with rfl | hne
  · exact h
  have hreplies := (Sink.delivers_transfer (Exposition.render snapshots).toUTF8.toList
    x.sink.writeReplies).replies_eq
  rw [h.writeReplies, List.drop_drop, ← h.writeReplies] at hreplies
  have hflush : x.sink.flushReplies.drop 1 = flushes.drop (x.sink.flushes + 1) := by
    rw [h.flushReplies, List.drop_drop]
  rcases x.exportRecord_cases hne with
    ⟨cause, -, heq⟩ | ⟨cause, -, -, heq⟩ | ⟨-, -, heq⟩ <;> rw [heq]
  · exact ⟨hreplies, h.flushReplies⟩
  · exact ⟨hreplies, hflush⟩
  · exact ⟨hreplies, hflush⟩

variable {e : ExportStep}

/-- What an export of some snapshots writes is what writing its record delivers. -/
lemma Follows.writing (h : Follows writes flushes e.before) (hne : e.snapshots ≠ []) :
    let t := Sink.transfer e.record e.before.sink.writeReplies
    e.after.sink.accepted = e.before.sink.accepted ++ t.taken ∧ e.taken = t.taken ∧
      e.after.sink.writes = e.before.sink.writes + t.offers ∧
      t.result = (e.writeFailure? writes).elim (.ok ()) .error := by
  intro t
  have hsink : e.after.sink.accepted = e.before.sink.accepted ++ t.taken ∧
      e.after.sink.writes = e.before.sink.writes + t.offers := by
    rw [ExportStep.after]
    rcases e.before.exportRecord_cases hne with
      ⟨cause, -, heq⟩ | ⟨cause, -, -, heq⟩ | ⟨-, -, heq⟩ <;>
      rw [heq] <;> exact ⟨rfl, rfl⟩
  obtain ⟨haccepted, hwrites⟩ := hsink
  refine ⟨haccepted, ?_, hwrites, ?_⟩
  · rw [ExportStep.taken, haccepted, List.drop_left]
  · rw [ExportStep.writeFailure?, hwrites, Nat.add_sub_cancel_left, ← h.writeReplies]
    exact (Sink.delivers_transfer e.record e.before.sink.writeReplies).result

/-- The first failure of an export of some snapshots is reported; a write that fails is not flushed,
and a record counts if nothing fails. -/
lemma Follows.outcome (h : Follows writes flushes e.before) (hne : e.snapshots ≠ []) :
    e.result = ((e.writeFailure? writes).or (e.flushFailure? flushes)).elim (.ok ())
        (fun cause => .error (.writing cause)) ∧
      e.after.sink.flushes =
        e.before.sink.flushes + (if e.writeFailure? writes = none then 1 else 0) ∧
      e.after.exports = e.before.exports +
        if (e.writeFailure? writes).or (e.flushFailure? flushes) = none then 1 else 0 := by
  obtain ⟨-, -, -, hwrite⟩ := h.writing hne
  have hflush : e.flushFailure? flushes = e.before.sink.flushReplies.head?.join := by
    rw [h.flushReplies, List.head?_drop]
    rfl
  rw [hflush, ExportStep.result, ExportStep.after]
  rcases e.before.exportRecord_cases hne with
    ⟨cause, ht, heq⟩ | ⟨cause, ht, hreply, heq⟩ | ⟨ht, hreply, heq⟩
  · have hfailure : e.writeFailure? writes = some cause :=
      elim_eq_error_iff.mp (hwrite.symm.trans ht)
    rw [heq, hfailure]
    exact ⟨rfl, rfl, (add_zero _).symm⟩
  · have hnone : e.writeFailure? writes = none := elim_eq_ok_iff.mp (hwrite.symm.trans ht)
    rw [heq, hnone, hreply]
    exact ⟨rfl, rfl, (add_zero _).symm⟩
  · have hnone : e.writeFailure? writes = none := elim_eq_ok_iff.mp (hwrite.symm.trans ht)
    rw [heq, hnone, hreply]
    exact ⟨rfl, rfl, rfl⟩

/-- An export without snapshots is accounted for. -/
lemma accounted_nil (x : Exporter) : (ExportStep.mk x []).Accounted writes flushes := by
  have hafter : (ExportStep.mk x []).after = x := rfl
  have hresult : (ExportStep.mk x []).result = .ok () := rfl
  have hrecord : (ExportStep.mk x []).record = [] := by
    change (Exposition.render []).toUTF8.toList = []
    decide +kernel
  have htaken : (ExportStep.mk x []).taken = [] := by
    rw [ExportStep.taken, hafter, List.drop_length]
  refine ⟨fun _ => ⟨rfl, rfl⟩, ?_, ?_, ?_, ?_, fun h => absurd rfl h, fun h => absurd hresult h, ?_⟩
  · simp [hafter, htaken]
  · simp [htaken, hrecord, ExportStep.writeFailure?, hafter]
  · exact Nat.le_succ_of_le (Nat.le_add_right _ _)
  · simp [hafter]
  · simp [hafter, ExportStep.exported]

/-- An export of some snapshots is accounted for. -/
lemma Follows.accounted_of_ne_nil (h : Follows writes flushes e.before) (hne : e.snapshots ≠ []) :
    e.Accounted writes flushes := by
  obtain ⟨haccepted, htaken, hwrites, htransfer⟩ := h.writing hne
  obtain ⟨hresult, hflushes, hexports⟩ := h.outcome hne
  have hdelivers := Sink.delivers_transfer e.record e.before.sink.writeReplies
  have htaken_iff : e.taken = e.record ↔ e.writeFailure? writes = none := by
    rw [htaken, hdelivers.taken_iff, htransfer, elim_eq_ok_iff]
  refine ⟨fun hnil => absurd hnil hne, ?_, htaken_iff, ?_, ?_, fun _ => ?_, fun hfail => ?_, ?_⟩
  · rw [haccepted, htaken]
    exact ⟨rfl, hdelivers.taken⟩
  · have hoffers := hdelivers.offers_le
    rw [h.writeReplies, List.length_drop, ← h.writeReplies] at hoffers
    omega
  · simp only [hflushes, hne, htaken_iff, ne_eq, not_false_eq_true, true_and]
  · rw [htaken_iff, hresult]
    cases e.writeFailure? writes <;> cases e.flushFailure? flushes <;> simp
  · rw [hresult] at hfail ⊢
    cases hfailure : (e.writeFailure? writes).or (e.flushFailure? flushes) with
    | none => simp [hfailure] at hfail
    | some cause => exact ⟨cause, rfl, rfl⟩
  · simp only [hexports, ExportStep.exported, hresult, hne, ne_eq, not_false_eq_true, true_and]
    cases (e.writeFailure? writes).or (e.flushFailure? flushes) <;> simp

/-- An export is accounted for, whatever the exports before it came to. -/
lemma Follows.accounted (h : Follows writes flushes e.before) : e.Accounted writes flushes := by
  obtain ⟨x, snapshots⟩ := e
  rcases eq_or_ne snapshots [] with rfl | hne
  · exact accounted_nil x
  · exact h.accounted_of_ne_nil hne

/-! ## Runs -/

/-- The exporter after it exported the snapshots of some ticks, those of the first tick first. -/
def exportAll (x : Exporter) (ticks : List (List Snapshot)) : Exporter :=
  ticks.foldl (fun x snapshots => (x.exportRecord snapshots).2) x

/-- The exports of a run. -/
def history (x : Exporter) : List (List Snapshot) → List ExportStep
  | [] => []
  | snapshots :: ticks => ⟨x, snapshots⟩ :: history (x.exportRecord snapshots).2 ticks

@[simp] lemma exportAll_cons (x : Exporter) (snapshots : List Snapshot)
    (ticks : List (List Snapshot)) :
    x.exportAll (snapshots :: ticks) = (x.exportRecord snapshots).2.exportAll ticks := rfl

@[simp] lemma history_cons (x : Exporter) (snapshots : List Snapshot)
    (ticks : List (List Snapshot)) :
    x.history (snapshots :: ticks) = ⟨x, snapshots⟩ :: (x.exportRecord snapshots).2.history ticks :=
  rfl

lemma exportAll_append (x : Exporter) (ticks ticks' : List (List Snapshot)) :
    x.exportAll (ticks ++ ticks') = (x.exportAll ticks).exportAll ticks' := List.foldl_append

lemma history_append (x : Exporter) (ticks ticks' : List (List Snapshot)) :
    x.history (ticks ++ ticks') = x.history ticks ++ (x.exportAll ticks).history ticks' := by
  induction ticks generalizing x with
  | nil => rfl
  | cons snapshots ticks ih => rw [List.cons_append, history_cons, ih, history_cons,
      exportAll_cons, List.cons_append]

/-- Each tick of a run is exported once, in order. -/
lemma map_snapshots_history (x : Exporter) (ticks : List (List Snapshot)) :
    (x.history ticks).map ExportStep.snapshots = ticks := by
  induction ticks generalizing x with
  | nil => rfl
  | cons snapshots ticks ih => rw [history_cons, List.map_cons, ih]

/-- Before each export of a run the next answers are those after the calls made so far. -/
lemma Follows.history (h : Follows writes flushes x) (ticks : List (List Snapshot)) :
    ∀ e ∈ x.history ticks, Follows writes flushes e.before := by
  induction ticks generalizing x with
  | nil => exact fun e he => absurd he List.not_mem_nil
  | cons snapshots ticks ih =>
    rw [history_cons, List.forall_mem_cons]
    exact ⟨h, ih h.after⟩

/-- After a run the next answers are those after the calls made so far. -/
lemma Follows.exportAll (h : Follows writes flushes x) (ticks : List (List Snapshot)) :
    Follows writes flushes (x.exportAll ticks) := by
  induction ticks generalizing x with
  | nil => exact h
  | cons snapshots ticks ih => exact ih h.after

/-- A sink to which nothing was written follows the script from its start. -/
lemma follows_ofReplies (writes : List WriteReply) (flushes : List (Option String)) :
    Follows writes flushes (ofSink (.ofReplies writes flushes)) := ⟨rfl, rfl⟩

/-- After a run the sink has what it had before and what it took during each export. -/
lemma Follows.accepted_exportAll (h : Follows writes flushes x) (ticks : List (List Snapshot)) :
    (x.exportAll ticks).sink.accepted =
      x.sink.accepted ++ (x.history ticks).flatMap ExportStep.taken := by
  induction ticks generalizing x with
  | nil => exact (List.append_nil _).symm
  | cons snapshots ticks ih =>
    have hstep : (ExportStep.mk x snapshots).Accounted writes flushes := Follows.accounted h
    rw [exportAll_cons, ih h.after, history_cons, List.flatMap_cons, ← List.append_assoc,
      ← hstep.accepted.1]
    rfl

/-- The count after a run is the one before it and the number of records put out. -/
lemma Follows.exports_exportAll (h : Follows writes flushes x) (ticks : List (List Snapshot)) :
    (x.exportAll ticks).exports =
      x.exports + UInt64.ofNat ((x.history ticks).countP fun e => e.exported) := by
  induction ticks generalizing x with
  | nil => exact (UInt64.add_zero _).symm
  | cons snapshots ticks ih =>
    have hstep : (ExportStep.mk x snapshots).Accounted writes flushes := Follows.accounted h
    have hexports : (x.exportRecord snapshots).2.exports =
        x.exports + if (ExportStep.mk x snapshots).exported then 1 else 0 := hstep.exports_eq
    rw [exportAll_cons, ih h.after, history_cons, List.countP_cons, hexports]
    by_cases he : (ExportStep.mk x snapshots).exported
    · simp [he, UInt64.add_assoc, UInt64.add_comm]
    · simp [he]

/-- **The accounts of an exporter.**  However the sink answers, every export of every run takes at
most one write more than there are answers left, writes the front of its record, flushes once if
that was the whole of it, and succeeds exactly if this and the flush do; the sink ends up with what
it took during the exports, and the count is the number of records put out. -/
theorem accounted_history (writes : List WriteReply) (flushes : List (Option String))
    (ticks : List (List Snapshot)) :
    let x := ofSink (.ofReplies writes flushes)
    (x.history ticks).map ExportStep.snapshots = ticks ∧
      (∀ e ∈ x.history ticks, e.Accounted writes flushes) ∧
      (x.exportAll ticks).sink.accepted = (x.history ticks).flatMap ExportStep.taken ∧
      (x.exportAll ticks).exports.toNat =
        (x.history ticks).countP (fun e => e.exported) % 2 ^ 64 := by
  intro x
  have hfollows := follows_ofReplies writes flushes
  have hexports := hfollows.exports_exportAll ticks
  refine ⟨map_snapshots_history x ticks, fun e he => (hfollows.history ticks e he).accounted,
    hfollows.accepted_exportAll ticks, ?_⟩
  rw [hexports, UInt64.toNat_add, UInt64.toNat_ofNat']
  exact (congrArg (· % 2 ^ 64) (Nat.zero_add _)).trans (Nat.mod_mod _ _)

/-- Four exports: the first is written in parts and its flush fails, the second is idle, the third
fails when the sink takes nothing after a part, and the fourth is past the end of the script. -/
theorem accounted_history_of_partial_writes :
    let ticks := [[⟨0, "a", 0, 0, 0, 0, 0, 0⟩], [], [⟨0, "b", 0, 0, 0, 0, 0, 0⟩],
      [⟨0, "c", 0, 0, 0, 0, 0, 0⟩]]
    let writes : List WriteReply := [.part 5, .interrupted, .all, .part 7, .part 0]
    let x := ofSink (.ofReplies writes [some "disk full"])
    let third : ExportStep := ⟨((x.exportRecord ticks[0]).2.exportRecord ticks[1]).2, ticks[2]⟩
    (third ∈ x.history ticks ∧ third.Accounted writes [some "disk full"]) ∧
    (x.history ticks).map ExportStep.result = [.error (.writing "disk full"), .ok (),
      .error (.writing "failed to write whole buffer"), .ok ()] ∧
    (x.history ticks).map (fun e => e.taken.length) = [826, 0, 7, 826] ∧
    (x.exportAll ticks).exports = 1 := by
  intro ticks writes x third
  have hthird : third ∈ x.history ticks := List.mem_cons_of_mem _ (List.mem_cons_of_mem _
    List.mem_cons_self)
  exact ⟨⟨hthird, (accounted_history writes [some "disk full"] ticks).2.1 third hthird⟩,
    by decide +kernel, by decide +kernel, by decide +kernel⟩

end Exporter

end NodeTelemetry
