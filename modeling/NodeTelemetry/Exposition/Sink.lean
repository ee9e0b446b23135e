import NodeTelemetry.Exposition
import NodeTelemetry.AgentError

/-!
# Exporting to a sink

The text of a record goes to a sink that may take a part of it at a time, be interrupted or fail.
Writing goes on after a part and after an interruption; a sink that takes nothing has failed.  When
all is written the sink is flushed, and a record counts as exported if that succeeds too.

How a sink will answer is fixed beforehand by a script; after its end the sink takes everything.
-/

namespace NodeTelemetry

/-- How a sink answers an offer of bytes. -/
inductive WriteReply where
  /-- It takes all of them. -/
  | all
  /-- It takes so many of them at most. -/
  | part (limit : Nat)
  /-- It was interrupted and takes none. -/
  | interrupted
  /-- It fails. -/
  | failed (cause : String)
  deriving DecidableEq, Repr

/-- A sink: the answers to come, what it took so far, and how often it was called. -/
structure Sink where
  writeReplies : List WriteReply
  flushReplies : List (Option String)
  accepted : List UInt8
  writes : Nat
  flushes : Nat
  deriving DecidableEq, Repr

namespace Sink

/-- A sink that nothing was written to, with its answers; a flush answers with the cause of its
failure, if it fails. -/
def ofReplies (writes : List WriteReply) (flushes : List (Option String)) : Sink :=
  ⟨writes, flushes, [], 0, 0⟩

/-- What came of offering bytes: whether all were taken, those that were taken, the answers that are
left, and the number of offers. -/
structure Transfer where
  result : Except String Unit
  taken : List UInt8
  replies : List WriteReply
  offers : Nat

/-- Offers bytes until all are taken or the sink fails. -/
def transfer : List UInt8 → List WriteReply → Transfer
  | [], replies => ⟨.ok (), [], replies, 0⟩
  | bytes, [] => ⟨.ok (), bytes, [], 1⟩
  | bytes, .all :: replies => ⟨.ok (), bytes, replies, 1⟩
  | _, .failed cause :: replies => ⟨.error cause, [], replies, 1⟩
  | bytes, .interrupted :: replies =>
    let t := transfer bytes replies
    { t with offers := t.offers + 1 }
  | bytes, .part limit :: replies =>
    if limit = 0 then ⟨.error "failed to write whole buffer", [], replies, 1⟩
    else
      let t := transfer (bytes.drop limit) replies
      { t with taken := bytes.take limit ++ t.taken, offers := t.offers + 1 }

/-- Writes bytes to the end or until the sink fails. -/
def writeAll (s : Sink) (bytes : List UInt8) : Except String Unit × Sink :=
  let t := transfer bytes s.writeReplies
  (t.result, { s with
    writeReplies := t.replies
    accepted := s.accepted ++ t.taken
    writes := s.writes + t.offers })

/-- Flushes the sink. -/
def flush (s : Sink) : Except String Unit × Sink :=
  let answer : Except String Unit := match s.flushReplies with
    | some cause :: _ => .error cause
    | _ => .ok ()
  (answer, { s with flushReplies := s.flushReplies.drop 1, flushes := s.flushes + 1 })

end Sink

/-- An exporter: its sink, and the number of records exported. -/
structure Exporter where
  sink : Sink
  exports : UInt64
  deriving DecidableEq, Repr

namespace Exporter

/-- An exporter to a sink. -/
def ofSink (s : Sink) : Exporter := ⟨s, 0⟩

/-- Exports the snapshots of one tick as one record; without snapshots there is nothing to do. -/
def exportRecord (x : Exporter) (snapshots : List Snapshot) : Except AgentError Unit × Exporter :=
  if snapshots.isEmpty then (.ok (), x)
  else
    match x.sink.writeAll (Exposition.render snapshots).toUTF8.toList with
    | (.error cause, sink) => (.error (.writing cause), { x with sink := sink })
    | (.ok (), sink) =>
      match sink.flush with
      | (.error cause, sink) => (.error (.writing cause), { x with sink := sink })
      | (.ok (), sink) => (.ok (), ⟨sink, x.exports + 1⟩)

end Exporter

end NodeTelemetry
