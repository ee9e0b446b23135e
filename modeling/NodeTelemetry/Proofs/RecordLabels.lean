import Mathlib
import NodeTelemetry.Proofs.RecordReading

/-!
# Labels of the nodes of a tick

The names of two nodes of one host differ (`nodeName_injective`), since the host has its own name
and the other names end with the number of the node.  Escaping keeps them apart
(`escapeLabel_injective`), and a tick makes one snapshot of each node at most, so no label occurs
twice among the lines of a gauge (`nodup_labels_tick`).  With the reader of records this makes the
exposed text readable in one way only (`uniquelyReadable_and_nodup_labels`).
-/

namespace NodeTelemetry

/-- The name of a node other than the host is longer than that of the host. -/
lemma nodeName_ne_host (host : String) {node : UInt32} (hne : node ≠ 0) :
    nodeName host node ≠ host := by
  intro h
  rw [nodeName, if_neg hne] at h
  have hlength := congrArg String.length h
  simp only [String.length_append] at hlength
  have hdash : "-".length = 1 := rfl
  omega

/-- Nodes of one host have different names, whatever the name of the host is. -/
lemma nodeName_injective (host : String) : Function.Injective (nodeName host) := by
  intro m n h
  by_cases hm : m = 0
  · subst hm
    by_contra hn
    exact nodeName_ne_host host (Ne.symm hn) (h.symm.trans (if_pos rfl))
  by_cases hn : n = 0
  · subst hn
    exact absurd (h.trans (if_pos rfl)) (nodeName_ne_host host hm)
  · rw [nodeName, nodeName, if_neg hm, if_neg hn, String.append_right_inj] at h
    exact UInt32.toNat_inj.mp (Nat.repr_injective h)

namespace Aggregator

/-- The snapshots of a loop carry the names of their nodes. -/
lemma nodeName_eq_of_mem_snapshots {host : String} {cpu : Float} {now : Instant} {tables : Tables}
    {nodes : List UInt32} {rates : KeyMap RateState} :
    ∀ s ∈ (snapshots host cpu now tables nodes rates).1, s.nodeName = nodeName host s.nodeId := by
  induction nodes generalizing rates with
  | nil => exact fun s hs => absurd hs List.not_mem_nil
  | cons n nodes ih =>
    rw [snapshots_cons, List.forall_mem_append]
    refine ⟨fun s hs => ?_, ih⟩
    rw [nodeTick] at hs
    cases hsnapshot : tables.snapshot n with
    | none => simp [hsnapshot] at hs
    | some pair =>
      rw [hsnapshot] at hs
      obtain rfl := List.mem_singleton.mp hs
      rfl

/-- A tick makes one snapshot of a node at most. -/
lemma nodup_nodeId_tick (a : Aggregator) (tables : Tables) (now : Instant)
    (kernelText : Option (List Char)) :
    ((a.tick tables now kernelText).1.map Snapshot.nodeId).Nodup := by
  have hids := map_nodeId_snapshots a.host (a.cpu.sample kernelText).1 now tables
    tables.trackedNodes a.rates
  rw [tick, hids]
  exact tables.nodup_trackedNodes.filter _

end Aggregator

namespace Exposition

/-- Labels that are escaped to one text are the same. -/
lemma escapeLabel_injective : Function.Injective escapeLabel := by
  intro label label' h
  have hread := readLabel_escapeLabel label []
  rw [h, readLabel_escapeLabel label' []] at hread
  exact (Prod.mk.inj (Option.some.inj hread)).1.symm

/-- The snapshots of a tick have different labels. -/
lemma nodup_labels_tick (a : Aggregator) (tables : Tables) (now : Instant)
    (kernelText : Option (List Char)) :
    ((a.tick tables now kernelText).1.map fun s => escapeLabel s.nodeName.toList).Nodup := by
  have hlabel : ∀ s ∈ (a.tick tables now kernelText).1,
      escapeLabel s.nodeName.toList = escapeLabel (nodeName a.host s.nodeId).toList := by
    intro s hs
    rw [Aggregator.nodeName_eq_of_mem_snapshots s hs]
  have hinjective : Function.Injective fun node => escapeLabel (nodeName a.host node).toList :=
    fun _ _ h => nodeName_injective a.host (String.toList_injective (escapeLabel_injective h))
  rw [List.map_congr_left hlabel]
  have h := (a.nodup_nodeId_tick tables now kernelText).map hinjective
  rwa [List.map_map] at h

/-- Records whose text can be read in one way only. -/
structure UniquelyReadable (records : List (List Snapshot)) : Prop where
  /-- A record is its lines and an empty one. -/
  lines : ∀ r ∈ records, ∃ lines : List String, lines.length = 6 * (2 + r.length) ∧
    (∀ line ∈ lines, line ≠ "" ∧ '\n' ∉ line.toList) ∧
    render r = String.join (lines.map (· ++ "\n")) ++ "\n"
  /-- The names of the nodes and the printed values are read back from a record. -/
  read : ∀ r ∈ records, readRecords (render r) = some [readings r]
  /-- Other snapshots have the same text exactly if their names and printed values are the same. -/
  same : ∀ r ∈ records, ∀ r', render r' = render r ↔ readings r' = readings r
  /-- The names and the printed values are read back from the records one after another. -/
  read_all : readRecords (String.join (records.map render)) = some (records.map readings)
  /-- Their text one after another is the text of no other records. -/
  split : ∀ records' : List (List Snapshot), (∀ r ∈ records', r ≠ []) →
    String.join (records'.map render) = String.join (records.map render) →
    records'.map render = records.map render

/-- **Exposed records can be read in one way only.**  Whatever the nodes are called and whatever
the values are, the lines, names, printed values and ends of records are those that were written;
and no label occurs twice among the lines of a gauge at a tick. -/
theorem uniquelyReadable_and_nodup_labels (records : List (List Snapshot))
    (hne : ∀ r ∈ records, r ≠ []) (a : Aggregator) (tables : Tables) (now : Instant)
    (kernelText : Option (List Char)) :
    UniquelyReadable records ∧
      ((a.tick tables now kernelText).1.map fun s => escapeLabel s.nodeName.toList).Nodup := by
  refine ⟨⟨fun r hr => ?_, fun r hr => readRecords_render (hne r hr),
    fun r _ r' => render_eq_iff, readRecords_join_render hne,
    fun records' hne' => map_render_eq_of_join_eq hne hne'⟩,
    nodup_labels_tick a tables now kernelText⟩
  refine ⟨gauges.flatMap fun g => gaugeLines g r, ?_, ?_, ?_⟩
  · simpa [bodyLines] using length_bodyLines r
  · intro line hline
    obtain ⟨hempty, hfeed⟩ := lineFeed_notMem_bodyLines r _ (List.mem_map_of_mem hline)
    exact ⟨fun h => hempty (String.toList_eq_nil_iff.mpr h), hfeed⟩
  · simp [render, recordLines, hne r hr, String.join_append]

/-- Two records with a line feed, quotes and backslashes in the names, one name being what another
looks like when it is escaped, and with values that are no number; and a tick for a host and a node
of it. -/
theorem uniquelyReadable_of_names_with_escapes :
    let snapshot : UInt32 → String → Float → Snapshot := fun node name x =>
      ⟨node, name, x, x, x, x, x, x⟩
    let records := [[snapshot 0 "a\nb" (0 / 0), snapshot 1 "a\\nb" (-0.0)],
      [snapshot 0 "\"c\\" (1 / 0)]]
    let a := Aggregator.initial "web" .unread
    let tables := (Tables.ofCapacities 4 2 2).applyAll
      [.increment 2 .dropCount 3, .increment 0 .retransCount 1]
    ((∀ r ∈ records, r ≠ []) ∧ UniquelyReadable records ∧
      ((a.tick tables ⟨5⟩ none).1.map fun s => escapeLabel s.nodeName.toList).Nodup) ∧
    records.map (printed ⟨"drops", "Drops", Snapshot.dropRate⟩) =
      [[("a\nb", "NaN"), ("a\\nb", "-0.00")], [("\"c\\", "inf")]] ∧
    (a.tick tables ⟨5⟩ none).1.map Snapshot.nodeName = ["web", "web-2"] :=
  ⟨⟨by decide, uniquelyReadable_and_nodup_labels _ (by decide) _ _ _ _⟩, by decide +kernel,
    by decide +kernel⟩

end Exposition

end NodeTelemetry
