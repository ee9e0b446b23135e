import Mathlib
import NodeTelemetry.Aggregator

/-!
# The loop of a tick, node by node

A tick goes through the tracked nodes, makes the snapshots of those with counters and takes the
rates of each to the next reading.  A round of the loop reads and writes the rates of its own node
only.  So a tick does to each node what it would do to that node alone (`snapshots_trackedNodes`),
and its snapshots are those of the nodes with counters, in the order of the nodes
(`map_nodeId_snapshots`).
-/

namespace NodeTelemetry

/-- The tracked nodes are listed once each. -/
lemma Tables.nodup_trackedNodes (t : Tables) : t.trackedNodes.Nodup :=
  (KeyMap.pairwise_unionKeys _ _).imp UInt32.ne_of_lt

namespace Aggregator

/-- What a tick makes of one node: its snapshot, and the state of its rates after it. -/
def nodeTick (host : String) (cpu : Float) (now : Instant) (tables : Tables) (node : UInt32)
    (state : Option RateState) : Option (Snapshot × RateState) :=
  (tables.snapshot node).map fun (counters, histogram) =>
    let state := (state.getD .initial).update counters now
    (snapshotOf host cpu node counters histogram state.rates, state)

variable (host : String) (cpu : Float) (now : Instant) (tables : Tables) {node : UInt32}
  {nodes : List UInt32}

/-! ## One round -/

/-- A node has a snapshot if it has counters, and the snapshot carries its number. -/
lemma map_nodeId_nodeTick (n : UInt32) (state : Option RateState) :
    ((nodeTick host cpu now tables n state).map Prod.fst).toList.map Snapshot.nodeId =
      if (tables.counters.get? n).isSome then [n] else [] := by
  rw [nodeTick, Tables.snapshot]
  cases tables.counters.get? n <;> rfl

/-- The snapshot of a node is among the snapshots of that node and of no other. -/
lemma filter_nodeTick (n : UInt32) (state : Option RateState) :
    ((nodeTick host cpu now tables n state).map Prod.fst).toList.filter (·.nodeId = node) =
      if n = node then ((nodeTick host cpu now tables n state).map Prod.fst).toList else [] := by
  rw [nodeTick]
  cases tables.snapshot n with
  | none => simp
  | some pair => by_cases hn : n = node <;> simp [snapshotOf, hn]

/-- A loop is its first round, and the rest of the loop from the rates after that round. -/
lemma snapshots_cons (n : UInt32) (rates : KeyMap RateState) :
    let made := nodeTick host cpu now tables n (rates.get? n)
    let rest := snapshots host cpu now tables nodes (made.elim rates fun m => rates.insert n m.2)
    snapshots host cpu now tables (n :: nodes) rates =
      ((made.map Prod.fst).toList ++ rest.1, rest.2) := by
  rw [snapshots, nodeTick]
  cases tables.snapshot n <;> rfl

/-- A round sets the rates of its own node. -/
lemma get?_rates_of_round (n : UInt32) (rates : KeyMap RateState)
    (made : Option (Snapshot × RateState)) :
    (made.elim rates fun m => rates.insert n m.2).get? node =
      if node = n then (made.map Prod.snd).or (rates.get? node) else rates.get? node := by
  cases made with
  | none => simp
  | some m => simp [KeyMap.get?_insert]

/-! ## The whole loop -/

/-- The snapshots of a loop are those of the nodes with counters, in the order of the nodes. -/
lemma map_nodeId_snapshots (nodes : List UInt32) (rates : KeyMap RateState) :
    (snapshots host cpu now tables nodes rates).1.map Snapshot.nodeId =
      nodes.filter fun n => (tables.counters.get? n).isSome := by
  induction nodes generalizing rates with
  | nil => rfl
  | cons n nodes ih =>
    rw [snapshots_cons, List.map_append, map_nodeId_nodeTick, ih, List.filter_cons]
    split <;> rfl

/-- A loop leaves a node alone that it does not come to. -/
lemma snapshots_of_notMem (hnode : node ∉ nodes) (rates : KeyMap RateState) :
    (snapshots host cpu now tables nodes rates).1.filter (·.nodeId = node) = [] ∧
      (snapshots host cpu now tables nodes rates).2.get? node = rates.get? node := by
  induction nodes generalizing rates with
  | nil => exact ⟨rfl, rfl⟩
  | cons n nodes ih =>
    obtain ⟨hne, hrest⟩ := not_or.mp (mt List.mem_cons.mpr hnode)
    rw [snapshots_cons]
    obtain ⟨hfilter, hrates⟩ := ih hrest _
    rw [List.filter_append, filter_nodeTick, if_neg (Ne.symm hne), hfilter, hrates,
      get?_rates_of_round, if_neg hne]
    exact ⟨rfl, rfl⟩

/-- A loop that comes to a node once makes of it what a tick makes of that node alone, whatever the
other nodes are. -/
lemma snapshots_of_nodup (hnodup : nodes.Nodup) (hnode : node ∈ nodes) (rates : KeyMap RateState) :
    let made := nodeTick host cpu now tables node (rates.get? node)
    (snapshots host cpu now tables nodes rates).1.filter (·.nodeId = node) =
        (made.map Prod.fst).toList ∧
      (snapshots host cpu now tables nodes rates).2.get? node =
        (made.map Prod.snd).or (rates.get? node) := by
  induction nodes generalizing rates with
  | nil => cases hnode
  | cons n nodes ih =>
    obtain ⟨hn, hnodup⟩ := List.nodup_cons.mp hnodup
    rw [snapshots_cons]
    by_cases hne : n = node
    · subst hne
      obtain ⟨hfilter, hrates⟩ := snapshots_of_notMem host cpu now tables hn _
      rw [List.filter_append, filter_nodeTick, if_pos rfl, hfilter, hrates, get?_rates_of_round,
        if_pos rfl, List.append_nil]
      exact ⟨rfl, rfl⟩
    · have hrest := (List.mem_cons.mp hnode).resolve_left (Ne.symm hne)
      obtain ⟨hfilter, hrates⟩ := ih hnodup hrest _
      rw [List.filter_append, filter_nodeTick, if_neg hne, hfilter, hrates, get?_rates_of_round,
        if_neg (Ne.symm hne)]
      exact ⟨rfl, rfl⟩

/-- A tick makes of each node what it makes of that node alone.  A node that is not tracked has no
counters, and a tick makes nothing of it. -/
lemma snapshots_trackedNodes (node : UInt32) (rates : KeyMap RateState) :
    let made := nodeTick host cpu now tables node (rates.get? node)
    (snapshots host cpu now tables tables.trackedNodes rates).1.filter (·.nodeId = node) =
        (made.map Prod.fst).toList ∧
      (snapshots host cpu now tables tables.trackedNodes rates).2.get? node =
        (made.map Prod.snd).or (rates.get? node) := by
  by_cases hnode : node ∈ tables.trackedNodes
  · exact snapshots_of_nodup host cpu now tables tables.nodup_trackedNodes hnode rates
  · have hnone : tables.snapshot node = none := by
      rw [Tables.snapshot_eq_none_iff, ← Option.not_isSome_iff_eq_none]
      exact fun hsome => hnode (KeyMap.mem_unionKeys.mpr (.inl hsome))
    rw [nodeTick, hnone]
    exact snapshots_of_notMem host cpu now tables hnode rates

end Aggregator

end NodeTelemetry
