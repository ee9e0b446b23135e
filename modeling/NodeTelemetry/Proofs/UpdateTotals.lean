import Mathlib
import NodeTelemetry.Tables
import NodeTelemetry.Proofs.TableRun

/-!
# What a list of updates adds up to

No update of the tables is lost, whatever the order.  Each of the three record tables goes through
the run of its own changes (`Tables.counters_applyAll` and its siblings), and all changes of one
table commute, so that a permutation of the updates leads to the same counters, histograms and drop
reasons (`Tables.applyAll_perm`).  Each number in them is a total over the list: a sum, a maximum or
a count (`Tables.totals_applyAll`).
-/

namespace NodeTelemetry

/-! ## The part of each table -/

namespace TableUpdate

/-- The change that an update makes to the counters of a node, with the node. -/
def counterChange? : TableUpdate → Option (UInt32 × (NodeCounters → NodeCounters))
  | .increment node field delta => some (node, fun c => c.add field delta)
  | .touch node time => some (node, fun c => c.touch time)
  | _ => none

/-- The change that an update makes to the histogram of a node, with the node. -/
def histogramChange? : TableUpdate → Option (UInt32 × (Histogram → Histogram))
  | .observe node value => some (node, fun h => h.observe value)
  | _ => none

/-- The change that an update makes to the count of a drop reason, with the reason. -/
def reasonChange? : TableUpdate → Option (UInt32 × (UInt64 → UInt64))
  | .recordDrop reason => some (reason, (· + 1))
  | _ => none

/-- The node whose counters an update is for. -/
def counterKey? (u : TableUpdate) : Option UInt32 := u.counterChange?.map Prod.fst

/-- The node whose histogram an update is for. -/
def histogramKey? (u : TableUpdate) : Option UInt32 := u.histogramChange?.map Prod.fst

/-- The drop reason that an update is for. -/
def reasonKey? (u : TableUpdate) : Option UInt32 := u.reasonChange?.map Prod.fst

end TableUpdate

namespace Tables

open TableUpdate SlotTable

/-- The counters go through the run of their own changes. -/
lemma counters_applyAll (t : Tables) (us : List TableUpdate) :
    (t.applyAll us).counters = t.counters.updateAll .zero (us.filterMap counterChange?) := by
  induction us generalizing t with
  | nil => rfl
  | cons u us ih => rw [applyAll_cons, ih]; cases u <;> rfl

/-- The histograms go through the run of their own changes. -/
lemma histograms_applyAll (t : Tables) (us : List TableUpdate) :
    (t.applyAll us).histograms = t.histograms.updateAll .empty (us.filterMap histogramChange?) := by
  induction us generalizing t with
  | nil => rfl
  | cons u us ih => rw [applyAll_cons, ih]; cases u <;> rfl

/-- The drop reasons go through the run of their own changes. -/
lemma dropReasons_applyAll (t : Tables) (us : List TableUpdate) :
    (t.applyAll us).dropReasons = t.dropReasons.updateAll 0 (us.filterMap reasonChange?) := by
  induction us generalizing t with
  | nil => rfl
  | cons u us ih => rw [applyAll_cons, ih]; cases u <;> rfl

end Tables

/-! ## Changes of one table commute -/

namespace NodeCounters

/-- Two records with the same counters and the same latest time are equal. -/
lemma ext_get {c d : NodeCounters} (hget : ∀ field, c.get field = d.get field)
    (hlast : c.lastUpdate = d.lastUpdate) : c = d := by
  obtain ⟨c₁, c₂, c₃, c₄, c₅, c₆, c₇⟩ := c
  obtain ⟨d₁, d₂, d₃, d₄, d₅, d₆, d₇⟩ := d
  rw [NodeCounters.mk.injEq]
  exact ⟨hget .rttSum, hget .rttCount, hget .retransCount, hget .dropCount, hget .runqlatSum,
    hget .runqlatCount, hlast⟩

/-- Adding to a counter twice may be done in either order. -/
lemma add_comm (c : NodeCounters) (f g : CounterField) (d e : UInt64) :
    (c.add f d).add g e = (c.add g e).add f d := by
  refine ext_get (fun field => ?_) (by simp)
  simp only [get_add]
  split <;> split
  · rw [UInt64.add_assoc, UInt64.add_comm d, ← UInt64.add_assoc]
  all_goals rfl

/-- Adding to a counter and touching may be done in either order. -/
lemma touch_add (c : NodeCounters) (f : CounterField) (d time : UInt64) :
    (c.add f d).touch time = (c.touch time).add f d := by
  cases f <;> rfl

/-- The latest time of a touched record is the greater of the two times. -/
lemma toNat_lastUpdate_touch (c : NodeCounters) (time : UInt64) :
    (c.touch time).lastUpdate.toNat = max c.lastUpdate.toNat time.toNat := by
  simp only [touch]
  split
  · next h => exact (max_eq_right (le_of_lt (UInt64.lt_iff_toNat_lt.mp h))).symm
  · next h => exact (max_eq_left (UInt64.le_iff_toNat_le.mp (UInt64.not_lt.mp h))).symm

/-- Touching twice may be done in either order. -/
lemma touch_comm (c : NodeCounters) (time time' : UInt64) :
    (c.touch time).touch time' = (c.touch time').touch time := by
  refine ext_get (by simp) (UInt64.toNat_inj.mp ?_)
  simp only [toNat_lastUpdate_touch]
  exact max_right_comm _ _ _

end NodeCounters

/-- A histogram of no sample counts none in any bucket. -/
@[simp] lemma Histogram.get_empty (i : Fin 64) : Histogram.empty.buckets.get i = 0 :=
  getElem_empty i

/-- A sample raises the count of its own bucket by one and no other. -/
lemma Histogram.get_observe (h : Histogram) (v : UInt64) (i : Fin 64) :
    (h.observe v).buckets.get i =
      if bucketOf v = i then h.buckets.get i + 1 else h.buckets.get i :=
  getElem_observe h v i

/-- Two histograms with the same counts are equal. -/
lemma Histogram.ext_get {h h' : Histogram}
    (heq : ∀ i : Fin 64, h.buckets.get i = h'.buckets.get i) : h = h' := by
  obtain ⟨b⟩ := h
  obtain ⟨b'⟩ := h'
  have hb : b = b' := Vector.ext fun i hi => heq ⟨i, hi⟩
  rw [hb]

/-- Observing two samples may be done in either order. -/
lemma Histogram.observe_comm (h : Histogram) (v w : UInt64) :
    (h.observe v).observe w = (h.observe w).observe v := by
  refine Histogram.ext_get fun i => ?_
  simp only [get_observe]
  split <;> split <;> rfl

namespace TableUpdate

/-- The changes of counters commute. -/
lemma counterChange?_comm {u v : TableUpdate} {c d : UInt32 × (NodeCounters → NodeCounters)}
    (hu : u.counterChange? = some c) (hv : v.counterChange? = some d) (r : NodeCounters) :
    d.2 (c.2 r) = c.2 (d.2 r) := by
  cases u <;> cases hu <;> cases v <;> cases hv
  · exact NodeCounters.add_comm _ _ _ _ _
  · exact NodeCounters.touch_add _ _ _ _
  · exact (NodeCounters.touch_add _ _ _ _).symm
  · exact NodeCounters.touch_comm _ _ _

/-- The changes of histograms commute. -/
lemma histogramChange?_comm {u v : TableUpdate} {c d : UInt32 × (Histogram → Histogram)}
    (hu : u.histogramChange? = some c) (hv : v.histogramChange? = some d) (r : Histogram) :
    d.2 (c.2 r) = c.2 (d.2 r) := by
  cases u <;> cases hu
  cases v <;> cases hv
  exact Histogram.observe_comm _ _ _

/-- The changes of drop reasons commute. -/
lemma reasonChange?_comm {u v : TableUpdate} {c d : UInt32 × (UInt64 → UInt64)}
    (hu : u.reasonChange? = some c) (hv : v.reasonChange? = some d) (r : UInt64) :
    d.2 (c.2 r) = c.2 (d.2 r) := by
  cases u <;> cases hu
  cases v <;> cases hv
  rfl

end TableUpdate

/-! ## Totals over a list of updates -/

namespace TableUpdate

/-- The amount that an update adds to a counter of a node. -/
def delta? (node : UInt32) (field : CounterField) : TableUpdate → Option UInt64
  | .increment n f delta => if n = node ∧ f = field then some delta else none
  | _ => none

/-- The time at which an update touches a node. -/
def touchTime? (node : UInt32) : TableUpdate → Option UInt64
  | .touch n time => if n = node then some time else none
  | _ => none

/-- The sample that an update adds to the histogram of a node. -/
def sample? (node : UInt32) : TableUpdate → Option UInt64
  | .observe n value => if n = node then some value else none
  | _ => none

end TableUpdate

/-- Summing the amounts that some steps have is summing over all steps, with zero for the others. -/
lemma sum_map_filterMap {β : Type} (amount? : β → Option UInt64) (us : List β) :
    ((us.filterMap amount?).map UInt64.toNat).sum =
      (us.map fun u => ((amount? u).map UInt64.toNat).getD 0).sum := by
  induction us with
  | nil => rfl
  | cons u us ih =>
    cases hu : amount? u with
    | none => simp [List.filterMap_cons_none hu, ih, hu]
    | some a => simp [List.filterMap_cons_some hu, ih, hu]

/-- Counting is summing ones. -/
lemma countP_eq_sum_map {β : Type} (p : β → Bool) (us : List β) :
    us.countP p = (us.map fun u => if p u then 1 else 0).sum := by
  induction us with
  | nil => rfl
  | cons u us ih => rw [List.countP_cons, ih, List.map_cons, List.sum_cons, Nat.add_comm]

/-- Counting a list key by key counts each of its elements among the keys once. -/
lemma sum_count_of_nodup {β : Type} [DecidableEq β] {keys : List β} (hnodup : keys.Nodup)
    (l : List β) : (keys.map fun key => l.count key).sum = l.countP (· ∈ keys) := by
  have hcover : ∀ x ∈ (l.filter (· ∈ keys) : Multiset β), x ∈ keys.toFinset := by
    intro x hx
    rw [Multiset.mem_coe, List.mem_filter, decide_eq_true_iff] at hx
    exact List.mem_toFinset.mpr hx.2
  rw [← List.sum_toFinset _ hnodup, List.countP_eq_length_filter, ← Multiset.coe_card,
    ← Multiset.sum_count_eq_card hcover]
  refine Finset.sum_congr rfl fun key hkey => ?_
  have hmem : decide (key ∈ keys) = true := decide_eq_true (List.mem_toFinset.mp hkey)
  have hcount : (l.filter (· ∈ keys)).count key = l.count key := List.count_filter hmem
  rw [Multiset.coe_count, hcount]

open TableUpdate SlotTable

/-- A counter grows by the sum of its amounts. -/
lemma NodeCounters.toNat_get_foldl_changes (node : UInt32) (field : CounterField)
    (us : List TableUpdate) (c : NodeCounters) :
    (((changesAt node (us.filterMap counterChange?)).foldl (fun r f => f r) c).get field).toNat =
      ((c.get field).toNat + ((us.filterMap (delta? node field)).map UInt64.toNat).sum)
        % UInt64.size := by
  rw [sum_map_filterMap]
  refine toNat_foldl_changesAt (fun c => c.get field) ?_ ?_ us c
  · intro u f hf r
    cases u <;> cases hf
    · next f' delta =>
      rw [NodeCounters.get_add]
      by_cases hfield : f' = field
      · simp [delta?, hfield, UInt64.size]
      · simp [delta?, hfield, UInt64.size, Nat.mod_eq_of_lt (UInt64.toNat_lt _)]
    · next time => simp [delta?, UInt64.size, Nat.mod_eq_of_lt (UInt64.toNat_lt _)]
  · intro u hu
    cases u with
    | increment n f delta =>
      have hn : n ≠ node := fun hn => hu _ (by rw [hn]; rfl)
      simp [delta?, hn]
    | _ => rfl

/-- The latest time becomes the greatest of the times at which the node was touched. -/
lemma NodeCounters.toNat_lastUpdate_foldl_changes (node : UInt32) (us : List TableUpdate)
    (c : NodeCounters) :
    ((changesAt node (us.filterMap counterChange?)).foldl (fun r f => f r) c).lastUpdate.toNat =
      ((us.filterMap (touchTime? node)).map UInt64.toNat).foldl max c.lastUpdate.toNat := by
  induction us generalizing c with
  | nil => rfl
  | cons u us ih =>
    cases u with
    | increment n f delta =>
      have htimes : (TableUpdate.increment n f delta :: us).filterMap (touchTime? node) =
          us.filterMap (touchTime? node) := rfl
      rw [htimes]
      by_cases hn : n = node <;> simp [counterChange?, changesAt_cons, hn, ih]
    | touch n time =>
      by_cases hn : n = node <;>
        simp [counterChange?, touchTime?, changesAt_cons, hn, ih, toNat_lastUpdate_touch]
    | _ => exact ih c

/-- A bucket grows by the number of the samples that fall into it. -/
lemma Histogram.toNat_get_foldl_changes (node : UInt32) (i : Fin 64) (us : List TableUpdate)
    (h : Histogram) :
    (((changesAt node (us.filterMap histogramChange?)).foldl (fun r f => f r) h).buckets.get
        i).toNat =
      ((h.buckets.get i).toNat + (us.filterMap (sample? node)).countP (bucketOf · = i))
        % UInt64.size := by
  rw [List.countP_filterMap, countP_eq_sum_map]
  refine toNat_foldl_changesAt (fun h => h.buckets.get i) ?_ ?_ us h
  · intro u f hf r
    cases u <;> cases hf
    next v =>
    rw [get_observe]
    by_cases hv : bucketOf v = i
    · simp [sample?, hv, UInt64.size]
    · simp [sample?, hv, UInt64.size, Nat.mod_eq_of_lt (UInt64.toNat_lt _)]
  · intro u hu
    cases u with
    | observe n v =>
      have hn : n ≠ node := fun hn => hu _ (by rw [hn]; rfl)
      simp [sample?, hn]
    | _ => rfl

/-- The count of a reason grows by the number of its drops. -/
lemma toNat_foldl_reasonChanges (reason : UInt32) (us : List TableUpdate) (n : UInt64) :
    ((changesAt reason (us.filterMap reasonChange?)).foldl (fun r f => f r) n).toNat =
      (n.toNat + us.count (.recordDrop reason)) % UInt64.size := by
  rw [List.count, countP_eq_sum_map]
  refine toNat_foldl_changesAt id ?_ ?_ us n
  · intro u f hf r
    cases u <;> cases hf
    simp [UInt64.size]
  · intro u hu
    have hne : u ≠ .recordDrop reason := fun he => hu _ (by rw [he]; rfl)
    simp [hne]

/-- What tables of the given capacities hold after a list of updates: which records exist, what the
numbers in them add up to, and how many updates each table turned away. -/
structure Tables.Totals (maxNodes maxDropReasons : ℕ) (us : List TableUpdate) (t : Tables) :
    Prop where
  counters_isSome : ∀ node, (t.counters.get? node).isSome ↔
    node.toNat < maxNodes ∧ some node ∈ us.map TableUpdate.counterKey?
  counter : ∀ node c field, t.counters.get? node = some c → (c.get field).toNat =
    ((us.filterMap (TableUpdate.delta? node field)).map UInt64.toNat).sum % UInt64.size
  lastUpdate : ∀ node c, t.counters.get? node = some c → c.lastUpdate.toNat =
    ((us.filterMap (TableUpdate.touchTime? node)).map UInt64.toNat).max?.getD 0
  counters_rejected : t.counters.rejected.toNat =
    (us.filterMap TableUpdate.counterKey?).countP (maxNodes ≤ ·.toNat) % UInt64.size
  histograms_isSome : ∀ node, (t.histograms.get? node).isSome ↔
    node.toNat < maxNodes ∧ some node ∈ us.map TableUpdate.histogramKey?
  bucket : ∀ node h (i : Fin 64), t.histograms.get? node = some h → (h.buckets.get i).toNat =
    (us.filterMap (TableUpdate.sample? node)).countP (bucketOf · = i) % UInt64.size
  histograms_rejected : t.histograms.rejected.toNat =
    (us.filterMap TableUpdate.histogramKey?).countP (maxNodes ≤ ·.toNat) % UInt64.size
  reasons_isSome : ∀ reason, (t.dropReasons.get? reason).isSome ↔
    reason.toNat < maxDropReasons ∧ some reason ∈ us.map TableUpdate.reasonKey?
  reason : ∀ reason n, t.dropReasons.get? reason = some n →
    n.toNat = us.count (.recordDrop reason) % UInt64.size
  reasons_rejected : t.dropReasons.rejected.toNat =
    (us.filterMap TableUpdate.reasonKey?).countP (maxDropReasons ≤ ·.toNat) % UInt64.size

/-- The greatest number of a list, or zero, is what folding with the greater of two leads to. -/
lemma foldl_max_zero (l : List ℕ) : l.foldl max 0 = l.max?.getD 0 := by
  cases l with
  | nil => rfl
  | cons a l => rw [List.foldl_cons, Nat.zero_max, List.max?_cons']; rfl

namespace Tables

/-- Every number in the tables is a total over the updates that led there from empty tables. -/
lemma totals_applyAll (maxNodes maxDropReasons maxInflight : UInt64) (us : List TableUpdate) :
    Totals maxNodes.toNat maxDropReasons.toNat us
      ((ofCapacities maxNodes maxDropReasons maxInflight).applyAll us) where
  counters_isSome node := by
    rw [counters_applyAll]
    exact isSome_get?_updateAll_ofCapacity _ _ us node
  counter node c field hc := by
    rw [counters_applyAll] at hc
    rw [eq_foldl_of_get?_updateAll_ofCapacity hc, NodeCounters.toNat_get_foldl_changes]
    simp
  lastUpdate node c hc := by
    rw [counters_applyAll] at hc
    rw [eq_foldl_of_get?_updateAll_ofCapacity hc, NodeCounters.toNat_lastUpdate_foldl_changes]
    exact foldl_max_zero _
  counters_rejected := by
    rw [counters_applyAll]
    exact toNat_rejected_updateAll_ofCapacity _ _ us
  histograms_isSome node := by
    rw [histograms_applyAll]
    exact isSome_get?_updateAll_ofCapacity _ _ us node
  bucket node h i hh := by
    rw [histograms_applyAll] at hh
    rw [eq_foldl_of_get?_updateAll_ofCapacity hh, Histogram.toNat_get_foldl_changes,
      Histogram.get_empty]
    simp
  histograms_rejected := by
    rw [histograms_applyAll]
    exact toNat_rejected_updateAll_ofCapacity _ _ us
  reasons_isSome reason := by
    rw [dropReasons_applyAll]
    exact isSome_get?_updateAll_ofCapacity _ _ us reason
  reason reason n hn := by
    rw [dropReasons_applyAll] at hn
    rw [eq_foldl_of_get?_updateAll_ofCapacity hn, toNat_foldl_reasonChanges]
    simp
  reasons_rejected := by
    rw [dropReasons_applyAll]
    exact toNat_rejected_updateAll_ofCapacity _ _ us

/-- A node to whose counters something is added is among the nodes whose counters are used. -/
lemma mem_map_counterKey? {us : List TableUpdate} {node : UInt32} {field : CounterField}
    (h : us.filterMap (delta? node field) ≠ []) : some node ∈ us.map counterKey? := by
  obtain ⟨v, hv⟩ := List.exists_mem_of_ne_nil _ h
  obtain ⟨u, hu, hdelta⟩ := List.mem_filterMap.mp hv
  refine List.mem_map.mpr ⟨u, hu, ?_⟩
  cases u with
  | increment n f delta =>
    by_cases hn : n = node
    · rw [← hn]
      rfl
    · simp [delta?, hn] at hdelta
  | _ => cases hdelta

/-- The nodes whose histograms are used are those with a sample. -/
lemma mem_map_histogramKey?_iff {us : List TableUpdate} {node : UInt32} :
    some node ∈ us.map histogramKey? ↔ us.filterMap (sample? node) ≠ [] := by
  rw [List.mem_map]
  constructor
  · rintro ⟨u, hu, hkey⟩ hnil
    cases u with
    | observe n value =>
      cases hkey
      exact absurd (List.filterMap_eq_nil_iff.mp hnil _ hu) (by simp [sample?])
    | _ => cases hkey
  · intro h
    obtain ⟨v, hv⟩ := List.exists_mem_of_ne_nil _ h
    obtain ⟨u, hu, hsample⟩ := List.mem_filterMap.mp hv
    refine ⟨u, hu, ?_⟩
    cases u with
    | observe n value =>
      by_cases hn : n = node
      · rw [← hn]
        rfl
      · simp [sample?, hn] at hsample
    | _ => cases hsample

namespace Totals

variable {maxNodes maxDropReasons : ℕ} {us : List TableUpdate} {t : Tables}

/-- A counter of a node in range, zero without a record, is the sum of its amounts. -/
lemma toNat_get_getD (h : Totals maxNodes maxDropReasons us t) {node : UInt32}
    (hnode : node.toNat < maxNodes) (field : CounterField) :
    (((t.counters.get? node).getD .zero).get field).toNat =
      ((us.filterMap (delta? node field)).map UInt64.toNat).sum % UInt64.size := by
  cases hc : t.counters.get? node with
  | some c => exact h.counter node c field hc
  | none =>
    have hunused : some node ∉ us.map counterKey? := by
      intro hkey
      have hsome := (h.counters_isSome node).mpr ⟨hnode, hkey⟩
      rw [hc] at hsome
      cases hsome
    have hnil : us.filterMap (delta? node field) = [] :=
      Decidable.of_not_not (mt mem_map_counterKey? hunused)
    rw [hnil, Option.getD_none, NodeCounters.get_zero]
    rfl

/-- A bucket of a node in range, zero without a record, is the number of its samples. -/
lemma toNat_bucket_getD (h : Totals maxNodes maxDropReasons us t) {node : UInt32}
    (hnode : node.toNat < maxNodes) (i : Fin 64) :
    (((t.histograms.get? node).getD .empty).buckets.get i).toNat =
      (us.filterMap (sample? node)).countP (bucketOf · = i) % UInt64.size := by
  cases hh : t.histograms.get? node with
  | some histogram => exact h.bucket node histogram i hh
  | none =>
    have hunused : some node ∉ us.map histogramKey? := by
      intro hkey
      have hsome := (h.histograms_isSome node).mpr ⟨hnode, hkey⟩
      rw [hh] at hsome
      cases hsome
    have hnil : us.filterMap (sample? node) = [] :=
      Decidable.of_not_not (mt mem_map_histogramKey?_iff.mpr hunused)
    rw [hnil, Option.getD_none, Histogram.get_empty]
    rfl

end Totals

/-- A permutation of the updates leads to the same counters, histograms and drop reasons, whatever
tables they start from. -/
lemma applyAll_perm (t : Tables) {us vs : List TableUpdate} (hperm : vs.Perm us) :
    (t.applyAll vs).counters = (t.applyAll us).counters ∧
      (t.applyAll vs).histograms = (t.applyAll us).histograms ∧
      (t.applyAll vs).dropReasons = (t.applyAll us).dropReasons := by
  simp only [counters_applyAll, histograms_applyAll, dropReasons_applyAll]
  refine ⟨updateAll_perm _ _ ?_ (hperm.filterMap _), updateAll_perm _ _ ?_ (hperm.filterMap _),
    updateAll_perm _ _ ?_ (hperm.filterMap _)⟩
  · intro c hc d hd _ r
    obtain ⟨u, -, hu⟩ := List.mem_filterMap.mp hc
    obtain ⟨v, -, hv⟩ := List.mem_filterMap.mp hd
    exact counterChange?_comm hu hv r
  · intro c hc d hd _ r
    obtain ⟨u, -, hu⟩ := List.mem_filterMap.mp hc
    obtain ⟨v, -, hv⟩ := List.mem_filterMap.mp hd
    exact histogramChange?_comm hu hv r
  · intro c hc d hd _ r
    obtain ⟨u, -, hu⟩ := List.mem_filterMap.mp hc
    obtain ⟨v, -, hv⟩ := List.mem_filterMap.mp hd
    exact reasonChange?_comm hu hv r

/-- **No lost updates.**  From empty tables of any capacities, every number in the counters, the
histograms and the drop reasons is a total over the list of updates, and every permutation of the
list leads to the same three tables with the same rejections. -/
theorem totals_and_perm_of_applyAll (maxNodes maxDropReasons maxInflight : UInt64)
    (us : List TableUpdate) :
    let fresh := ofCapacities maxNodes maxDropReasons maxInflight
    Totals maxNodes.toNat maxDropReasons.toNat us (fresh.applyAll us) ∧
      ∀ vs, vs.Perm us →
        (fresh.applyAll vs).counters = (fresh.applyAll us).counters ∧
          (fresh.applyAll vs).histograms = (fresh.applyAll us).histograms ∧
          (fresh.applyAll vs).dropReasons = (fresh.applyAll us).dropReasons :=
  ⟨totals_applyAll maxNodes maxDropReasons maxInflight us, fun _ hperm => applyAll_perm _ hperm⟩

/-- Five updates in reverse order: a sum that wraps, a sample outside the table, and one of each
other kind. -/
theorem applyAll_reverse_of_wrapping_updates :
    let us : List TableUpdate := [.increment 1 .rttSum 0xffffffffffffffff, .touch 1 5,
      .observe 3 9, .increment 1 .rttSum 2, .recordDrop 0]
    let fresh := ofCapacities 2 1 0
    us.reverse.Perm us ∧ ((fresh.applyAll us).counters.get? 1).map (·.rttSum) = some 1 ∧
      (fresh.applyAll us).histograms.rejected = 1 ∧
      (fresh.applyAll us.reverse).counters = (fresh.applyAll us).counters ∧
      (fresh.applyAll us.reverse).histograms = (fresh.applyAll us).histograms ∧
      (fresh.applyAll us.reverse).dropReasons = (fresh.applyAll us).dropReasons :=
  ⟨List.reverse_perm _, by decide, by decide,
    (totals_and_perm_of_applyAll 2 1 0 _).2 _ (List.reverse_perm _)⟩

end Tables

end NodeTelemetry
