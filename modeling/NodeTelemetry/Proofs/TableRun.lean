import Mathlib
import NodeTelemetry.SlotTable

/-!
# Runs of updates on a bounded table

A run is a list of changes, each under a key.  Two facts describe the table after it.  A record is
what its own changes make of the initial record, in their order, and exists once there was one; the
rejections are the changes outside the table (`get?_updateAll_ofCapacity`,
`rejected_updateAll`).  If the changes under each key commute, the order of the whole run does not
matter (`updateAll_perm`).
-/

namespace NodeTelemetry

namespace SlotTable

variable {α : Type}

/-! ## One update -/

/-- Two tables with the same capacity, look-ups and rejections are equal. -/
lemma ext_get? {t u : SlotTable α} (hcapacity : t.capacity = u.capacity)
    (hget : ∀ key, t.get? key = u.get? key) (hrejected : t.rejected = u.rejected) : t = u := by
  obtain ⟨tc, ts, tr⟩ := t
  obtain ⟨uc, us, ur⟩ := u
  have hslots : ts = us := KeyMap.ext_get? hget
  simp only at hcapacity hrejected
  rw [hcapacity, hslots, hrejected]

/-- An update keeps the capacity. -/
@[simp] lemma capacity_update (t : SlotTable α) (key : UInt32) (initial : α) (change : α → α) :
    (t.update key initial change).capacity = t.capacity := by
  unfold update
  split <;> rfl

/-- An update is rejected exactly if its key lies outside the table. -/
lemma rejected_update (t : SlotTable α) (key : UInt32) (initial : α) (change : α → α) :
    (t.update key initial change).rejected =
      if key.toNat < t.capacity then t.rejected else t.rejected + 1 := by
  unfold update
  split <;> rfl

/-- An update reaches the record of its own key, if that lies in the table, and no other. -/
lemma get?_update_eq_ite (t : SlotTable α) (key key' : UInt32) (initial : α) (change : α → α) :
    (t.update key initial change).get? key' =
      if key.toNat < t.capacity ∧ key' = key then some (change ((t.get? key).getD initial))
      else t.get? key' := by
  by_cases hkey : key.toNat < t.capacity
  · simp [get?_update t hkey, hkey]
  · rw [update_of_le t (Nat.not_lt.mp hkey)]
    simp [hkey, get?]

/-- Two updates may be exchanged if their keys differ or their changes commute. -/
lemma update_comm (t : SlotTable α) {key₁ key₂ : UInt32} (initial : α) {change₁ change₂ : α → α}
    (hcomm : key₁ = key₂ → ∀ r, change₂ (change₁ r) = change₁ (change₂ r)) :
    (t.update key₁ initial change₁).update key₂ initial change₂ =
      (t.update key₂ initial change₂).update key₁ initial change₁ := by
  refine ext_get? (by simp) (fun key => ?_) ?_
  · simp only [get?_update_eq_ite, capacity_update]
    by_cases hkeys : key₁ = key₂
    · subst hkeys
      by_cases h₁ : key₁.toNat < t.capacity ∧ key = key₁
      · simp [h₁, hcomm rfl]
      · simp [h₁]
    · by_cases hk₁ : key = key₁
      · subst hk₁
        simp [hkeys]
      · by_cases hk₂ : key = key₂
        · subst hk₂
          simp [Ne.symm hkeys]
        · simp [hk₁, hk₂]
  · simp only [rejected_update, capacity_update]
    split <;> split <;> rfl

/-! ## A list of updates -/

/-- The table after a list of changes, each under its key, the first one first. -/
def updateAll (t : SlotTable α) (initial : α) (changes : List (UInt32 × (α → α))) : SlotTable α :=
  changes.foldl (fun t c => t.update c.1 initial c.2) t

/-- The changes under one key, in their order. -/
def changesAt (key : UInt32) (changes : List (UInt32 × (α → α))) : List (α → α) :=
  changes.filterMap fun c => if c.1 = key then some c.2 else none

@[simp] lemma updateAll_nil (t : SlotTable α) (initial : α) : t.updateAll initial [] = t := rfl

@[simp] lemma updateAll_cons (t : SlotTable α) (initial : α) (c : UInt32 × (α → α))
    (changes : List (UInt32 × (α → α))) :
    t.updateAll initial (c :: changes) = (t.update c.1 initial c.2).updateAll initial changes :=
  rfl

@[simp] lemma changesAt_nil (key : UInt32) :
    changesAt key ([] : List (UInt32 × (α → α))) = [] := rfl

lemma changesAt_cons (key : UInt32) (c : UInt32 × (α → α)) (changes : List (UInt32 × (α → α))) :
    changesAt key (c :: changes) =
      if c.1 = key then c.2 :: changesAt key changes else changesAt key changes := by
  unfold changesAt
  by_cases hc : c.1 = key <;> simp [hc]

/-- There is a change under a key exactly if the key occurs in the list. -/
lemma changesAt_ne_nil_iff {key : UInt32} {changes : List (UInt32 × (α → α))} :
    changesAt key changes ≠ [] ↔ ∃ c ∈ changes, c.1 = key := by
  simp [changesAt, List.filterMap_eq_nil_iff]

/-- The rejections grow by the number of changes outside the table, modulo `2 ^ 64`. -/
lemma rejected_updateAll (t : SlotTable α) (initial : α) (changes : List (UInt32 × (α → α))) :
    (t.updateAll initial changes).rejected =
      t.rejected + UInt64.ofNat (changes.countP fun c => t.capacity ≤ c.1.toNat) := by
  induction changes generalizing t with
  | nil => simp
  | cons c changes ih =>
    rw [updateAll_cons, ih, rejected_update, capacity_update, List.countP_cons]
    by_cases hc : c.1.toNat < t.capacity
    · have hle : ¬ t.capacity ≤ c.1.toNat := Nat.not_le.mpr hc
      simp [hc, hle]
    · have hle : t.capacity ≤ c.1.toNat := Nat.not_lt.mp hc
      simp only [hc, if_false, hle, decide_true, if_true, UInt64.ofNat_add]
      rw [UInt64.add_assoc, UInt64.add_comm 1]
      rfl

/-- A record inside the table is what the changes under its key make of it. -/
lemma get?_updateAll (t : SlotTable α) (initial : α) (changes : List (UInt32 × (α → α)))
    {key : UInt32} (hkey : key.toNat < t.capacity) :
    (t.updateAll initial changes).get? key =
      if changesAt key changes = [] then t.get? key
      else some ((changesAt key changes).foldl (fun r f => f r) ((t.get? key).getD initial)) := by
  induction changes generalizing t with
  | nil => simp
  | cons c changes ih =>
    have hkey' : key.toNat < (t.update c.1 initial c.2).capacity := by simpa using hkey
    rw [updateAll_cons, ih _ hkey', changesAt_cons, get?_update_eq_ite]
    by_cases hc : c.1 = key
    · subst hc
      by_cases hnil : changesAt c.1 changes = [] <;> simp [hkey, hnil]
    · simp [hc, Ne.symm hc]

/-- A key outside an empty table never has a record. -/
lemma get?_updateAll_of_le (t : SlotTable α) (initial : α) (changes : List (UInt32 × (α → α)))
    {key : UInt32} (hkey : t.capacity ≤ key.toNat) :
    (t.updateAll initial changes).get? key = t.get? key := by
  induction changes generalizing t with
  | nil => rfl
  | cons c changes ih =>
    rw [updateAll_cons, ih _ (by simpa using hkey), get?_update_eq_ite]
    have hne : ¬ (c.1.toNat < t.capacity ∧ key = c.1) := by
      rintro ⟨hlt, rfl⟩
      omega
    rw [if_neg hne]

/-- From an empty table, a record exists once its key lies in the table and was used, and is what
the changes under its key make of the initial record. -/
lemma get?_updateAll_ofCapacity (capacity : ℕ) (initial : α) (changes : List (UInt32 × (α → α)))
    (key : UInt32) :
    ((ofCapacity capacity).updateAll initial changes).get? key =
      if key.toNat < capacity ∧ changesAt key changes ≠ [] then
        some ((changesAt key changes).foldl (fun r f => f r) initial)
      else none := by
  by_cases hkey : key.toNat < capacity
  · rw [get?_updateAll _ _ _ hkey]
    by_cases hnil : changesAt key changes = [] <;> simp [hkey, hnil]
  · rw [get?_updateAll_of_le _ _ _ (Nat.not_lt.mp hkey)]
    simp [hkey]

/-- If the changes under each key commute, a permutation of them leads to the same table. -/
lemma updateAll_perm (t : SlotTable α) (initial : α) {changes changes' : List (UInt32 × (α → α))}
    (hcomm : ∀ c ∈ changes, ∀ d ∈ changes, c.1 = d.1 → ∀ r, d.2 (c.2 r) = c.2 (d.2 r))
    (hperm : changes.Perm changes') :
    t.updateAll initial changes = t.updateAll initial changes' :=
  hperm.foldl_eq' (fun c hc d hd t => update_comm t initial (hcomm c hc d hd)) t

/-! ### Changes made by steps of another kind -/

section Steps

variable {β : Type} {change? : β → Option (UInt32 × (α → α))}

/-- A record of a table that was empty at first is what the changes under its key make of the
initial record. -/
lemma eq_foldl_of_get?_updateAll_ofCapacity {capacity : ℕ} {initial r : α}
    {changes : List (UInt32 × (α → α))} {key : UInt32}
    (hr : ((ofCapacity capacity).updateAll initial changes).get? key = some r) :
    r = (changesAt key changes).foldl (fun r f => f r) initial := by
  rw [get?_updateAll_ofCapacity] at hr
  split at hr
  · exact (Option.some.inj hr).symm
  · cases hr

/-- A record exists exactly under the keys inside the table that were used. -/
lemma isSome_get?_updateAll_ofCapacity (capacity : ℕ) (initial : α) (us : List β) (key : UInt32) :
    (((ofCapacity capacity).updateAll initial (us.filterMap change?)).get? key).isSome ↔
      key.toNat < capacity ∧ some key ∈ us.map fun u => (change? u).map Prod.fst := by
  have hused : changesAt key (us.filterMap change?) ≠ [] ↔
      some key ∈ us.map fun u => (change? u).map Prod.fst := by
    rw [changesAt_ne_nil_iff]
    constructor
    · rintro ⟨c, hc, rfl⟩
      obtain ⟨u, hu, huc⟩ := List.mem_filterMap.mp hc
      exact List.mem_map.mpr ⟨u, hu, by rw [huc]; rfl⟩
    · intro h
      obtain ⟨u, hu, hkey⟩ := List.mem_map.mp h
      obtain ⟨c, hc, hck⟩ := Option.map_eq_some_iff.mp hkey
      exact ⟨c, List.mem_filterMap.mpr ⟨u, hu, hc⟩, hck⟩
  rw [get?_updateAll_ofCapacity, ← hused]
  split <;> simp_all

/-- The rejections of a table that was empty at first are the steps with a key outside it, modulo
`2 ^ 64`. -/
lemma toNat_rejected_updateAll_ofCapacity (capacity : ℕ) (initial : α) (us : List β) :
    ((ofCapacity capacity).updateAll initial (us.filterMap change?)).rejected.toNat =
      (us.filterMap fun u => (change? u).map Prod.fst).countP (capacity ≤ ·.toNat)
        % UInt64.size := by
  have hkeys : (us.filterMap fun u => (change? u).map Prod.fst) =
      (us.filterMap change?).map Prod.fst := by
    rw [List.map_filterMap]
  rw [rejected_updateAll, hkeys, List.countP_map]
  simp only [ofCapacity, UInt64.zero_add, UInt64.toNat_ofNat']
  rfl

/-- A number in a record grows by the sum of the amounts that the changes under its key add to it,
modulo `2 ^ 64`. -/
lemma toNat_foldl_changesAt {key : UInt32} (number : α → UInt64) {amount : β → ℕ}
    (hchange : ∀ u f, change? u = some (key, f) →
      ∀ r, (number (f r)).toNat = ((number r).toNat + amount u) % UInt64.size)
    (hother : ∀ u, (∀ f, change? u ≠ some (key, f)) → amount u = 0) (us : List β) (r : α) :
    (number ((changesAt key (us.filterMap change?)).foldl (fun r f => f r) r)).toNat =
      ((number r).toNat + (us.map amount).sum) % UInt64.size := by
  induction us generalizing r with
  | nil => exact (Nat.mod_eq_of_lt (number r).toNat_lt).symm
  | cons u us ih =>
    rw [List.map_cons, List.sum_cons]
    by_cases hu : ∃ f, change? u = some (key, f)
    · obtain ⟨f, hf⟩ := hu
      rw [List.filterMap_cons_some hf, changesAt_cons, if_pos rfl, List.foldl_cons, ih,
        hchange u f hf, Nat.mod_add_mod, Nat.add_assoc]
    · have hskip : changesAt key ((u :: us).filterMap change?) =
          changesAt key (us.filterMap change?) := by
        cases hc : change? u with
        | none => rw [List.filterMap_cons_none hc]
        | some c =>
          have hkey : c.1 ≠ key := fun he => hu ⟨c.2, by rw [hc, ← he]⟩
          rw [List.filterMap_cons_some hc, changesAt_cons, if_neg hkey]
      rw [hskip, ih, hother u (fun f hf => hu ⟨f, hf⟩), Nat.zero_add]

end Steps

end SlotTable

end NodeTelemetry
