import NodeTelemetry.KeyMap

/-!
# Bounded tables of records

A `SlotTable` holds one record for each key below its capacity.  A record comes into being on
first use and stays; a key at or above the capacity is turned away and only counted.
-/

namespace NodeTelemetry

/-- Records under the keys below a capacity, and the number of accesses turned away. -/
structure SlotTable (α : Type) where
  capacity : Nat
  slots : KeyMap α
  rejected : UInt64
  deriving DecidableEq, Repr

namespace SlotTable

variable {α : Type}

/-- The table of a capacity, without records. -/
def ofCapacity (capacity : Nat) : SlotTable α := ⟨capacity, .empty, 0⟩

/-- The record under a key, if there is one.  Looking creates nothing and counts nothing. -/
def get? (t : SlotTable α) (key : UInt32) : Option α := t.slots.get? key

/-- The record under a key, made from `initial` on first use; a key outside the table is counted
as rejected. -/
def getOrCreate (t : SlotTable α) (key : UInt32) (initial : α) : Option α × SlotTable α :=
  if key.toNat < t.capacity then
    match t.get? key with
    | some record => (some record, t)
    | none => (some initial, { t with slots := t.slots.insert key initial })
  else (none, { t with rejected := t.rejected + 1 })

/-- The table with a change made to the record under a key, if there is one. -/
def modify (t : SlotTable α) (key : UInt32) (change : α → α) : SlotTable α :=
  match t.get? key with
  | some record => { t with slots := t.slots.insert key (change record) }
  | none => t

/-- The table with a change made to the record under a key, which is made from `initial` on first
use; a key outside the table is counted as rejected. -/
def update (t : SlotTable α) (key : UInt32) (initial : α) (change : α → α) : SlotTable α :=
  if key.toNat < t.capacity then
    { t with slots := t.slots.insert key (change ((t.get? key).getD initial)) }
  else { t with rejected := t.rejected + 1 }

/-- The keys with a record, ascending. -/
def keys (t : SlotTable α) : List UInt32 := t.slots.keys

/-- The number of records. -/
def size (t : SlotTable α) : Nat := t.slots.size

/-- There is no record yet. -/
def isEmpty (t : SlotTable α) : Bool := t.size == 0

@[simp] theorem get?_ofCapacity (capacity : Nat) (key : UInt32) :
    (ofCapacity capacity : SlotTable α).get? key = none := rfl

theorem get?_modify (t : SlotTable α) (key key' : UInt32) (change : α → α) :
    (t.modify key change).get? key' =
      if key' = key then (t.get? key).map change else t.get? key' := by
  unfold modify
  cases h : t.get? key with
  | none => by_cases hk : key' = key <;> simp [hk, h]
  | some record => simp [get?, KeyMap.get?_insert]

/-- An update reaches the record of its own key, which starts from `initial`, and no other. -/
theorem get?_update (t : SlotTable α) {key : UInt32} (hkey : key.toNat < t.capacity)
    (key' : UInt32) (initial : α) (change : α → α) :
    (t.update key initial change).get? key' =
      if key' = key then some (change ((t.get? key).getD initial)) else t.get? key' := by
  simp [update, hkey, get?, KeyMap.get?_insert]

/-- An update outside the table only counts. -/
theorem update_of_le (t : SlotTable α) {key : UInt32} (hkey : t.capacity ≤ key.toNat)
    (initial : α) (change : α → α) :
    t.update key initial change = { t with rejected := t.rejected + 1 } := by
  simp [update, Nat.not_lt.mpr hkey]

/-- An update is a look-up that creates, followed by a change in place. -/
theorem update_eq_modify (t : SlotTable α) {key : UInt32} (hkey : key.toNat < t.capacity)
    (initial : α) (change : α → α) (key' : UInt32) :
    (t.update key initial change).get? key' =
      ((t.getOrCreate key initial).2.modify key change).get? key' := by
  rw [get?_update t hkey, get?_modify]
  simp only [getOrCreate, hkey, if_true]
  cases h : t.get? key with
  | some record => simp [h]
  | none => by_cases hk : key' = key <;> simp [get?, KeyMap.get?_insert, hk]

end SlotTable

end NodeTelemetry
