import Mathlib
import NodeTelemetry.Proofs.TableRun
import NodeTelemetry.Proofs.WakeupCount

/-!
# Runs of steps on a bounded table

A table of records is a partial map on the keys below its capacity.  What a look-up that creates
does is told by `getOrCreate_of_get?_eq_some`, `getOrCreate_of_get?_eq_none` and
`getOrCreate_of_le`.  Two run lemmas follow: a record that is there changes by the changes made to
it and by nothing else (`get?_run_of_get?_eq_some`), and a key without a record stays so until it is
asked for (`get?_run_of_not_asked`).  Together they say which record a key has after a run
(`get?_run_eq_some_iff`): the first value it was asked for with, and what later changes made of it.
All that a table promises after a run is `SlotTable.IsPartialMap`.
-/

namespace NodeTelemetry

/-- What is done to a table of records. -/
inductive SlotStep (α : Type) where
  /-- The record of a key is looked up. -/
  | get (key : UInt32)
  /-- The record of a key is looked up, and made from a value if there is none. -/
  | getOrCreate (key : UInt32) (initial : α)
  /-- The record of a key, if there is one, is changed in place, for instance by an addition. -/
  | modify (key : UInt32) (change : α → α)

namespace SlotStep

variable {α : Type}

/-- The key of a step. -/
def key : SlotStep α → UInt32
  | .get key => key
  | .getOrCreate key _ => key
  | .modify key _ => key

/-- The change that a step makes in place, with its key. -/
def change? : SlotStep α → Option (UInt32 × (α → α))
  | .modify key change => some (key, change)
  | _ => none

/-- The step asks for a record outside a table of a capacity. -/
def asksOutside (capacity : ℕ) : SlotStep α → Bool
  | .getOrCreate key _ => capacity ≤ key.toNat
  | _ => false

/-- The record of a key after some steps on a table without records: the value that it was first
asked for with, changed by what was done to it since then. -/
def IsRecord (steps : List (SlotStep α)) (key : UInt32) (r : α) : Prop :=
  ∃ before initial later, steps = before ++ .getOrCreate key initial :: later ∧
    (∀ i, .getOrCreate key i ∉ before) ∧
    r = (SlotTable.changesAt key (later.filterMap change?)).foldl (fun r f => f r) initial

/-- A key that is asked for is asked for a first time. -/
lemma exists_first_asked {steps : List (SlotStep α)} {key : UInt32} {initial : α}
    (hasked : .getOrCreate key initial ∈ steps) :
    ∃ before first later, steps = before ++ .getOrCreate key first :: later ∧
      ∀ i, .getOrCreate key i ∉ before := by
  induction steps with
  | nil => cases hasked
  | cons s steps ih =>
    by_cases hs : ∃ first, s = .getOrCreate key first
    · obtain ⟨first, rfl⟩ := hs
      exact ⟨[], first, steps, rfl, fun _ => List.not_mem_nil⟩
    · have hne : ∀ i, .getOrCreate key i ≠ s := fun i heq => hs ⟨i, heq.symm⟩
      obtain ⟨before, first, later, rfl, hbefore⟩ :=
        ih (List.mem_of_ne_of_mem (hne initial) hasked)
      exact ⟨s :: before, first, later, rfl, fun i hi =>
        hbefore i (List.mem_of_ne_of_mem (hne i) hi)⟩

/-- The keys with a record are those that were asked for. -/
lemma exists_isRecord_iff {steps : List (SlotStep α)} {key : UInt32} :
    (∃ r, IsRecord steps key r) ↔ ∃ initial, .getOrCreate key initial ∈ steps := by
  constructor
  · rintro ⟨_, before, initial, later, rfl, -, -⟩
    exact ⟨initial, by simp⟩
  · rintro ⟨initial, hasked⟩
    obtain ⟨before, first, later, heq, hbefore⟩ := exists_first_asked hasked
    exact ⟨_, before, first, later, heq, hbefore, rfl⟩

end SlotStep

namespace SlotTable

variable {α : Type} {t : SlotTable α} {key : UInt32} {r : α}

/-- A step on a table: the record that it gives to its caller, and the table after it. -/
def step (t : SlotTable α) : SlotStep α → Option α × SlotTable α
  | .get key => (t.get? key, t)
  | .getOrCreate key initial => t.getOrCreate key initial
  | .modify key change => ((t.modify key change).get? key, t.modify key change)

/-- The table after a run of steps, the first one first. -/
def run (t : SlotTable α) (steps : List (SlotStep α)) : SlotTable α :=
  steps.foldl (fun t s => (t.step s).2) t

@[simp] lemma run_nil (t : SlotTable α) : t.run [] = t := rfl

@[simp] lemma run_cons (t : SlotTable α) (s : SlotStep α) (steps : List (SlotStep α)) :
    t.run (s :: steps) = (t.step s).2.run steps := rfl

lemma run_append (t : SlotTable α) (steps later : List (SlotStep α)) :
    t.run (steps ++ later) = (t.run steps).run later :=
  List.foldl_append

/-! ## One step -/

/-- A record that is there is given as it is. -/
lemma getOrCreate_of_get?_eq_some (hkey : key.toNat < t.capacity) (hr : t.get? key = some r)
    (initial : α) : t.getOrCreate key initial = (some r, t) := by
  simp [getOrCreate, hkey, hr]

/-- A record that is not there is made inside the table. -/
lemma getOrCreate_of_get?_eq_none (hkey : key.toNat < t.capacity) (hfree : t.get? key = none)
    (initial : α) :
    t.getOrCreate key initial = (some initial, { t with slots := t.slots.insert key initial }) := by
  simp [getOrCreate, hkey, hfree]

/-- Outside the table there is no record, and asking for one is counted. -/
lemma getOrCreate_of_le (hkey : t.capacity ≤ key.toNat) (initial : α) :
    t.getOrCreate key initial = (none, { t with rejected := t.rejected + 1 }) := by
  simp [getOrCreate, Nat.not_lt.mpr hkey]

/-- Asking for the record of a key inside the table makes it if need be, and concerns no other. -/
lemma get?_getOrCreate (t : SlotTable α) (key key' : UInt32) (initial : α) :
    (t.getOrCreate key initial).2.get? key' =
      if key.toNat < t.capacity ∧ key' = key then some ((t.get? key).getD initial)
      else t.get? key' := by
  rcases Nat.lt_or_ge key.toNat t.capacity with hkey | hkey
  · cases hr : t.get? key with
    | some r =>
      rw [getOrCreate_of_get?_eq_some hkey hr]
      by_cases hkeys : key' = key <;> simp [hkeys, hr]
    | none =>
      rw [getOrCreate_of_get?_eq_none hkey hr]
      simp [get?, KeyMap.get?_insert, hkey]
  · rw [getOrCreate_of_le hkey]
    simp [get?, Nat.not_lt.mpr hkey]

/-- A change in place needs a record. -/
lemma modify_of_get?_eq_none (hfree : t.get? key = none) (change : α → α) :
    t.modify key change = t := by
  simp [modify, hfree]

/-- A step keeps the capacity. -/
@[simp] lemma capacity_step (t : SlotTable α) (s : SlotStep α) :
    (t.step s).2.capacity = t.capacity := by
  cases s with
  | get key => rfl
  | getOrCreate key initial =>
    simp only [step, getOrCreate]
    repeat' split
    all_goals rfl
  | modify key change =>
    simp only [step, modify]
    split <;> rfl

/-- Only asking for a record outside the table is counted. -/
lemma rejected_step (t : SlotTable α) (s : SlotStep α) :
    (t.step s).2.rejected = if s.asksOutside t.capacity then t.rejected + 1 else t.rejected := by
  cases s with
  | get key => rfl
  | getOrCreate key initial =>
    rcases Nat.lt_or_ge key.toNat t.capacity with hkey | hkey
    · simp only [step, getOrCreate, hkey, SlotStep.asksOutside, Nat.not_le.mpr hkey, if_true]
      split <;> rfl
    · simp [step, getOrCreate_of_le hkey, SlotStep.asksOutside, hkey]
  | modify key change =>
    simp only [step, modify]
    split <;> rfl

/-- A step leaves the records of other keys alone. -/
lemma get?_step_of_ne {s : SlotStep α} (hne : s.key ≠ key) :
    (t.step s).2.get? key = t.get? key := by
  cases s with
  | get key' => rfl
  | getOrCreate key' initial =>
    exact (get?_getOrCreate t key' key initial).trans (if_neg fun hboth => hne hboth.2.symm)
  | modify key' change =>
    exact (get?_modify t key' key change).trans (if_neg fun heq => hne heq.symm)

/-! ## Runs -/

@[simp] lemma capacity_run (t : SlotTable α) (steps : List (SlotStep α)) :
    (t.run steps).capacity = t.capacity := by
  induction steps generalizing t with
  | nil => rfl
  | cons s steps ih => rw [run_cons, ih, capacity_step]

/-- The rejections grow by the number of times that a record outside the table was asked for, modulo
`2 ^ 64`. -/
lemma rejected_run (t : SlotTable α) (steps : List (SlotStep α)) :
    (t.run steps).rejected =
      t.rejected + UInt64.ofNat (steps.countP (·.asksOutside t.capacity)) := by
  induction steps generalizing t with
  | nil => simp
  | cons s steps ih =>
    rw [run_cons, ih, rejected_step, capacity_step, List.countP_cons]
    by_cases hs : s.asksOutside t.capacity = true
    · simp only [hs, if_true, UInt64.ofNat_add]
      rw [UInt64.add_assoc, UInt64.add_comm 1]
      rfl
    · simp [hs]

/-- Steps on other keys leave a record alone. -/
lemma get?_run_of_ne {steps : List (SlotStep α)} (hne : ∀ s ∈ steps, s.key ≠ key) :
    (t.run steps).get? key = t.get? key := by
  induction steps generalizing t with
  | nil => rfl
  | cons s steps ih =>
    rw [run_cons, ih fun s' hs' => hne s' (List.mem_cons_of_mem _ hs'),
      get?_step_of_ne (hne s List.mem_cons_self)]

/-- A record stays, and changes by the changes made to it and by nothing else. -/
lemma get?_run_of_get?_eq_some (hr : t.get? key = some r) (steps : List (SlotStep α)) :
    (t.run steps).get? key =
      some ((changesAt key (steps.filterMap SlotStep.change?)).foldl (fun r f => f r) r) := by
  induction steps generalizing t r with
  | nil => exact hr
  | cons s steps ih =>
    rw [run_cons]
    cases s with
    | get key' => exact ih hr
    | getOrCreate key' initial =>
      have hkept : (t.getOrCreate key' initial).2.get? key = some r := by
        rw [get?_getOrCreate]
        by_cases hkey : key'.toNat < t.capacity ∧ key = key'
        · obtain ⟨hlt, rfl⟩ := hkey
          simp [hlt, hr]
        · rw [if_neg hkey, hr]
      exact ih hkept
    | modify key' change =>
      have hchange : (SlotStep.modify key' change).change? = some (key', change) := rfl
      have hchanged : (t.modify key' change).get? key =
          if key = key' then (t.get? key').map change else t.get? key :=
        get?_modify t key' key change
      rw [List.filterMap_cons_some hchange, changesAt_cons]
      by_cases hkey : key' = key
      · subst hkey
        rw [if_pos rfl, hr] at hchanged
        rw [if_pos rfl]
        exact ih hchanged
      · rw [if_neg (Ne.symm hkey), hr] at hchanged
        rw [if_neg hkey]
        exact ih hchanged

/-- A key without a record has none until it is asked for, and never has one outside the table. -/
lemma get?_run_of_not_asked {steps : List (SlotStep α)} (hfree : t.get? key = none)
    (hasked : key.toNat < t.capacity → ∀ i, .getOrCreate key i ∉ steps) :
    (t.run steps).get? key = none := by
  induction steps generalizing t with
  | nil => exact hfree
  | cons s steps ih =>
    have hstep : (t.step s).2.get? key = none := by
      by_cases hkey : s.key = key
      · subst hkey
        cases s with
        | get key => exact hfree
        | getOrCreate key initial =>
          refine (get?_getOrCreate t key key initial).trans ?_
          rw [if_neg fun hboth => hasked hboth.1 initial List.mem_cons_self]
          exact hfree
        | modify key change =>
          refine (get?_modify t key key change).trans ?_
          rw [if_pos rfl]
          exact congrArg (Option.map change) hfree
      · rw [get?_step_of_ne hkey, hfree]
    rw [run_cons]
    refine ih hstep fun hlt i hi => ?_
    rw [capacity_step] at hlt
    exact hasked hlt i (List.mem_cons_of_mem _ hi)

/-- A key inside the table without a record has, after a run, the one of the history. -/
lemma get?_run_eq_some_iff (hfree : t.get? key = none) (steps : List (SlotStep α)) :
    (t.run steps).get? key = some r ↔ key.toNat < t.capacity ∧ SlotStep.IsRecord steps key r := by
  -- what the steps before, at and after the first time that the key is asked for make of its record
  have hfirst : ∀ before initial later, key.toNat < t.capacity →
      (∀ i, .getOrCreate key i ∉ before) →
      (t.run (before ++ .getOrCreate key initial :: later)).get? key =
        some ((changesAt key (later.filterMap SlotStep.change?)).foldl (fun r f => f r)
          initial) := by
    intro before initial later hkey hbefore
    have hnone : (t.run before).get? key = none := get?_run_of_not_asked hfree fun _ => hbefore
    have hmade : ((t.run before).getOrCreate key initial).2.get? key = some initial := by
      rw [get?_getOrCreate, capacity_run, if_pos ⟨hkey, rfl⟩, hnone, Option.getD_none]
    rw [run_append, run_cons]
    exact get?_run_of_get?_eq_some hmade later
  constructor
  · intro hr
    have hasked : key.toNat < t.capacity ∧ ∃ initial, .getOrCreate key initial ∈ steps := by
      by_contra hnot
      have hnone := get?_run_of_not_asked hfree fun hkey i hi => hnot ⟨hkey, i, hi⟩
      rw [hnone] at hr
      cases hr
    obtain ⟨hkey, initial, hmem⟩ := hasked
    obtain ⟨before, first, later, rfl, hbefore⟩ := SlotStep.exists_first_asked hmem
    rw [hfirst before first later hkey hbefore] at hr
    exact ⟨hkey, before, first, later, rfl, hbefore, (Option.some.inj hr).symm⟩
  · rintro ⟨hkey, before, initial, later, rfl, hbefore, rfl⟩
    exact hfirst before initial later hkey hbefore

/-- An update is a look-up that creates, followed by a change in place, on a table without records
outside. -/
lemma update_eq_run (houtside : t.capacity ≤ key.toNat → t.get? key = none) (initial : α)
    (change : α → α) :
    t.update key initial change = t.run [.getOrCreate key initial, .modify key change] := by
  refine ext_get? ?_ (fun key' => ?_) ?_
  · rw [capacity_update, capacity_run]
  · have hrun : (t.run [.getOrCreate key initial, .modify key change]).get? key' =
        ((t.getOrCreate key initial).2.modify key change).get? key' := rfl
    rcases Nat.lt_or_ge key.toNat t.capacity with hkey | hkey
    · rw [hrun, update_eq_modify t hkey]
    · have hfree : (t.getOrCreate key initial).2.get? key = none := by
        rw [get?_getOrCreate, if_neg fun hboth => Nat.not_lt.mpr hkey hboth.1, houtside hkey]
      rw [hrun, modify_of_get?_eq_none hfree, getOrCreate_of_le hkey, update_of_le t hkey]
  · rw [rejected_update, run_cons, run_cons, run_nil, rejected_step, rejected_step]
    rcases Nat.lt_or_ge key.toNat t.capacity with hkey | hkey
    · simp [SlotStep.asksOutside, hkey]
    · simp [SlotStep.asksOutside, hkey, Nat.not_lt.mpr hkey]

/-! ## The table as a partial map -/

/-- How a table of a capacity behaves after a run of steps on the table without records. -/
structure IsPartialMap (capacity : ℕ) (steps : List (SlotStep α)) (t : SlotTable α) : Prop where
  /-- A key has a record exactly if it is inside the table and was asked for, and then the one of
  the first time, with the changes since then. -/
  get?_iff : ∀ key r, t.get? key = some r ↔ key.toNat < capacity ∧ SlotStep.IsRecord steps key r
  /-- Looking for a record makes none and counts nothing. -/
  get : ∀ key, t.step (.get key) = (t.get? key, t)
  /-- Asking for a record that is there gives it and changes nothing. -/
  getOrCreate_of_record : ∀ key initial r, t.get? key = some r →
    t.step (.getOrCreate key initial) = (some r, t)
  /-- Asking for one that is not there, inside the table, stores the value and gives it. -/
  getOrCreate_of_free : ∀ key initial, key.toNat < capacity → t.get? key = none →
    (t.step (.getOrCreate key initial)).1 = some initial ∧
      (t.step (.getOrCreate key initial)).2.get? key = some initial ∧
      (t.step (.getOrCreate key initial)).2.rejected = t.rejected
  /-- A change in place gives and leaves the changed record. -/
  modify_of_record : ∀ key change r, t.get? key = some r →
    (t.step (.modify key change)).1 = some (change r) ∧
      (t.step (.modify key change)).2.get? key = some (change r) ∧
      (t.step (.modify key change)).2.rejected = t.rejected
  /-- Without a record there is nothing to change. -/
  modify_of_free : ∀ key change, t.get? key = none → t.step (.modify key change) = (none, t)
  /-- A key outside the table changes nothing but the rejections, and these only if a record is
  asked for. -/
  outside : ∀ key, capacity ≤ key.toNat → t.step (.get key) = (none, t) ∧
    (∀ change, t.step (.modify key change) = (none, t)) ∧
    ∀ initial, t.step (.getOrCreate key initial) = (none, { t with rejected := t.rejected + 1 })
  /-- The rejections are the times that a record outside the table was asked for. -/
  rejected : t.rejected.toNat = steps.countP (·.asksOutside capacity) % UInt64.size
  /-- The keys are listed in strictly ascending order. -/
  keys_ascending : t.keys.Pairwise (· < ·)
  /-- The keys listed are those inside the table that were asked for. -/
  mem_keys : ∀ key, key ∈ t.keys ↔
    key.toNat < capacity ∧ ∃ initial, .getOrCreate key initial ∈ steps
  /-- The size is the number of keys. -/
  size_eq : t.size = t.keys.length
  /-- The table is empty exactly if its size is zero. -/
  isEmpty_iff : t.isEmpty = true ↔ t.size = 0
  /-- Steps on other keys leave the record of a key alone. -/
  others : ∀ later key, (∀ s ∈ later, SlotStep.key s ≠ key) → (t.run later).get? key = t.get? key
  /-- A record stays, whatever is done. -/
  persists : ∀ later key, (t.get? key).isSome → ((t.run later).get? key).isSome
  /-- An update, from which the tables of the agent are made, is two of these steps. -/
  update_eq : ∀ key initial change,
    t.update key initial change = t.run [.getOrCreate key initial, .modify key change]

/-- **The table is a partial map on the keys below its capacity.**  Whatever the capacity, and
whatever was looked up, asked for and changed before, a record is made once, from the value it was
first asked for with, stays, and is changed by the changes made to it alone; the keys listed are
those for which this happened, and all that other keys do is to be counted when they are asked
for. -/
theorem isPartialMap_run (capacity : ℕ) (steps : List (SlotStep α)) :
    IsPartialMap capacity steps ((ofCapacity capacity).run steps) := by
  have hcapacity : ((ofCapacity capacity : SlotTable α).run steps).capacity = capacity :=
    capacity_run _ steps
  have hget : ∀ key r, ((ofCapacity capacity).run steps).get? key = some r ↔
      key.toNat < capacity ∧ SlotStep.IsRecord steps key r :=
    fun key _ => get?_run_eq_some_iff (get?_ofCapacity capacity key) steps
  have hrejected : ((ofCapacity capacity : SlotTable α).run steps).rejected.toNat =
      steps.countP (·.asksOutside capacity) % UInt64.size := by
    rw [rejected_run]
    simp only [ofCapacity, UInt64.zero_add, UInt64.toNat_ofNat']
  generalize (ofCapacity capacity).run steps = t at hcapacity hget hrejected
  subst hcapacity
  have houtside : ∀ key : UInt32, t.capacity ≤ key.toNat → t.get? key = none := by
    intro key hkey
    rw [Option.eq_none_iff_forall_ne_some]
    exact fun r hr => Nat.not_lt.mpr hkey ((hget key r).mp hr).1
  constructor
  case get?_iff => exact hget
  case get => exact fun key => rfl
  case getOrCreate_of_record =>
    exact fun key initial r hr => getOrCreate_of_get?_eq_some ((hget key r).mp hr).1 hr initial
  case getOrCreate_of_free =>
    intro key initial hkey hfree
    have hstep : t.step (.getOrCreate key initial) = _ :=
      getOrCreate_of_get?_eq_none hkey hfree initial
    rw [hstep]
    exact ⟨rfl, KeyMap.get?_insert_self _ _ _, rfl⟩
  case modify_of_record =>
    intro key change r hr
    have hchanged : (t.modify key change).get? key = some (change r) := by
      rw [get?_modify, if_pos rfl, hr, Option.map_some]
    exact ⟨hchanged, hchanged, rejected_step t (.modify key change)⟩
  case modify_of_free =>
    intro key change hfree
    simp only [step, modify_of_get?_eq_none hfree, hfree]
  case outside =>
    intro key hkey
    have hfree := houtside key hkey
    refine ⟨?_, fun change => ?_, fun initial => getOrCreate_of_le hkey initial⟩
    · simp only [step, hfree]
    · simp only [step, modify_of_get?_eq_none hfree, hfree]
  case rejected => exact hrejected
  case keys_ascending => exact t.slots.pairwise_keys
  case mem_keys =>
    intro key
    have hsome : (t.slots.get? key).isSome ↔ ∃ r, t.get? key = some r := Option.isSome_iff_exists
    rw [keys, KeyMap.mem_keys, hsome, ← SlotStep.exists_isRecord_iff, ← exists_and_left]
    exact exists_congr fun r => hget key r
  case size_eq => exact t.slots.length_keys.symm
  case isEmpty_iff => exact beq_iff_eq
  case others => exact fun later key hne => get?_run_of_ne hne
  case persists =>
    intro later key hsome
    obtain ⟨r, hr⟩ := Option.isSome_iff_exists.mp hsome
    rw [get?_run_of_get?_eq_some hr later]
    rfl
  case update_eq => exact fun key initial change => update_eq_run (houtside key) initial change

/-- A table of four places: the record of key 2 keeps its first value through a second asking, and
takes the addition between; key 4 is turned away. -/
example :
    let t := (ofCapacity 4 : SlotTable UInt64).run
      [.modify 2 (· + 1), .getOrCreate 2 7, .modify 2 (· + 5), .getOrCreate 2 99, .getOrCreate 4 0,
        .getOrCreate 0 1, .get 3]
    (t.get? 2, t.keys, t.size, t.rejected) = (some 12, [0, 2], 2, 1) := by
  decide

end SlotTable

end NodeTelemetry
