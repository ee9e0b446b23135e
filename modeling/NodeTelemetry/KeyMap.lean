/-!
# Finite maps over 32-bit keys

Every table of the agent is keyed by a 32-bit number: a node, a drop reason or a process.  A
`KeyMap` is a finite map over such keys, held as a list of entries in strictly ascending key order.
The order is part of the type, so a map has one representation only: two maps with the same
look-ups are equal (`KeyMap.ext_get?`), and listing a map gives its keys in ascending order
(`KeyMap.pairwise_keys`).
-/

namespace NodeTelemetry

/-- A finite map over 32-bit keys: its entries, in strictly ascending key order. -/
structure KeyMap (α : Type) where
  entries : List (UInt32 × α)
  ascending : entries.Pairwise fun a b => a.1 < b.1
  deriving DecidableEq, Repr

namespace KeyMap

variable {α β : Type}

/-! ## Entries as bare lists -/

/-- The value listed first under a key. -/
def lookup (key : UInt32) : List (UInt32 × α) → Option α
  | [] => none
  | (k, v) :: rest => if k = key then some v else lookup key rest

/-- Puts an entry at its place in an ascending list, instead of the entry with the same key. -/
def place (key : UInt32) (value : α) : List (UInt32 × α) → List (UInt32 × α)
  | [] => [(key, value)]
  | (k, v) :: rest =>
    if key < k then (key, value) :: (k, v) :: rest
    else if key = k then (key, value) :: rest
    else (k, v) :: place key value rest

theorem mem_place {key : UInt32} {value : α} {e : UInt32 × α} {l : List (UInt32 × α)}
    (h : e ∈ place key value l) : e = (key, value) ∨ e ∈ l := by
  induction l with
  | nil => simpa [place] using h
  | cons a l ih =>
    unfold place at h
    split at h
    · simpa using h
    · split at h
      · rcases List.mem_cons.mp h with h | h
        · exact .inl h
        · exact .inr (List.mem_cons_of_mem _ h)
      · rcases List.mem_cons.mp h with h | h
        · exact .inr (h ▸ List.mem_cons_self)
        · exact (ih h).imp id (List.mem_cons_of_mem _)

theorem pairwise_place {key : UInt32} {value : α} {l : List (UInt32 × α)}
    (h : l.Pairwise fun a b => a.1 < b.1) :
    (place key value l).Pairwise fun a b => a.1 < b.1 := by
  induction l with
  | nil => simp [place]
  | cons a l ih =>
    have ha := List.pairwise_cons.mp h
    unfold place
    split
    · rename_i hlt
      refine List.pairwise_cons.mpr ⟨fun b hb => ?_, h⟩
      rcases List.mem_cons.mp hb with rfl | hb
      · exact hlt
      · exact UInt32.lt_trans hlt (ha.1 b hb)
    · split
      · rename_i heq
        exact List.pairwise_cons.mpr ⟨fun b hb => by simpa [heq] using ha.1 b hb, ha.2⟩
      · rename_i hnlt hne
        refine List.pairwise_cons.mpr ⟨fun b hb => ?_, ih ha.2⟩
        rcases mem_place hb with rfl | hb
        · exact UInt32.lt_of_le_of_ne (UInt32.not_lt.mp hnlt) (Ne.symm hne)
        · exact ha.1 b hb

theorem lookup_eq_none_of_lt {key : UInt32} {l : List (UInt32 × α)}
    (h : ∀ e ∈ l, key < e.1) : lookup key l = none := by
  induction l with
  | nil => rfl
  | cons a l ih =>
    have ha : a.1 ≠ key := fun he =>
      UInt32.lt_irrefl key (he ▸ h a List.mem_cons_self)
    simp only [lookup, ha, if_false]
    exact ih fun e he => h e (List.mem_cons_of_mem _ he)

theorem lookup_place {key key' : UInt32} {value : α} {l : List (UInt32 × α)}
    (h : l.Pairwise fun a b => a.1 < b.1) :
    lookup key' (place key value l) = if key' = key then some value else lookup key' l := by
  induction l with
  | nil => simp [place, lookup, eq_comm]
  | cons a l ih =>
    have ha := List.pairwise_cons.mp h
    unfold place
    split
    · by_cases hk : key = key' <;> simp [lookup, hk, eq_comm]
    · split
      · rename_i heq
        by_cases hk : key = key'
        · simp [lookup, hk]
        · simp [lookup, ← heq, hk, Ne.symm hk]
      · rename_i hnlt hne
        simp only [lookup]
        rw [ih ha.2]
        by_cases hk : a.1 = key'
        · have : key' ≠ key := fun he => hne (he ▸ hk.symm)
          simp [hk, this]
        · simp [hk]

theorem eq_of_lookup_eq {l m : List (UInt32 × α)}
    (hl : l.Pairwise fun a b => a.1 < b.1) (hm : m.Pairwise fun a b => a.1 < b.1)
    (h : ∀ key, lookup key l = lookup key m) : l = m := by
  induction l generalizing m with
  | nil =>
    cases m with
    | nil => rfl
    | cons b m => simpa [lookup] using h b.1
  | cons a l ih =>
    have ha := List.pairwise_cons.mp hl
    cases m with
    | nil => simpa [lookup] using h a.1
    | cons b m =>
      have hb := List.pairwise_cons.mp hm
      have hab : a.1 = b.1 := by
        rcases Decidable.em (a.1 < b.1) with hlt | hnlt
        · have hnone : lookup a.1 (b :: m) = none := by
            refine lookup_eq_none_of_lt fun e he => ?_
            rcases List.mem_cons.mp he with rfl | he
            · exact hlt
            · exact UInt32.lt_trans hlt (hb.1 e he)
          have hsome := h a.1
          rw [hnone] at hsome
          simp [lookup] at hsome
        · rcases Decidable.em (b.1 < a.1) with hlt | hnlt'
          · have hnone : lookup b.1 (a :: l) = none := by
              refine lookup_eq_none_of_lt fun e he => ?_
              rcases List.mem_cons.mp he with rfl | he
              · exact hlt
              · exact UInt32.lt_trans hlt (ha.1 e he)
            have hsome := h b.1
            rw [hnone] at hsome
            simp [lookup] at hsome
          · exact UInt32.le_antisymm (UInt32.not_lt.mp hnlt') (UInt32.not_lt.mp hnlt)
      have hv : a.2 = b.2 := by simpa [lookup, hab] using h a.1
      have hrest : l = m := by
        refine ih ha.2 hb.2 fun key => ?_
        by_cases hk : a.1 = key
        · rw [lookup_eq_none_of_lt fun e he => hk ▸ ha.1 e he,
            lookup_eq_none_of_lt fun e he => hk ▸ hab ▸ hb.1 e he]
        · have := h key
          simpa [lookup, hk, hab ▸ hk] using this
      rw [Prod.ext hab hv, hrest]

/-! ## The map and its look-ups -/

/-- The map without entries. -/
def empty : KeyMap α := ⟨[], List.Pairwise.nil⟩

instance : Inhabited (KeyMap α) := ⟨empty⟩

/-- The value under a key, if there is one. -/
def get? (m : KeyMap α) (key : UInt32) : Option α := lookup key m.entries

/-- The map with a value put under a key, instead of the one there. -/
def insert (m : KeyMap α) (key : UInt32) (value : α) : KeyMap α :=
  ⟨place key value m.entries, pairwise_place m.ascending⟩

/-- The map without the entry of a key. -/
def erase (m : KeyMap α) (key : UInt32) : KeyMap α :=
  ⟨m.entries.filter fun e => e.1 ≠ key, m.ascending.sublist List.filter_sublist⟩

/-- The keys with an entry, ascending. -/
def keys (m : KeyMap α) : List UInt32 := m.entries.map Prod.fst

/-- The number of entries. -/
def size (m : KeyMap α) : Nat := m.entries.length

@[simp] theorem get?_empty (key : UInt32) : (empty : KeyMap α).get? key = none := rfl

theorem get?_insert (m : KeyMap α) (key key' : UInt32) (value : α) :
    (m.insert key value).get? key' = if key' = key then some value else m.get? key' :=
  lookup_place m.ascending

@[simp] theorem get?_insert_self (m : KeyMap α) (key : UInt32) (value : α) :
    (m.insert key value).get? key = some value := by
  simp [get?_insert]

theorem get?_erase (m : KeyMap α) (key key' : UInt32) :
    (m.erase key).get? key' = if key' = key then none else m.get? key' := by
  obtain ⟨l, hl⟩ := m
  simp only [get?, erase]
  clear hl
  induction l with
  | nil => simp [lookup]
  | cons a l ih =>
    by_cases ha : a.1 = key
    · rw [List.filter_cons_of_neg (by simp [ha]), ih]
      by_cases hk : key' = key
      · simp [hk]
      · simp [lookup, ha, hk, Ne.symm hk]
    · rw [List.filter_cons_of_pos (by simp [ha])]
      simp only [lookup, ih]
      by_cases hk : a.1 = key'
      · have : key' ≠ key := fun he => ha (he ▸ hk)
        simp [hk, this]
      · simp [hk]

/-- Two maps with the same look-ups are equal. -/
theorem ext_get? {m n : KeyMap α} (h : ∀ key, m.get? key = n.get? key) : m = n := by
  obtain ⟨l, hl⟩ := m
  obtain ⟨l', hl'⟩ := n
  have := eq_of_lookup_eq hl hl' h
  subst this
  rfl

/-- The keys of a map are listed in strictly ascending order. -/
theorem pairwise_keys (m : KeyMap α) : m.keys.Pairwise (· < ·) :=
  List.pairwise_map.mpr m.ascending

/-- The keys listed are those under which there is a value. -/
theorem mem_keys {m : KeyMap α} {key : UInt32} : key ∈ m.keys ↔ (m.get? key).isSome := by
  obtain ⟨l, hl⟩ := m
  simp only [keys, get?]
  clear hl
  induction l with
  | nil => simp [lookup]
  | cons a l ih =>
    by_cases ha : a.1 = key
    · simp [lookup, ha]
    · simp [lookup, ha, Ne.symm ha, ← ih]

/-- An entry is what the look-up of its key finds. -/
theorem get?_of_mem_entries {m : KeyMap α} {e : UInt32 × α} (h : e ∈ m.entries) :
    m.get? e.1 = some e.2 := by
  obtain ⟨l, hl⟩ := m
  simp only [get?] at h ⊢
  induction l with
  | nil => cases h
  | cons a l ih =>
    have ha := List.pairwise_cons.mp hl
    rcases List.mem_cons.mp h with rfl | h
    · simp [lookup]
    · have hne : a.1 ≠ e.1 := fun he => UInt32.lt_irrefl e.1 (he ▸ ha.1 e h)
      simp [lookup, hne, ih ha.2 h]

/-- The keys of either of two maps, ascending and each once. -/
def unionKeys (m : KeyMap α) (n : KeyMap β) : List UInt32 :=
  let ofFirst : KeyMap Unit := m.keys.foldl (fun u key => u.insert key ()) empty
  (n.keys.foldl (fun u key => u.insert key ()) ofFirst).keys

/-- Putting in some keys adds these keys and no other. -/
theorem isSome_get?_foldl_insert (keys : List UInt32) (u : KeyMap Unit) (key : UInt32) :
    ((keys.foldl (fun u key => u.insert key ()) u).get? key).isSome ↔
      key ∈ keys ∨ (u.get? key).isSome := by
  induction keys generalizing u with
  | nil => simp
  | cons k keys ih =>
    rw [List.foldl_cons, ih, get?_insert]
    by_cases hk : key = k <;> simp [hk]

/-- The keys of the union are the keys of either map. -/
theorem mem_unionKeys {m : KeyMap α} {n : KeyMap β} {key : UInt32} :
    key ∈ m.unionKeys n ↔ (m.get? key).isSome ∨ (n.get? key).isSome := by
  unfold unionKeys
  simp only [mem_keys, isSome_get?_foldl_insert, get?_empty, Option.isSome_none, Bool.false_eq_true,
    or_false]
  exact or_comm

/-- The keys of the union are listed in strictly ascending order. -/
theorem pairwise_unionKeys (m : KeyMap α) (n : KeyMap β) :
    (m.unionKeys n).Pairwise (· < ·) :=
  pairwise_keys _

end KeyMap

end NodeTelemetry
