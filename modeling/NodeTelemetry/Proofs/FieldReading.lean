import Mathlib
import NodeTelemetry.Proofs.Numerals
import NodeTelemetry.Proofs.Yaml.ScalarTexts
import NodeTelemetry.Proofs.Yaml.MappingNodes

/-!
# Reading mappings of fields

A reader of fields takes the entries of a mapping one after another.  If each of them puts its field
into place, all of them do (`FieldReader.readEntries_map`).  If reading fails from some entry on,
whatever was put into place before, then it fails with any entries in front
(`FieldReader.exists_error_of_append`), and it does fail at a key that is unknown or set before.

The values of single fields are read back from the scalars that are written for them.
-/

namespace NodeTelemetry

open Yaml

/-! ## Mappings -/

namespace FieldReader

variable {φ σ : Type} {r : FieldReader φ σ} {d : Document} {path : List String}

/-- A name that no known field has is that of none. -/
lemma find?_eq_none {name : List Char} (h : ∀ entry ∈ r.known, name ≠ entry.1.toList) :
    r.find? name = none := by
  simp only [find?, List.find?_eq_none, beq_iff_eq]
  exact fun entry hentry hname => h entry hentry hname.symm

variable [BEq φ]

/-- A key that is no name of a field is a fault. -/
lemma readEntries_unknown {name : List Char} (hfind : r.find? name = none) (value : Node)
    (rest : List (Node × Node)) (seen : List φ) (s : σ) :
    r.readEntries d path ((MappingEntry.key name, value) :: rest) seen s =
      .error ⟨path, .unknownField name (r.known.map (·.1))⟩ := by
  simp only [readEntries, MappingEntry.key, Document.resolve, readKey, hfind, bind, Except.bind]
  rfl

variable [LawfulBEq φ]

/-- One entry: its field must be known and new, and then the value is put into place. -/
lemma readEntries_cons {name : List Char} {known : String} {f : φ}
    (hfind : r.find? name = some (known, f)) (value : Node) (rest : List (Node × Node))
    (seen : List φ) (s : σ) :
    r.readEntries d path ((MappingEntry.key name, value) :: rest) seen s =
      if f ∈ seen then .error ⟨path, .duplicateField known⟩
      else (r.put f (path ++ [String.ofList name]) (d.resolve value) s).bind
        (r.readEntries d path rest (f :: seen)) := by
  simp only [readEntries, MappingEntry.key, Document.resolve, readKey, stepTo, hfind,
    List.contains_iff_mem, bind, Except.bind]
  split <;> rfl

/-- Entries of different fields put all of them into place. -/
lemma readEntries_map {entry : φ → MappingEntry} {known : φ → String} {state : List φ → σ}
    (hfind : ∀ f, r.find? (entry f).name = some (known f, f))
    (hput : ∀ f seen, r.put f (path ++ [String.ofList (entry f).name]) (d.resolve (entry f).node)
      (state seen) = .ok (state (f :: seen)))
    {fs seen : List φ} (hnodup : fs.Nodup) (hnew : ∀ f ∈ fs, f ∉ seen) :
    r.readEntries d path ((fs.map entry).map MappingEntry.pair) seen (state seen) =
      .ok (state (fs.reverse ++ seen)) := by
  induction fs generalizing seen with
  | nil => rfl
  | cons f fs ih =>
    obtain ⟨hf, hmore⟩ := List.nodup_cons.mp hnodup
    obtain ⟨hfNew, hmoreNew⟩ := List.forall_mem_cons.mp hnew
    have hmoreSeen : ∀ g ∈ fs, g ∉ f :: seen := fun g hg hcon => by
      rcases List.mem_cons.mp hcon with rfl | hcon
      · exact hf hg
      · exact hmoreNew g hg hcon
    rw [List.map_cons, List.map_cons, MappingEntry.pair, readEntries_cons (hfind f), if_neg hfNew,
      hput, Except.bind, ih hmore hmoreSeen, List.reverse_cons, List.append_assoc]
    rfl

/-- If reading fails once the given entries are behind, it fails from them on: one of them may be a
fault itself. -/
lemma exists_error_of_append {α : Type} {entry : α → MappingEntry} {field : α → φ}
    {known : α → String} (hfind : ∀ a, r.find? (entry a).name = some (known a, field a))
    {rest : List (Node × Node)} {as : List α} (seen : List φ) (s : σ)
    (h : ∀ seen' s', (∀ a ∈ as, field a ∈ seen') → seen ⊆ seen' →
      ∃ e, r.readEntries d path rest seen' s' = .error e) :
    ∃ e, r.readEntries d path ((as.map entry).map MappingEntry.pair ++ rest) seen s = .error e := by
  induction as generalizing seen s with
  | nil => exact h seen s (by simp) (List.Subset.refl _)
  | cons a as ih =>
    rw [List.map_cons, List.map_cons, List.cons_append, MappingEntry.pair,
      readEntries_cons (hfind a)]
    split
    · exact ⟨_, rfl⟩
    · cases r.put (field a) (path ++ [String.ofList (entry a).name])
        (d.resolve (entry a).node) s with
      | error e => exact ⟨e, rfl⟩
      | ok s' =>
        refine ih (field a :: seen) s' fun seen' s'' hfields hseen => ?_
        obtain ⟨ha, hseen⟩ := List.cons_subset.mp hseen
        exact h seen' s'' (List.forall_mem_cons.mpr ⟨ha, hfields⟩) hseen

/-- A key that is unknown or set before is a fault, whatever its value is. -/
lemma exists_error_of_key {name : List Char} {seen : List φ}
    (h : r.find? name = none ∨ ∃ known f, r.find? name = some (known, f) ∧ f ∈ seen) (value : Node)
    (rest : List (Node × Node)) (s : σ) :
    ∃ e, r.readEntries d path ((MappingEntry.key name, value) :: rest) seen s = .error e := by
  rcases h with hfind | ⟨known, f, hfind, hseen⟩
  · exact ⟨_, readEntries_unknown hfind value rest seen s⟩
  · exact ⟨_, by rw [readEntries_cons hfind, if_pos hseen]⟩

end FieldReader

/-! ## Values -/

/-- A number is read back where its bound lets it be. -/
lemma readNatural_writeNat (expected : String) {n bound : ℕ} (h : n < bound)
    (hbound : bound ≤ UInt64.size) :
    readNatural expected bound (.scalar none .plain (writeNat n)) = .ok n := by
  simp [readNatural, natural?_writeNat (h.trans_le hbound), h]

/-- A text is not taken for one that is missing, whatever it is. -/
lemma readOptionalText_styleOf (path : List String) (text : List Char) :
    readOptionalText path (.scalar none (styleOf text) text) = .ok (some (String.ofList text)) := by
  rcases styleOf_cases text with ⟨hstyle, -, -, hlooks⟩ | ⟨hstyle, -⟩ | hstyle | ⟨hstyle, -⟩ <;>
    rw [hstyle]
  case inr.inl | inr.inr.inl | inr.inr.inr => rfl
  have hvalue : (text.isEmpty || Value.isNull text) = false := by
    simp only [looksLikeValue, Bool.or_eq_false_iff, decide_eq_false_iff_not, not_not] at hlooks
    by_contra hnull
    rw [Bool.not_eq_false] at hnull
    simp [Value.ofPlain, hnull] at hlooks
  simp [readOptionalText, hvalue]

end NodeTelemetry
