import Mathlib
import NodeTelemetry.Yaml.Node

/-!
# Nodes of block mappings

The tokens of a block mapping are put together entry by entry.  An entry (`MappingEntry`) has a name
for a key, the tokens of its value and the node that they make; entries at the start of a mapping
make their nodes whatever tokens follow (`Read.blockEntries_append`), and so does a key, though its
value may be anything (`Read.exists_of_blockEntries_key`).
-/

namespace NodeTelemetry.Yaml

/-- An entry of a block mapping: its name, the tokens of its value and the node that these make. -/
structure MappingEntry where
  name : List Char
  value : List Token
  node : Node

namespace MappingEntry

/-- The key of a name. -/
def key (name : List Char) : Node := .scalar none .plain name

/-- The tokens of a key with its colon. -/
def keyTokens (name : List Char) : List Token := [.key, .scalar .plain name, .value]

/-- The tokens of an entry. -/
def tokens (e : MappingEntry) : List Token := keyTokens e.name ++ e.value

/-- The nodes of an entry. -/
def pair (e : MappingEntry) : Node × Node := (key e.name, e.node)

/-- The tokens of the value make the node, whatever follows, with as much fuel as there are
tokens. -/
structure Makes (e : MappingEntry) : Prop where
  notMissing : ∀ rest, Read.endsBlockValue (e.value ++ rest).head? = false
  node_eq : ∀ fuel, e.value.length ≤ fuel → ∀ rest handles names anchored,
    Read.node fuel true true ⟨e.value ++ rest, handles, names, anchored⟩ =
      some (e.node, ⟨rest, handles, names, anchored⟩)

/-- An entry the value of which is a scalar. -/
def scalar (name : List Char) (style : Style) (text : List Char) : MappingEntry :=
  ⟨name, [.scalar style text], .scalar none style text⟩

/-- An entry the value of which is a block mapping. -/
def mapping (name : List Char) (entries : List MappingEntry) : MappingEntry :=
  ⟨name, .blockMappingStart :: (entries.flatMap tokens ++ [.blockEnd]), .mapping (entries.map pair)⟩

lemma makes_scalar (name : List Char) (style : Style) (text : List Char) :
    (scalar name style text).Makes := by
  refine ⟨fun _ => rfl, fun fuel hfuel rest handles names anchored => ?_⟩
  obtain ⟨fuel, rfl⟩ := Nat.exists_eq_succ_of_ne_zero (Nat.ne_of_gt hfuel)
  rfl

lemma length_le_length_flatMap (entries : List MappingEntry) :
    entries.length ≤ (entries.flatMap tokens).length := by
  induction entries with
  | nil => exact Nat.zero_le _
  | cons e entries ih =>
    simp only [List.flatMap_cons, tokens, keyTokens, List.length_append, List.length_cons]
    omega

/-- The tokens of a value are among those of the entries, beside a key for each of them. -/
lemma add_length_le_length_flatMap {entries : List MappingEntry} {e : MappingEntry}
    (he : e ∈ entries) :
    entries.length + e.value.length ≤ (entries.flatMap tokens).length := by
  obtain ⟨before, after, rfl⟩ := List.append_of_mem he
  have hbefore := length_le_length_flatMap before
  have hafter := length_le_length_flatMap after
  simp only [List.flatMap_append, List.flatMap_cons, tokens, keyTokens, List.length_append,
    List.length_cons]
  omega

end MappingEntry

namespace Read

variable {handles : List (List Char × List Char)} {names : List (List Char × ℕ)}
  {anchored : List (ℕ × Node)}

/-! ## Entries -/

lemma blockEntries_end (fuel : ℕ) (rest : List Token) :
    blockEntries (fuel + 1) ⟨.blockEnd :: rest, handles, names, anchored⟩ =
      some ([], ⟨rest, handles, names, anchored⟩) := rfl

/-- A block mapping is put together from its entries. -/
lemma node_blockMapping (fuel : ℕ) (indentless : Bool) (rest : List Token) :
    node (fuel + 1) true indentless ⟨.blockMappingStart :: rest, handles, names, anchored⟩ =
      (blockEntries fuel ⟨rest, handles, names, anchored⟩).map
        fun (entries, s) => (.mapping entries, s) := by
  simp [node, peek, properties, openAnchor, next, closeAnchor, bind, StateT.bind, pure, StateT.pure,
    Functor.map, StateT.map]
  cases blockEntries fuel ⟨rest, handles, names, anchored⟩ <;> rfl

lemma node_scalar (fuel : ℕ) (block indentless : Bool) (style : Style) (text : List Char)
    (rest : List Token) :
    node (fuel + 1) block indentless ⟨.scalar style text :: rest, handles, names, anchored⟩ =
      some (.scalar none style text, ⟨rest, handles, names, anchored⟩) := rfl

/-- What comes after a key with its colon: the value, and the other entries. -/
lemma blockEntries_key (fuel : ℕ) (name : List Char) (rest : List Token) :
    blockEntries (fuel + 2) ⟨MappingEntry.keyTokens name ++ rest, handles, names, anchored⟩ =
      ((if endsBlockValue rest.head? then pure .missing else node (fuel + 1) true true : Read Node)
        ⟨rest, handles, names, anchored⟩).bind fun (value, s) =>
          (blockEntries (fuel + 1) s).map fun (entries, s) =>
            ((MappingEntry.key name, value) :: entries, s) := by
  have hname : endsBlockValue (some (.scalar .plain name)) = false := rfl
  rw [blockEntries]
  simp only [accept, peek, bind, StateT.bind, Functor.map, MappingEntry.keyTokens, List.cons_append,
    List.nil_append, List.head?_cons, if_true, Option.bind_some, List.drop_one, List.tail_cons,
    hname, Bool.false_eq_true, if_false, node_scalar]
  have hmap : ∀ (value : Node) (s : Reading),
      StateT.map (List.cons (MappingEntry.key name, value)) (blockEntries (fuel + 1)) s =
        (blockEntries (fuel + 1) s).map fun (entries, s) =>
          ((MappingEntry.key name, value) :: entries, s) := by
    intro value s
    simp only [StateT.map, bind, pure]
    cases blockEntries (fuel + 1) s <;> rfl
  cases endsBlockValue rest.head? with
  | true => exact hmap _ _
  | false =>
    simp only [Bool.false_eq_true, if_false, StateT.bind, bind]
    cases node (fuel + 1) true true ⟨rest, handles, names, anchored⟩ with
    | none => rfl
    | some found => exact hmap _ _

/-- A key at the start of a mapping is the first of its keys. -/
lemma exists_of_blockEntries_key {fuel : ℕ} {name : List Char} {rest : List Token}
    {entries : List (Node × Node)} {s : Reading}
    (h : blockEntries fuel ⟨MappingEntry.keyTokens name ++ rest, handles, names, anchored⟩ =
      some (entries, s)) :
    ∃ value others, entries = (MappingEntry.key name, value) :: others := by
  match fuel with
  | 0 => cases h
  | 1 => cases h
  | fuel + 2 =>
    rw [blockEntries_key] at h
    obtain ⟨⟨value, s'⟩, -, h⟩ := Option.bind_eq_some_iff.mp h
    obtain ⟨⟨others, s''⟩, -, h⟩ := Option.map_eq_some_iff.mp h
    exact ⟨value, others, (congrArg Prod.fst h).symm⟩

/-- Each entry takes one unit of fuel from those behind it. -/
lemma blockEntries_add_length {entries : List MappingEntry} (h : ∀ e ∈ entries, e.Makes) {fuel : ℕ}
    (hfuel : ∀ e ∈ entries, e.value.length ≤ fuel) (hpos : 0 < fuel) (rest : List Token) :
    blockEntries (fuel + entries.length)
        ⟨entries.flatMap MappingEntry.tokens ++ rest, handles, names, anchored⟩ =
      (blockEntries fuel ⟨rest, handles, names, anchored⟩).map
        fun (others, s) => (entries.map MappingEntry.pair ++ others, s) := by
  induction entries with
  | nil =>
    cases hrest : blockEntries fuel ⟨rest, handles, names, anchored⟩ <;> simp [hrest]
  | cons e entries ih =>
    obtain ⟨he, hmore⟩ := List.forall_mem_cons.mp h
    obtain ⟨hlength, hlengths⟩ := List.forall_mem_cons.mp hfuel
    obtain ⟨less, rfl⟩ : ∃ less, fuel = less + 1 := ⟨fuel - 1, by omega⟩
    have hentries := ih hmore hlengths
    rw [Nat.add_right_comm] at hentries
    rw [List.length_cons, List.flatMap_cons, MappingEntry.tokens, List.append_assoc,
      List.append_assoc, ← Nat.add_assoc, Nat.add_right_comm less, blockEntries_key, he.notMissing,
      if_neg Bool.false_ne_true, he.node_eq _ (by omega), Option.bind_some]
    dsimp only
    rw [hentries, Option.map_map]
    rfl

/-- Entries at the start of a mapping make their nodes, whatever follows, if there is as much fuel
as tokens. -/
lemma blockEntries_append {entries : List MappingEntry} (h : ∀ e ∈ entries, e.Makes) {fuel : ℕ}
    (hfuel : (entries.flatMap MappingEntry.tokens).length < fuel) (rest : List Token) :
    blockEntries fuel ⟨entries.flatMap MappingEntry.tokens ++ rest, handles, names, anchored⟩ =
      (blockEntries (fuel - entries.length) ⟨rest, handles, names, anchored⟩).map
        fun (others, s) => (entries.map MappingEntry.pair ++ others, s) := by
  have hlength := (MappingEntry.length_le_length_flatMap entries).trans_lt hfuel
  conv_lhs => rw [← Nat.sub_add_cancel hlength.le]
  refine blockEntries_add_length h (fun e he => ?_) (Nat.sub_pos_of_lt hlength) rest
  have := MappingEntry.add_length_le_length_flatMap he
  omega

/-- All entries of a mapping make its nodes. -/
lemma blockEntries_flatMap {entries : List MappingEntry} (h : ∀ e ∈ entries, e.Makes) {fuel : ℕ}
    (hfuel : (entries.flatMap MappingEntry.tokens).length < fuel) (rest : List Token) :
    blockEntries fuel
        ⟨entries.flatMap MappingEntry.tokens ++ .blockEnd :: rest, handles, names, anchored⟩ =
      some (entries.map MappingEntry.pair, ⟨rest, handles, names, anchored⟩) := by
  have hlength := (MappingEntry.length_le_length_flatMap entries).trans_lt hfuel
  obtain ⟨left, hleft⟩ : ∃ left, fuel - entries.length = left + 1 :=
    ⟨fuel - entries.length - 1, by omega⟩
  simp only [blockEntries_append h hfuel, hleft, blockEntries_end, Option.map_some, List.append_nil]

/-- A key behind entries is the next key of the mapping, whatever comes behind it. -/
lemma exists_of_blockEntries_append_key {entries : List MappingEntry} (h : ∀ e ∈ entries, e.Makes)
    {fuel : ℕ} (hfuel : (entries.flatMap MappingEntry.tokens).length < fuel) {name : List Char}
    {rest : List Token} {found : List (Node × Node)} {s : Reading}
    (hfound : blockEntries fuel ⟨entries.flatMap MappingEntry.tokens ++
      (MappingEntry.keyTokens name ++ rest), handles, names, anchored⟩ = some (found, s)) :
    ∃ value others,
      found = entries.map MappingEntry.pair ++ (MappingEntry.key name, value) :: others := by
  rw [blockEntries_append h hfuel] at hfound
  obtain ⟨⟨others, s'⟩, hothers, hfound⟩ := Option.map_eq_some_iff.mp hfound
  obtain ⟨value, others, rfl⟩ := exists_of_blockEntries_key hothers
  exact ⟨value, others, (congrArg Prod.fst hfound).symm⟩

/-- A key behind the entries of a mapping that is itself a value is the next key there. -/
lemma exists_of_blockEntries_append_nested {entries inner : List MappingEntry}
    (h : ∀ e ∈ entries, e.Makes) (hinner : ∀ e ∈ inner, e.Makes) {fuel : ℕ}
    (hfuel : (entries.flatMap MappingEntry.tokens).length +
      (inner.flatMap MappingEntry.tokens).length + 2 < fuel)
    {outer name : List Char} {rest : List Token} {found : List (Node × Node)} {s : Reading}
    (hfound : blockEntries fuel ⟨entries.flatMap MappingEntry.tokens ++
      (MappingEntry.keyTokens outer ++ .blockMappingStart ::
        (inner.flatMap MappingEntry.tokens ++ (MappingEntry.keyTokens name ++ rest))),
      handles, names, anchored⟩ = some (found, s)) :
    ∃ value others others', found = entries.map MappingEntry.pair ++ (MappingEntry.key outer,
      .mapping (inner.map MappingEntry.pair ++ (MappingEntry.key name, value) :: others)) ::
        others' := by
  have hstart : endsBlockValue (some .blockMappingStart) = false := rfl
  have hlength := MappingEntry.length_le_length_flatMap entries
  obtain ⟨left, hleft⟩ : ∃ left, fuel - entries.length = left + 2 :=
    ⟨fuel - entries.length - 2, by omega⟩
  have hnestedFuel : (inner.flatMap MappingEntry.tokens).length < left := by omega
  rw [blockEntries_append h (by omega), hleft, blockEntries_key, List.head?_cons] at hfound
  obtain ⟨⟨others, s'⟩, hothers, hfound⟩ := Option.map_eq_some_iff.mp hfound
  obtain ⟨⟨value, s''⟩, hvalue, hothers⟩ := Option.bind_eq_some_iff.mp hothers
  obtain ⟨⟨others', s₁⟩, -, hothers⟩ := Option.map_eq_some_iff.mp hothers
  rw [hstart, if_neg Bool.false_ne_true, node_blockMapping] at hvalue
  obtain ⟨⟨nested, s₂⟩, hnested, hvalue⟩ := Option.map_eq_some_iff.mp hvalue
  obtain ⟨value', nested', rfl⟩ := exists_of_blockEntries_append_key hinner hnestedFuel hnested
  obtain ⟨rfl, -⟩ := Prod.mk.inj hvalue
  obtain ⟨rfl, -⟩ := Prod.mk.inj hothers
  exact ⟨value', nested', others', (Prod.mk.inj hfound).1.symm⟩

end Read

/-- A mapping of entries makes its node. -/
lemma MappingEntry.makes_mapping (name : List Char) {entries : List MappingEntry}
    (h : ∀ e ∈ entries, e.Makes) : (mapping name entries).Makes := by
  refine ⟨fun _ => rfl, fun fuel hfuel rest handles names anchored => ?_⟩
  simp only [mapping, List.length_cons, List.length_append] at hfuel
  obtain ⟨fuel, rfl⟩ : ∃ less, fuel = less + 1 := ⟨fuel - 1, by omega⟩
  simp only [mapping, List.cons_append, List.append_assoc, List.nil_append]
  rw [Read.node_blockMapping, Read.blockEntries_flatMap h (by omega), Option.map_some]

/-! ## Documents -/

namespace Document

variable {text : List Char}

/-- The document that starts with a block mapping is that mapping, and nothing may come behind. -/
lemma document_blockMapping (fuel : ℕ) (rest : List Token) :
    Read.document (fuel + 1) ⟨.blockMappingStart :: rest, [], [], []⟩ =
      (Read.blockEntries fuel ⟨rest, Read.standardHandles, [], []⟩).bind fun (entries, s) =>
        (Read.documentEnds (fuel + 1) s).bind fun (_, s) =>
          if s.tokens.head?.isNone then some (some (.mapping entries), s) else none := by
  simp only [Read.document, Read.peek, bind, StateT.bind, Option.bind_some, List.head?_cons,
    Option.isNone_some, Bool.false_eq_true, if_false, Read.startsDocument, pure, modify, modifyGet,
    MonadStateOf.modifyGet, StateT.modifyGet, List.nil_append, Bool.false_and,
    Read.node_blockMapping]
  cases Read.blockEntries fuel ⟨rest, Read.standardHandles, [], []⟩ with
  | none => rfl
  | some found =>
    simp only [Option.map_some, Option.bind_some]
    cases Read.documentEnds (fuel + 1) found.2 with
    | none => rfl
    | some ended =>
      simp only [Option.bind_some]
      cases ended.2.tokens.head? <;> rfl

/-- Entries and their end make a document. -/
theorem ofText?_of_entries {entries : List MappingEntry} (h : ∀ e ∈ entries, e.Makes)
    (htokens : Token.ofText? text =
      some (.blockMappingStart :: (entries.flatMap MappingEntry.tokens ++ [.blockEnd]))) :
    ofText? text = some (some ⟨.mapping (entries.map MappingEntry.pair), []⟩) := by
  simp only [ofText?, htokens, Option.bind_eq_bind, Option.bind_some, StateT.run,
    document_blockMapping]
  rw [Read.blockEntries_flatMap h (by rw [List.length_cons, List.length_append]; omega),
    Option.bind_some]
  rfl

/-- Where the tokens start a block mapping, a document is a mapping of the entries read from them.
-/
lemma exists_blockEntries_of_ofText? {rest : List Token}
    (htokens : Token.ofText? text = some (.blockMappingStart :: rest)) {d : Option Document}
    (hd : ofText? text = some d) :
    ∃ entries s, Read.blockEntries (rest.length + 2) ⟨rest, Read.standardHandles, [], []⟩ =
      some (entries, s) ∧ ∃ anchored, d = some ⟨.mapping entries, anchored⟩ := by
  simp only [ofText?, htokens, Option.bind_eq_bind, Option.bind_some, StateT.run,
    document_blockMapping] at hd
  obtain ⟨⟨root, s⟩, hroot, hd⟩ := Option.bind_eq_some_iff.mp hd
  obtain ⟨⟨entries, s'⟩, hentries, hroot⟩ := Option.bind_eq_some_iff.mp hroot
  obtain ⟨⟨_, s''⟩, -, hroot⟩ := Option.bind_eq_some_iff.mp hroot
  refine ⟨entries, s', hentries, s.anchored, ?_⟩
  simp only [Option.ite_none_right_eq_some, Option.some.injEq, Prod.mk.injEq] at hroot hd
  rw [← hd, ← hroot.2.1, Option.map_some]

/-- A document with a key behind its first entries has that key there. -/
theorem exists_of_key {entries : List MappingEntry} (h : ∀ e ∈ entries, e.Makes)
    {name : List Char} {rest : List Token}
    (htokens : Token.ofText? text = some (.blockMappingStart ::
      (entries.flatMap MappingEntry.tokens ++ (MappingEntry.keyTokens name ++ rest))))
    {d : Option Document} (hd : ofText? text = some d) :
    ∃ value others anchored, d = some ⟨.mapping (entries.map MappingEntry.pair ++
      (MappingEntry.key name, value) :: others), anchored⟩ := by
  obtain ⟨found, s, hfound, anchored, rfl⟩ := exists_blockEntries_of_ofText? htokens hd
  obtain ⟨value, others, rfl⟩ := Read.exists_of_blockEntries_append_key h
    (by rw [List.length_append]; omega) hfound
  exact ⟨value, others, anchored, rfl⟩

/-- A document with a key behind the first entries of a mapping in it has that key there. -/
theorem exists_of_nested_key {entries inner : List MappingEntry} (h : ∀ e ∈ entries, e.Makes)
    (hinner : ∀ e ∈ inner, e.Makes) {outer name : List Char} {rest : List Token}
    (htokens : Token.ofText? text = some (.blockMappingStart ::
      (entries.flatMap MappingEntry.tokens ++ (MappingEntry.keyTokens outer ++ .blockMappingStart ::
        (inner.flatMap MappingEntry.tokens ++ (MappingEntry.keyTokens name ++ rest))))))
    {d : Option Document} (hd : ofText? text = some d) :
    ∃ value others others' anchored, d = some ⟨.mapping (entries.map MappingEntry.pair ++
      (MappingEntry.key outer, .mapping (inner.map MappingEntry.pair ++
        (MappingEntry.key name, value) :: others)) :: others'), anchored⟩ := by
  obtain ⟨found, s, hfound, anchored, rfl⟩ := exists_blockEntries_of_ofText? htokens hd
  obtain ⟨value, others, others', rfl⟩ := Read.exists_of_blockEntries_append_nested h hinner
    (by simp only [List.length_append, List.length_cons]; omega) hfound
  exact ⟨value, others, others', anchored, rfl⟩

end Document

end NodeTelemetry.Yaml
