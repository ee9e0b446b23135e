import Mathlib
import NodeTelemetry.Event.Record

/-!
# Which bytes are a record of an event

Bytes of a fixed width and the numbers that fit them correspond one to one
(`littleEndianBytes_littleEndian`, `littleEndian_littleEndianBytes`).  So a field of a record has a
given value exactly if its bytes are those of the value (`field_eq_iff`), and the first 28 bytes of
a record, in which the five fields stand side by side, are known from the event and determine it
(`decode?_eq_some_iff_take`).  The four bytes behind them say nothing.
-/

namespace NodeTelemetry

/-! ## Numbers and their bytes -/

/-- Bytes stand for a number that fits them. -/
lemma littleEndian_lt (bytes : List UInt8) : littleEndian bytes < 256 ^ bytes.length := by
  induction bytes with
  | nil => exact Nat.one_pos
  | cons b bytes ih =>
    have hbyte : b.toNat < 256 := b.toNat_lt
    rw [littleEndian, List.length_cons, pow_succ]
    omega

/-- Bytes are the bytes of the number that they stand for. -/
lemma littleEndianBytes_littleEndian (bytes : List UInt8) :
    littleEndianBytes bytes.length (littleEndian bytes) = bytes := by
  induction bytes with
  | nil => rfl
  | cons b bytes ih =>
    have hbyte : b.toNat < 256 := b.toNat_lt
    have hlow : UInt8.ofNat (b.toNat + 256 * littleEndian bytes) = b := by
      rw [← UInt8.toNat_inj, UInt8.toNat_ofNat']
      omega
    have hhigh : (b.toNat + 256 * littleEndian bytes) / 256 = littleEndian bytes := by omega
    rw [List.length_cons, littleEndian, littleEndianBytes, hlow, hhigh, ih]

/-- The byte at each place counts with its power of 256. -/
lemma littleEndian_eq_sum (bytes : List UInt8) :
    littleEndian bytes = ∑ i ∈ Finset.range bytes.length, (bytes.getD i 0).toNat * 256 ^ i := by
  induction bytes with
  | nil => rfl
  | cons b bytes ih =>
    rw [littleEndian, ih, List.length_cons, Finset.sum_range_succ', Finset.mul_sum, Nat.add_comm]
    congr 1
    · refine Finset.sum_congr rfl fun i _ => ?_
      rw [List.getD_cons_succ, pow_succ]
      ring
    · simp

/-! ## Fields -/

/-- The number in the bytes of a width at an offset, least significant byte first. -/
def numberAt (bytes : List UInt8) (offset width : ℕ) : ℕ :=
  ∑ i ∈ Finset.range width, (bytes.getD (offset + i) 0).toNat * 256 ^ i

namespace Record

section Field

variable {bytes : List UInt8} {offset width n : ℕ}

lemma length_slice (hfit : offset + width ≤ bytes.length) :
    ((bytes.drop offset).take width).length = width := by
  rw [List.length_take, List.length_drop]
  omega

/-- A field is read at its place. -/
lemma field_eq_numberAt (hfit : offset + width ≤ bytes.length) :
    field bytes offset width = numberAt bytes offset width := by
  rw [field, littleEndian_eq_sum, length_slice hfit, numberAt]
  refine Finset.sum_congr rfl fun i hi => ?_
  have hlt : i < width := Finset.mem_range.mp hi
  simp only [List.getD_eq_getElem?_getD, List.getElem?_take_of_lt hlt, List.getElem?_drop]

/-- A field has a value exactly if its bytes are those of the value. -/
lemma field_eq_iff (hfit : offset + width ≤ bytes.length) (hn : n < 256 ^ width) :
    field bytes offset width = n ↔
      (bytes.drop offset).take width = littleEndianBytes width n := by
  constructor
  · intro hfield
    have hbytes := littleEndianBytes_littleEndian ((bytes.drop offset).take width)
    rw [length_slice hfit] at hbytes
    rw [← hbytes, ← hfield, field]
  · intro hbytes
    rw [field, hbytes, littleEndian_littleEndianBytes _ _ hn]

/-- The number at a place fits the width. -/
lemma numberAt_lt (hfit : offset + width ≤ bytes.length) :
    numberAt bytes offset width < 256 ^ width := by
  have hlt := littleEndian_lt ((bytes.drop offset).take width)
  rwa [length_slice hfit, ← field, field_eq_numberAt hfit] at hlt

end Field

end Record

/-! ## Records of an event -/

/-- The bytes are a record of an event: exactly 32 bytes, with the fields of the event at their
offsets. -/
structure Event.IsRecord (e : Event) (bytes : List UInt8) : Prop where
  length : bytes.length = 32
  nodeId : numberAt bytes 0 4 = e.nodeId.toNat
  code : numberAt bytes 4 4 = e.eventType.code.toNat
  value : numberAt bytes 8 8 = e.value.toNat
  timestampNs : numberAt bytes 16 8 = e.timestampNs.toNat
  extraData : numberAt bytes 24 4 = e.extraData.toNat

namespace Event

variable {bytes : List UInt8} {e : Event}

/-- The fields of an event side by side, in the order of a record. -/
def body (e : Event) : List UInt8 :=
  littleEndianBytes 4 e.nodeId.toNat ++ (littleEndianBytes 4 e.eventType.code.toNat ++
    (littleEndianBytes 8 e.value.toNat ++ (littleEndianBytes 8 e.timestampNs.toNat ++
      littleEndianBytes 4 e.extraData.toNat)))

lemma length_body (e : Event) : e.body.length = 28 := by
  simp only [body, List.length_append, length_littleEndianBytes]

lemma encode_eq (e : Event) (padding : UInt32) :
    e.encode padding = e.body ++ littleEndianBytes 4 padding.toNat := by
  simp only [encode, body, List.append_assoc]

/-- What is read is the event of which the bytes are a record. -/
lemma decode?_eq_some_iff : decode? bytes = some e ↔ e.IsRecord bytes := by
  by_cases hlength : bytes.length = 32
  · have h32 : ∀ offset ≤ 28, (UInt32.ofNat (Record.field bytes offset 4)).toNat =
        numberAt bytes offset 4 := by
      intro offset hoffset
      have hfit : offset + 4 ≤ bytes.length := by omega
      rw [Record.field_eq_numberAt hfit, UInt32.toNat_ofNat_of_lt' (Record.numberAt_lt hfit)]
    have h64 : ∀ offset ≤ 24, (UInt64.ofNat (Record.field bytes offset 8)).toNat =
        numberAt bytes offset 8 := by
      intro offset hoffset
      have hfit : offset + 8 ≤ bytes.length := by omega
      rw [Record.field_eq_numberAt hfit, UInt64.toNat_ofNat_of_lt' (Record.numberAt_lt hfit)]
    simp only [decode?, Record.ofBytes?, Record.size, hlength, if_true, Option.bind_some,
      Record.toEvent?, Option.map_eq_some_iff]
    constructor
    · rintro ⟨kind, hkind, rfl⟩
      have hcode := congrArg UInt32.toNat (EventType.code_of_ofCode? hkind)
      rw [h32 4 (by norm_num)] at hcode
      exact ⟨hlength, (h32 0 (by norm_num)).symm, hcode.symm, (h64 8 (by norm_num)).symm,
        (h64 16 (by norm_num)).symm, (h32 24 (by norm_num)).symm⟩
    · intro h
      have hcode : UInt32.ofNat (Record.field bytes 4 4) = e.eventType.code := by
        rw [← UInt32.toNat_inj, h32 4 (by norm_num), h.code]
      refine ⟨e.eventType, by rw [hcode, EventType.ofCode?_code], ?_⟩
      obtain ⟨nodeId, kind, value, timestampNs, extraData⟩ := e
      rw [Event.mk.injEq, ← UInt32.toNat_inj, ← UInt64.toNat_inj, ← UInt64.toNat_inj,
        ← UInt32.toNat_inj, h32 0 (by norm_num), h64 8 (by norm_num), h64 16 (by norm_num),
        h32 24 (by norm_num)]
      exact ⟨h.nodeId, rfl, h.value, h.timestampNs, h.extraData⟩
  · constructor
    · intro h
      simp only [decode?, Record.ofBytes?, Record.size, hlength, if_false, Option.bind_none,
        reduceCtorEq] at h
    · intro h
      exact absurd h.length hlength

/-- A record of an event is its fields and any four bytes behind them. -/
lemma isRecord_iff_take : e.IsRecord bytes ↔ bytes.length = 32 ∧ bytes.take 28 = e.body := by
  have hsplit : bytes.take 28 = (bytes.drop 0).take 4 ++ ((bytes.drop 4).take 4 ++
      ((bytes.drop 8).take 8 ++ ((bytes.drop 16).take 8 ++ (bytes.drop 24).take 4))) := by
    rw [List.drop_zero, ← List.append_assoc, ← List.take_add, ← List.append_assoc, ← List.take_add,
      ← List.append_assoc, ← List.take_add, ← List.take_add]
  by_cases hlength : bytes.length = 32
  · have hslices : bytes.take 28 = e.body ↔
        (bytes.drop 0).take 4 = littleEndianBytes 4 e.nodeId.toNat ∧
        (bytes.drop 4).take 4 = littleEndianBytes 4 e.eventType.code.toNat ∧
        (bytes.drop 8).take 8 = littleEndianBytes 8 e.value.toNat ∧
        (bytes.drop 16).take 8 = littleEndianBytes 8 e.timestampNs.toNat ∧
        (bytes.drop 24).take 4 = littleEndianBytes 4 e.extraData.toNat := by
      rw [hsplit, body]
      iterate 4 rw [List.append_eq_append_iff_of_size_eq_left (by
        rw [Record.length_slice (by omega), length_littleEndianBytes])]
    have hfield : ∀ {offset width n : ℕ}, offset + width ≤ 32 → n < 256 ^ width →
        (numberAt bytes offset width = n ↔
          (bytes.drop offset).take width = littleEndianBytes width n) := by
      intro offset width n hfit hn
      rw [← hlength] at hfit
      rw [← Record.field_eq_numberAt hfit, Record.field_eq_iff hfit hn]
    rw [hslices, ← hfield (by norm_num) e.nodeId.toNat_lt,
      ← hfield (by norm_num) e.eventType.code.toNat_lt, ← hfield (by norm_num) e.value.toNat_lt,
      ← hfield (by norm_num) e.timestampNs.toNat_lt, ← hfield (by norm_num) e.extraData.toNat_lt]
    constructor
    · intro h
      exact ⟨hlength, h.nodeId, h.code, h.value, h.timestampNs, h.extraData⟩
    · rintro ⟨-, hnode, hcode, hvalue, htime, hextra⟩
      exact ⟨hlength, hnode, hcode, hvalue, htime, hextra⟩
  · constructor
    · intro h
      exact absurd h.length hlength
    · intro h
      exact absurd h.1 hlength

/-- An event is read from exactly the 32 bytes that start with its fields. -/
lemma decode?_eq_some_iff_take :
    decode? bytes = some e ↔ bytes.length = 32 ∧ bytes.take 28 = e.body := by
  rw [decode?_eq_some_iff, isRecord_iff_take]

/-- An event is read back from its fields and any four bytes behind them. -/
lemma decode?_body_append (e : Event) {padding : List UInt8} (h : padding.length = 4) :
    decode? (e.body ++ padding) = some e := by
  rw [decode?_eq_some_iff_take, List.length_append, length_body, h,
    List.take_left' (length_body e)]
  exact ⟨rfl, rfl⟩

/-- The bytes have an event if they are a record that the code of a kind stands in. -/
lemma isSome_decode?_iff :
    (decode? bytes).isSome ↔
      bytes.length = 32 ∧ ∃ kind : EventType, numberAt bytes 4 4 = kind.code.toNat := by
  rw [Option.isSome_iff_exists]
  constructor
  · rintro ⟨e, he⟩
    have hrecord := decode?_eq_some_iff.mp he
    exact ⟨hrecord.length, e.eventType, hrecord.code⟩
  · rintro ⟨hlength, kind, hcode⟩
    have hlt : ∀ {offset width : ℕ}, offset + width ≤ 32 →
        numberAt bytes offset width < 256 ^ width := by
      intro offset width hfit
      rw [← hlength] at hfit
      exact Record.numberAt_lt hfit
    refine ⟨⟨UInt32.ofNat (numberAt bytes 0 4), kind, UInt64.ofNat (numberAt bytes 8 8),
      UInt64.ofNat (numberAt bytes 16 8), UInt32.ofNat (numberAt bytes 24 4)⟩,
      decode?_eq_some_iff.mpr ⟨hlength, ?_, hcode, ?_, ?_, ?_⟩⟩
    · exact (UInt32.toNat_ofNat_of_lt' (hlt (by norm_num))).symm
    · exact (UInt64.toNat_ofNat_of_lt' (hlt (by norm_num))).symm
    · exact (UInt64.toNat_ofNat_of_lt' (hlt (by norm_num))).symm
    · exact (UInt32.toNat_ofNat_of_lt' (hlt (by norm_num))).symm

/-- **Reading inverts the layout of a record, and accepts nothing else.**  An event is read from
exactly its records, which are 32 bytes with its fields at their offsets; there is one to read iff
the code is that of a kind.  A written event is a record of it with any four bytes at its end, and
two accepted texts of bytes have one event iff they agree up to these. -/
theorem decode?_iff_isRecord_and_encode :
    (∀ bytes e, decode? bytes = some e ↔ e.IsRecord bytes) ∧
      (∀ bytes, (decode? bytes).isSome ↔
        bytes.length = 32 ∧ ∃ kind : EventType, numberAt bytes 4 4 = kind.code.toNat) ∧
      (∀ (e : Event) (padding : UInt32),
        e.IsRecord (e.encode padding) ∧ decode? (e.encode padding) = some e) ∧
      (∀ (e : Event) (padding : Vector UInt8 4),
        decode? ((e.encode 0).take 28 ++ padding.toList) = some e) ∧
      ∀ bytes bytes', (∃ e, decode? bytes = some e ∧ decode? bytes' = some e) ↔
        (decode? bytes).isSome ∧ (decode? bytes').isSome ∧ bytes.take 28 = bytes'.take 28 := by
  have hencode : ∀ (e : Event) (padding : UInt32), decode? (e.encode padding) = some e := by
    intro e padding
    rw [encode_eq]
    exact e.decode?_body_append (length_littleEndianBytes _ _)
  refine ⟨fun _ _ => decode?_eq_some_iff, fun _ => isSome_decode?_iff, ?_, ?_, ?_⟩
  · intro e padding
    exact ⟨decode?_eq_some_iff.mp (hencode e padding), hencode e padding⟩
  · intro e padding
    rw [encode_eq, List.take_left' (length_body e)]
    exact e.decode?_body_append padding.length_toList
  · intro bytes bytes'
    constructor
    · rintro ⟨e, he, he'⟩
      refine ⟨Option.isSome_of_eq_some he, Option.isSome_of_eq_some he', ?_⟩
      rw [(decode?_eq_some_iff_take.mp he).2, (decode?_eq_some_iff_take.mp he').2]
    · rintro ⟨hsome, hsome', htake⟩
      obtain ⟨e, he⟩ := Option.isSome_iff_exists.mp hsome
      have hlength := (isSome_decode?_iff.mp hsome').1
      have hbody := (decode?_eq_some_iff_take.mp he).2
      exact ⟨e, he, decode?_eq_some_iff_take.mpr ⟨hlength, htake ▸ hbody⟩⟩

end Event

end NodeTelemetry
