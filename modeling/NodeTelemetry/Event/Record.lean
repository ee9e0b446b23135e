import NodeTelemetry.Event

/-!
# Binary event records

A record is 32 bytes: node, code of the kind, value, time and extra number, least significant byte
first, and four bytes of padding that carry nothing.

| offset | width | field          |
|--------|-------|----------------|
| 0      | 4     | node           |
| 4      | 4     | code           |
| 8      | 8     | value          |
| 16     | 8     | time           |
| 24     | 4     | extra number   |
| 28     | 4     | padding        |
-/

namespace NodeTelemetry

/-- The number that bytes stand for, least significant byte first. -/
def littleEndian : List UInt8 → Nat
  | [] => 0
  | b :: rest => b.toNat + 256 * littleEndian rest

/-- The fields of a record, with the code of the kind as it stands there. -/
structure Record where
  nodeId : UInt32
  code : UInt32
  value : UInt64
  timestampNs : UInt64
  extraData : UInt32
  deriving DecidableEq, Repr

namespace Record

/-- The length of a record in bytes. -/
def size : Nat := 32

/-- The number in the bytes of a given width at an offset. -/
def field (bytes : List UInt8) (offset width : Nat) : Nat :=
  littleEndian ((bytes.drop offset).take width)

/-- Reads the fields; nothing but exactly 32 bytes is a record. -/
def ofBytes? (bytes : List UInt8) : Option Record :=
  if bytes.length = size then
    some {
      nodeId := UInt32.ofNat (field bytes 0 4)
      code := UInt32.ofNat (field bytes 4 4)
      value := UInt64.ofNat (field bytes 8 8)
      timestampNs := UInt64.ofNat (field bytes 16 8)
      extraData := UInt32.ofNat (field bytes 24 4) }
  else none

/-- The event that a record stands for, unless its code stands for no kind. -/
def toEvent? (r : Record) : Option Event :=
  (EventType.ofCode? r.code).map fun t => {
    nodeId := r.nodeId
    eventType := t
    value := r.value
    timestampNs := r.timestampNs
    extraData := r.extraData }

end Record

/-- The event in a binary record. -/
def Event.decode? (bytes : List UInt8) : Option Event :=
  (Record.ofBytes? bytes).bind Record.toEvent?

/-! ## Writing -/

/-- A number in the given count of bytes, least significant byte first. -/
def littleEndianBytes : Nat → Nat → List UInt8
  | 0, _ => []
  | width + 1, n => UInt8.ofNat n :: littleEndianBytes width (n / 256)

/-- The record of an event, ended by four bytes of padding. -/
def Event.encode (e : Event) (padding : UInt32) : List UInt8 :=
  littleEndianBytes 4 e.nodeId.toNat ++ littleEndianBytes 4 e.eventType.code.toNat
    ++ littleEndianBytes 8 e.value.toNat ++ littleEndianBytes 8 e.timestampNs.toNat
    ++ littleEndianBytes 4 e.extraData.toNat ++ littleEndianBytes 4 padding.toNat

@[simp] theorem length_littleEndianBytes (width n : Nat) :
    (littleEndianBytes width n).length = width := by
  induction width generalizing n with
  | zero => rfl
  | succ width ih => simp [littleEndianBytes, ih]

/-- Reading back the bytes of a number that fits gives the number. -/
theorem littleEndian_littleEndianBytes (width n : Nat) (h : n < Nat.pow 256 width) :
    littleEndian (littleEndianBytes width n) = n := by
  induction width generalizing n with
  | zero =>
    have hpow : Nat.pow 256 0 = 1 := rfl
    simp only [littleEndianBytes, littleEndian]
    omega
  | succ width ih =>
    have hpow : Nat.pow 256 (width + 1) = Nat.pow 256 width * 256 := rfl
    have hdiv : n / 256 < Nat.pow 256 width := by omega
    have hbyte : (UInt8.ofNat n).toNat = n % 256 := rfl
    simp only [littleEndianBytes, littleEndian, ih _ hdiv, hbyte]
    omega

end NodeTelemetry
