import PsRpc.Library.Protobuf
import Mathlib.Algebra.GroupWithZero.Nat

/-! # Messages of the protobuf wire format

A message is a sequence of fields: a number and a value of one of the wire types. A message type
says which fields a value is written as and what a field that is read does to the object. The laws
of a message type give the round trip of its serialization.
-/

namespace Protobuf

/-- What stands behind a tag; groups are not read. -/
inductive FieldValue where
  | varint (value : Nat)
  | fixed64 (bytes : List UInt8)
  | len (payload : List UInt8)
  | fixed32 (bytes : List UInt8)
deriving DecidableEq, Repr

structure Field where
  number : Nat
  value : FieldValue
deriving DecidableEq, Repr

namespace FieldValue

def wireType : FieldValue → Nat
  | .varint _ => 0
  | .fixed64 _ => 1
  | .len _ => 2
  | .fixed32 _ => 5

def bytes : FieldValue → List UInt8
  | .varint value => Protobuf.varint value
  | .fixed64 bytes => bytes
  | .len payload => Protobuf.varint payload.length ++ payload
  | .fixed32 bytes => bytes

def Writable : FieldValue → Prop
  | .varint value => value < 2 ^ 64
  | .fixed64 bytes => bytes.length = 8
  | .len payload => payload.length < 2 ^ 31
  | .fixed32 bytes => bytes.length = 4

theorem wireType_lt (value : FieldValue) : value.wireType < 8 := by
  cases value <;> simp [wireType]

end FieldValue

namespace Field

def bytes (field : Field) : List UInt8 := tag field.number field.value.wireType ++ field.value.bytes

def Writable (field : Field) : Prop :=
  0 < field.number ∧ field.number < 2 ^ 29 ∧ field.value.Writable

end Field

/-! ## Reading -/

def readExactly (count : Nat) (bytes : List UInt8) : Option (List UInt8 × List UInt8) :=
  if count ≤ bytes.length then some (bytes.take count, bytes.drop count) else none

def readValue (wireType : Nat) (bytes : List UInt8) : Option (FieldValue × List UInt8) :=
  match wireType with
  | 0 => (readVarint maxVarintBytes bytes).map fun read => (.varint read.1, read.2)
  | 1 => (readExactly 8 bytes).map fun read => (.fixed64 read.1, read.2)
  | 2 =>
    (readVarint maxVarintBytes bytes).bind fun length =>
      (readExactly length.1 length.2).map fun read => (.len read.1, read.2)
  | 5 => (readExactly 4 bytes).map fun read => (.fixed32 read.1, read.2)
  | _ => none

def readTagged (bytes : List UInt8) : Option (Field × List UInt8) :=
  (readVarint maxTagBytes bytes).bind fun tag =>
    if tag.1 / 8 = 0 then none
    else (readValue (tag.1 % 8) tag.2).map fun read => (⟨tag.1 / 8, read.1⟩, read.2)

/-- The fields of a message; the first argument bounds their number. -/
def readMessage : Nat → List UInt8 → Option (List Field)
  | _, [] => some []
  | 0, _ :: _ => none
  | limit + 1, byte :: bytes =>
    (readTagged (byte :: bytes)).bind fun field =>
      (readMessage limit field.2).map fun fields => field.1 :: fields

theorem readExactly_append {count : Nat} {bytes : List UInt8} (h : bytes.length = count)
    (rest : List UInt8) : readExactly count (bytes ++ rest) = some (bytes, rest) := by
  rw [readExactly, if_pos (by rw [List.length_append]; omega), List.take_left' h,
    List.drop_left' h]

theorem readValue_bytes {value : FieldValue} (h : value.Writable) (rest : List UInt8) :
    readValue value.wireType (value.bytes ++ rest) = some (value, rest) := by
  cases value with
  | varint value =>
    have hLimit : value < 128 ^ (9 + 1) := Nat.lt_trans h (by decide)
    rw [FieldValue.wireType, readValue, FieldValue.bytes, maxVarintBytes, readVarint_varint hLimit,
      Option.map_some]
  | fixed64 bytes =>
    rw [FieldValue.wireType, readValue, FieldValue.bytes, readExactly_append h, Option.map_some]
  | len payload =>
    have hLimit : payload.length < 128 ^ (9 + 1) := Nat.lt_trans h (by decide)
    rw [FieldValue.wireType, readValue, FieldValue.bytes, List.append_assoc, maxVarintBytes,
      readVarint_varint hLimit, Option.bind_some, readExactly_append rfl, Option.map_some]
  | fixed32 bytes =>
    rw [FieldValue.wireType, readValue, FieldValue.bytes, readExactly_append h, Option.map_some]

theorem readTagged_bytes {field : Field} (h : field.Writable) (rest : List UInt8) :
    readTagged (field.bytes ++ rest) = some (field, rest) := by
  obtain ⟨hPos, hLt, hValue⟩ := h
  have hType := field.value.wireType_lt
  have hLimit : field.number * 8 + field.value.wireType < 128 ^ (4 + 1) := by
    change _ < 34359738368
    omega
  have hNumber : (field.number * 8 + field.value.wireType) / 8 = field.number := by omega
  have hWireType : (field.number * 8 + field.value.wireType) % 8 = field.value.wireType := by omega
  rw [readTagged, maxTagBytes, Field.bytes, tag, List.append_assoc, readVarint_varint hLimit,
    Option.bind_some]
  simp only [hNumber, hWireType]
  rw [if_neg (by omega), readValue_bytes hValue, Option.map_some]

theorem Field.bytes_ne_nil (field : Field) : field.bytes ≠ [] := by
  simp [Field.bytes, tag, varint_ne_nil]

theorem readMessage_bytes {fields : List Field} (h : ∀ field ∈ fields, field.Writable) {limit : Nat}
    (hLimit : fields.length ≤ limit) :
    readMessage limit (fields.flatMap Field.bytes) = some fields := by
  induction fields generalizing limit with
  | nil => cases limit <;> rfl
  | cons field fields ih =>
    obtain ⟨hField, hFields⟩ := List.forall_mem_cons.mp h
    obtain ⟨limit, rfl⟩ : ∃ n, limit = n + 1 :=
      ⟨limit - 1, by rw [List.length_cons] at hLimit; omega⟩
    rw [List.flatMap_cons]
    cases hBytes : field.bytes ++ fields.flatMap Field.bytes with
    | nil => exact absurd (List.append_eq_nil_iff.mp hBytes).1 field.bytes_ne_nil
    | cons byte bytes =>
      rw [readMessage, ← hBytes, readTagged_bytes hField, Option.bind_some,
        ih hFields (Nat.le_of_succ_le_succ hLimit), Option.map_some]

theorem length_bytes_varint_le {number value : Nat} (hNumber : number < 2 ^ 29)
    (hValue : value < 2 ^ 64) :
    (Field.bytes ⟨number, .varint value⟩).length ≤ maxTagBytes + maxVarintBytes := by
  have hTag := varint_length_le (tag_lt hNumber)
  have hLength : (varint value).length ≤ 9 + 1 :=
    varint_length_le (Nat.lt_trans hValue (by decide))
  change (tag number wireVarint ++ varint value).length ≤ _
  rw [List.length_append, tag, maxTagBytes, maxVarintBytes]
  omega

theorem length_bytes_len_le {number : Nat} {payload : List UInt8} (hNumber : number < 2 ^ 29)
    (hPayload : payload.length < 2 ^ 31) :
    (Field.bytes ⟨number, .len payload⟩).length ≤ maxTagBytes + maxVarintBytes +
    payload.length := by
  have hTag : number * 8 + wireLen < 128 ^ (4 + 1) := by
    change number * 8 + 2 < 34359738368
    omega
  have hTagLength := varint_length_le hTag
  have hLength : (varint payload.length).length ≤ 9 + 1 :=
    varint_length_le (Nat.lt_trans hPayload (by decide))
  change (tag number wireLen ++ (varint payload.length ++ payload)).length ≤ _
  rw [List.length_append, List.length_append, tag, maxTagBytes, maxVarintBytes]
  omega

/-! ## Message types -/

/-- `merge` is what a field does to the object, `none` if the parser gives up there. -/
structure MessageType (M : Type) where
  empty : M
  fields : M → List Field
  merge : M → Field → Option M
  /-- The values that the fields can hold. -/
  Fits : M → Prop
  writable : ∀ m, Fits m → ∀ field ∈ fields m, field.Writable
  merge_fields : ∀ m, Fits m → (fields m).foldlM merge empty = some m

namespace MessageType

variable {M : Type} (type : MessageType M)

def serialize (m : M) : List UInt8 := (type.fields m).flatMap Field.bytes

def parse (bytes : List UInt8) : Option M :=
  (readMessage bytes.length bytes).bind fun fields => fields.foldlM type.merge type.empty

variable {type}

theorem length_le_flatMap_bytes (fields : List Field) :
    fields.length ≤ (fields.flatMap Field.bytes).length := by
  induction fields with
  | nil => exact Nat.le_refl 0
  | cons field fields ih =>
    have hPos := List.length_pos_iff.mpr field.bytes_ne_nil
    rw [List.flatMap_cons, List.length_append, List.length_cons]
    omega

theorem parse_serialize {m : M} (h : type.Fits m) : type.parse (type.serialize m) = some m := by
  rw [parse, serialize, readMessage_bytes (type.writable m h) (length_le_flatMap_bytes _),
    Option.bind_some, type.merge_fields m h]

end MessageType

/-! ## Singular fields

A scalar that has its default value is not written; a reader leaves the default there.
-/

def scalar (number value : Nat) : List Field :=
  if value = 0 then [] else [⟨number, .varint value⟩]

def text (number : Nat) (value : List UInt8) : List Field :=
  if value = [] then [] else [⟨number, .len value⟩]

theorem length_scalar_le {number value : Nat} (hNumber : number < 2 ^ 29)
    (hValue : value < 2 ^ 64) :
    ((scalar number value).flatMap Field.bytes).length ≤ 15 := by
  unfold scalar
  split
  · exact Nat.zero_le 15
  · rw [List.flatMap_singleton]
    exact length_bytes_varint_le hNumber hValue

theorem length_text_le {number : Nat} {value : List UInt8} (hNumber : number < 2 ^ 29)
    (hValue : value.length < 2 ^ 31) :
    ((text number value).flatMap Field.bytes).length ≤ 15 + value.length := by
  unfold text
  split
  · exact Nat.zero_le _
  · rw [List.flatMap_singleton]
    exact length_bytes_len_le hNumber hValue

theorem writable_varint {number value : Nat} (hNumber : 0 < number ∧ number < 2 ^ 29)
    (hValue : value < 2 ^ 64) : Field.Writable ⟨number, .varint value⟩ :=
  ⟨hNumber.1, hNumber.2, hValue⟩

theorem writable_scalar {number value : Nat} (hNumber : 0 < number ∧ number < 2 ^ 29)
    (hValue : value < 2 ^ 64) : ∀ field ∈ scalar number value, field.Writable := by
  unfold scalar
  split
  · simp
  · rw [List.forall_mem_singleton]
    exact writable_varint hNumber hValue

theorem writable_text {number : Nat} {value : List UInt8} (hNumber : 0 < number ∧ number < 2 ^ 29)
    (hValue : value.length < 2 ^ 31) : ∀ field ∈ text number value, field.Writable := by
  unfold text
  split
  · simp
  · simpa using ⟨hNumber.1, hNumber.2, hValue⟩

section Merge

variable {M : Type} {merge : M → Field → Option M} {m m' : M}

theorem foldlM_scalar {number value : Nat} (hDefault : value = 0 → m' = m)
    (hMerge : merge m ⟨number, .varint value⟩ = some m') (rest : List Field) :
    (scalar number value ++ rest).foldlM merge m = rest.foldlM merge m' := by
  unfold scalar
  split
  · next hZero => rw [List.nil_append, hDefault hZero]
  · rw [List.singleton_append, List.foldlM_cons, hMerge]
    rfl

theorem foldlM_text {number : Nat} {value : List UInt8} (hDefault : value = [] → m' = m)
    (hMerge : merge m ⟨number, .len value⟩ = some m') (rest : List Field) :
    (text number value ++ rest).foldlM merge m = rest.foldlM merge m' := by
  unfold text
  split
  · next hEmpty => rw [List.nil_append, hDefault hEmpty]
  · rw [List.singleton_append, List.foldlM_cons, hMerge]
    rfl

end Merge

/-! ## Repeated messages -/

namespace MessageType

variable {E : Type}

def elementField (inner : MessageType E) (number : Nat) (e : E) : Field :=
  ⟨number, .len (inner.serialize e)⟩

/-- A field that is an element goes to the end of the list. -/
def mergeElement (inner : MessageType E) (number : Nat) (elements : List E) (field : Field) :
    Option (List E) :=
  match field.value with
  | .len payload =>
    if field.number = number then (inner.parse payload).map fun e => elements ++ [e]
    else some elements
  | _ => some elements

theorem foldlM_mergeElement (inner : MessageType E) (number : Nat) {elements : List E}
    (h : ∀ e ∈ elements, inner.Fits e) (start : List E) :
    (elements.map (inner.elementField number)).foldlM (inner.mergeElement number) start =
      some (start ++ elements) := by
  induction elements generalizing start with
  | nil => simp
  | cons e elements ih =>
    obtain ⟨hHead, hTail⟩ := List.forall_mem_cons.mp h
    have hMerge : inner.mergeElement number start (inner.elementField number e) =
        some (start ++ [e]) := by
      simp [mergeElement, elementField, parse_serialize hHead]
    rw [List.map_cons, List.foldlM_cons, hMerge]
    change (elements.map _).foldlM _ (start ++ [e]) = _
    rw [ih hTail, List.append_assoc, List.singleton_append]

def repeated (inner : MessageType E) (number : Nat) (hNumber : 0 < number ∧ number < 2 ^ 29) :
    MessageType (List E) where
  empty := []
  fields elements := elements.map (inner.elementField number)
  merge := inner.mergeElement number
  Fits elements := ∀ e ∈ elements, inner.Fits e ∧ (inner.serialize e).length < 2 ^ 31
  writable elements h := by
    intro field hField
    obtain ⟨e, hMem, rfl⟩ := List.mem_map.mp hField
    exact ⟨hNumber.1, hNumber.2, (h e hMem).2⟩
  merge_fields elements h := inner.foldlM_mergeElement number (fun e hMem => (h e hMem).1) []

theorem length_serialize_repeated_le {inner : MessageType E} {number : Nat}
    {hNumber : 0 < number ∧ number < 2 ^ 29} {elements : List E}
    (h : (inner.repeated number hNumber).Fits elements) :
    ((inner.repeated number hNumber).serialize elements).length ≤
      (elements.map fun e => 15 + (inner.serialize e).length).sum := by
  change ((elements.map (inner.elementField number)).flatMap Field.bytes).length ≤ _
  induction elements with
  | nil => exact Nat.le_refl 0
  | cons e elements ih =>
    obtain ⟨hHead, hTail⟩ := List.forall_mem_cons.mp h
    have hFirst := length_bytes_len_le hNumber.2 hHead.2
    have hRest := ih hTail
    rw [List.map_cons, List.flatMap_cons, List.length_append, List.map_cons, List.sum_cons]
    exact Nat.add_le_add hFirst hRest

end MessageType

/-! ## Strings and numbers -/

def stringBytes (s : String) : List UInt8 := s.toByteArray.data.toList

/-- A string has to be valid UTF-8. -/
def readString (bytes : List UInt8) : Option String := String.fromUTF8? ⟨bytes.toArray⟩

theorem readString_stringBytes (s : String) : readString (stringBytes s) = some s := by
  have hBytes : (⟨(stringBytes s).toArray⟩ : ByteArray) = s.toByteArray := by simp [stringBytes]
  rw [readString, hBytes, String.fromUTF8?, dif_pos s.isValidUTF8]
  rfl

theorem length_stringBytes (s : String) : (stringBytes s).length = s.utf8ByteSize := by
  simp [stringBytes]

theorem eq_empty_of_stringBytes {s : String} (h : stringBytes s = []) : s = "" := by
  have hRead := readString_stringBytes s
  rw [h, show ([] : List UInt8) = stringBytes "" from rfl, readString_stringBytes] at hRead
  exact (Option.some.inj hRead).symm

/-- An `int32` or an enumeration is written as the 64-bit integer of the same value. -/
def int32Number (value : Int) : Nat := (value % 2 ^ 64).toNat

def FitsInt32 (value : Int) : Prop := -2 ^ 31 ≤ value ∧ value < 2 ^ 31

instance (value : Int) : Decidable (FitsInt32 value) := inferInstanceAs (Decidable (_ ∧ _))

/-- It is read by dropping the upper half. -/
def readInt32 (number : Nat) : Int := (Int32.ofNat number).toInt

theorem int32Number_lt (value : Int) : int32Number value < 2 ^ 64 := by
  unfold int32Number
  omega

theorem readInt32_int32Number {value : Int} (h : FitsInt32 value) :
    readInt32 (int32Number value) = value := by
  obtain ⟨hLower, hUpper⟩ := h
  have hNonneg : 0 ≤ value % 2 ^ 64 := by omega
  rw [readInt32, int32Number, ← Int32.ofInt_eq_ofNat, Int.toNat_of_nonneg hNonneg,
    Int32.toInt_ofInt, Int.bmod_def, show ((Int32.size : Nat) : Int) = 4294967296 from rfl]
  split <;> omega

end Protobuf
