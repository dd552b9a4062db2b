import PsRpc.Library.ByteOrder
import PsRpc.Library.ProtobufMessage

/-! # Packed repeated fields

The elements of a repeated field of a scalar type stand one behind the other in the payload of one
field. A reader takes them off the front until the payload is used up, and takes a field with a
single element as well.
-/

namespace Protobuf

/-- How one element is written, and how it is read off the front of the bytes. -/
structure ElementType (E : Type) where
  write : E → List UInt8
  read : List UInt8 → Option (E × List UInt8)
  Fits : E → Prop
  write_ne_nil : ∀ e, write e ≠ []
  read_write : ∀ e, Fits e → ∀ rest, read (write e ++ rest) = some (e, rest)

namespace ElementType

variable {E : Type} (type : ElementType E)

def pack (elements : List E) : List UInt8 := elements.flatMap type.write

/-- The elements of a payload; the first argument bounds their number. -/
def readElements : Nat → List UInt8 → Option (List E)
  | _, [] => some []
  | 0, _ :: _ => none
  | limit + 1, byte :: bytes =>
    (type.read (byte :: bytes)).bind fun element =>
      (readElements limit element.2).map fun elements => element.1 :: elements

def unpack (payload : List UInt8) : Option (List E) := type.readElements payload.length payload

variable {type}

theorem length_le_pack (elements : List E) : elements.length ≤ (type.pack elements).length := by
  induction elements with
  | nil => exact Nat.le_refl 0
  | cons e elements ih =>
    have hPos := List.length_pos_iff.mpr (type.write_ne_nil e)
    rw [pack] at ih ⊢
    rw [List.flatMap_cons, List.length_append, List.length_cons]
    omega

theorem length_pack_le {width : Nat} {elements : List E}
    (h : ∀ e ∈ elements, (type.write e).length ≤ width) :
    (type.pack elements).length ≤ elements.length * width := by
  induction elements with
  | nil => exact Nat.zero_le _
  | cons e elements ih =>
    obtain ⟨hHead, hTail⟩ := List.forall_mem_cons.mp h
    have hRest := ih hTail
    rw [pack] at hRest ⊢
    rw [List.flatMap_cons, List.length_append, List.length_cons, Nat.succ_mul]
    omega

theorem eq_nil_of_pack {elements : List E} (h : type.pack elements = []) : elements = [] := by
  have hLength : elements.length ≤ (type.pack elements).length := length_le_pack elements
  rw [h] at hLength
  exact List.length_eq_zero_iff.mp (Nat.le_zero.mp hLength)

theorem readElements_pack {elements : List E} (h : ∀ e ∈ elements, type.Fits e) {limit : Nat}
    (hLimit : elements.length ≤ limit) :
    type.readElements limit (type.pack elements) = some elements := by
  induction elements generalizing limit with
  | nil => cases limit <;> rfl
  | cons e elements ih =>
    obtain ⟨hHead, hTail⟩ := List.forall_mem_cons.mp h
    obtain ⟨limit, rfl⟩ : ∃ n, limit = n + 1 :=
      ⟨limit - 1, by rw [List.length_cons] at hLimit; omega⟩
    have hRest := ih hTail (Nat.le_of_succ_le_succ hLimit)
    rw [pack] at hRest ⊢
    rw [List.flatMap_cons]
    cases hBytes : type.write e ++ elements.flatMap type.write with
    | nil => exact absurd (List.append_eq_nil_iff.mp hBytes).1 (type.write_ne_nil e)
    | cons byte bytes =>
      rw [readElements, ← hBytes, type.read_write e hHead, Option.bind_some, hRest,
        Option.map_some]

theorem unpack_pack {elements : List E} (h : ∀ e ∈ elements, type.Fits e) :
    type.unpack (type.pack elements) = some elements :=
  readElements_pack h (length_le_pack elements)

end ElementType

def int32Elements : ElementType Int where
  write value := varint (int32Number value)
  read bytes := (readVarint maxVarintBytes bytes).map fun read => (readInt32 read.1, read.2)
  Fits := FitsInt32
  write_ne_nil value := varint_ne_nil _
  read_write value h rest := by
    have hLimit : int32Number value < 128 ^ (9 + 1) :=
      Nat.lt_trans (int32Number_lt value) (by decide)
    rw [maxVarintBytes, readVarint_varint hLimit, Option.map_some, readInt32_int32Number h]

theorem int32Elements_length_le (value : Int) : (int32Elements.write value).length ≤ 10 :=
  varint_length_le (Nat.lt_trans (int32Number_lt value) (by decide : 2 ^ 64 < 128 ^ (9 + 1)))

def floatElements : ElementType UInt32 where
  write value := ByteOrder.littleBytes 4 value.toNat
  read bytes :=
    (readExactly 4 bytes).map fun read => (UInt32.ofNat (ByteOrder.ofLittleBytes read.1), read.2)
  Fits _ := True
  write_ne_nil value := List.cons_ne_nil _ _
  read_write value _ rest := by
    have hMod : value.toNat % 256 ^ 4 = value.toNat := Nat.mod_eq_of_lt value.toNat_lt
    rw [readExactly_append (ByteOrder.littleBytes_length 4 value.toNat), Option.map_some,
      ByteOrder.ofLittleBytes_littleBytes, hMod, UInt32.ofNat_toNat]

end Protobuf
