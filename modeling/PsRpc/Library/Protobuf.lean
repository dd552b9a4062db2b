import Mathlib.Algebra.Group.Int.Defs
import Mathlib.Algebra.Group.Nat.Defs
import Mathlib.Data.List.Basic

/-! # The protobuf wire format

Numbers are written in base 128 with the low digits first, and every byte but the last one
carries the continuation bit. A field is a tag and a varint, or a tag, a length and that many
bytes; a field of a scalar type that has its default value is not written.
-/

namespace Protobuf

def varint (n : Nat) : List UInt8 :=
  if n < 128 then [UInt8.ofNat n] else UInt8.ofNat (n % 128 + 128) :: varint (n / 128)
decreasing_by omega

theorem varint_of_lt {n : Nat} (h : n < 128) : varint n = [UInt8.ofNat n] := by
  rw [varint, if_pos h]

theorem varint_of_ge {n : Nat} (h : ¬ n < 128) :
    varint n = UInt8.ofNat (n % 128 + 128) :: varint (n / 128) := by
  rw [varint, if_neg h]

theorem varint_ne_nil (n : Nat) : varint n ≠ [] := by
  by_cases h : n < 128
  · simp [varint_of_lt h]
  · simp [varint_of_ge h]

theorem ofNat_ne_zero {n : Nat} (hPos : n ≠ 0) (hLt : n < 256) : UInt8.ofNat n ≠ 0 := by
  intro hZero
  have hNat := congrArg UInt8.toNat hZero
  rw [UInt8.toNat_ofNat_of_lt' hLt] at hNat
  exact hPos hNat

/-- No byte of the varint of a positive number is zero: all but the last have the continuation
bit, and the last one is the leading digit. -/
theorem ne_zero_of_mem_varint {n : Nat} (hn : n ≠ 0) : ∀ byte ∈ varint n, byte ≠ 0 := by
  induction n using Nat.strongRecOn with
  | ind n ih =>
    intro byte hByte
    by_cases h : n < 128
    · rw [varint_of_lt h, List.mem_singleton] at hByte
      rw [hByte]
      exact ofNat_ne_zero hn (by omega)
    · rw [varint_of_ge h] at hByte
      rcases List.mem_cons.mp hByte with rfl | hRest
      · exact ofNat_ne_zero (by omega) (by omega)
      · exact ih (n / 128) (by omega) (by omega) byte hRest

def wireVarint : Nat := 0
def wireLen : Nat := 2

def tag (field wireType : Nat) : List UInt8 := varint (field * 8 + wireType)

theorem ne_zero_of_mem_tag {field wireType : Nat} (h : field ≠ 0) :
    ∀ byte ∈ tag field wireType, byte ≠ 0 :=
  ne_zero_of_mem_varint (by omega)

def varintField (field value : Nat) : List UInt8 :=
  if value = 0 then [] else tag field wireVarint ++ varint value

def lenField (field : Nat) (payload : List UInt8) : List UInt8 :=
  tag field wireLen ++ (varint payload.length ++ payload)

def bytesField (field : Nat) (value : List UInt8) : List UInt8 :=
  if value = [] then [] else lenField field value

/-- An `int32` or an enumeration is written as the 64-bit integer of the same value. -/
def int32Field (field : Nat) (value : Int) : List UInt8 :=
  varintField field (value % 2 ^ 64).toNat

theorem ne_zero_of_mem_varintField {field value : Nat} (h : field ≠ 0) :
    ∀ byte ∈ varintField field value, byte ≠ 0 := by
  unfold varintField
  split
  · simp
  · rename_i hValue
    rw [List.forall_mem_append]
    exact ⟨ne_zero_of_mem_tag h, ne_zero_of_mem_varint hValue⟩

theorem varintField_length (field value : Nat) :
    varintField field value = [] ∨ 2 ≤ (varintField field value).length := by
  unfold varintField
  split
  · exact .inl rfl
  · have hTag := List.length_pos_iff.mpr (varint_ne_nil (field * 8 + wireVarint))
    have hValue := List.length_pos_iff.mpr (varint_ne_nil value)
    rw [List.length_append, tag]
    omega

theorem le_lenField_length (field : Nat) (payload : List UInt8) :
    payload.length + 2 ≤ (lenField field payload).length := by
  have hTag := List.length_pos_iff.mpr (varint_ne_nil (field * 8 + wireLen))
  have hLen := List.length_pos_iff.mpr (varint_ne_nil payload.length)
  rw [lenField, List.length_append, List.length_append, tag]
  omega

theorem le_bytesField_length (field : Nat) (value : List UInt8) :
    value.length ≤ (bytesField field value).length := by
  unfold bytesField
  split
  · rename_i h
    exact Nat.le_of_eq (congrArg List.length h)
  · have hLen := le_lenField_length field value
    omega

/-! ## Reading -/

/-- A varint of at most `limit` bytes, and the bytes behind it. -/
def readVarint : Nat → List UInt8 → Option (Nat × List UInt8)
  | 0, _ => none
  | _ + 1, [] => none
  | limit + 1, byte :: bytes =>
    if byte.toNat < 128 then some (byte.toNat, bytes)
    else
      (readVarint limit bytes).map fun read => (byte.toNat - 128 + 128 * read.1, read.2)

theorem div_lt_pow {n limit : Nat} (h : n < 128 ^ (limit + 1)) : n / 128 < 128 ^ limit := by
  rw [Nat.div_lt_iff_lt_mul (by decide), ← Nat.pow_succ]
  exact h

theorem varint_length_le {limit n : Nat} (h : n < 128 ^ (limit + 1)) :
    (varint n).length ≤ limit + 1 := by
  induction limit generalizing n with
  | zero =>
    rw [varint_of_lt h]
    exact Nat.le_refl 1
  | succ limit ih =>
    by_cases hSmall : n < 128
    · rw [varint_of_lt hSmall]
      exact Nat.le_add_left 1 _
    · rw [varint_of_ge hSmall]
      exact Nat.succ_le_succ (ih (div_lt_pow h))

theorem readVarint_varint {limit n : Nat} (h : n < 128 ^ (limit + 1)) (rest : List UInt8) :
    readVarint (limit + 1) (varint n ++ rest) = some (n, rest) := by
  induction limit generalizing n with
  | zero =>
    have hSmall : n < 128 := h
    rw [varint_of_lt hSmall, List.singleton_append, readVarint,
      UInt8.toNat_ofNat_of_lt' (by change n < 256; omega), if_pos hSmall]
  | succ limit ih =>
    by_cases hSmall : n < 128
    · rw [varint_of_lt hSmall, List.singleton_append, readVarint,
        UInt8.toNat_ofNat_of_lt' (by change n < 256; omega), if_pos hSmall]
    · rw [varint_of_ge hSmall, List.cons_append, readVarint,
        UInt8.toNat_ofNat_of_lt' (by change _ < 256; omega), if_neg (by omega),
        ih (div_lt_pow h), Option.map_some]
      have hValue : n % 128 + 128 - 128 + 128 * (n / 128) = n := by omega
      rw [hValue]

def maxTagBytes : Nat := 5
def maxVarintBytes : Nat := 10

/-- A field of the wire type varint: its number and its value. -/
def readField (bytes : List UInt8) : Option ((Nat × Nat) × List UInt8) := do
  let (tag, rest) ← readVarint maxTagBytes bytes
  if tag % 8 = wireVarint then
    let (value, rest) ← readVarint maxVarintBytes rest
    some ((tag / 8, value), rest)
  else none

/-- The fields of a message that has no others; the first argument bounds their number. -/
def readFields : Nat → List UInt8 → Option (List (Nat × Nat))
  | _, [] => some []
  | 0, _ :: _ => none
  | limit + 1, byte :: bytes => do
    let (field, rest) ← readField (byte :: bytes)
    let fields ← readFields limit rest
    some (field :: fields)

theorem tag_lt {field : Nat} (h : field < 2 ^ 29) : field * 8 + wireVarint < 128 ^ (4 + 1) := by
  change field * 8 + 0 < 128 ^ 5
  omega

theorem readField_tag_varint {field value : Nat} (hField : field < 2 ^ 29) (hValue : value < 2 ^ 64)
    (rest : List UInt8) :
    readField (tag field wireVarint ++ varint value ++ rest) = some ((field, value), rest) := by
  have hLimit : value < 128 ^ (9 + 1) := Nat.lt_trans hValue (by decide)
  rw [readField, maxTagBytes, maxVarintBytes, List.append_assoc, tag,
    readVarint_varint (tag_lt hField)]
  change (if (field * 8 + 0) % 8 = 0 then _ else _) = _
  rw [if_pos (by omega), readVarint_varint hLimit]
  change some (((field * 8 + 0) / 8, value), rest) = _
  rw [Nat.add_zero, Nat.mul_div_cancel field (by decide)]

/-- What a reader sees of a field: nothing where the value is the default. -/
def fieldOf (field value : Nat) : List (Nat × Nat) := if value = 0 then [] else [(field, value)]

/-- The bytes are those of a message with these fields. -/
def Reads (bytes : List UInt8) (fields : List (Nat × Nat)) : Prop :=
  ∀ limit, bytes.length ≤ limit → readFields limit bytes = some fields

theorem Reads.nil : Reads [] [] := by
  intro limit _
  cases limit <;> rfl

theorem Reads.field {bytes rest : List UInt8} {field : Nat × Nat} {fields : List (Nat × Nat)}
    (hField : readField bytes = some (field, rest)) (hShorter : rest.length < bytes.length)
    (hRest : Reads rest fields) : Reads bytes (field :: fields) := by
  intro limit hLimit
  obtain ⟨limit, rfl⟩ : ∃ n, limit = n + 1 := ⟨limit - 1, by omega⟩
  cases bytes with
  | nil => exact absurd hShorter (Nat.not_lt_zero _)
  | cons byte bytes =>
    rw [readFields, hField]
    change (readFields limit rest).bind _ = _
    rw [hRest limit (by omega)]
    rfl

theorem Reads.varintField {field value : Nat} (hField : field < 2 ^ 29) (hValue : value < 2 ^ 64)
    {rest : List UInt8} {fields : List (Nat × Nat)} (hRest : Reads rest fields) :
    Reads (Protobuf.varintField field value ++ rest) (fieldOf field value ++ fields) := by
  rw [Protobuf.varintField, fieldOf]
  by_cases hZero : value = 0
  · rw [if_pos hZero, if_pos hZero]
    exact hRest
  · rw [if_neg hZero, if_neg hZero]
    refine .field (readField_tag_varint hField hValue rest) ?_ hRest
    have hTag := List.length_pos_iff.mpr (varint_ne_nil (field * 8 + wireVarint))
    rw [List.length_append, List.length_append, tag]
    omega

theorem varintField_length_le {field value : Nat} (hField : field < 2 ^ 29)
    (hValue : value < 2 ^ 64) :
    (varintField field value).length ≤ maxTagBytes + maxVarintBytes := by
  have hTagLength := varint_length_le (tag_lt hField)
  have hValueLength : (varint value).length ≤ 9 + 1 :=
    varint_length_le (Nat.lt_trans hValue (by decide))
  unfold varintField
  split
  · exact Nat.zero_le _
  · rw [List.length_append, tag, maxTagBytes, maxVarintBytes]
    omega

end Protobuf
