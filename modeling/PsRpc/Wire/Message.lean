import PsRpc.Library.ByteOrder

/-! # Headers, frames and checked memory

`MessageHeader` as it lies in memory at both ends of a connection: three integers without
padding, sixteen bytes in the byte order of the machines. Faults are the two ways in which
a function of the source can leave other than by returning: an exception, mostly raised by
`MS_LOG(EXCEPTION)`, with its text, and an access outside of an array.
-/

namespace PsRpc

open ByteOrder

abbrev Bytes := List UInt8

inductive Fault where
  | exception (what : String)
  | outOfBounds (array : String) (index : Int)
deriving DecidableEq, Repr

/-- `MS_EXCEPTION_IF_NULL(ptr)`, where `none` is the null pointer. -/
def exceptionIfNull {α : Type*} (ptr : String) : Option α → Except Fault α
  | some value => .ok value
  | none => .error (.exception (": The pointer[" ++ ptr ++ "] is null."))

theorem bind_eq_ok {ε α β : Type} {action : Except ε α} {next : α → Except ε β} {result : β}
    (h : action >>= next = .ok result) : ∃ value, action = .ok value ∧ next value = .ok result := by
  cases action with
  | error fault => cases h
  | ok value => exact ⟨value, rfl, h⟩

/-! ## `memcpy_s` -/

def securecMemMaxLen : Nat := 0x7fffffff

inductive Errno where
  | eok
  | einval
  | erange
  | erangeAndReset
deriving DecidableEq, Repr

def Errno.code : Errno → Nat
  | .eok => 0
  | .einval => 22
  | .erange => 34
  | .erangeAndReset => 34 + 128

/-- The result of `memcpy_s(dest, destMax, src, count)` on two valid buffers that do not
overlap. The second test is `SecMemcpyError`, reached when the first one fails. -/
def memcpyS (destMax count : Nat) : Errno :=
  if count ≤ destMax ∧ destMax ≤ securecMemMaxLen ∧ 0 < count then .eok
  else if destMax = 0 ∨ securecMemMaxLen < destMax then .erange
  else if destMax < count then .erangeAndReset
  else .eok

theorem memcpyS_self_eq_eok_iff (count : Nat) :
    memcpyS count count = .eok ↔ 0 < count ∧ count ≤ securecMemMaxLen := by
  unfold memcpyS
  split
  · rename_i h
    exact ⟨fun _ => ⟨h.2.2, h.2.1⟩, fun _ => rfl⟩
  · rename_i h
    split
    · rename_i hRange
      constructor
      · intro hEok
        cases hEok
      · rintro ⟨hPos, hMax⟩
        omega
    · rename_i hRange
      exact absurd ⟨le_refl count, by omega, by omega⟩ h

def memcpyError (ret : Errno) : Fault :=
  .exception ("The memcpy_s error, errorno(" ++ toString ret.code ++ ")")

/-- A heap block: its size and the bytes written so far, from its start on. -/
structure Buffer where
  size : Nat
  data : Bytes
deriving DecidableEq, Repr

def Buffer.alloc (size : Nat) : Buffer := ⟨size, []⟩

/-- Bytes below `offset` never written hold what the allocator left there; they are zero
here. -/
def overwrite (data : Bytes) (offset : Nat) (src : Bytes) : Bytes :=
  data.take offset ++ List.replicate (offset - data.length) 0 ++ src ++
    data.drop (offset + src.length)

def Buffer.write (buffer : Buffer) (offset : Nat) (src : Bytes) : Except Fault Buffer :=
  if offset + src.length ≤ buffer.size then
    .ok ⟨buffer.size, overwrite buffer.data offset src⟩
  else .error (.outOfBounds "message_buffer_" (offset + src.length))

theorem Buffer.write_end {buffer : Buffer} {src : Bytes}
    (h : buffer.data.length + src.length ≤ buffer.size) :
    buffer.write buffer.data.length src = .ok ⟨buffer.size, buffer.data ++ src⟩ := by
  have hDrop : buffer.data.drop (buffer.data.length + src.length) = [] :=
    List.drop_eq_nil_of_le (by omega)
  rw [Buffer.write, if_pos h, overwrite, List.take_length, Nat.sub_self, hDrop]
  simp

/-- The bytes of `[offset, offset + count)`, if they lie inside of the block. -/
def readSlice (bytes : Bytes) (offset count : Nat) : Option Bytes :=
  if offset + count ≤ bytes.length then some ((bytes.drop offset).take count) else none

theorem readSlice_append_left (a b : Bytes) : readSlice (a ++ b) 0 a.length = some a := by
  have h : 0 + a.length ≤ (a ++ b).length := by rw [List.length_append]; omega
  rw [readSlice, if_pos h, List.drop_zero, List.take_left]

theorem readSlice_append_right (a b : Bytes) :
    readSlice (a ++ b) a.length b.length = some b := by
  have h : a.length + b.length ≤ (a ++ b).length := by rw [List.length_append]
  rw [readSlice, if_pos h, List.drop_left, List.take_length]

theorem readSlice_eq_some {bytes slice : Bytes} {offset count : Nat}
    (h : readSlice bytes offset count = some slice) :
    offset + count ≤ bytes.length ∧ slice = (bytes.drop offset).take count ∧
      slice.length = count := by
  unfold readSlice at h
  split at h
  · rename_i hLe
    obtain rfl := Option.some.inj h
    refine ⟨hLe, rfl, ?_⟩
    rw [List.length_take, List.length_drop]
    omega
  · cases h

/-! ## The header -/

/-- `enum class Protos : uint32_t`. The underlying type is fixed, so every value of it is a
value of the enumeration, also those without a name. -/
structure Protos where
  value : UInt32
deriving DecidableEq, Repr

def Protos.raw : Protos := ⟨0⟩
def Protos.protobuf : Protos := ⟨1⟩
def Protos.flatbuffers : Protos := ⟨2⟩

structure MessageHeader where
  messageProto : Protos := Protos.raw
  messageMetaLength : UInt32 := 0
  messageLength : UInt64 := 0
deriving DecidableEq, Repr

def kHeaderLen : Nat := 16

namespace MessageHeader

def toBytes (order : Endian) (header : MessageHeader) : Bytes :=
  encode order 4 header.messageProto.value.toNat ++
    (encode order 4 header.messageMetaLength.toNat ++ encode order 8 header.messageLength.toNat)

def ofBytes (order : Endian) (bytes : Bytes) : MessageHeader where
  messageProto := ⟨UInt32.ofNat (decode order (bytes.take 4))⟩
  messageMetaLength := UInt32.ofNat (decode order ((bytes.drop 4).take 4))
  messageLength := UInt64.ofNat (decode order ((bytes.drop 8).take 8))

@[simp] theorem toBytes_length (order : Endian) (header : MessageHeader) :
    (header.toBytes order).length = kHeaderLen := by
  simp [toBytes, kHeaderLen]

theorem decode_encode_uint32 (order : Endian) (n : UInt32) :
    UInt32.ofNat (decode order (encode order 4 n.toNat)) = n := by
  rw [decode_encode, show 256 ^ 4 = 2 ^ 32 from rfl, Nat.mod_eq_of_lt n.toNat_lt,
    UInt32.ofNat_toNat]

theorem decode_encode_uint64 (order : Endian) (n : UInt64) :
    UInt64.ofNat (decode order (encode order 8 n.toNat)) = n := by
  rw [decode_encode, show 256 ^ 8 = 2 ^ 64 from rfl, Nat.mod_eq_of_lt n.toNat_lt,
    UInt64.ofNat_toNat]

theorem ofBytes_toBytes (order : Endian) (header : MessageHeader) (rest : Bytes) :
    ofBytes order (header.toBytes order ++ rest) = header := by
  have h4 (n : Nat) : (encode order 4 n).length = 4 := encode_length order 4 n
  have h8 (n : Nat) : (encode order 8 n).length = 8 := encode_length order 8 n
  have hProto : (header.toBytes order ++ rest).take 4 =
      encode order 4 header.messageProto.value.toNat := by
    rw [toBytes, List.append_assoc, List.take_left' (h4 _)]
  have hMeta : ((header.toBytes order ++ rest).drop 4).take 4 =
      encode order 4 header.messageMetaLength.toNat := by
    rw [toBytes, List.append_assoc, List.drop_left' (h4 _), List.append_assoc,
      List.take_left' (h4 _)]
  have hLength : ((header.toBytes order ++ rest).drop 8).take 8 =
      encode order 8 header.messageLength.toNat := by
    rw [show 8 = 4 + 4 from rfl, ← List.drop_drop, toBytes, List.append_assoc,
      List.drop_left' (h4 _), List.append_assoc, List.drop_left' (h4 _), List.take_left' (h8 _)]
  rw [ofBytes, hProto, hMeta, hLength, decode_encode_uint32, decode_encode_uint32,
    decode_encode_uint64]

theorem encode_decode_uint32 (order : Endian) {bytes : Bytes} (h : bytes.length = 4) :
    encode order 4 (UInt32.ofNat (decode order bytes)).toNat = bytes := by
  have hLt : decode order bytes < 2 ^ 32 := by
    have hBound := decode_lt order bytes
    rwa [h] at hBound
  rw [UInt32.toNat_ofNat_of_lt' hLt, ← h, encode_decode]

theorem encode_decode_uint64 (order : Endian) {bytes : Bytes} (h : bytes.length = 8) :
    encode order 8 (UInt64.ofNat (decode order bytes)).toNat = bytes := by
  have hLt : decode order bytes < 2 ^ 64 := by
    have hBound := decode_lt order bytes
    rwa [h] at hBound
  rw [UInt64.toNat_ofNat_of_lt' hLt, ← h, encode_decode]

theorem toBytes_ofBytes (order : Endian) {bytes : Bytes} (h : bytes.length = kHeaderLen) :
    (ofBytes order bytes).toBytes order = bytes := by
  have h16 : bytes.length = 16 := h
  rw [toBytes, ofBytes]
  rw [encode_decode_uint32 order (by rw [List.length_take]; omega),
    encode_decode_uint32 order (by rw [List.length_take, List.length_drop]; omega),
    encode_decode_uint64 order (by rw [List.length_take, List.length_drop]; omega)]
  have hTail : (bytes.drop 8).take 8 = bytes.drop 8 :=
    List.take_of_length_le (by rw [List.length_drop]; omega)
  have hMiddle : (bytes.drop 4).take 4 ++ bytes.drop 8 = bytes.drop 4 := by
    rw [show 8 = 4 + 4 from rfl, ← List.drop_drop, List.take_append_drop]
  rw [hTail, hMiddle, List.take_append_drop]

end MessageHeader

end PsRpc
