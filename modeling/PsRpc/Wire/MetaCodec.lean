import PsRpc.Library.ProtobufMessage
import PsRpc.Wire.CommMessage

/-! # The meta on the wire

`MessageMeta` with the types that `comm.proto` gives to its fields. An enumeration is an `int32`
that may have no name. The protobuf runtime is assumed to read back what it has written; the
encoding of its wire format is one that does.
-/

namespace PsRpc

open Protobuf

structure WireMeta where
  cmd : Int32
  requestId : UInt64
  role : Int32
  rankId : Int32
  userCmd : Int32
deriving DecidableEq, Repr

/-- What the setters of the generated class do to the values that they are given. -/
def MessageMeta.toWire (m : MessageMeta) : WireMeta :=
  ⟨.ofNat m.cmd.number, .ofNat m.requestId, .ofInt m.role.number, m.rankId.toInt32,
    .ofInt m.userCmd⟩

/-- The protobuf runtime on the meta. A meta with a command is not empty, and a serialized message
has fewer than `2 ^ 31` bytes. -/
structure MetaRuntime extends MetaCodec WireMeta where
  length_pos : ∀ message, message.cmd ≠ 0 → 0 < (serializeAsString message).length
  length_lt : ∀ message, (serializeAsString message).length < 2 ^ 31

instance : Coe MetaRuntime (MetaCodec WireMeta) := ⟨MetaRuntime.toMetaCodec⟩

/-- A message of a node; its meta is not empty, since it has a command. -/
def MetaRuntime.outgoing (codec : MetaRuntime) (message : WireMeta) (protos : Protos) (data : Bytes)
    (hCmd : message.cmd ≠ 0)
    (hData : (codec.serializeAsString message).length + data.length < 2 ^ 63) :
    Outgoing codec.toMetaCodec where
  protos := protos
  message := message
  data := data
  meta_lt := Nat.lt_trans (codec.length_lt message) (by decide)
  nonempty := Nat.add_pos_left (codec.length_pos message hCmd) _
  fits := hData

/-- The protobuf runtime on the messages of one type; `Fits` are the values that the type can hold.
-/
structure PayloadCodec (M : Type) (Fits : M → Prop) where
  serializeAsString : M → Bytes
  parseFromArray : Bytes → M
  parse_serialize : ∀ m, Fits m → parseFromArray (serializeAsString m) = m
  length_lt : ∀ m, Fits m → (serializeAsString m).length < 2 ^ 31

/-! ## The wire format -/

/-- A message type of the wire format; bytes that are not well-formed leave the object empty here.
-/
def payloadCodec {M : Type} (type : MessageType M) {Fits : M → Prop}
    (hFits : ∀ m, Fits m → type.Fits m)
    (hLength : ∀ m, Fits m → (type.serialize m).length < 2 ^ 31) : PayloadCodec M Fits where
  serializeAsString := type.serialize
  parseFromArray bytes := (type.parse bytes).getD type.empty
  parse_serialize m h := by rw [MessageType.parse_serialize (hFits m h), Option.getD_some]
  length_lt := hLength

/-- An `int32` is written as a varint of 64 bits, in two's complement. -/
def int32Varint (value : Int32) : Nat := (value.toInt % 2 ^ 64).toNat

theorem int32Varint_lt (value : Int32) : int32Varint value < 2 ^ 64 := by
  unfold int32Varint
  omega

theorem ofNat_int32Varint (value : Int32) : Int32.ofNat (int32Varint value) = value := by
  have hLower := value.le_toInt
  have hUpper := value.toInt_lt
  have hNonneg : 0 ≤ value.toInt % 2 ^ 64 := by omega
  rw [← Int32.toInt_inj, ← Int32.ofInt_eq_ofNat, int32Varint, Int.toNat_of_nonneg hNonneg,
    Int32.toInt_ofInt, Int.bmod_def, show ((Int32.size : Nat) : Int) = 4294967296 from rfl]
  split <;> omega

namespace WireMeta

def default : WireMeta := ⟨0, 0, 0, 0, 0⟩

def serializeAsString (m : WireMeta) : Bytes :=
  varintField 1 (int32Varint m.cmd) ++
    (varintField 2 m.requestId.toNat ++
      (varintField 3 (int32Varint m.role) ++
        (varintField 4 (int32Varint m.rankId) ++ (varintField 5 (int32Varint m.userCmd) ++ []))))

/-- One field that the parser has read; unknown ones are set aside. -/
def mergeField (m : WireMeta) : Nat × Nat → WireMeta
  | (1, value) => { m with cmd := .ofNat value }
  | (2, value) => { m with requestId := .ofNat value }
  | (3, value) => { m with role := .ofNat value }
  | (4, value) => { m with rankId := .ofNat value }
  | (5, value) => { m with userCmd := .ofNat value }
  | _ => m

/-- The bytes of a message that is not well-formed leave the object empty here. -/
def parseFromArray (bytes : Bytes) : WireMeta :=
  ((readFields bytes.length bytes).getD []).foldl mergeField default

theorem reads_serializeAsString (m : WireMeta) :
    Reads m.serializeAsString
      (fieldOf 1 (int32Varint m.cmd) ++
        (fieldOf 2 m.requestId.toNat ++
          (fieldOf 3 (int32Varint m.role) ++
            (fieldOf 4 (int32Varint m.rankId) ++ (fieldOf 5 (int32Varint m.userCmd) ++ []))))) := by
  apply Reads.varintField (by decide) (int32Varint_lt _)
  apply Reads.varintField (by decide) m.requestId.toNat_lt
  apply Reads.varintField (by decide) (int32Varint_lt _)
  apply Reads.varintField (by decide) (int32Varint_lt _)
  apply Reads.varintField (by decide) (int32Varint_lt _)
  exact .nil

theorem foldl_mergeField {m : WireMeta} {field : Nat} (hDefault : m.mergeField (field, 0) = m)
    (value : Nat) (rest : List (Nat × Nat)) :
    (fieldOf field value ++ rest).foldl mergeField m =
      rest.foldl mergeField (m.mergeField (field, value)) := by
  unfold fieldOf
  split
  · next hZero => rw [List.nil_append, hZero, hDefault]
  · rw [List.singleton_append, List.foldl_cons]

theorem parse_serialize (m : WireMeta) : parseFromArray m.serializeAsString = m := by
  rw [parseFromArray, reads_serializeAsString m _ (Nat.le_refl _), Option.getD_some,
    foldl_mergeField rfl, foldl_mergeField rfl, foldl_mergeField rfl, foldl_mergeField rfl,
    foldl_mergeField rfl]
  simp only [List.foldl_nil, mergeField, ofNat_int32Varint, UInt64.ofNat_toNat]

theorem length_serializeAsString_le (m : WireMeta) : m.serializeAsString.length ≤ 75 := by
  have hCmd : (varintField 1 (int32Varint m.cmd)).length ≤ 15 :=
    varintField_length_le (by decide) (int32Varint_lt _)
  have hRequestId : (varintField 2 m.requestId.toNat).length ≤ 15 :=
    varintField_length_le (by decide) m.requestId.toNat_lt
  have hRole : (varintField 3 (int32Varint m.role)).length ≤ 15 :=
    varintField_length_le (by decide) (int32Varint_lt _)
  have hRankId : (varintField 4 (int32Varint m.rankId)).length ≤ 15 :=
    varintField_length_le (by decide) (int32Varint_lt _)
  have hUserCmd : (varintField 5 (int32Varint m.userCmd)).length ≤ 15 :=
    varintField_length_le (by decide) (int32Varint_lt _)
  simp only [serializeAsString, List.length_append, List.length_nil]
  omega

theorem length_serializeAsString_pos {m : WireMeta} (hCmd : m.cmd ≠ 0) :
    0 < m.serializeAsString.length := by
  have hNonzero : int32Varint m.cmd ≠ 0 := by
    intro hZero
    rw [← ofNat_int32Varint m.cmd, hZero] at hCmd
    exact hCmd rfl
  have hField : varintField 1 (int32Varint m.cmd) ≠ [] := by
    rw [varintField, if_neg hNonzero]
    simp [varint_ne_nil]
  rw [serializeAsString, List.length_append]
  exact Nat.add_pos_left (List.length_pos_iff.mpr hField) _

end WireMeta

def wireCodec : MetaRuntime where
  serializeAsString := WireMeta.serializeAsString
  parseFromArray := WireMeta.parseFromArray
  parse_serialize := WireMeta.parse_serialize
  length_pos _ := WireMeta.length_serializeAsString_pos
  length_lt m := Nat.lt_of_le_of_lt m.length_serializeAsString_le (by decide)

end PsRpc
