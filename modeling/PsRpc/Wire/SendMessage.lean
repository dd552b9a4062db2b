import PsRpc.Wire.StreamRefinement

/-! # Writing frames

`TcpClient::SendMessage(meta, protos, data, size)` and its twin of `TcpConnection` append a
header, the serialized meta and the payload to the output of a libevent buffer with three
calls of `bufferevent_write`, each of which can fail on its own. A message that can be sent
is written as one frame of the format that the stream parser reads.
-/

namespace PsRpc

open ByteOrder Framing

/-- The protobuf runtime on the message type of the meta. -/
structure MetaCodec (M : Type) where
  serializeAsString : M → Bytes
  parseFromArray : Bytes → M
  parse_serialize : ∀ message, parseFromArray (serializeAsString message) = message

def sizeToUint (u : Nat) : Except Fault UInt32 :=
  if 2 ^ 32 - 1 < u then
    .error (.exception
      ("The size_t value(" ++ toString u ++ ") exceeds the maximum value of uint32_t."))
  else .ok (UInt32.ofNat u)

structure Bufferevent where
  output : Bytes
deriving DecidableEq, Repr

/-- `bufferevent_write`, which appends all bytes and returns 0, or nothing and returns -1. -/
def Bufferevent.write (bev : Bufferevent) (accepted : Bool) (data : Bytes) : Int × Bufferevent :=
  if accepted then (0, ⟨bev.output ++ data⟩) else (-1, bev)

structure WriteResults where
  header : Bool := true
  metaPart : Bool := true
  data : Bool := true
deriving DecidableEq, Repr

variable {M : Type}

/-- The common body of the two functions; pointers may be null. -/
def writeFrame (order : Endian) (codec : MetaCodec M) (writes : WriteResults)
    (bufferEvent : Option Bufferevent) (metaPtr : Option M) (protos : Protos)
    (data : Option Bytes) : Except Fault (Bool × Bufferevent) := do
  let bev ← exceptionIfNull "buffer_event_" bufferEvent
  let message ← exceptionIfNull "meta" metaPtr
  let data ← exceptionIfNull "data" data
  let serialized := codec.serializeAsString message
  let metaLength ← sizeToUint serialized.length
  let header : MessageHeader :=
    { messageProto := protos
      messageMetaLength := metaLength
      messageLength := UInt64.ofNat data.length + metaLength.toUInt64 }
  let (headerRet, bev) := bev.write writes.header (header.toBytes order)
  let (metaRet, bev) := bev.write writes.metaPart serialized
  let (dataRet, bev) := bev.write writes.data data
  .ok (headerRet ≠ -1 ∧ metaRet ≠ -1 ∧ dataRet ≠ -1, bev)

def TcpClient.sendMessage (order : Endian) (codec : MetaCodec M) (writes : WriteResults)
    (bufferEvent : Option Bufferevent) (metaPtr : Option M) (protos : Protos)
    (data : Option Bytes) : Except Fault (Bool × Bufferevent) :=
  writeFrame order codec writes bufferEvent metaPtr protos data

def TcpConnection.sendMessage (order : Endian) (codec : MetaCodec M) (writes : WriteResults)
    (bufferEvent : Option Bufferevent) (metaPtr : Option M) (protos : Protos)
    (data : Option Bytes) : Except Fault (Bool × Bufferevent) :=
  writeFrame order codec writes bufferEvent metaPtr protos data

/-- A message that fits the format. Its two parts lie in the memory of one process, where an array
has fewer than `2 ^ 63` bytes. -/
structure Outgoing (codec : MetaCodec M) where
  protos : Protos
  message : M
  data : Bytes
  meta_lt : (codec.serializeAsString message).length < 2 ^ 32
  nonempty : 0 < (codec.serializeAsString message).length + data.length
  fits : (codec.serializeAsString message).length + data.length < 2 ^ 63

namespace Outgoing

variable {codec : MetaCodec M}

def serialized (m : Outgoing codec) : Bytes := codec.serializeAsString m.message

def header (m : Outgoing codec) : MessageHeader where
  messageProto := m.protos
  messageMetaLength := UInt32.ofNat m.serialized.length
  messageLength :=
    UInt64.ofNat m.data.length + (UInt32.ofNat m.serialized.length).toUInt64

def frame (order : Endian) (m : Outgoing codec) : Bytes :=
  m.header.toBytes order ++ (m.serialized ++ m.data)

theorem metaLength_toNat (m : Outgoing codec) :
    m.header.messageMetaLength.toNat = m.serialized.length :=
  UInt32.toNat_ofNat_of_lt' m.meta_lt

theorem messageLength_toNat (m : Outgoing codec) :
    m.header.messageLength.toNat = (m.serialized ++ m.data).length := by
  have hFits : m.serialized.length + m.data.length < 2 ^ 63 := m.fits
  have hMeta : (UInt32.ofNat m.serialized.length).toNat = m.serialized.length := m.metaLength_toNat
  have hData : (UInt64.ofNat m.data.length).toNat = m.data.length :=
    UInt64.toNat_ofNat_of_lt' (by change _ < 2 ^ 64; omega)
  change (UInt64.ofNat m.data.length + (UInt32.ofNat m.serialized.length).toUInt64).toNat = _
  rw [UInt64.toNat_add, UInt32.toNat_toUInt64, hMeta, hData, Nat.mod_eq_of_lt (by omega),
    List.length_append, Nat.add_comm]

theorem size_toNat (m : Outgoing codec) :
    (m.header.messageLength - m.header.messageMetaLength.toUInt64).toNat = m.data.length := by
  have hLength := m.messageLength_toNat
  rw [List.length_append] at hLength
  have hMeta : m.header.messageMetaLength.toUInt64.toNat = m.serialized.length := by
    rw [UInt32.toNat_toUInt64, metaLength_toNat]
  have hLe : m.header.messageMetaLength.toUInt64 ≤ m.header.messageLength := by
    rw [UInt64.le_iff_toNat_le, hMeta]
    omega
  rw [UInt64.toNat_sub_of_le _ _ hLe, hMeta]
  omega

theorem take_frame (order : Endian) (m : Outgoing codec) :
    (m.frame order).take kHeaderLen = m.header.toBytes order :=
  List.take_left' (m.header.toBytes_length order)

theorem drop_frame (order : Endian) (m : Outgoing codec) :
    (m.frame order).drop kHeaderLen = m.serialized ++ m.data :=
  List.drop_left' (m.header.toBytes_length order)

theorem frame_length (order : Endian) (m : Outgoing codec) :
    (m.frame order).length = kHeaderLen + (m.serialized ++ m.data).length := by
  rw [frame, List.length_append, MessageHeader.toBytes_length]

theorem ofBytes_take_frame (order : Endian) (m : Outgoing codec) :
    MessageHeader.ofBytes order ((m.frame order).take kHeaderLen) = m.header := by
  have h := MessageHeader.ofBytes_toBytes order m.header []
  rwa [List.append_nil, ← take_frame] at h

theorem frame_isFrame (order : Endian) (m : Outgoing codec) :
    (frameFormat order).IsFrame (m.frame order) := by
  change (m.frame order).length = kHeaderLen +
    (MessageHeader.ofBytes order ((m.frame order).take kHeaderLen)).messageLength.toNat
  rw [ofBytes_take_frame, messageLength_toNat, frame_length]

theorem frame_admitted (order : Endian) (m : Outgoing codec) :
    (frameFormat order).Admitted (m.frame order) := by
  have hFits : m.serialized.length + m.data.length < 2 ^ 63 := m.fits
  refine TcpMessageHandler.admitted_of_le fun _ => Nat.le_sub_one_of_lt ?_
  rw [frameHeader, ofBytes_take_frame, messageLength_toNat, List.length_append]
  exact hFits

theorem lt_frame_length (order : Endian) (m : Outgoing codec) :
    kHeaderLen < (m.frame order).length := by
  have hNonempty : 0 < m.serialized.length + m.data.length := m.nonempty
  rw [frame_length, List.length_append]
  omega

theorem frameCall_frame (order : Endian) (m : Outgoing codec) :
    frameCall order (m.frame order) = m.header.call (m.serialized ++ m.data) := by
  rw [frameCall, ofBytes_take_frame, drop_frame]

end Outgoing

theorem writeFrame_outgoing {codec : MetaCodec M} (order : Endian) (bev : Bufferevent)
    (m : Outgoing codec) :
    writeFrame order codec {} (some bev) (some m.message) m.protos (some m.data) =
      .ok (true, ⟨bev.output ++ m.frame order⟩) := by
  have hSize : sizeToUint (codec.serializeAsString m.message).length =
      .ok (UInt32.ofNat m.serialized.length) := by
    have hLt := m.meta_lt
    exact if_neg (by omega)
  simp only [writeFrame, exceptionIfNull, bind, Except.bind, hSize, Bufferevent.write, if_true]
  rw [List.append_assoc, List.append_assoc]
  rfl

inductive Sender where
  | client
  | connection
deriving DecidableEq, Repr

def Sender.sendMessage : Sender → Endian → MetaCodec M → WriteResults → Option Bufferevent →
    Option M → Protos → Option Bytes → Except Fault (Bool × Bufferevent)
  | .client => TcpClient.sendMessage
  | .connection => TcpConnection.sendMessage

def sendAll (order : Endian) (codec : MetaCodec M) :
    List (Sender × Outgoing codec) → Bufferevent → Except Fault Bufferevent
  | [], bev => .ok bev
  | (sender, m) :: rest, bev => do
    let (_, bev) ← sender.sendMessage order codec {} (some bev) (some m.message) m.protos
      (some m.data)
    sendAll order codec rest bev

theorem sendAll_eq {codec : MetaCodec M} (order : Endian)
    (messages : List (Sender × Outgoing codec)) (bev : Bufferevent) :
    sendAll order codec messages bev =
      .ok ⟨bev.output ++ (messages.map fun m => m.2.frame order).flatten⟩ := by
  induction messages generalizing bev with
  | nil =>
    rw [List.map_nil, List.flatten_nil, List.append_nil]
    rfl
  | cons head rest ih =>
    obtain ⟨sender, m⟩ := head
    have hSend : sender.sendMessage order codec {} (some bev) (some m.message) m.protos
        (some m.data) = .ok (true, ⟨bev.output ++ m.frame order⟩) := by
      cases sender with
      | client => exact writeFrame_outgoing order bev m
      | connection => exact writeFrame_outgoing order bev m
    simp only [sendAll, bind, Except.bind, hSend, ih, List.map_cons, List.flatten_cons,
      List.append_assoc]

end PsRpc
