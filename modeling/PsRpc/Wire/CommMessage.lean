import PsRpc.Library.Protobuf
import PsRpc.Cluster.Meta
import PsRpc.Wire.RoundTrip

/-! # Writing a `CommMessage`

`TcpClient` and `TcpConnection` have an overload of `SendMessage` for a whole `CommMessage`.
The one of `TcpClient` writes the header of the stream parser, but takes for the length of the
body the size of the serialized `CommMessage`, of which it then writes only the two parts. The
one of `TcpConnection` writes the length as eight bytes and the serialized message, without a
header. Neither writes a frame.
-/

namespace PsRpc

open ByteOrder Framing Protobuf

def NodeCommand.number : NodeCommand → Nat
  | .terminate => 0
  | .register => 1
  | .heartbeat => 2
  | .sendData => 3
  | .fetchServer => 4
  | .finish => 5
  | .collectiveSendData => 6

def NodeRole.number : NodeRole → Int
  | .server => 0
  | .worker => 1
  | .scheduler => 2
  | .unrecognized value => value

/-- `pb_meta` is a submessage, which can be absent; the accessor then gives the default. -/
structure CommMessage where
  pbMeta : Option MessageMeta
  data : Bytes
deriving DecidableEq, Repr

/-- The protobuf runtime on a `CommMessage`: the meta is a message of varint fields, and the bytes
of the whole are the tagged and length-prefixed meta and the tagged and length-prefixed data. -/
structure CommCodec where
  serializeMeta : MessageMeta → Bytes
  serialize : CommMessage → Bytes
  meta_fields : ∀ pbMeta, ∃ fields : List (Nat × Nat), (∀ field ∈ fields, field.1 ≠ 0) ∧
    serializeMeta pbMeta = fields.flatMap fun field => varintField field.1 field.2
  serialize_some : ∀ pbMeta data, serialize ⟨some pbMeta, data⟩ =
    lenField 1 (serializeMeta pbMeta) ++ bytesField 2 data

def CommCodec.metaBytes (codec : CommCodec) (m : CommMessage) : Bytes :=
  match m.pbMeta with
  | some pbMeta => codec.serializeMeta pbMeta
  | none => []

/-- `IntToUint`, on the `int32_t` to which the argument is converted. -/
def intToUint (u : Int) : Except Fault UInt32 :=
  if u < 0 then
    .error (.exception ("The int32_t value(" ++ toString u ++ ") is less than 0."))
  else .ok (UInt32.ofNat u.toNat)

def TcpClient.sendCommMessage (order : Endian) (codec : CommCodec) (writes : WriteResults)
    (bufferEvent : Option Bufferevent) (message : CommMessage) :
    Except Fault (Bool × Bufferevent) := do
  let bev ← exceptionIfNull "buffer_event_" bufferEvent
  let bufSize ← intToUint (BitVec.ofNat 32 (codec.serialize message).length).toInt
  let metaSize ← sizeToUint (codec.metaBytes message).length
  let header : MessageHeader :=
    { messageProto := Protos.protobuf
      messageMetaLength := metaSize
      messageLength := bufSize.toUInt64 }
  let (headerRet, bev) := bev.write writes.header (header.toBytes order)
  let (metaRet, bev) := bev.write writes.metaPart (codec.metaBytes message)
  let (dataRet, bev) := bev.write writes.data message.data
  .ok (headerRet ≠ -1 ∧ metaRet ≠ -1 ∧ dataRet ≠ -1, bev)

def TcpConnection.sendCommMessage (order : Endian) (codec : CommCodec) (writes : WriteResults)
    (bufferEvent : Option Bufferevent) (message : Option CommMessage) :
    Except Fault (Bool × Bufferevent) := do
  let bev ← exceptionIfNull "buffer_event_" bufferEvent
  let message ← exceptionIfNull "message" message
  let (sizeRet, bev) := bev.write writes.header (encode order 8 (codec.serialize message).length)
  let (dataRet, bev) := bev.write writes.data (codec.serialize message)
  .ok (sizeRet ≠ -1 ∧ dataRet ≠ -1, bev)

def Sender.sendCommMessage : Sender → Endian → CommCodec → WriteResults → Option Bufferevent →
    CommMessage → Except Fault (Bool × Bufferevent)
  | .client, order, codec, writes, bufferEvent, message =>
    TcpClient.sendCommMessage order codec writes bufferEvent message
  | .connection, order, codec, writes, bufferEvent, message =>
    TcpConnection.sendCommMessage order codec writes bufferEvent (some message)

namespace CommCodec

def written (codec : CommCodec) (order : Endian) (m : CommMessage) : Sender → Bytes
  | .client =>
    MessageHeader.toBytes order
        { messageProto := Protos.protobuf
          messageMetaLength := UInt32.ofNat (codec.metaBytes m).length
          messageLength := UInt64.ofNat (codec.serialize m).length } ++
      (codec.metaBytes m ++ m.data)
  | .connection => encode order 8 (codec.serialize m).length ++ codec.serialize m

structure Sendable (codec : CommCodec) (m : CommMessage) : Prop where
  pbMeta_ne_nil : codec.metaBytes m ≠ []
  size_lt : (codec.serialize m).length < 2 ^ 31

variable {codec : CommCodec} {m : CommMessage}

theorem Sendable.exists_pbMeta (h : codec.Sendable m) :
    ∃ pbMeta : MessageMeta, codec.metaBytes m = codec.serializeMeta pbMeta ∧
      codec.serialize m = lenField 1 (codec.serializeMeta pbMeta) ++ bytesField 2 m.data := by
  obtain ⟨pbMeta, data⟩ := m
  cases pbMeta with
  | none => exact absurd rfl h.pbMeta_ne_nil
  | some pbMeta => exact ⟨pbMeta, rfl, codec.serialize_some pbMeta data⟩

theorem Sendable.lt_serialize_length (h : codec.Sendable m) :
    (codec.metaBytes m).length + m.data.length < (codec.serialize m).length := by
  obtain ⟨pbMeta, hMeta, hSerialize⟩ := h.exists_pbMeta
  have hLen := le_lenField_length 1 (codec.serializeMeta pbMeta)
  have hData := le_bytesField_length 2 m.data
  rw [hMeta, hSerialize, List.length_append]
  omega

theorem sendCommMessage_eq (order : Endian) (sender : Sender) (bev : Bufferevent)
    (h : codec.Sendable m) :
    sender.sendCommMessage order codec {} (some bev) m =
      .ok (true, ⟨bev.output ++ codec.written order m sender⟩) := by
  have hSize := h.size_lt
  have hLt := h.lt_serialize_length
  cases sender with
  | connection =>
    simp only [Sender.sendCommMessage, TcpConnection.sendCommMessage, exceptionIfNull, bind,
      Except.bind, Bufferevent.write, if_true, written, List.append_assoc]
    rfl
  | client =>
    have hInt : (BitVec.ofNat 32 (codec.serialize m).length).toInt =
        ((codec.serialize m).length : Int) := by
      rw [BitVec.toInt_ofNat', Int.bmod_eq_of_le] <;> omega
    have hBuf : intToUint ((codec.serialize m).length : Int) =
        .ok (UInt32.ofNat (codec.serialize m).length) :=
      if_neg (by omega)
    have hMeta : sizeToUint (codec.metaBytes m).length =
        .ok (UInt32.ofNat (codec.metaBytes m).length) :=
      if_neg (by omega)
    have hLength : (UInt32.ofNat (codec.serialize m).length).toUInt64 =
        UInt64.ofNat (codec.serialize m).length := by
      apply UInt64.toNat_inj.mp
      rw [UInt32.toNat_toUInt64, UInt32.toNat_ofNat_of_lt' (by change _ < 2 ^ 32; omega),
        UInt64.toNat_ofNat_of_lt' (by change _ < 2 ^ 64; omega)]
    simp only [Sender.sendCommMessage, TcpClient.sendCommMessage, exceptionIfNull, bind,
      Except.bind, hInt, hBuf, hMeta, hLength, Bufferevent.write, if_true, written,
      List.append_assoc]
    rfl

theorem Sendable.not_isFrame_client (order : Endian) (h : codec.Sendable m) :
    ¬ (frameFormat order).IsFrame (codec.written order m .client) := by
  intro hFrame
  have hSize := h.size_lt
  have hLt := h.lt_serialize_length
  have hLength : (codec.written order m .client).length = kHeaderLen +
      (frameHeader order (codec.written order m .client)).messageLength.toNat := hFrame
  rw [written, List.length_append, MessageHeader.toBytes_length, List.length_append, frameHeader,
    List.take_left' (MessageHeader.toBytes_length order _)] at hLength
  have hHeader (header : MessageHeader) :
      MessageHeader.ofBytes order (header.toBytes order) = header := by
    have hOf := MessageHeader.ofBytes_toBytes order header []
    rwa [List.append_nil] at hOf
  rw [hHeader, UInt64.toNat_ofNat_of_lt' (by change _ < 2 ^ 64; omega)] at hLength
  omega

theorem ne_zero_of_mem_serializeMeta (codec : CommCodec) (pbMeta : MessageMeta) :
    ∀ byte ∈ codec.serializeMeta pbMeta, byte ≠ 0 := by
  obtain ⟨fields, hNumbers, hBytes⟩ := codec.meta_fields pbMeta
  intro byte hByte
  rw [hBytes] at hByte
  obtain ⟨field, hField, hMem⟩ := List.mem_flatMap.mp hByte
  exact ne_zero_of_mem_varintField (hNumbers field hField) byte hMem

theorem two_le_serializeMeta_length {pbMeta : MessageMeta} (h : codec.serializeMeta pbMeta ≠ []) :
    2 ≤ (codec.serializeMeta pbMeta).length := by
  obtain ⟨fields, -, hBytes⟩ := codec.meta_fields pbMeta
  rw [hBytes] at h ⊢
  clear hBytes
  induction fields with
  | nil => exact absurd rfl h
  | cons field fields ih =>
    rw [List.flatMap_cons] at h ⊢
    rw [List.length_append]
    rcases varintField_length field.1 field.2 with hNil | hLong
    · rw [hNil, List.nil_append] at h
      have hRest := ih h
      omega
    · omega

theorem ne_zero_of_mem_lenField {pbMeta : MessageMeta} (h : codec.serializeMeta pbMeta ≠ []) :
    ∀ byte ∈ lenField 1 (codec.serializeMeta pbMeta), byte ≠ 0 := by
  have hPos := List.length_pos_iff.mpr h
  simp only [lenField, List.forall_mem_append]
  exact ⟨ne_zero_of_mem_tag (by decide), ne_zero_of_mem_varint hPos.ne',
    codec.ne_zero_of_mem_serializeMeta pbMeta⟩

/-- The bytes that the parser takes for the length field contain one, in a high place for
either byte order, that is not zero. -/
theorem Sendable.exists_ne_zero (h : codec.Sendable m) (hLong : 8 ≤ (codec.serialize m).length)
    {i : Nat} (hi : i ≤ 4) : ∃ byte, (codec.serialize m)[i]? = some byte ∧ byte ≠ 0 := by
  obtain ⟨pbMeta, hMeta, hSerialize⟩ := h.exists_pbMeta
  have hNe : codec.serializeMeta pbMeta ≠ [] := by rw [← hMeta]; exact h.pbMeta_ne_nil
  have hTwo := two_le_serializeMeta_length hNe
  have hLen := le_lenField_length 1 (codec.serializeMeta pbMeta)
  rw [hSerialize, List.length_append] at hLong
  by_cases hIn : i < (lenField 1 (codec.serializeMeta pbMeta)).length
  · refine ⟨_, ?_, ne_zero_of_mem_lenField hNe _ (List.getElem_mem hIn)⟩
    rw [hSerialize, List.getElem?_append_left hIn, List.getElem?_eq_getElem hIn]
  · have hEnd : i - (lenField 1 (codec.serializeMeta pbMeta)).length = 0 := by omega
    have hData : bytesField 2 m.data = lenField 2 m.data := by
      rw [bytesField, if_neg]
      intro hNil
      rw [bytesField, if_pos hNil, List.length_nil] at hLong
      omega
    have hTag : tag 2 wireLen = [18] := by rw [tag, varint_of_lt (by decide)]; rfl
    refine ⟨18, ?_, by decide⟩
    rw [hSerialize, List.getElem?_append_right (by omega), hEnd, hData, lenField, hTag]
    rfl

/-- What the parser reads as the length is at least `2 ^ 31`. -/
theorem Sendable.le_decode (order : Endian) (h : codec.Sendable m)
    (hLong : 8 ≤ (codec.serialize m).length) :
    2 ^ 31 ≤ decode order ((codec.serialize m).take 8) := by
  cases order with
  | little =>
    obtain ⟨byte, hByte, hNe⟩ := h.exists_ne_zero hLong (le_refl 4)
    have hPos : 0 < byte.toNat := Nat.pos_of_ne_zero fun hZero => hNe (UInt8.toNat_inj.mp hZero)
    have hGet : ((codec.serialize m).take 8)[4]? = some byte := by
      rw [List.getElem?_take_of_lt (by decide), hByte]
    have hLe := le_ofLittleBytes hGet
    change 2 ^ 31 ≤ ofLittleBytes _
    omega
  | big =>
    obtain ⟨byte, hByte, hNe⟩ := h.exists_ne_zero hLong (Nat.zero_le 4)
    have hPos : 0 < byte.toNat := Nat.pos_of_ne_zero fun hZero => hNe (UInt8.toNat_inj.mp hZero)
    have hTake : ((codec.serialize m).take 8).length = 8 := List.length_take_of_le hLong
    have hGet : ((codec.serialize m).take 8).reverse[7]? = some byte := by
      rw [List.getElem?_reverse (by omega), hTake, List.getElem?_take_of_lt (by decide)]
      exact hByte
    have hLe := le_ofLittleBytes hGet
    change 2 ^ 31 ≤ ofLittleBytes _
    omega

theorem Sendable.not_isFrame_connection (order : Endian) (h : codec.Sendable m) :
    ¬ (frameFormat order).IsFrame (codec.written order m .connection) := by
  intro hFrame
  have hSize := h.size_lt
  have hLength : (codec.written order m .connection).length = kHeaderLen +
      (frameHeader order (codec.written order m .connection)).messageLength.toNat := hFrame
  have hEight : (encode order 8 (codec.serialize m).length).length = 8 := encode_length order 8 _
  have hHeader : kHeaderLen = 8 + 8 := rfl
  rw [written, List.length_append, hEight] at hLength
  have hLong : 8 ≤ (codec.serialize m).length := by omega
  have hTake : (codec.written order m .connection).take kHeaderLen =
      encode order 8 (codec.serialize m).length ++ (codec.serialize m).take 8 := by
    rw [written, List.take_append, hEight, List.take_of_length_le (by omega)]
    rfl
  have hField : (frameHeader order (codec.written order m .connection)).messageLength =
      UInt64.ofNat (decode order ((codec.serialize m).take 8)) := by
    rw [frameHeader, hTake]
    change UInt64.ofNat (decode order (List.take 8 (List.drop 8 _))) = _
    rw [List.drop_left' hEight, List.take_take, Nat.min_self]
  have hDecode := h.le_decode order hLong
  have hLt : decode order ((codec.serialize m).take 8) < 2 ^ 64 := by
    have hBound := decode_lt order ((codec.serialize m).take 8)
    rwa [List.length_take_of_le hLong] at hBound
  change _ = kHeaderLen +
    (frameHeader order (codec.written order m .connection)).messageLength.toNat
    at hLength
  rw [hField, UInt64.toNat_ofNat_of_lt' hLt] at hLength
  omega

theorem Sendable.not_isFrame (order : Endian) (h : codec.Sendable m) (sender : Sender) :
    ¬ (frameFormat order).IsFrame (codec.written order m sender) := by
  cases sender with
  | client => exact h.not_isFrame_client order
  | connection => exact h.not_isFrame_connection order

end CommCodec

/-! ## What the receiver makes of it -/

variable {M : Type}

/-- Messages of the other overloads, one `CommMessage`, and messages of the other overloads, sent
on one connection without a failing write. -/
def sendAround (order : Endian) (codec : MetaCodec M) (commCodec : CommCodec)
    (before : List (Sender × Outgoing codec)) (sender : Sender) (m : CommMessage)
    (after : List (Sender × Outgoing codec)) : Except Fault Bufferevent := do
  let bev ← sendAll order codec before ⟨[]⟩
  let (_, bev) ← sender.sendCommMessage order commCodec {} (some bev) m
  sendAll order codec after bev

/-- The receiver makes the calls of the other messages and between them one call, whose frame with
its header has as many bytes as were written. -/
def DecodedAsOne {codec : MetaCodec M} (order : Endian) (before : List (Sender × Outgoing codec))
    (written : Bytes) (after : List (Sender × Outgoing codec))
    (result : Except Fault (TcpMessageHandler × List MessageReceive)) : Prop :=
  ∃ handler call, result = .ok (handler,
      before.map (fun m => frameCall order (m.2.frame order)) ++
        call :: after.map (fun m => frameCall order (m.2.frame order))) ∧
    kHeaderLen + call.buffer.length = written.length

theorem isFrame_of_first_call {order : Endian} {written rest f : Bytes} {fs : List Bytes}
    {mode : Framing.Mode UInt8}
    (hFeed : (frameFormat order).lazyFeed (.reading []) (written ++ rest) = .ok (f :: fs, mode))
    (hUsed : kHeaderLen + (frameCall order f).buffer.length = written.length) :
    (frameFormat order).IsFrame written := by
  have hFrame := Format.isFrame_of_mem_lazyFeed hFeed f List.mem_cons_self
  have hPrefix : f <+: written ++ rest := by
    have hAll := Format.lazyFeed_conserves hFeed
    rw [List.nil_append, List.flatten_cons] at hAll
    exact (List.prefix_append f _).trans hAll
  have hLen : f.length = written.length := by
    have hLe : kHeaderLen ≤ f.length := hFrame.headerLen_le
    change kHeaderLen + (f.drop kHeaderLen).length = _ at hUsed
    rw [List.length_drop] at hUsed
    omega
  have hEq : f = written :=
    (List.prefix_of_prefix_length_le hPrefix (List.prefix_append written rest) hLen.le).eq_of_length
      hLen
  rwa [hEq] at hFrame

theorem isFrame_of_decodedAsOne {codec : MetaCodec M} {order : Endian}
    {before after : List (Sender × Outgoing codec)} {written rest : Bytes} {chunks : List Bytes}
    {handler : TcpMessageHandler} (hTracks : handler.Tracks order (.reading []))
    (hCut : chunks.flatten =
      (before.map fun m => m.2.frame order).flatten ++ (written ++ rest))
    (h : DecodedAsOne order before written after (handler.receiveChunks order chunks)) :
    (frameFormat order).IsFrame written := by
  obtain ⟨handler', call, hRun, hUsed⟩ := h
  have hBefore := TcpMessageHandler.lazyFeed_frames order (before.map Prod.snd)
  rw [List.map_map] at hBefore
  rcases TcpMessageHandler.receiveChunks_spec chunks hTracks with ⟨_, hError⟩ | hFollows
  · rw [hRun] at hError
    cases hError
  rw [hCut] at hFollows
  change TcpMessageHandler.Follows order [] _ ((frameFormat order).lazyFeed (.reading [])
    ((before.map ((·.frame order) ∘ Prod.snd)).flatten ++ _)) at hFollows
  rw [Format.lazyFeed_append_of hBefore] at hFollows
  cases hFeed : (frameFormat order).lazyFeed (.reading []) (written ++ rest) with
  | error stop =>
    rw [hFeed] at hFollows
    have hError : handler.receiveChunks order chunks = .error (TcpMessageHandler.stopFault stop) :=
      hFollows
    rw [hRun] at hError
    cases hError
  | ok later =>
    obtain ⟨fs, mode⟩ := later
    rw [hFeed] at hFollows
    obtain ⟨_, hResult, _⟩ := hFollows
    rw [hRun] at hResult
    have hCalls := (Prod.mk.inj (Except.ok.inj hResult)).2
    rw [List.nil_append, List.map_append, List.map_map] at hCalls
    have hTail := List.append_cancel_left hCalls
    cases fs with
    | nil => cases hTail
    | cons f fs =>
      rw [(List.cons.inj hTail).1] at hUsed
      exact isFrame_of_first_call hFeed hUsed

/-- No message with a meta that `ByteSizeLong` gives fewer than `2 ^ 31` bytes is decoded from what
either overload writes for it. -/
theorem comm_message_never_decoded (order : Endian) (codec : MetaCodec M) (commCodec : CommCodec)
    (before after : List (Sender × Outgoing codec)) (sender : Sender) (m : CommMessage)
    (hMeta : commCodec.metaBytes m ≠ []) (hSize : (commCodec.serialize m).length < 2 ^ 31)
    (junk : Vector UInt8 kHeaderLen) :
    ∃ stream, sendAround order codec commCodec before sender m after = .ok stream ∧
      ∀ chunks : List Bytes, chunks.flatten = stream.output →
        ¬ DecodedAsOne order before (commCodec.written order m sender) after
          (TcpMessageHandler.receiveChunks order (TcpMessageHandler.new junk).setCallback
            chunks) := by
  have hSendable : commCodec.Sendable m := ⟨hMeta, hSize⟩
  have hSend : sendAround order codec commCodec before sender m after =
      .ok ⟨(before.map fun m => m.2.frame order).flatten ++ commCodec.written order m sender ++
        (after.map fun m => m.2.frame order).flatten⟩ := by
    simp only [sendAround, sendAll_eq, bind, Except.bind, List.nil_append,
      CommCodec.sendCommMessage_eq order sender _ hSendable]
  refine ⟨_, hSend, fun chunks hCut hDecoded => ?_⟩
  rw [List.append_assoc] at hCut
  exact hSendable.not_isFrame order sender
    (isFrame_of_decodedAsOne (TcpMessageHandler.tracks_new order junk) hCut hDecoded)

/-! ## An instance -/

def MessageMeta.fields (m : MessageMeta) : List (Nat × Nat) :=
  [(1, m.cmd.number), (2, m.requestId % 2 ^ 64), (3, (m.role.number % 2 ^ 64).toNat),
    (4, (m.rankId.toInt32.toInt % 2 ^ 64).toNat), (5, (m.userCmd % 2 ^ 64).toNat)]

theorem MessageMeta.fields_ne_zero (m : MessageMeta) : ∀ field ∈ m.fields, field.1 ≠ 0 := by
  simp [fields]

def MessageMeta.serialize (m : MessageMeta) : Bytes :=
  m.fields.flatMap fun field => varintField field.1 field.2

def fieldCodec : CommCodec where
  serializeMeta := MessageMeta.serialize
  serialize m :=
    (match m.pbMeta with
      | some pbMeta => lenField 1 pbMeta.serialize
      | none => []) ++ bytesField 2 m.data
  meta_fields pbMeta := ⟨pbMeta.fields, pbMeta.fields_ne_zero, rfl⟩
  serialize_some _ _ := rfl

def smallCommMessage : CommMessage where
  pbMeta := some ⟨.sendData, 5, .worker, 0, 0⟩
  data := [7]

theorem smallCommMessage_metaBytes :
    fieldCodec.metaBytes smallCommMessage = [8, 3, 16, 5, 24, 1] := by
  change MessageMeta.serialize ⟨.sendData, 5, .worker, 0, 0⟩ = _
  simp [MessageMeta.serialize, MessageMeta.fields, NodeCommand.number, NodeRole.number, varintField,
    tag, wireVarint, varint_of_lt]

theorem smallCommMessage_serialize :
    fieldCodec.serialize smallCommMessage = [10, 6, 8, 3, 16, 5, 24, 1, 18, 1, 7] := by
  have hMeta := smallCommMessage_metaBytes
  change lenField 1 (fieldCodec.metaBytes smallCommMessage) ++ bytesField 2 [7] = _
  rw [hMeta]
  simp [lenField, bytesField, tag, wireLen, varint_of_lt]

theorem comm_message_never_decoded_small :
    ∃ stream, sendAround .little rawCodec fieldCodec [(.client, twoByteMessage)] .connection
        smallCommMessage [(.client, twoByteMessage)] = .ok stream ∧
      ∀ chunks : List Bytes, chunks.flatten = stream.output →
        ¬ DecodedAsOne .little [(.client, twoByteMessage)]
          (fieldCodec.written .little smallCommMessage .connection) [(.client, twoByteMessage)]
          (TcpMessageHandler.receiveChunks .little
            (TcpMessageHandler.new (Vector.replicate 16 0)).setCallback chunks) :=
  comm_message_never_decoded .little rawCodec fieldCodec [(.client, twoByteMessage)]
    [(.client, twoByteMessage)] .connection smallCommMessage
    (by rw [smallCommMessage_metaBytes]; simp) (by rw [smallCommMessage_serialize]; decide)
    (Vector.replicate 16 0)

theorem DecodedAsOne.length_calls {codec : MetaCodec M} {order : Endian}
    {before after : List (Sender × Outgoing codec)} {written : Bytes}
    {result : Except Fault (TcpMessageHandler × List MessageReceive)}
    (h : DecodedAsOne order before written after result) :
    result.map (·.2.length) = .ok (before.length + (after.length + 1)) := by
  obtain ⟨handler, call, rfl, _⟩ := h
  change Except.ok (List.length _) = _
  rw [List.length_append, List.length_cons, List.length_map, List.length_map]

/-- The header that a client writes declares eleven bytes, seven follow, and the receiver takes
the missing four from the frame behind, which is never delivered. A connection writes no
header, and nothing is delivered. -/
theorem comm_message_swallows_next :
    ¬ DecodedAsOne .little [] (fieldCodec.written .little smallCommMessage .client)
        [(.client, twoByteMessage)]
        (TcpMessageHandler.receiveChunks .little
          (TcpMessageHandler.new (Vector.replicate 16 0)).setCallback
          [fieldCodec.written .little smallCommMessage .client ++ twoByteMessage.frame .little]) ∧
      ¬ DecodedAsOne .little [] (fieldCodec.written .little smallCommMessage .connection)
        [(.client, twoByteMessage)]
        (TcpMessageHandler.receiveChunks .little
          (TcpMessageHandler.new (Vector.replicate 16 0)).setCallback
          [fieldCodec.written .little smallCommMessage .connection ++
          twoByteMessage.frame .little]) := by
  have hClient : fieldCodec.written .little smallCommMessage .client =
      [1, 0, 0, 0, 6, 0, 0, 0, 11, 0, 0, 0, 0, 0, 0, 0, 8, 3, 16, 5, 24, 1, 7] := by
    rw [CommCodec.written, smallCommMessage_metaBytes, smallCommMessage_serialize]
    decide
  have hConnection : fieldCodec.written .little smallCommMessage .connection =
      [11, 0, 0, 0, 0, 0, 0, 0, 10, 6, 8, 3, 16, 5, 24, 1, 18, 1, 7] := by
    rw [CommCodec.written, smallCommMessage_serialize]
    decide
  rw [hClient, hConnection]
  constructor
  · intro h
    exact absurd h.length_calls (by decide)
  · intro h
    exact absurd h.length_calls (by decide)

end PsRpc
