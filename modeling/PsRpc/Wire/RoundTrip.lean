import PsRpc.Wire.SendMessage

/-! # Framing round trip

What the senders write is what the receivers' callbacks get, for every cut of the byte stream
into chunks.
-/

namespace PsRpc

open ByteOrder Framing

variable {M : Type}

/-- What the callback of the application sees: the meta object that `ParseFromArray` made from
`metaBytes`, the proto and the payload. -/
structure Delivered (M : Type) where
  protos : Protos
  metaBytes : Bytes
  message : M
  data : Bytes
deriving DecidableEq, Repr

def MessageReceive.delivered (codec : MetaCodec M) (call : MessageReceive) :
    Option (Delivered M) := do
  let metaBytes ← call.metaBytes
  let data ← call.data
  some ⟨call.protos, metaBytes, codec.parseFromArray metaBytes, data⟩

namespace Outgoing

variable {codec : MetaCodec M}

def delivered (m : Outgoing codec) : Delivered M := ⟨m.protos, m.serialized, m.message, m.data⟩

theorem frameCall_delivered (order : Endian) (m : Outgoing codec) :
    (frameCall order (m.frame order)).delivered codec = some m.delivered := by
  have hMeta : (m.header.call (m.serialized ++ m.data)).metaBytes = some m.serialized := by
    change readSlice (m.serialized ++ m.data) 0 m.header.messageMetaLength.toNat = _
    rw [metaLength_toNat, readSlice_append_left]
  have hData : (m.header.call (m.serialized ++ m.data)).data = some m.data := by
    change readSlice (m.serialized ++ m.data) m.header.messageMetaLength.toNat
      (m.header.messageLength - m.header.messageMetaLength.toUInt64).toNat = _
    rw [metaLength_toNat, size_toNat, readSlice_append_right]
  have hParse : codec.parseFromArray m.serialized = m.message := codec.parse_serialize m.message
  rw [frameCall_frame, MessageReceive.delivered, hMeta, hData]
  change some (Delivered.mk m.protos m.serialized (codec.parseFromArray m.serialized) m.data) = _
  rw [hParse]
  rfl

end Outgoing

namespace TcpMessageHandler

theorem readingHeader_of_nil {order : Endian} {handler : TcpMessageHandler}
    (h : Reading order handler []) : ReadingHeader handler [] := by
  rcases h with hHeader | ⟨body, hNil, _⟩
  · exact hHeader
  · have hLen := congrArg List.length hNil
    rw [List.length_append, handler.header.length_toList, List.length_nil] at hLen
    exact absurd hLen.symm (by simp [kHeaderLen])

theorem lazyFeed_frames {codec : MetaCodec M} (order : Endian) (messages : List (Outgoing codec)) :
    (frameFormat order).lazyFeed (.reading []) (messages.map (·.frame order)).flatten =
      .ok (messages.map (·.frame order), .reading []) := by
  have hFeed : (frameFormat order).feed [] (messages.map (·.frame order)).flatten =
      (messages.map (·.frame order), []) := by
    apply Format.feed_frames
    intro f hf
    obtain ⟨m, _, rfl⟩ := List.mem_map.mp hf
    exact m.frame_isFrame order
  rw [Format.lazyFeed_eq_feed, hFeed]
  · rw [hFeed]
    exact Format.admitted_nil
  · rw [hFeed]
    intro f hf
    obtain ⟨m, _, rfl⟩ := List.mem_map.mp hf
    exact ⟨m.frame_admitted order, m.lt_frame_length order⟩

/-- A handler at the start of a frame that gets a stream of frames makes the call of each
frame and ends at the start of a frame. -/
theorem receiveChunks_frames {codec : MetaCodec M} {order : Endian} {handler : TcpMessageHandler}
    (hReading : ReadingHeader handler []) (messages : List (Outgoing codec)) {chunks : List Bytes}
    (hMax : ∀ chunk ∈ chunks, chunk.length ≤ securecMemMaxLen)
    (hCut : chunks.flatten = (messages.map (·.frame order)).flatten) :
    ∃ handler', ReadingHeader handler' [] ∧ receiveChunks order handler chunks =
      .ok (handler', messages.map fun m => frameCall order (m.frame order)) := by
  have hTracks : Tracks order handler (.reading []) := .inl hReading
  have hFollows := receiveChunks_follows hTracks hMax
  rw [hCut, lazyFeed_frames] at hFollows
  obtain ⟨handler', hRun, hReading'⟩ := hFollows
  rw [List.nil_append, List.map_map] at hRun
  exact ⟨handler', readingHeader_of_nil hReading', hRun⟩

end TcpMessageHandler

/-- Messages sent one after the other over a connection and received in chunks: the callback
is invoked once for each message, in order, with its proto, its meta bytes and its payload, and
the handler is back in its initial parsing state. -/
theorem framing_round_trip (order : Endian) (codec : MetaCodec M)
    (messages : List (Sender × Outgoing codec)) (junk : Vector UInt8 kHeaderLen) :
    ∃ stream, sendAll order codec messages ⟨[]⟩ = .ok stream ∧
      ∀ chunks : List Bytes, (∀ chunk ∈ chunks, chunk ≠ [] ∧ chunk.length ≤ 2 ^ 31 - 1) →
        chunks.flatten = stream.output →
        ∃ handler calls,
          TcpMessageHandler.receiveChunks order (TcpMessageHandler.new junk).setCallback chunks =
            .ok (handler, calls) ∧
          calls.map (·.delivered codec) = messages.map (fun m => some m.2.delivered) ∧
          handler.remainingLength = 0 ∧ handler.headerIndex = -1 ∧ handler.lastCopyLen = 0 := by
  refine ⟨_, sendAll_eq order messages ⟨[]⟩, ?_⟩
  intro chunks hChunks hCut
  have hFrames : chunks.flatten = ((messages.map Prod.snd).map (·.frame order)).flatten := by
    rw [hCut, List.map_map]
    rfl
  obtain ⟨handler, hReading, hRun⟩ := TcpMessageHandler.receiveChunks_frames
    (TcpMessageHandler.readingHeader_new junk) (messages.map Prod.snd)
    (fun chunk hChunk => (hChunks chunk hChunk).2) hFrames
  refine ⟨handler, _, hRun, ?_, hReading.remaining, hReading.index, hReading.copied⟩
  rw [List.map_map, List.map_map]
  apply List.map_congr_left
  intro m _
  exact m.2.frameCall_delivered order

def rawCodec : MetaCodec Bytes := ⟨id, id, fun _ => rfl⟩

def twoByteMessage : Outgoing rawCodec :=
  ⟨Protos.protobuf, [7], [9], by decide, by decide, by decide⟩

theorem framing_round_trip_two_frames :
    ∃ handler calls,
      TcpMessageHandler.receiveChunks .little
        (TcpMessageHandler.new (Vector.replicate 16 0)).setCallback
        [[1, 0, 0], [0, 1, 0, 0, 0, 2, 0, 0, 0, 0, 0, 0, 0, 7], [9, 1, 0, 0, 0, 1],
          [0, 0, 0, 2, 0, 0, 0, 0, 0, 0, 0, 7, 9]] = .ok (handler, calls) ∧
      calls.map (·.delivered rawCodec) =
        [some twoByteMessage.delivered, some twoByteMessage.delivered] ∧
      handler.remainingLength = 0 ∧ handler.headerIndex = -1 ∧ handler.lastCopyLen = 0 := by
  obtain ⟨stream, hSend, h⟩ := framing_round_trip .little rawCodec
    [(.client, twoByteMessage), (.connection, twoByteMessage)] (Vector.replicate 16 0)
  have hStream : stream = ⟨twoByteMessage.frame .little ++ twoByteMessage.frame .little⟩ := by
    rw [sendAll_eq] at hSend
    exact (Except.ok.inj hSend).symm
  exact h _ (by decide) (by rw [hStream]; decide)

end PsRpc
