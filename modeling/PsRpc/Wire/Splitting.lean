import PsRpc.Wire.StreamRefinement

/-! # Splitting the argument of `ReceiveMessage`

Between two calls that return the parser's state is a function of the bytes of the unfinished frame,
so it does not matter how a stream is cut into calls. A call that raises, since no buffer can be
made for the body, leaves the object in the middle of a frame and the next call goes on from there.
-/

namespace PsRpc

open ByteOrder Framing

/-- What `TcpMessageHandler` knows of the current frame: the bytes of `header_` up to
`header_index_`, the three counters and the first `last_copy_len_` bytes of `message_buffer_`. -/
structure ParserState where
  headerBytes : Bytes
  headerIndex : Int
  remainingLength : Nat
  lastCopyLen : Nat
  buffered : Bytes
deriving DecidableEq, Repr

def ParserState.ofPending (order : Endian) (p : Bytes) : ParserState where
  headerBytes := p.take kHeaderLen
  headerIndex := ((p.take kHeaderLen).length : Int) - 1
  remainingLength :=
    if p.length < kHeaderLen then 0
    else (frameHeader order p).messageLength.toNat - (p.drop kHeaderLen).length
  lastCopyLen := (p.drop kHeaderLen).length
  buffered := p.drop kHeaderLen

namespace TcpMessageHandler

def parserState (handler : TcpMessageHandler) : ParserState where
  headerBytes := handler.header.toList.take (handler.headerIndex + 1).toNat
  headerIndex := handler.headerIndex
  remainingLength := handler.remainingLength
  lastCopyLen := handler.lastCopyLen
  buffered := ((handler.messageBuffer.map (·.data)).getD []).take handler.lastCopyLen

theorem ReadingHeader.parserState_eq {order : Endian} {handler : TcpMessageHandler} {p : Bytes}
    (h : ReadingHeader handler p) : handler.parserState = .ofPending order p := by
  have hShort := h.short
  have hTake : p.take kHeaderLen = p := List.take_of_length_le (by omega)
  have hDrop : p.drop kHeaderLen = [] := List.drop_eq_nil_of_le (by omega)
  have hIndex : ((p.length : Int) - 1 + 1).toNat = p.length := by omega
  simp only [parserState, ParserState.ofPending, h.index, h.remaining, h.copied, hTake, hDrop,
    hIndex, h.bytes, if_pos hShort, List.take_zero, List.length_nil]

theorem ReadingBody.parserState_eq {order : Endian} {handler : TcpMessageHandler} {body : Bytes}
    (h : ReadingBody order handler body) :
    handler.parserState = .ofPending order (handler.header.toList ++ body) := by
  have hTake := take_header_append handler.header body
  have hDrop : (handler.header.toList ++ body).drop kHeaderLen = body :=
    List.drop_left' handler.header.length_toList
  have hLong : ¬ (handler.header.toList ++ body).length < kHeaderLen := by
    rw [List.length_append, handler.header.length_toList]
    omega
  have hIndex : ((kHeaderLen : Int) - 1 + 1).toNat = kHeaderLen := rfl
  have hFull : handler.header.toList.take kHeaderLen = handler.header.toList :=
    List.take_of_length_le handler.header.length_toList.le
  have hRemaining : handler.messageHeader.messageLength.toNat - body.length =
      handler.remainingLength := by
    have hTotal := h.total
    omega
  simp only [parserState, ParserState.ofPending, frameHeader, h.index, h.copied, h.block, hTake,
    hDrop, hIndex, hFull, if_neg hLong, ← h.header, hRemaining, handler.header.length_toList,
    Option.map_some, Option.getD_some, List.take_length]

theorem Reading.parserState_eq {order : Endian} {handler : TcpMessageHandler} {p : Bytes}
    (h : Reading order handler p) : handler.parserState = .ofPending order p := by
  rcases h with hHeader | ⟨body, rfl, hBody⟩
  · exact hHeader.parserState_eq
  · exact hBody.parserState_eq

/-- A handler that reads with `p` pending, on input whose complete headers declare bodies for which
there is room. -/
theorem receiveMessage_reading {order : Endian} {handler : TcpMessageHandler} {p xs : Bytes}
    (h : Reading order handler p) (hMax : xs.length ≤ securecMemMaxLen)
    (hRest : (frameFormat order).Admitted ((frameFormat order).feed p xs).2)
    (hBodies : ∀ f ∈ ((frameFormat order).feed p xs).1,
      (frameFormat order).Admitted f ∧ kHeaderLen < f.length) :
    ∃ handler', receiveMessage order handler xs =
        .ok (handler', ((frameFormat order).feed p xs).1.map (frameCall order)) ∧
      Reading order handler' ((frameFormat order).feed p xs).2 := by
  have hTracks : Tracks order handler (.reading p) := h
  have hFollows := receiveMessage_follows hTracks hMax
  rw [Format.lazyFeed_eq_feed hRest hBodies] at hFollows
  exact hFollows

theorem reading_of_receiveChunks {order : Endian} {junk : Vector UInt8 kHeaderLen}
    {chunks : List Bytes} {handler : TcpMessageHandler} {calls : List MessageReceive}
    (hRun : receiveChunks order (new junk).setCallback chunks = .ok (handler, calls))
    (hRest : (frameFormat order).Admitted ((frameFormat order).feed [] chunks.flatten).2)
    (hBodies : ∀ f ∈ ((frameFormat order).feed [] chunks.flatten).1,
      (frameFormat order).Admitted f ∧ kHeaderLen < f.length) :
    Reading order handler ((frameFormat order).feed [] chunks.flatten).2 := by
  rcases receiveChunks_spec chunks (tracks_new order junk) with ⟨_, hError⟩ | hFollows
  · rw [hRun] at hError
    cases hError
  · rw [Format.lazyFeed_eq_feed hRest hBodies] at hFollows
    obtain ⟨handler', hResult, hReading⟩ := hFollows
    rw [hRun] at hResult
    obtain ⟨rfl, _⟩ := Prod.mk.inj (Except.ok.inj hResult)
    exact hReading

end TcpMessageHandler

/-! ## The splitting law -/

/-- The complete headers of the stream, also the one whose body has not been read. -/
def completeHeaders (order : Endian) (stream : Bytes) : List MessageHeader :=
  let (frames, pending) := (frameFormat order).feed [] stream
  (frames ++ if kHeaderLen ≤ pending.length then [pending] else []).map (frameHeader order)

/-- A call with `a ++ b` makes the callback invocations of a call with `a` and a call with `b`, and
leaves the parser state that these leave. -/
def SplitsAt (order : Endian) (handler : TcpMessageHandler) (a b : Bytes) : Prop :=
  let whole := handler.afterMessage order (a ++ b)
  let first := handler.afterMessage order a
  let second := first.1.afterMessage order b
  whole.2 = first.2 ++ second.2 ∧ whole.1.parserState = second.1.parserState

instance (order : Endian) (handler : TcpMessageHandler) (a b : Bytes) :
    Decidable (SplitsAt order handler a b) :=
  inferInstanceAs (Decidable (_ ∧ _))

theorem frames_of_completeHeaders {order : Endian} {stream : Bytes}
    (h : ∀ header ∈ completeHeaders order stream,
      header.messageLength ≠ 0 ∧ header.messageLength.toNat < 2 ^ 63) :
    (frameFormat order).Admitted ((frameFormat order).feed [] stream).2 ∧
      ∀ f ∈ ((frameFormat order).feed [] stream).1,
        (frameFormat order).Admitted f ∧ kHeaderLen < f.length := by
  have hFrame {frame : Bytes} (hMem : frame ∈ ((frameFormat order).feed [] stream).1 ++
      if kHeaderLen ≤ ((frameFormat order).feed [] stream).2.length then
        [((frameFormat order).feed [] stream).2] else []) :=
    h _ (List.mem_map_of_mem hMem)
  constructor
  · refine TcpMessageHandler.admitted_of_le fun hLen => ?_
    rw [if_pos hLen] at hFrame
    exact Nat.le_sub_one_of_lt (hFrame (List.mem_append_right _ List.mem_cons_self)).2
  · intro f hf
    obtain ⟨hNonzero, hLt⟩ := hFrame (List.mem_append_left _ hf)
    exact ⟨TcpMessageHandler.admitted_of_le fun _ => Nat.le_sub_one_of_lt hLt,
      (messageLength_ne_zero_iff (Format.isFrame_of_mem_feed f hf)).mp hNonzero⟩

def sevenHeaderBytes : TcpMessageHandler :=
  { (TcpMessageHandler.new (Vector.replicate 16 0)).setCallback with
    header := #v[1, 0, 0, 0, 0, 0, 0, 0, 0, 0, 0, 0, 0, 0, 0, 0]
    headerIndex := 6 }

def hugeHeader : Bytes := [1, 0, 0, 0, 0, 0, 0, 0, 0, 0, 0, 0, 0, 0, 0, 128]

end PsRpc
