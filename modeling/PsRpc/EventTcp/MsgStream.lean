import PsRpc.EventTcp.MsgParser
import PsRpc.Library.Framing

/-! # The streams of `event-tcp`

What the parser makes of a stream is a function of its frames. `send_msg` writes a frame for each
message, so messages come out as they were sent, up to the size that the length field can hold.
-/

namespace PsRpc

open ByteOrder Framing Chunks

namespace MsgParser

/-! ## The stream as frames -/

/-- A header that declares the length `unread` announces no message. -/
def msgFormat : Format UInt8 where
  headerLen := headerSize
  bodyLen header :=
    if (headerAt header).mLength = unread then 0 else (headerAt header).mLength.toNat
  admits _ := true
  headerLen_pos := by decide

def frameCalls (frame : Bytes) : List MsgArrived :=
  magicCalls (headerAt frame) ++
    if (headerAt frame).mLength = unread then [] else [.message (frame.drop headerSize)]

/-- The magic number of an unfinished frame is looked at as soon as its header is there. -/
def startedCalls (pending : Bytes) : List MsgArrived :=
  if headerSize ≤ pending.length then magicCalls (headerAt pending) else []

/-- What a stream means: the calls for its frames, and for the header of the frame behind them. -/
def streamCalls (stream : Bytes) : List MsgArrived :=
  (msgFormat.feed [] stream).1.flatMap frameCalls ++ startedCalls (msgFormat.feed [] stream).2

theorem streamCalls_append_frame {frame : Bytes} (h : msgFormat.IsFrame frame) (stream : Bytes) :
    streamCalls (frame ++ stream) = frameCalls frame ++ streamCalls stream := by
  have hFeed : msgFormat.feed [] frame = ([frame], []) := Format.feed_of_isFrame h h.ne_nil
  rw [streamCalls, Format.feed_append, hFeed, List.flatMap_append, List.append_assoc]
  simp [streamCalls]

theorem feed_append_frame {frame : Bytes} (h : msgFormat.IsFrame frame) (stream : Bytes) :
    (msgFormat.feed [] (frame ++ stream)).2 = (msgFormat.feed [] stream).2 := by
  have hFeed : msgFormat.feed [] frame = ([frame], []) := Format.feed_of_isFrame h h.ne_nil
  rw [Format.feed_append, hFeed]

theorem streamCalls_of_unfinished {stream : Bytes} (h : msgFormat.Unfinished stream) :
    streamCalls stream = startedCalls stream ∧ (msgFormat.feed [] stream).2 = stream := by
  have hFeed : msgFormat.feed [] stream = ([], stream) := Format.feed_of_unfinished h
  exact ⟨by rw [streamCalls, hFeed]; rfl, by rw [hFeed]⟩

/-- The bytes of a header; what `send_msg` writes before the message. -/
def headerBytes (header : MsgHeader) : Bytes :=
  encode .big 4 header.mMagic.toNat ++ encode .big 4 header.mLength.toNat

@[simp] theorem length_headerBytes (header : MsgHeader) :
    (headerBytes header).length = headerSize := by
  simp [headerBytes, headerSize]

theorem ofNat_decode_encode (n : UInt32) :
    UInt32.ofNat (decode .big (encode .big 4 n.toNat)) = n := by
  have hLt : n.toNat < 256 ^ 4 := n.toNat_lt
  rw [decode_encode, Nat.mod_eq_of_lt hLt, UInt32.ofNat_toNat]

@[simp] theorem headerAt_headerBytes (header : MsgHeader) (rest : Bytes) :
    headerAt (headerBytes header ++ rest) = header := by
  rw [headerAt_append (by simp)]
  have hMagic : (headerBytes header).take 4 = encode .big 4 header.mMagic.toNat :=
    List.take_left' (encode_length _ _ _)
  have hLength : (headerBytes header).drop 4 = encode .big 4 header.mLength.toNat :=
    List.drop_left' (encode_length _ _ _)
  rw [headerAt, ntohlAt, ntohlAt, List.drop_zero, hMagic, hLength,
    List.take_of_length_le (by simp), ofNat_decode_encode, ofNat_decode_encode]

theorem headerBytes_headerAt {buffer : Bytes} (h : headerSize ≤ buffer.length) :
    headerBytes (headerAt buffer) = buffer.take headerSize := by
  unfold headerSize at h ⊢
  have hWord : ∀ offset, offset + 4 ≤ buffer.length →
      encode .big 4 (ntohlAt buffer offset).toNat = (buffer.drop offset).take 4 := by
    intro offset hOffset
    have hLen : ((buffer.drop offset).take 4).length = 4 := by
      rw [List.length_take, List.length_drop]
      omega
    have hLt : decode .big ((buffer.drop offset).take 4) < 2 ^ 32 := by
      have hDecode := decode_lt .big ((buffer.drop offset).take 4)
      rwa [hLen] at hDecode
    have hInverse := encode_decode .big ((buffer.drop offset).take 4)
    rw [hLen] at hInverse
    rw [ntohlAt, UInt32.toNat_ofNat_of_lt' hLt, hInverse]
  rw [headerBytes, headerAt, hWord 0 (by omega), hWord 4 (by omega), List.drop_zero,
    show (8 : Nat) = 4 + 4 from rfl, List.take_add]

def pending (p : MsgParser) : Bytes :=
  if p.mHeader.mLength = unread then p.mBuffer else headerBytes p.mHeader ++ p.mBuffer

def reported (p : MsgParser) : List MsgArrived :=
  if p.mHeader.mLength = unread then [] else magicCalls p.mHeader

theorem bodyLen_headerBytes (header : MsgHeader) (rest : Bytes) :
    msgFormat.bodyLen ((headerBytes header ++ rest).take headerSize) =
      if header.mLength = unread then 0 else header.mLength.toNat := by
  have hTake : (headerBytes header ++ rest).take headerSize = headerBytes header :=
    List.take_left' (length_headerBytes header)
  have hHeader := headerAt_headerBytes header []
  rw [List.append_nil] at hHeader
  rw [hTake]
  change (if (headerAt (headerBytes header)).mLength = unread then 0 else _) = _
  rw [hHeader]

theorem isFrame_headerBytes {header : MsgHeader} {body : Bytes} :
    msgFormat.IsFrame (headerBytes header ++ body) ↔
      body.length = if header.mLength = unread then 0 else header.mLength.toNat := by
  have hLength := bodyLen_headerBytes header body
  change (headerBytes header ++ body).length = headerSize +
    msgFormat.bodyLen ((headerBytes header ++ body).take headerSize) ↔ _
  rw [hLength, List.length_append, length_headerBytes, Nat.add_left_cancel_iff]

/-- Where the loop stops, the bytes are those of an unfinished frame. -/
theorem unfinished_of_not_ready {p : MsgParser} (h : ¬ p.Ready) :
    msgFormat.Unfinished p.pending := by
  obtain ⟨hShort, hHeader⟩ := not_or.mp h
  rw [pending]
  split
  · next hUnread =>
    intro hSize
    exact absurd ⟨hUnread, hSize⟩ hHeader
  · next hRead =>
    intro _
    change (headerBytes p.mHeader ++ p.mBuffer).length < headerSize +
      msgFormat.bodyLen ((headerBytes p.mHeader ++ p.mBuffer).take headerSize)
    rw [bodyLen_headerBytes, if_neg hRead, List.length_append, length_headerBytes]
    omega

theorem startedCalls_pending {p : MsgParser} (h : ¬ p.Ready) :
    startedCalls p.pending = p.reported := by
  rw [startedCalls, pending, reported]
  split
  · next hUnread =>
    exact if_neg fun hSize => h (.inr ⟨hUnread, hSize⟩)
  · rw [if_pos (by simp), headerAt_headerBytes]

theorem pending_take_header {p : MsgParser} (h : p.Ready) (hUnread : p.mHeader.mLength = unread)
    (hMessage : (headerAt p.mBuffer).mLength ≠ unread) :
    p.take.2.pending = p.pending ∧ p.take.2.reported = p.take.1 := by
  have hSize := h.headerSize_le hUnread
  rw [take_header h hUnread]
  constructor
  · change (if (headerAt p.mBuffer).mLength = unread then _ else _) = _
    rw [if_neg hMessage, pending, if_pos hUnread]
    change headerBytes (headerAt p.mBuffer) ++ p.mBuffer.drop headerSize = _
    rw [headerBytes_headerAt hSize, List.take_append_drop]
  · change (if (headerAt p.mBuffer).mLength = unread then _ else _) = _
    rw [if_neg hMessage]

theorem take_bare_header {p : MsgParser} (h : p.Ready) (hUnread : p.mHeader.mLength = unread)
    (hBare : (headerAt p.mBuffer).mLength = unread) :
    ∃ frame, msgFormat.IsFrame frame ∧ p.pending = frame ++ p.take.2.pending ∧
      frameCalls frame = p.take.1 ∧ p.take.2.reported = [] := by
  have hSize := h.headerSize_le hUnread
  have hBytes := headerBytes_headerAt hSize
  refine ⟨p.mBuffer.take headerSize, ?_, ?_, ?_, ?_⟩
  · rw [← hBytes, ← List.append_nil (headerBytes _), isFrame_headerBytes, if_pos hBare]
    rfl
  · rw [take_header h hUnread, pending, if_pos hUnread, pending, if_pos hBare,
      List.take_append_drop]
  · have hHeader := headerAt_headerBytes (headerAt p.mBuffer) []
    rw [List.append_nil] at hHeader
    rw [take_header h hUnread, ← hBytes, frameCalls, hHeader, if_pos hBare, List.append_nil]
  · rw [take_header h hUnread, reported, if_pos hBare]

theorem take_frame {p : MsgParser} (h : p.Ready) (hRead : p.mHeader.mLength ≠ unread) :
    ∃ frame, msgFormat.IsFrame frame ∧ p.pending = frame ++ p.take.2.pending ∧
      frameCalls frame = p.reported ++ p.take.1 ∧ p.take.2.reported = [] := by
  have hLength := h.length_le hRead
  refine ⟨headerBytes p.mHeader ++ p.mBuffer.take p.mHeader.mLength.toNat, ?_, ?_, ?_, ?_⟩
  · rw [isFrame_headerBytes, if_neg hRead, List.length_take, Nat.min_eq_left hLength]
  · rw [take_message h hRead, pending, if_neg hRead, List.append_assoc]
    change _ = _ ++ (p.mBuffer.take _ ++ p.mBuffer.drop _)
    rw [List.take_append_drop]
  · have hBody : (headerBytes p.mHeader ++ p.mBuffer.take p.mHeader.mLength.toNat).drop headerSize =
        p.mBuffer.take p.mHeader.mLength.toNat := List.drop_left' (length_headerBytes _)
    rw [frameCalls, headerAt_headerBytes, if_neg hRead, hBody, take_message h hRead, reported,
      if_neg hRead]
  · rw [take_message h hRead]
    rfl

/-- The loop reports what the bytes mean that the parser has, and keeps the unfinished frame. -/
theorem loop_follows (p : MsgParser) :
    p.reported ++ p.loop.1 = streamCalls p.pending ∧
      p.loop.2.pending = (msgFormat.feed [] p.pending).2 := by
  fun_induction loop p with
  | case1 p h ih =>
    by_cases hUnread : p.mHeader.mLength = unread
    · have hNone : p.reported = [] := if_pos hUnread
      by_cases hBare : (headerAt p.mBuffer).mLength = unread
      · obtain ⟨frame, hFrame, hPending, hCalls, hReported⟩ := take_bare_header h hUnread hBare
        rw [hReported, List.nil_append] at ih
        rw [hPending, streamCalls_append_frame hFrame, feed_append_frame hFrame, hCalls, hNone,
          List.nil_append, ih.1]
        exact ⟨rfl, ih.2⟩
      · obtain ⟨hPending, hReported⟩ := pending_take_header h hUnread hBare
        rw [hPending, hReported] at ih
        rw [hNone, List.nil_append]
        exact ih
    · obtain ⟨frame, hFrame, hPending, hCalls, hReported⟩ := take_frame h hUnread
      rw [hReported, List.nil_append] at ih
      rw [hPending, streamCalls_append_frame hFrame, feed_append_frame hFrame, hCalls, ih.1,
        List.append_assoc]
      exact ⟨rfl, ih.2⟩
  | case2 p h =>
    obtain ⟨hCalls, hRest⟩ := streamCalls_of_unfinished (unfinished_of_not_ready h)
    rw [hCalls, startedCalls_pending h, List.append_nil]
    exact ⟨rfl, hRest.symm⟩

theorem parse_new (stream : Bytes) :
    (({} : MsgParser).parse stream).1 = streamCalls stream ∧
      (({} : MsgParser).parse stream).2.pending = (msgFormat.feed [] stream).2 :=
  loop_follows ⟨{}, stream⟩

end MsgParser

open MsgParser

/-- Any bytes on a new connection: the calls are those of the frames, and the frame behind them is
kept. A wrong magic number is reported once and its message is delivered all the same. -/
theorem msgparser_calls_of_stream (arrivals : List Bytes) :
    (feedAll readCallback {} arrivals).1 = streamCalls arrivals.flatten ∧
      (feedAll readCallback {} arrivals).2.pending = (msgFormat.feed [] arrivals.flatten).2 := by
  rw [feedAll_readCallback not_ready_new]
  exact parse_new arrivals.flatten

/-! ## Sending -/

namespace MsgParser

def frame (data : Bytes) : Bytes := headerBytes ⟨magic, .ofNat data.length⟩ ++ data

/-- `send_msg` of `msgclient` and `msgconnection`: two writes behind what was written before. -/
def sendMsg (output : Bytes) (data : Bytes) : Bytes :=
  output ++ headerBytes ⟨magic, .ofNat data.length⟩ ++ data

theorem foldl_sendMsg (output : Bytes) (messages : List Bytes) :
    messages.foldl sendMsg output = output ++ (messages.map frame).flatten := by
  induction messages generalizing output with
  | nil => simp
  | cons data messages ih => simp [ih, sendMsg, frame]

/-- The sizes that the length field can tell apart from `unread`. -/
def Fits (data : Bytes) : Prop := data.length < 2 ^ 32 - 1

instance (data : Bytes) : Decidable (Fits data) := inferInstanceAs (Decidable (_ < _))

theorem Fits.toNat_length {data : Bytes} (h : Fits data) :
    (UInt32.ofNat data.length).toNat = data.length := by
  unfold Fits at h
  exact UInt32.toNat_ofNat_of_lt' (by change _ < 2 ^ 32; omega)

theorem Fits.length_ne_unread {data : Bytes} (h : Fits data) :
    UInt32.ofNat data.length ≠ unread := by
  intro hEq
  have hNat := congrArg UInt32.toNat hEq
  rw [h.toNat_length] at hNat
  change data.length = 2 ^ 32 - 1 at hNat
  unfold Fits at h
  omega

theorem parse_frame {data : Bytes} (h : Fits data) :
    ({} : MsgParser).parse (frame data) = ([.message data], {}) := by
  have hHeader : headerAt (frame data) = ⟨magic, .ofNat data.length⟩ := headerAt_headerBytes _ _
  have hBody : (frame data).drop headerSize = data := List.drop_left' (length_headerBytes _)
  have hStart : (⟨{}, frame data⟩ : MsgParser).Ready := by
    refine .inr ⟨rfl, ?_⟩
    rw [frame, List.length_append, length_headerBytes]
    exact Nat.le_add_right _ _
  have hRead : (⟨⟨magic, .ofNat data.length⟩, data⟩ : MsgParser).Ready :=
    .inl (Nat.le_of_eq h.toNat_length)
  change loop ⟨{}, frame data⟩ = _
  rw [loop_of_ready hStart, take_header hStart rfl]
  simp only [hHeader, hBody]
  rw [loop_of_ready hRead, take_message hRead h.length_ne_unread]
  simp only [h.toNat_length, List.take_length, List.drop_length]
  rw [loop_of_not_ready not_ready_new]
  rfl

theorem parse_frames {messages : List Bytes} (h : ∀ data ∈ messages, Fits data) :
    ({} : MsgParser).parse (messages.map frame).flatten = (messages.map .message, {}) := by
  induction messages with
  | nil => exact parse_nil not_ready_new
  | cons data messages ih =>
    obtain ⟨hHead, hTail⟩ := List.forall_mem_cons.mp h
    rw [List.map_cons, List.flatten_cons, splits_parse, parse_frame hHead, ih hTail]
    rfl

/-- The length of a message is one that the length field can hold. -/
theorem length_of_mem_loop {p : MsgParser} {data : Bytes} (h : .message data ∈ p.loop.1) :
    data.length < 2 ^ 32 - 1 := by
  fun_induction loop p with
  | case1 p hReady ih =>
    rcases List.mem_append.mp h with hTake | hRest
    · by_cases hUnread : p.mHeader.mLength = unread
      · rw [take_header hReady hUnread] at hTake
        change _ ∈ magicCalls _ at hTake
        unfold magicCalls at hTake
        split at hTake <;> simp at hTake
      · rw [take_message hReady hUnread] at hTake
        cases List.mem_singleton.mp hTake
        have hBound : p.mHeader.mLength.toNat ≠ 2 ^ 32 - 1 :=
          fun hEq => hUnread (UInt32.toNat_inj.mp hEq)
        have hLt : p.mHeader.mLength.toNat < 2 ^ 32 := p.mHeader.mLength.toNat_lt
        rw [List.length_take]
        omega
    · exact ih hRest
  | case2 p hReady => cases h

end MsgParser

/-- Messages sent one after the other reach the other side unchanged and in order, in whatever
pieces their bytes arrive. -/
theorem send_msg_round_trip {messages : List Bytes} (h : ∀ data ∈ messages, Fits data)
    {arrivals : List Bytes} (hCut : arrivals.flatten = messages.foldl sendMsg []) :
    feedAll readCallback {} arrivals = (messages.map .message, {}) := by
  rw [feedAll_readCallback not_ready_new, hCut, foldl_sendMsg, List.nil_append, parse_frames h]

theorem send_msg_round_trip_two_messages :
    feedAll readCallback {} [[0, 0x37, 0x29], [0x47, 0, 0, 0, 1, 9, 0, 0x37, 0x29, 0x47, 0, 0],
      [0, 0]] = ([.message [9], .message []], {}) :=
  @send_msg_round_trip [[9], []] (by decide) _ (by decide)

/-- The bound on the size is exact: `send_msg` takes larger messages, and none of them arrives,
whatever the parser has read before and whatever follows. -/
theorem send_msg_arrives_iff (data : Bytes) :
    ((({} : MsgParser).parse (sendMsg [] data)).1 = [.message data] ↔ data.length < 2 ^ 32 - 1) ∧
      (2 ^ 32 - 1 ≤ data.length → ∀ (p : MsgParser) (output after : Bytes),
        .message data ∉ (p.parse (sendMsg output data ++ after)).1) := by
  have hFrame : sendMsg [] data = frame data := by simp [sendMsg, frame]
  refine ⟨⟨fun h => ?_, fun h => by rw [hFrame, parse_frame h]⟩, ?_⟩
  · have hMem : .message data ∈ (({} : MsgParser).parse (sendMsg [] data)).1 := by
      rw [h]
      exact List.mem_singleton_self _
    exact length_of_mem_loop hMem
  · intro hLarge p output after hMem
    exact absurd (length_of_mem_loop hMem) (Nat.not_lt.mpr hLarge)

end PsRpc
