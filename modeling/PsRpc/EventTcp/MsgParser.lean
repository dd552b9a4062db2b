import PsRpc.Library.Chunks
import PsRpc.Wire.Message

/-! # The message parser of `event-tcp`

`msgparser` collects the bytes of a connection and takes frames from their front: a magic number
and a length in network byte order, then as many bytes. The length `0xFFFFFFFF` marks a header that
has not been read yet, so a frame that declares it has no message.
-/

namespace PsRpc

open ByteOrder Chunks

structure MsgHeader where
  mMagic : UInt32 := 0
  mLength : UInt32 := 0xFFFFFFFF
deriving DecidableEq, Repr

/-- A call of `msg_arrived`: `(nullptr, 0xFFFFFFFF)`, or the bytes of a message. -/
inductive MsgArrived where
  | formatError
  | message (data : Bytes)
deriving DecidableEq, Repr

structure MsgParser where
  mHeader : MsgHeader := {}
  mBuffer : Bytes := []
deriving DecidableEq, Repr

namespace MsgParser

def magic : UInt32 := 0x372947

def unread : UInt32 := 0xFFFFFFFF

def headerSize : Nat := 8

/-- `ntohl` of the four bytes at an offset. -/
def ntohlAt (buffer : Bytes) (offset : Nat) : UInt32 :=
  .ofNat (decode .big ((buffer.drop offset).take 4))

def headerAt (buffer : Bytes) : MsgHeader := ⟨ntohlAt buffer 0, ntohlAt buffer 4⟩

def Ready (p : MsgParser) : Prop :=
  p.mHeader.mLength.toNat ≤ p.mBuffer.length ∨
    p.mHeader.mLength = unread ∧ headerSize ≤ p.mBuffer.length

instance (p : MsgParser) : Decidable p.Ready := inferInstanceAs (Decidable (_ ∨ _))

def magicCalls (header : MsgHeader) : List MsgArrived :=
  if header.mMagic ≠ magic then [.formatError] else []

/-- The body of the loop: what it reports and what is left. -/
def take (p : MsgParser) : List MsgArrived × MsgParser :=
  if p.mHeader.mLength = unread then
    if headerSize ≤ p.mBuffer.length then
      (magicCalls (headerAt p.mBuffer), ⟨headerAt p.mBuffer, p.mBuffer.drop headerSize⟩)
    else ([], p)
  else if p.mHeader.mLength.toNat ≤ p.mBuffer.length then
    ([.message (p.mBuffer.take p.mHeader.mLength.toNat)],
      ⟨{}, p.mBuffer.drop p.mHeader.mLength.toNat⟩)
  else ([], p)

/-- A header takes bytes and a message ends the reading of a header. -/
def work (p : MsgParser) : Nat :=
  2 * p.mBuffer.length + if p.mHeader.mLength = unread then 0 else 1

theorem Ready.headerSize_le {p : MsgParser} (h : p.Ready) (hUnread : p.mHeader.mLength = unread) :
    headerSize ≤ p.mBuffer.length := by
  rcases h with hLength | ⟨_, hSize⟩
  · rw [hUnread] at hLength
    exact Nat.le_trans (by decide) hLength
  · exact hSize

theorem Ready.length_le {p : MsgParser} (h : p.Ready) (hRead : p.mHeader.mLength ≠ unread) :
    p.mHeader.mLength.toNat ≤ p.mBuffer.length := by
  rcases h with hLength | ⟨hUnread, _⟩
  · exact hLength
  · exact absurd hUnread hRead

theorem take_header {p : MsgParser} (h : p.Ready) (hUnread : p.mHeader.mLength = unread) :
    p.take =
      (magicCalls (headerAt p.mBuffer), ⟨headerAt p.mBuffer, p.mBuffer.drop headerSize⟩) := by
  rw [take, if_pos hUnread, if_pos (h.headerSize_le hUnread)]

theorem take_message {p : MsgParser} (h : p.Ready) (hRead : p.mHeader.mLength ≠ unread) :
    p.take = ([.message (p.mBuffer.take p.mHeader.mLength.toNat)],
      ⟨{}, p.mBuffer.drop p.mHeader.mLength.toNat⟩) := by
  rw [take, if_neg hRead, if_pos (h.length_le hRead)]

theorem work_take_lt {p : MsgParser} (h : p.Ready) : p.take.2.work < p.work := by
  by_cases hUnread : p.mHeader.mLength = unread
  · have hSize := h.headerSize_le hUnread
    rw [take_header h hUnread, work, work, if_pos hUnread, List.length_drop]
    unfold headerSize at hSize ⊢
    split <;> omega
  · rw [take_message h hUnread]
    change 2 * (p.mBuffer.drop _).length + (if unread = unread then 0 else 1) < _
    rw [if_pos rfl, work, if_neg hUnread, List.length_drop]
    omega

def loop (p : MsgParser) : List MsgArrived × MsgParser :=
  if _h : p.Ready then (p.take.1 ++ (loop p.take.2).1, (loop p.take.2).2) else ([], p)
termination_by p.work
decreasing_by all_goals exact work_take_lt ‹p.Ready›

/-- `parse(buffer, num)`, with the calls of `mCallback`, which is set. -/
def parse (p : MsgParser) (bytes : Bytes) : List MsgArrived × MsgParser :=
  loop { p with mBuffer := p.mBuffer ++ bytes }

theorem loop_of_ready {p : MsgParser} (h : p.Ready) :
    p.loop = (p.take.1 ++ p.take.2.loop.1, p.take.2.loop.2) := by
  rw [loop, dif_pos h]

theorem loop_of_not_ready {p : MsgParser} (h : ¬ p.Ready) : p.loop = ([], p) := by
  rw [loop, dif_neg h]

theorem not_ready_loop (p : MsgParser) : ¬ p.loop.2.Ready := by
  fun_induction loop p with
  | case1 p h ih => exact ih
  | case2 p h => exact h

/-! ## The cut of the stream -/

def extend (p : MsgParser) (bytes : Bytes) : MsgParser :=
  { p with mBuffer := p.mBuffer ++ bytes }

theorem Ready.extend {p : MsgParser} (h : p.Ready) (bytes : Bytes) : (p.extend bytes).Ready := by
  have hLength : p.mBuffer.length ≤ (p.mBuffer ++ bytes).length := by simp
  rcases h with hMessage | ⟨hUnread, hSize⟩
  · exact .inl (hMessage.trans hLength)
  · exact .inr ⟨hUnread, hSize.trans hLength⟩

theorem ntohlAt_append {buffer : Bytes} {offset : Nat} (h : offset + 4 ≤ buffer.length)
    (bytes : Bytes) : ntohlAt (buffer ++ bytes) offset = ntohlAt buffer offset := by
  have hDrop : (buffer ++ bytes).drop offset = buffer.drop offset ++ bytes :=
    List.drop_append_of_le_length (by omega)
  rw [ntohlAt, hDrop, List.take_append_of_le_length (by rw [List.length_drop]; omega), ntohlAt]

theorem headerAt_append {buffer : Bytes} (h : headerSize ≤ buffer.length) (bytes : Bytes) :
    headerAt (buffer ++ bytes) = headerAt buffer := by
  unfold headerSize at h
  rw [headerAt, ntohlAt_append (by omega), ntohlAt_append (by omega), headerAt]

theorem take_extend {p : MsgParser} (h : p.Ready) (bytes : Bytes) :
    (p.extend bytes).take = (p.take.1, p.take.2.extend bytes) := by
  by_cases hUnread : p.mHeader.mLength = unread
  · have hSize := h.headerSize_le hUnread
    have hDrop : (p.mBuffer ++ bytes).drop headerSize = p.mBuffer.drop headerSize ++ bytes :=
      List.drop_append_of_le_length hSize
    rw [take_header h hUnread, take_header (h.extend bytes) hUnread]
    simp only [extend, headerAt_append hSize, hDrop]
  · have hLength := h.length_le hUnread
    rw [take_message h hUnread, take_message (h.extend bytes) hUnread]
    simp only [extend, List.take_append_of_le_length hLength, List.drop_append_of_le_length hLength]

theorem loop_extend (p : MsgParser) (bytes : Bytes) :
    (p.extend bytes).loop =
      (p.loop.1 ++ (p.loop.2.extend bytes).loop.1, (p.loop.2.extend bytes).loop.2) := by
  fun_induction loop p with
  | case1 p h ih =>
    rw [loop_of_ready (h.extend bytes), take_extend h, ih, List.append_assoc]
  | case2 p h => simp

theorem splits_parse : Splits parse := by
  intro p a b
  have hAppend : p.extend (a ++ b) = (p.extend a).extend b := by simp [extend]
  change (p.extend (a ++ b)).loop = _
  rw [hAppend, loop_extend]
  rfl

theorem parse_nil {p : MsgParser} (h : ¬ p.Ready) : p.parse [] = ([], p) := by
  have hSame : p.extend [] = p := by simp [extend]
  change (p.extend []).loop = _
  rw [hSame, loop_of_not_ready h]

theorem not_ready_parse (p : MsgParser) (bytes : Bytes) : ¬ (p.parse bytes).2.Ready :=
  not_ready_loop _

theorem not_ready_new : ¬ ({} : MsgParser).Ready := by decide

/-- The loop of `server::readCallback`, which empties the input buffer through an array. The one of
a `msgclient` is the same, but its callback stops the client on a format error. -/
def readCallback (p : MsgParser) (input : Bytes) : List MsgArrived × MsgParser :=
  feedAll parse p (pieces 1024 input)

theorem readCallback_eq {p : MsgParser} (h : ¬ p.Ready) (input : Bytes) :
    p.readCallback input = p.parse input := by
  rw [readCallback, splits_parse.feedAll_eq (parse_nil h), flatten_pieces (by decide)]

theorem feedAll_readCallback {p : MsgParser} (h : ¬ p.Ready) (arrivals : List Bytes) :
    feedAll readCallback p arrivals = p.parse arrivals.flatten := by
  induction arrivals generalizing p with
  | nil => exact (parse_nil h).symm
  | cons input arrivals ih =>
    rw [feedAll, readCallback_eq h, ih (not_ready_parse p input), List.flatten_cons, splits_parse]

end MsgParser

open MsgParser

/-- Two connections on which the same bytes come in, cut in any way between the read events: the
parsers make the same calls and end in the same state. -/
theorem msgparser_cut_irrelevant {p : MsgParser} (h : ¬ p.Ready) {arrivals others : List Bytes}
    (hSame : arrivals.flatten = others.flatten) :
    feedAll readCallback p arrivals = feedAll readCallback p others := by
  rw [feedAll_readCallback h, feedAll_readCallback h, hSame]

theorem msgparser_cut_irrelevant_frame :
    feedAll readCallback ⟨{}, [0, 0x37]⟩ [[0x29], [0x47, 0, 0, 0, 2, 8], [9, 0, 0x37]] =
      feedAll readCallback ⟨{}, [0, 0x37]⟩ [[0x29, 0x47, 0, 0], [0, 2], [8, 9, 0], [0x37]] :=
  msgparser_cut_irrelevant (by decide) (by decide)

end PsRpc
