import PsRpc.Library.Chunks
import PsRpc.Wire.MetaCodec

/-! # One direction of a connection

The bytes that one side has written and the other has not read, and the parser of the other side. A
read event takes what has arrived from the input buffer in pieces of at most 4096 bytes. The link is
a queue of messages: an event hands over the first of them.
-/

namespace PsRpc

open ByteOrder Framing Chunks TcpMessageHandler

structure TcpLink where
  output : Bytes
  handler : TcpMessageHandler

namespace TcpLink

variable {M : Type} {codec : MetaCodec M}

def new (junk : Vector UInt8 kHeaderLen) : TcpLink := ⟨[], (TcpMessageHandler.new junk).setCallback⟩

def send (order : Endian) (sender : Sender) (codec : MetaCodec M) (link : TcpLink) (protos : Protos)
    (message : M) (data : Bytes) : Except Fault TcpLink := do
  let (_, bev) ← sender.sendMessage order codec {} (some ⟨link.output⟩) (some message) protos
    (some data)
  .ok { link with output := bev.output }

/-- The read callback of either side, when `count` bytes have arrived. -/
def read (order : Endian) (link : TcpLink) (count : Nat) :
    Except Fault (List MessageReceive × TcpLink) := do
  let (handler, calls) ← link.handler.receiveChunks order (pieces 4096 (link.output.take count))
  .ok (calls, ⟨link.output.drop count, handler⟩)

def Carries (order : Endian) (link : TcpLink) (messages : List (Outgoing codec)) : Prop :=
  ∃ pending, Reading order link.handler pending ∧
    pending ++ link.output = (messages.map (·.frame order)).flatten

theorem carries_new (order : Endian) (junk : Vector UInt8 kHeaderLen) :
    (new junk).Carries order ([] : List (Outgoing codec)) :=
  ⟨[], tracks_new order junk, rfl⟩

def callOf (order : Endian) (m : Outgoing codec) : MessageReceive := frameCall order (m.frame order)

theorem delivered_callOf (order : Endian) (m : Outgoing codec) :
    (callOf order m).delivered codec = some m.delivered :=
  m.frameCall_delivered order

theorem Carries.send {order : Endian} {link : TcpLink} {messages : List (Outgoing codec)}
    (h : link.Carries order messages) (sender : Sender) (m : Outgoing codec) :
    ∃ link', link.send order sender codec m.protos m.message m.data = .ok link' ∧
      link'.Carries order (messages ++ [m]) := by
  obtain ⟨pending, hReading, hBytes⟩ := h
  have hSend : sender.sendMessage order codec {} (some ⟨link.output⟩) (some m.message) m.protos
      (some m.data) = .ok (true, ⟨link.output ++ m.frame order⟩) := by
    cases sender with
    | client => exact writeFrame_outgoing order ⟨link.output⟩ m
    | connection => exact writeFrame_outgoing order ⟨link.output⟩ m
  refine ⟨{ link with output := link.output ++ m.frame order }, ?_, pending, hReading, ?_⟩
  · rw [TcpLink.send, hSend]
    rfl
  · rw [List.map_append, List.flatten_append, ← hBytes]
    simp

theorem Carries.read {order : Endian} {link : TcpLink} {messages : List (Outgoing codec)}
    (h : link.Carries order messages) (count : Nat) :
    ∃ handed rest link', messages = handed ++ rest ∧
      link.read order count = .ok (handed.map (callOf order), link') ∧
      link'.output = link.output.drop count ∧ link'.Carries order rest := by
  obtain ⟨pending, hReading, hBytes⟩ := h
  have hFrames : ∀ f ∈ messages.map (·.frame order),
      (frameFormat order).IsFrame f ∧ (frameFormat order).Admitted f ∧ kHeaderLen < f.length := by
    intro f hf
    obtain ⟨m, _, rfl⟩ := List.mem_map.mp hf
    exact ⟨m.frame_isFrame order, m.frame_admitted order, m.lt_frame_length order⟩
  have hParts : pending ++ link.output.take count ++ link.output.drop count =
      (messages.map (·.frame order)).flatten := by
    rw [List.append_assoc, List.take_append_drop, hBytes]
  obtain ⟨restFrames, hSplit, hRest⟩ :=
    Format.feed_part hReading.unfinished (fun f hf => (hFrames f hf).1) hParts
  obtain ⟨handed, rest, rfl, hHanded, rfl⟩ := List.map_eq_append_iff.mp hSplit
  have hBodies : ∀ f ∈ ((frameFormat order).feed pending (link.output.take count)).1,
      (frameFormat order).Admitted f ∧ kHeaderLen < f.length := by
    intro f hf
    exact (hFrames f (by rw [hSplit]; exact List.mem_append_left _ hf)).2
  have hPending : (frameFormat order).Admitted
      ((frameFormat order).feed pending (link.output.take count)).2 :=
    Format.admitted_of_append_eq_flatten hRest fun f hf => by
      obtain ⟨hFrame, hAdmitted, _⟩ := hFrames f (by rw [hSplit]; exact List.mem_append_right _ hf)
      exact ⟨hFrame, hAdmitted⟩
  have hTracks : Tracks order link.handler (.reading pending) := hReading
  have hMax : ∀ chunk ∈ pieces 4096 (link.output.take count),
      chunk.length ≤ securecMemMaxLen :=
    fun chunk hChunk => (length_le_of_mem_pieces hChunk).trans (by decide)
  have hFollows := receiveChunks_follows hTracks hMax
  rw [flatten_pieces (by decide), Format.lazyFeed_eq_feed hPending hBodies, ← hHanded] at hFollows
  obtain ⟨handler', hRun, hReading'⟩ := hFollows
  refine ⟨handed, rest, ⟨link.output.drop count, handler'⟩, rfl, ?_, rfl, _, hReading', hRest⟩
  rw [TcpLink.read, hRun, List.nil_append, List.map_map]
  rfl

/-- When all bytes have been read, all messages have been handed over. -/
theorem Carries.eq_nil {order : Endian} {link : TcpLink} {messages : List (Outgoing codec)}
    (h : link.Carries order messages) (hOutput : link.output = []) : messages = [] := by
  obtain ⟨pending, hReading, hBytes⟩ := h
  rw [hOutput, List.append_nil] at hBytes
  cases messages with
  | nil => rfl
  | cons m messages =>
    have hFirst : m.frame order <+: pending := by
      rw [hBytes, List.map_cons, List.flatten_cons]
      exact List.prefix_append _ _
    exact absurd (m.frame_isFrame order) (hReading.unfinished.of_isPrefixOf hFirst).not_isFrame

end TcpLink

/-! ## The queue of the message callback -/

/-- A link, and the calls of the message callback that are still to be made for what was read. -/
structure Channel where
  link : TcpLink
  calls : List MessageReceive

namespace Channel

variable {M : Type} {codec : MetaCodec M} {order : Endian}

def new (junk : Vector UInt8 kHeaderLen) : Channel := ⟨.new junk, []⟩

def send (order : Endian) (sender : Sender) (codec : MetaCodec M) (c : Channel) (protos : Protos)
    (message : M) (data : Bytes) : Except Fault Channel := do
  let link ← c.link.send order sender codec protos message data
  .ok { c with link := link }

def read (order : Endian) (c : Channel) (count : Nat) : Except Fault Channel := do
  let (calls, link) ← c.link.read order count
  .ok ⟨link, c.calls ++ calls⟩

/-- The next call of the message callback, with what it reads from the buffer. -/
def next (codec : MetaCodec M) (c : Channel) : Option (Delivered M × Channel) :=
  match c.calls with
  | [] => none
  | call :: calls =>
    (call.delivered codec).map fun delivered => (delivered, { c with calls := calls })

/-- The items that the messages stand for, oldest first. -/
def Conveys {α : Type} (codec : MetaCodec M) (order : Endian) (meaning : Delivered M → Option α)
    (c : Channel) (items : List α) : Prop :=
  ∃ called carried : List (Outgoing codec), c.calls = called.map (TcpLink.callOf order) ∧
    c.link.Carries order carried ∧
    (called ++ carried).map (fun m => meaning m.delivered) = items.map some

section

variable {α : Type} {meaning : Delivered M → Option α} {c : Channel} {items : List α}

theorem conveys_new (junk : Vector UInt8 kHeaderLen) :
    (new junk).Conveys codec order meaning [] :=
  ⟨[], [], rfl, TcpLink.carries_new order junk, rfl⟩

theorem Conveys.send (h : c.Conveys codec order meaning items) (sender : Sender)
    {m : Outgoing codec} {item : α} (hItem : meaning m.delivered = some item) :
    ∃ c', c.send order sender codec m.protos m.message m.data = .ok c' ∧
      c'.Conveys codec order meaning (items ++ [item]) := by
  obtain ⟨called, carried, hCalls, hCarries, hItems⟩ := h
  obtain ⟨link, hSend, hLink⟩ := hCarries.send sender m
  refine ⟨{ c with link := link }, ?_, called, carried ++ [m], hCalls, hLink, ?_⟩
  · rw [Channel.send, hSend]
    rfl
  · rw [← List.append_assoc, List.map_append, hItems, List.map_append, List.map_singleton,
      List.map_singleton, hItem]

theorem Conveys.read (h : c.Conveys codec order meaning items) (count : Nat) :
    ∃ c', c.read order count = .ok c' ∧ c'.link.output = c.link.output.drop count ∧
      c'.Conveys codec order meaning items := by
  obtain ⟨called, carried, hCalls, hCarries, hItems⟩ := h
  obtain ⟨handed, rest, link, rfl, hRead, hOutput, hLink⟩ := hCarries.read count
  refine ⟨⟨link, c.calls ++ handed.map (TcpLink.callOf order)⟩, ?_, hOutput, called ++ handed, rest,
    ?_, hLink, ?_⟩
  · rw [Channel.read, hRead]
    rfl
  · rw [hCalls, List.map_append]
  · rw [List.append_assoc, hItems]

theorem Conveys.next {item : α} (h : c.Conveys codec order meaning (item :: items))
    (hCalls : c.calls ≠ []) :
    ∃ (m : Outgoing codec) (c' : Channel), c.next codec = some (m.delivered, c') ∧
      meaning m.delivered = some item ∧ c'.Conveys codec order meaning items := by
  obtain ⟨called, carried, hCalled, hCarries, hItems⟩ := h
  cases called with
  | nil => exact absurd hCalled hCalls
  | cons m called =>
    obtain ⟨hItem, hRest⟩ := List.cons.inj hItems
    refine ⟨m, { c with calls := called.map (TcpLink.callOf order) }, ?_, hItem, called, carried,
      rfl, hCarries, hRest⟩
    rw [Channel.next, hCalled, List.map_cons]
    change ((TcpLink.callOf order m).delivered codec).map _ = _
    rw [TcpLink.delivered_callOf]
    rfl

theorem Conveys.length_calls_le (h : c.Conveys codec order meaning items) :
    c.calls.length ≤ items.length := by
  obtain ⟨called, carried, hCalls, _, hItems⟩ := h
  have hLength := congrArg List.length hItems
  simp only [List.length_map, List.length_append] at hLength
  rw [hCalls, List.length_map]
  omega

theorem Conveys.of_next (h : c.Conveys codec order meaning items) {delivered : Delivered M}
    {c' : Channel} (hNext : c.next codec = some (delivered, c')) :
    ∃ item rest, items = item :: rest ∧ meaning delivered = some item ∧
      c'.Conveys codec order meaning rest := by
  have hCalls : c.calls ≠ [] := by
    rintro hNone
    rw [Channel.next, hNone] at hNext
    cases hNext
  cases items with
  | nil =>
    have hNone := List.length_eq_zero_iff.mp (Nat.le_zero.mp h.length_calls_le)
    exact absurd hNone hCalls
  | cons item rest =>
    obtain ⟨m, c'', hNext', hItem, hRest⟩ := h.next hCalls
    cases hNext.symm.trans hNext'
    exact ⟨item, rest, rfl, hItem, hRest⟩

theorem Conveys.length_calls (h : c.Conveys codec order meaning items)
    (hOutput : c.link.output = []) : c.calls.length = items.length := by
  obtain ⟨called, carried, hCalls, hCarries, hItems⟩ := h
  obtain rfl := hCarries.eq_nil hOutput
  have hLength := congrArg List.length hItems
  simp only [List.length_map, List.append_nil] at hLength
  rw [hCalls, List.length_map, hLength]

theorem Conveys.passes (h : c.Conveys codec order meaning []) (sender : Sender) {m : Outgoing codec}
    {item : α} (hItem : meaning m.delivered = some item) :
    ∃ sent arrived delivered c', c.send order sender codec m.protos m.message m.data = .ok sent ∧
      sent.read order sent.link.output.length = .ok arrived ∧
      arrived.next codec = some (delivered, c') ∧ meaning delivered = some item := by
  obtain ⟨sent, hSend, hSent⟩ := h.send sender hItem
  obtain ⟨arrived, hRead, hOutput, hArrived⟩ := hSent.read sent.link.output.length
  rw [List.drop_length] at hOutput
  have hCalls : arrived.calls ≠ [] :=
    List.ne_nil_of_length_eq_add_one (hArrived.length_calls hOutput)
  obtain ⟨m', c', hNext, hItem', _⟩ := Conveys.next hArrived hCalls
  exact ⟨sent, arrived, m'.delivered, c', hSend, hRead, hNext, hItem'⟩

end

end Channel

end PsRpc
