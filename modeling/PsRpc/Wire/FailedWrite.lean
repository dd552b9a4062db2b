import Mathlib.Data.List.TakeWhile
import PsRpc.Wire.Reconnect

/-! # Writes that fail

`SendMessage` goes on after a failed `bufferevent_write`. For a sequence of calls on one connection,
with any pattern of failures, the calls whose failures do no harm are those that write the whole
frame or nothing of it.
-/

namespace PsRpc

open ByteOrder Framing

variable {M : Type}

/-- A call of `SendMessage` with the outcome of its three writes. The message may be empty. -/
structure SendAttempt (codec : MetaCodec M) where
  sender : Sender
  writes : WriteResults
  protos : Protos
  message : M
  data : Bytes
  meta_lt : (codec.serializeAsString message).length < 2 ^ 32
  fits : (codec.serializeAsString message).length + data.length < 2 ^ 63

namespace SendAttempt

variable {codec : MetaCodec M}

def send (order : Endian) (a : SendAttempt codec) (bev : Bufferevent) :
    Except Fault (Bool × Bufferevent) :=
  a.sender.sendMessage order codec a.writes (some bev) (some a.message) a.protos (some a.data)

def serialized (a : SendAttempt codec) : Bytes := codec.serializeAsString a.message

def header (a : SendAttempt codec) : MessageHeader where
  messageProto := a.protos
  messageMetaLength := UInt32.ofNat a.serialized.length
  messageLength := UInt64.ofNat a.data.length + (UInt32.ofNat a.serialized.length).toUInt64

def frame (order : Endian) (a : SendAttempt codec) : Bytes :=
  a.header.toBytes order ++ (a.serialized ++ a.data)

def delivered (a : SendAttempt codec) : Delivered M := ⟨a.protos, a.serialized, a.message, a.data⟩

/-- The call appends the complete frame and returns true, or appends nothing and returns false. -/
def Harmless (order : Endian) (a : SendAttempt codec) : Prop :=
  ∀ bev, a.send order bev = .ok (true, ⟨bev.output ++ a.frame order⟩) ∨
    a.send order bev = .ok (false, bev)

def accepted (a : SendAttempt codec) : Bool := a.writes.header && a.writes.metaPart && a.writes.data

/-- No write succeeds that has a byte to write. -/
def Silent (a : SendAttempt codec) : Prop :=
  a.writes.header = false ∧ (a.writes.metaPart = false ∨ a.serialized = []) ∧
    (a.writes.data = false ∨ a.data = [])

/-- All writes of a message that is not empty succeed, or none that has a byte to write. -/
def Clean (a : SendAttempt codec) : Prop :=
  (a.accepted = true ∧ 0 < a.serialized.length + a.data.length) ∨ a.Silent

/-! ## What a call appends -/

def appended (order : Endian) (a : SendAttempt codec) : Bytes :=
  (if a.writes.header then a.header.toBytes order else []) ++
    ((if a.writes.metaPart then a.serialized else []) ++ if a.writes.data then a.data else [])

theorem write_eq (bev : Bufferevent) (accepted : Bool) (data : Bytes) :
    bev.write accepted data =
      (if accepted then 0 else -1, ⟨bev.output ++ if accepted then data else []⟩) := by
  cases accepted with
  | false =>
    change (-1, bev) = (-1, (⟨bev.output ++ []⟩ : Bufferevent))
    rw [List.append_nil]
  | true => rfl

theorem writeFrame_eq (order : Endian) (a : SendAttempt codec) (bev : Bufferevent) :
    writeFrame order codec a.writes (some bev) (some a.message) a.protos (some a.data) =
      .ok (a.accepted, ⟨bev.output ++ a.appended order⟩) := by
  have hSize : sizeToUint (codec.serializeAsString a.message).length =
      .ok (UInt32.ofNat a.serialized.length) := by
    have hLt := a.meta_lt
    exact if_neg (by omega)
  have hResult : decide (((if a.writes.header then 0 else -1 : Int) ≠ -1) ∧
      ((if a.writes.metaPart then 0 else -1 : Int) ≠ -1) ∧
      (if a.writes.data then 0 else -1 : Int) ≠ -1) = a.accepted := by
    rw [accepted]
    cases a.writes.header <;> cases a.writes.metaPart <;> cases a.writes.data <;> rfl
  simp only [writeFrame, exceptionIfNull, bind, Except.bind, hSize, write_eq, hResult]
  rw [List.append_assoc, List.append_assoc]
  rfl

theorem send_eq (order : Endian) (a : SendAttempt codec) (bev : Bufferevent) :
    a.send order bev = .ok (a.accepted, ⟨bev.output ++ a.appended order⟩) := by
  rw [send]
  cases a.sender with
  | client => exact writeFrame_eq order a bev
  | connection => exact writeFrame_eq order a bev

theorem appended_of_accepted {order : Endian} {a : SendAttempt codec} (h : a.accepted = true) :
    a.appended order = a.frame order := by
  simp only [accepted, Bool.and_eq_true] at h
  rw [appended, h.1.1, h.1.2, h.2]
  rfl

theorem appended_eq_nil_iff {order : Endian} {a : SendAttempt codec} :
    a.appended order = [] ↔ a.Silent := by
  have hHeader : a.header.toBytes order ≠ [] := by
    rw [← List.length_pos_iff, MessageHeader.toBytes_length]
    decide
  simp [appended, Silent, hHeader, List.append_eq_nil_iff, or_iff_not_imp_left]

theorem accepted_of_silent {a : SendAttempt codec} (h : a.Silent) : a.accepted = false := by
  rw [accepted, h.1]
  rfl

theorem harmless_iff {order : Endian} {a : SendAttempt codec} :
    a.Harmless order ↔ a.accepted = true ∨ a.Silent := by
  simp only [Harmless, send_eq, Except.ok.injEq, Prod.mk.injEq]
  constructor
  · intro h
    rcases h ⟨[]⟩ with ⟨hAccepted, _⟩ | ⟨_, hOutput⟩
    · exact .inl hAccepted
    · right
      have hNil : a.appended order = [] := congrArg Bufferevent.output hOutput
      exact appended_eq_nil_iff.mp hNil
  · rintro (hAccepted | hSilent) bev
    · exact .inl ⟨hAccepted, by rw [appended_of_accepted hAccepted]⟩
    · right
      rw [appended_eq_nil_iff.mpr hSilent, List.append_nil]
      exact ⟨accepted_of_silent hSilent, rfl⟩

theorem Harmless.appended_eq {order : Endian} {a : SendAttempt codec} (h : a.Harmless order) :
    a.appended order = if a.accepted then a.frame order else [] := by
  rcases harmless_iff.mp h with hAccepted | hSilent
  · rw [if_pos hAccepted, appended_of_accepted hAccepted]
  · rw [accepted_of_silent hSilent]
    exact appended_eq_nil_iff.mpr hSilent

/-! ## The frame of a call -/

def outgoing (a : SendAttempt codec) (h : 0 < a.serialized.length + a.data.length) :
    Outgoing codec :=
  ⟨a.protos, a.message, a.data, a.meta_lt, h, a.fits⟩

theorem frame_isFrame (order : Endian) (a : SendAttempt codec) :
    (frameFormat order).IsFrame (a.frame order) := by
  rcases Nat.eq_zero_or_pos (a.serialized.length + a.data.length) with hEmpty | hBody
  · have hMeta : a.serialized = [] := List.eq_nil_of_length_eq_zero (by omega)
    have hData : a.data = [] := List.eq_nil_of_length_eq_zero (by omega)
    have hHeader := MessageHeader.ofBytes_toBytes order a.header []
    rw [List.append_nil] at hHeader
    rw [frame, hMeta, hData, List.append_nil, List.append_nil]
    apply TcpMessageHandler.isFrame_of_length_zero (a.header.toBytes_length order)
    rw [hHeader, header, hMeta, hData]
    rfl
  · exact (a.outgoing hBody).frame_isFrame order

theorem frame_admitted (order : Endian) (a : SendAttempt codec) :
    (frameFormat order).Admitted (a.frame order) := by
  rcases Nat.eq_zero_or_pos (a.serialized.length + a.data.length) with hEmpty | hBody
  · refine TcpMessageHandler.admitted_of_le fun _ => ?_
    have hLength : (a.frame order).length =
        kHeaderLen + (frameHeader order (a.frame order)).messageLength.toNat :=
          a.frame_isFrame order
    rw [frame, List.length_append, List.length_append, MessageHeader.toBytes_length] at hLength
    rw [show (frameHeader order (a.frame order)).messageLength.toNat = 0 by rw [frame]; omega]
    exact Nat.zero_le _
  · exact (a.outgoing hBody).frame_admitted order

theorem lt_frame_length_iff {order : Endian} {a : SendAttempt codec} :
    kHeaderLen < (a.frame order).length ↔ 0 < a.serialized.length + a.data.length := by
  rw [frame, List.length_append, List.length_append, MessageHeader.toBytes_length]
  omega

theorem frameCall_delivered {order : Endian} {a : SendAttempt codec}
    (h : 0 < a.serialized.length + a.data.length) :
    (frameCall order (a.frame order)).delivered codec = some a.delivered :=
  (a.outgoing h).frameCall_delivered order

end SendAttempt

/-! ## A sequence of calls -/

section Sequence

variable {codec : MetaCodec M}

def sendAttempts (order : Endian) :
    List (SendAttempt codec) → Bufferevent → Except Fault (List Bool × Bufferevent)
  | [], bev => .ok ([], bev)
  | a :: rest, bev => do
    let (result, bev) ← a.send order bev
    let (results, bev) ← sendAttempts order rest bev
    .ok (result :: results, bev)

theorem sendAttempts_eq (order : Endian) (attempts : List (SendAttempt codec)) (bev : Bufferevent) :
    sendAttempts order attempts bev =
      .ok (attempts.map (·.accepted),
        ⟨bev.output ++ (attempts.map (·.appended order)).flatten⟩) := by
  induction attempts generalizing bev with
  | nil =>
    rw [List.map_nil, List.map_nil, List.flatten_nil, List.append_nil]
    rfl
  | cons a rest ih =>
    simp only [sendAttempts, bind, Except.bind, SendAttempt.send_eq, ih, List.map_cons,
      List.flatten_cons, List.append_assoc]

def succeeded (attempts : List (SendAttempt codec)) (results : List Bool) :
    List (SendAttempt codec) :=
  ((attempts.zip results).filter (·.2)).map Prod.fst

theorem succeeded_accepted (attempts : List (SendAttempt codec)) :
    succeeded attempts (attempts.map (·.accepted)) = attempts.filter (·.accepted) := by
  rw [succeeded]
  induction attempts with
  | nil => rfl
  | cons a rest ih =>
    rw [List.map_cons, List.zip_cons_cons, List.filter_cons, List.filter_cons]
    split
    · rw [List.map_cons, ih]
    · exact ih

theorem appended_flatten {order : Endian} {attempts : List (SendAttempt codec)}
    (h : ∀ a ∈ attempts, a.Harmless order) :
    (attempts.map (·.appended order)).flatten =
      ((attempts.filter (·.accepted)).map (·.frame order)).flatten := by
  induction attempts with
  | nil => rfl
  | cons a rest ih =>
    obtain ⟨hHead, hRest⟩ := List.forall_mem_cons.mp h
    rw [List.map_cons, List.flatten_cons, ih hRest, hHead.appended_eq, List.filter_cons]
    split
    · rw [List.map_cons, List.flatten_cons]
    · rfl

theorem feed_attempts (order : Endian) (attempts : List (SendAttempt codec)) :
    (frameFormat order).feed [] (attempts.map (·.frame order)).flatten =
      (attempts.map (·.frame order), []) := by
  apply Format.feed_frames
  intro f hf
  obtain ⟨a, _, rfl⟩ := List.mem_map.mp hf
  exact a.frame_isFrame order

theorem completeFrames_attempts (order : Endian) (attempts : List (SendAttempt codec)) :
    completeFrames order (attempts.map (·.frame order)).flatten = attempts.map (·.frame order) := by
  rw [completeFrames, feed_attempts, List.takeWhile_eq_self_iff]
  intro f hf
  obtain ⟨a, _, rfl⟩ := List.mem_map.mp hf
  exact decide_eq_true (a.frame_admitted order)

/-- A fresh handler that gets the stream in chunks, however it is cut, calls the callback with
the messages of `attempts`, in order. -/
def Decodes (order : Endian) (junk : Vector UInt8 kHeaderLen) (stream : Bytes)
    (attempts : List (SendAttempt codec)) : Prop :=
  ∀ chunks, IsChunking chunks stream → ∃ handler calls,
    TcpMessageHandler.receiveChunks order (TcpMessageHandler.new junk).setCallback chunks =
      .ok (handler, calls) ∧
    calls.map (·.delivered codec) = attempts.map fun a => some a.delivered

theorem calls_of_receiveChunks {order : Endian} {junk : Vector UInt8 kHeaderLen}
    {chunks : List Bytes} {stream : Bytes} {handler : TcpMessageHandler}
    {calls : List MessageReceive}
    (hChunks : IsChunking chunks stream)
    (hRun : TcpMessageHandler.receiveChunks order (TcpMessageHandler.new junk).setCallback chunks =
      .ok (handler, calls)) :
    calls = ((completeFrames order stream).takeWhile (kHeaderLen < ·.length)).map
      (frameCall order) := by
  have hFollows := TcpMessageHandler.receiveChunks_follows
    (TcpMessageHandler.tracks_new order junk) hChunks.length_le
  rw [hRun, hChunks.2] at hFollows
  cases hFeed : (frameFormat order).lazyFeed (.reading []) stream with
  | error stop =>
    rw [hFeed] at hFollows
    cases hFollows
  | ok outcome =>
    rw [hFeed] at hFollows
    obtain ⟨_, hOk, _⟩ := hFollows
    obtain ⟨_, hCalls⟩ := Prod.mk.inj (Except.ok.inj hOk)
    have hOut := Format.handedOut_of_lazyFeed hFeed
    rw [Format.handedOut_eq_takeWhile Format.admitted_nil] at hOut
    rw [hCalls, ← hOut]
    rfl

/-- A stream of complete frames is decoded if and only if each of them has a body. -/
theorem decodes_frames_iff {order : Endian} {junk : Vector UInt8 kHeaderLen}
    {attempts : List (SendAttempt codec)} :
    Decodes order junk (attempts.map (·.frame order)).flatten attempts ↔
      ∀ a ∈ attempts, 0 < a.serialized.length + a.data.length := by
  constructor
  · intro h a hMem
    have hChunks := isChunking_singletons (attempts.map (·.frame order)).flatten
    obtain ⟨handler, calls, hRun, hDelivered⟩ := h _ hChunks
    have hCalls := calls_of_receiveChunks hChunks hRun
    have hLength := congrArg List.length hDelivered
    rw [hCalls, completeFrames_attempts] at hLength
    simp only [List.length_map] at hLength
    have hAll := (List.takeWhile_prefix _).eq_of_length
      (hLength.trans (List.length_map (SendAttempt.frame order)).symm)
    rw [List.takeWhile_eq_self_iff] at hAll
    have hLong := hAll (a.frame order) (List.mem_map_of_mem hMem)
    exact SendAttempt.lt_frame_length_iff.mp (of_decide_eq_true hLong)
  · intro hBodies chunks hChunks
    have hFollows := TcpMessageHandler.receiveChunks_follows
      (TcpMessageHandler.tracks_new order junk) hChunks.length_le
    have hLong : ∀ f ∈ ((frameFormat order).feed [] (attempts.map (·.frame order)).flatten).1,
        (frameFormat order).Admitted f ∧ kHeaderLen < f.length := by
      rw [feed_attempts]
      intro f hf
      obtain ⟨a, hMem, rfl⟩ := List.mem_map.mp hf
      exact ⟨a.frame_admitted order, SendAttempt.lt_frame_length_iff.mpr (hBodies a hMem)⟩
    have hRest : (frameFormat order).Admitted
        ((frameFormat order).feed [] (attempts.map (·.frame order)).flatten).2 := by
      rw [feed_attempts]
      exact Format.admitted_nil
    rw [hChunks.2, Format.lazyFeed_eq_feed hRest hLong, feed_attempts] at hFollows
    obtain ⟨handler, hRun, _⟩ := hFollows
    refine ⟨handler, _, hRun, ?_⟩
    rw [List.nil_append, List.map_map, List.map_map]
    apply List.map_congr_left
    intro a hMem
    exact SendAttempt.frameCall_delivered (hBodies a hMem)

/-- Every call of a sequence writes all or nothing and the receiver decodes exactly the messages of
the calls that returned true, if and only if every call is clean. -/
theorem failed_write_harmless_iff (order : Endian) (attempts : List (SendAttempt codec))
    (junk : Vector UInt8 kHeaderLen) :
    ∃ results stream, sendAttempts order attempts ⟨[]⟩ = .ok (results, stream) ∧
      ((∀ a ∈ attempts, a.Harmless order) ∧
          Decodes order junk stream.output (succeeded attempts results) ↔
        ∀ a ∈ attempts, a.Clean) := by
  refine ⟨_, _, sendAttempts_eq order attempts ⟨[]⟩, ?_⟩
  rw [succeeded_accepted, List.nil_append]
  constructor
  · rintro ⟨hHarmless, hDecodes⟩ a hMem
    rw [appended_flatten hHarmless, decodes_frames_iff] at hDecodes
    rcases SendAttempt.harmless_iff.mp (hHarmless a hMem) with hAccepted | hSilent
    · exact .inl ⟨hAccepted, hDecodes a (List.mem_filter.mpr ⟨hMem, hAccepted⟩)⟩
    · exact .inr hSilent
  · intro hClean
    have hHarmless : ∀ a ∈ attempts, a.Harmless order := by
      intro a hMem
      rw [SendAttempt.harmless_iff]
      exact (hClean a hMem).imp_left And.left
    refine ⟨hHarmless, ?_⟩
    rw [appended_flatten hHarmless, decodes_frames_iff]
    intro a hMem
    obtain ⟨hMem, hAccepted⟩ := List.mem_filter.mp hMem
    rcases hClean a hMem with ⟨_, hBody⟩ | hSilent
    · exact hBody
    · rw [SendAttempt.accepted_of_silent hSilent] at hAccepted
      cases hAccepted

def withoutPayload : SendAttempt rawCodec where
  sender := .client
  writes := { data := false }
  protos := Protos.protobuf
  message := [7]
  data := List.replicate 18 0
  meta_lt := Nat.le_of_ble_eq_true rfl
  fits := Nat.le_of_ble_eq_true rfl

def completeAttempt : SendAttempt rawCodec where
  sender := .client
  writes := {}
  protos := Protos.protobuf
  message := [7]
  data := [9]
  meta_lt := Nat.le_of_ble_eq_true rfl
  fits := Nat.le_of_ble_eq_true rfl

/-- The call returns false, but its header and its meta are on the connection. The receiver takes
the next frame for the missing payload: it delivers a message that nobody sent and does not
deliver the one that was sent. -/
theorem failed_write_swallows_next :
    ∃ stream handler call,
      sendAttempts .little [withoutPayload, completeAttempt] ⟨[]⟩ = .ok ([false, true], stream) ∧
      TcpMessageHandler.receiveChunks .little
        (TcpMessageHandler.new (Vector.replicate 16 0)).setCallback [stream.output] =
          .ok (handler, [call]) ∧
      call.delivered rawCodec =
        some ⟨Protos.protobuf, [7], [7], completeAttempt.frame .little⟩ :=
  ⟨_, _, _, rfl, rfl, rfl⟩

end Sequence

end PsRpc
