import PsRpc.Library.Framing
import PsRpc.Wire.TcpMessageHandler

/-! # `ReceiveMessage` refines the frame decoder

The state that `TcpMessageHandler` keeps between calls stands for the bytes read of the
current frame: a part of the header, or the header and a part of the body. `ReceiveMessage`
makes the calls for the frames that the lazy decoder hands out. After a header that announces
an empty body it stands behind the end of `header_`, and the next byte is written there. For a
header that announces more than an array can hold it raises.
-/

namespace PsRpc

open ByteOrder Framing TcpMessageHandler

def frameFormat (order : Endian) : Format UInt8 where
  headerLen := kHeaderLen
  bodyLen header := (MessageHeader.ofBytes order header).messageLength.toNat
  admits header := (MessageHeader.ofBytes order header).messageLength.toNat ≤ maxArrayLen
  headerLen_pos := by decide

def frameCall (order : Endian) (frame : Bytes) : MessageReceive :=
  (MessageHeader.ofBytes order (frame.take kHeaderLen)).call (frame.drop kHeaderLen)

def frameHeader (order : Endian) (frame : Bytes) : MessageHeader :=
  MessageHeader.ofBytes order (frame.take kHeaderLen)

/-- The complete frames that `ReceiveMessage` can come to, before the first one that no array can
hold. -/
def completeFrames (order : Endian) (stream : Bytes) : List Bytes :=
  ((frameFormat order).feed [] stream).1.takeWhile fun frame =>
    decide ((frameFormat order).Admitted frame)

/-- All complete headers of the stream declare a body. A header of which the body is not
complete yet does so anyway. -/
def NonzeroLengths (order : Endian) (stream : Bytes) : Prop :=
  ∀ frame ∈ completeFrames order stream, (frameHeader order frame).messageLength ≠ 0

instance (order : Endian) (stream : Bytes) : Decidable (NonzeroLengths order stream) :=
  inferInstanceAs (Decidable (∀ frame ∈ _, _))

theorem isFrame_of_mem_completeFrames {order : Endian} {stream frame : Bytes}
    (h : frame ∈ completeFrames order stream) : (frameFormat order).IsFrame frame :=
  Format.isFrame_of_mem_feed _ ((List.takeWhile_sublist _).subset h)

theorem messageLength_ne_zero_iff {order : Endian} {frame : Bytes}
    (h : (frameFormat order).IsFrame frame) :
    (frameHeader order frame).messageLength ≠ 0 ↔ kHeaderLen < frame.length := by
  have hLen : frame.length = kHeaderLen + (frameHeader order frame).messageLength.toNat := h
  rw [ne_eq, ← UInt64.toNat_inj, UInt64.toNat_zero]
  omega

theorem nonzeroLengths_iff {order : Endian} {stream : Bytes} :
    NonzeroLengths order stream ↔
      ∀ frame ∈ completeFrames order stream, kHeaderLen < frame.length :=
  forall₂_congr fun _ hf => messageLength_ne_zero_iff (isFrame_of_mem_completeFrames hf)

namespace TcpMessageHandler

structure ReadingHeader (handler : TcpMessageHandler) (p : Bytes) : Prop where
  callback : handler.messageCallback = true
  remaining : handler.remainingLength = 0
  index : handler.headerIndex = (p.length : Int) - 1
  short : p.length < kHeaderLen
  bytes : handler.header.toList.take p.length = p
  copied : handler.lastCopyLen = 0

structure ReadingBody (order : Endian) (handler : TcpMessageHandler) (body : Bytes) : Prop where
  callback : handler.messageCallback = true
  index : handler.headerIndex = kHeaderLen - 1
  header : handler.messageHeader = MessageHeader.ofBytes order handler.header.toList
  block : handler.messageBuffer = some ⟨handler.messageHeader.messageLength.toNat, body⟩
  copied : handler.lastCopyLen = body.length
  remaining_pos : 0 < handler.remainingLength
  total : body.length + handler.remainingLength = handler.messageHeader.messageLength.toNat
  room : handler.messageHeader.messageLength.toNat ≤ maxArrayLen

def Reading (order : Endian) (handler : TcpMessageHandler) (p : Bytes) : Prop :=
  ReadingHeader handler p ∨
    ∃ body, p = handler.header.toList ++ body ∧ ReadingBody order handler body

structure Jammed (handler : TcpMessageHandler) : Prop where
  remaining : handler.remainingLength = 0
  index : handler.headerIndex = kHeaderLen - 1

def Tracks (order : Endian) (handler : TcpMessageHandler) : Mode UInt8 → Prop
  | .reading p => Reading order handler p
  | .jammed => Jammed handler

theorem readingHeader_new (junk : Vector UInt8 kHeaderLen) :
    ReadingHeader (new junk).setCallback [] where
  callback := rfl
  remaining := rfl
  index := rfl
  short := by decide
  bytes := rfl
  copied := rfl

theorem tracks_new (order : Endian) (junk : Vector UInt8 kHeaderLen) :
    Tracks order (new junk).setCallback (.reading []) :=
  .inl (readingHeader_new junk)

theorem take_header_append (header : Vector UInt8 kHeaderLen) (body : Bytes) :
    (header.toList ++ body).take kHeaderLen = header.toList :=
  List.take_left' header.length_toList

theorem Reading.unfinished {order : Endian} {handler : TcpMessageHandler} {p : Bytes}
    (h : Reading order handler p) : (frameFormat order).Unfinished p := by
  intro hLen
  rcases h with hHeader | ⟨body, rfl, hBody⟩
  · exact absurd hHeader.short (Nat.not_lt.mpr hLen)
  · have hTotal := hBody.total
    have hPos := hBody.remaining_pos
    rw [hBody.header] at hTotal
    change (handler.header.toList ++ body).length < kHeaderLen +
      (MessageHeader.ofBytes order
        ((handler.header.toList ++ body).take kHeaderLen)).messageLength.toNat
    rw [take_header_append, List.length_append, handler.header.length_toList]
    omega

theorem admitted_of_le {order : Endian} {p : Bytes}
    (h : kHeaderLen ≤ p.length → (frameHeader order p).messageLength.toNat ≤ maxArrayLen) :
    (frameFormat order).Admitted p :=
  fun hLen => decide_eq_true (h hLen)

theorem Reading.admitted {order : Endian} {handler : TcpMessageHandler} {p : Bytes}
    (h : Reading order handler p) : (frameFormat order).Admitted p := by
  refine admitted_of_le fun hLen => ?_
  rcases h with hHeader | ⟨body, rfl, hBody⟩
  · exact absurd hHeader.short (Nat.not_lt.mpr hLen)
  · rw [frameHeader, take_header_append, ← hBody.header]
    exact hBody.room

/-- The local variables stand before the input `xs`. When all input is taken the pointer is
not used any more, and the header loop leaves it behind. -/
structure At (buffer : Bytes) (s : ReceiveState) (xs : Bytes) : Prop where
  num : s.num = xs.length
  pointer : xs ≠ [] → buffer.drop s.bufferData = xs

theorem readInput_of_drop {buffer : Bytes} {index : Nat} {x : UInt8} {xs : Bytes}
    (h : buffer.drop index = x :: xs) : readInput buffer index = .ok x := by
  have hGet : buffer[index]? = some x := by
    rw [← List.head?_drop, h, List.head?_cons]
  rw [readInput, hGet]

theorem writeHeader_at (header : Vector UInt8 kHeaderLen) {n : Nat} (h : n < kHeaderLen)
    (byte : UInt8) : writeHeader header (n : Int) byte = .ok (header.set n byte h) := by
  have hRange : 0 ≤ (n : Int) ∧ (n : Int).toNat < kHeaderLen := ⟨Int.natCast_nonneg n, h⟩
  rw [writeHeader, dif_pos hRange]
  rfl

theorem take_set_header (header : Vector UInt8 kHeaderLen) {n : Nat} (h : n < kHeaderLen)
    (byte : UInt8) :
    (header.set n byte h).toList.take (n + 1) = header.toList.take n ++ [byte] := by
  have hLen : n < header.toList.length := by rw [header.length_toList]; exact h
  rw [Vector.toList_set, List.take_add_one, List.take_set_of_le (Nat.le_refl n),
    List.getElem?_set_self hLen]
  rfl

theorem isFrame_of_length_zero {order : Endian} {p : Bytes} (hLen : p.length = kHeaderLen)
    (hZero : (MessageHeader.ofBytes order p).messageLength.toNat = 0) :
    (frameFormat order).IsFrame p := by
  have hTake : p.take kHeaderLen = p := List.take_of_length_le (by omega)
  change p.length = kHeaderLen +
    (MessageHeader.ofBytes order (p.take kHeaderLen)).messageLength.toNat
  rw [hTake]
  omega

theorem lazyFeed_jams {order : Endian} {p : Bytes} {x : UInt8}
    (hLen : (p ++ [x]).length = kHeaderLen)
    (hZero : (MessageHeader.ofBytes order (p ++ [x])).messageLength.toNat = 0) :
    (frameFormat order).lazyFeed (.reading p) [x] = .ok ([], .jammed) := by
  have hAdmitted : (frameFormat order).Admitted (p ++ [x]) := by
    refine admitted_of_le fun _ => ?_
    rw [frameHeader, List.take_of_length_le hLen.le, hZero]
    exact Nat.zero_le _
  have hPush : (frameFormat order).lazyPush (.reading p) x = .ok ([], .jammed) := by
    rw [Format.lazyPush_of_admitted hAdmitted, if_pos (isFrame_of_length_zero hLen hZero)]
    exact if_neg (by change ¬ kHeaderLen < _; omega)
  rw [Format.lazyFeed, hPush]
  rfl

/-- The input completes a header that announces more than an array can hold. -/
def Refused (order : Endian) (p xs : Bytes) : Prop :=
  ∃ a b, xs = a ++ b ∧ a ≠ [] ∧ (p ++ a).length = kHeaderLen ∧
    maxArrayLen < (MessageHeader.ofBytes order (p ++ a)).messageLength.toNat

theorem Refused.cons {order : Endian} {p xs : Bytes} {x : UInt8}
    (h : Refused order (p ++ [x]) xs) : Refused order p (x :: xs) := by
  obtain ⟨a, b, rfl, _, hLen, hRoom⟩ := h
  rw [List.append_assoc] at hLen hRoom
  exact ⟨x :: a, b, rfl, by simp, hLen, hRoom⟩

theorem Refused.split {order : Endian} {p xs : Bytes} (h : Refused order p xs) :
    ∃ init x b, xs = init ++ x :: b ∧
      (frameFormat order).lazyFeed (.reading p) init = .ok ([], .reading (p ++ init)) ∧
      (frameFormat order).lazyPush (.reading (p ++ init)) x = .error .refused := by
  obtain ⟨a, b, rfl, ha, hLen, hRoom⟩ := h
  obtain ⟨init, x, rfl⟩ := List.eq_nil_or_concat a |>.resolve_left ha
  rw [List.concat_eq_append, ← List.append_assoc] at hLen hRoom
  have hLast : (p ++ init).length + 1 = (frameFormat order).headerLen := by
    rw [List.length_append] at hLen
    exact hLen
  have hShort : ¬(frameFormat order).headerLen ≤ (p ++ init).length := by omega
  have hNot : ¬(frameFormat order).Admitted (p ++ init ++ [x]) := by
    intro hAdmitted
    have hAdmits := of_decide_eq_true (hAdmitted hLen.ge)
    change (MessageHeader.ofBytes order ((p ++ init ++ [x]).take kHeaderLen)).messageLength.toNat ≤
      maxArrayLen at hAdmits
    rw [List.take_of_length_le hLen.le] at hAdmits
    omega
  refine ⟨init, x, b, by simp, ?_, if_pos ⟨hLast, hNot⟩⟩
  exact Format.lazyFeed_of_unfinished (fun hLong => absurd hLong hShort)
    (fun hLong => absurd hLong hShort)

theorem Refused.lazyFeed_eq {order : Endian} {p xs : Bytes} (h : Refused order p xs) :
    (frameFormat order).lazyFeed (.reading p) xs = .error .refused := by
  obtain ⟨init, x, b, rfl, hInit, hPush⟩ := h.split
  rw [Format.lazyFeed_append_of hInit, Format.lazyFeed, hPush]
  rfl

theorem Refused.handedOut_eq {order : Endian} {p xs : Bytes} (h : Refused order p xs) :
    (frameFormat order).handedOut (.reading p) xs = [] := by
  obtain ⟨init, x, b, rfl, hInit, hPush⟩ := h.split
  rw [Format.handedOut_append hInit, Format.handedOut, hPush]
  rfl

section HeaderByte

variable {order : Endian} {handler : TcpMessageHandler} {p : Bytes}

def pushHeader (handler : TcpMessageHandler) {n : Nat} (h : n < kHeaderLen) (byte : UInt8) :
    TcpMessageHandler :=
  { handler with header := handler.header.set n byte h, headerIndex := (n : Int) }

theorem ReadingHeader.take_push (h : ReadingHeader handler p) (byte : UInt8) :
    (pushHeader handler h.short byte).header.toList.take (p.length + 1) = p ++ [byte] := by
  rw [pushHeader, take_set_header, h.bytes]

theorem ReadingHeader.push (h : ReadingHeader handler p) (hMore : p.length + 1 < kHeaderLen)
    (byte : UInt8) : ReadingHeader (pushHeader handler h.short byte) (p ++ [byte]) := by
  have hLen : (p ++ [byte]).length = p.length + 1 := by simp
  refine ⟨h.callback, h.remaining, ?_, ?_, ?_, h.copied⟩
  · change (p.length : Int) = ((p ++ [byte]).length : Int) - 1
    rw [hLen]
    omega
  · rw [hLen]
    exact hMore
  · rw [hLen]
    exact h.take_push byte

theorem ReadingHeader.push_last (h : ReadingHeader handler p) (hLast : p.length + 1 = kHeaderLen)
    (byte : UInt8) : (pushHeader handler h.short byte).header.toList = p ++ [byte] := by
  rw [← h.take_push byte, List.take_of_length_le]
  rw [Vector.length_toList]
  omega

def startBody (order : Endian) (handler : TcpMessageHandler) {n : Nat} (h : n < kHeaderLen)
    (byte : UInt8) : TcpMessageHandler :=
  let parsed := parseHeader order (pushHeader handler h byte)
  { parsed with messageBuffer := some (.alloc parsed.remainingLength) }

theorem ReadingHeader.startBody (h : ReadingHeader handler p) (hLast : p.length + 1 = kHeaderLen)
    {byte : UInt8}
    (hBody : (MessageHeader.ofBytes order (p ++ [byte])).messageLength.toNat ≠ 0)
    (hRoom : (MessageHeader.ofBytes order (p ++ [byte])).messageLength.toNat ≤ maxArrayLen) :
    Reading order (startBody order handler h.short byte) (p ++ [byte]) := by
  rw [← h.push_last hLast byte] at hBody hRoom ⊢
  refine .inr ⟨[], (List.append_nil _).symm, h.callback, ?_, rfl, rfl, h.copied,
    Nat.pos_of_ne_zero hBody, Nat.zero_add _, hRoom⟩
  change (p.length : Int) = (kHeaderLen : Int) - 1
  omega

theorem ReadingHeader.startBody_jammed (h : ReadingHeader handler p)
    (hLast : p.length + 1 = kHeaderLen) {byte : UInt8}
    (hZero : (MessageHeader.ofBytes order (p ++ [byte])).messageLength.toNat = 0) :
    Jammed (TcpMessageHandler.startBody order handler h.short byte) := by
  rw [← h.push_last hLast byte] at hZero
  refine ⟨hZero, ?_⟩
  change (p.length : Int) = (kHeaderLen : Int) - 1
  omega

end HeaderByte

def outOfRoom : Fault := .exception "std::bad_array_new_length"

theorem newBuffer_parseHeader {order : Endian} {handler : TcpMessageHandler} {p : Bytes}
    (h : ReadingHeader handler p) (hLast : p.length + 1 = kHeaderLen) (byte : UInt8) :
    newBuffer (parseHeader order (pushHeader handler h.short byte)) =
      if (MessageHeader.ofBytes order (p ++ [byte])).messageLength.toNat ≤ maxArrayLen then
        .ok (.alloc (MessageHeader.ofBytes order (p ++ [byte])).messageLength.toNat)
      else .error outOfRoom := by
  rw [← h.push_last hLast byte]
  rfl

theorem readHeader_succ {order : Endian} {buffer : Bytes} {i : Nat} {s : ReceiveState} {p : Bytes}
    {x : UInt8} {xs : Bytes} (hReading : ReadingHeader s.handler p)
    (hNum : s.num = (x :: xs).length) (hDrop : buffer.drop (s.bufferData + i) = x :: xs)
    (turns : Nat) :
    readHeader order buffer (turns + 1) i s =
      if p.length + 1 = kHeaderLen then
        if (MessageHeader.ofBytes order (p ++ [x])).messageLength.toNat ≤ maxArrayLen then
          .ok { s with
            handler := startBody order s.handler hReading.short x
            num := s.num - 1
            bufferData := s.bufferData + (i + 1) }
        else .error ⟨outOfRoom, { s with
          handler := parseHeader order (pushHeader s.handler hReading.short x)
          num := s.num - 1 }⟩
      else readHeader order buffer turns (i + 1)
        { s with handler := pushHeader s.handler hReading.short x, num := s.num - 1 } := by
  have hShort := hReading.short
  have hIndex : s.handler.headerIndex + 1 = (p.length : Int) := by rw [hReading.index]; omega
  have hPos : ¬ s.num = 0 := by rw [hNum]; simp
  have hLast : (p.length : Int) = (kHeaderLen : Int) - 1 ↔ p.length + 1 = kHeaderLen := by omega
  rw [readHeader, if_neg hPos, readInput_of_drop hDrop, hIndex]
  simp only [ReceiveState.attempt, Except.mapError, bind, Except.bind,
    writeHeader_at s.handler.header hShort, hLast]
  by_cases hFull : p.length + 1 = kHeaderLen
  · rw [if_pos hFull, if_pos hFull]
    have hNew := @newBuffer_parseHeader order _ _ hReading hFull x
    simp only [pushHeader] at hNew
    rw [hNew]
    by_cases hRoom : (MessageHeader.ofBytes order (p ++ [x])).messageLength.toNat ≤ maxArrayLen
    · rw [if_pos hRoom, if_pos hRoom, ← hReading.push_last hFull x]
      rfl
    · rw [if_neg hRoom, if_neg hRoom]
      rfl
  · rw [if_neg hFull, if_neg hFull]
    rfl

/-- The header loop takes a non-empty part of the input into the header, or the buffer for the body
cannot be made. -/
theorem readHeader_spec {order : Endian} {buffer : Bytes} (turns i : Nat) (s : ReceiveState)
    (p xs : Bytes) (hReading : ReadingHeader s.handler p) (hNum : s.num = xs.length)
    (hPointer : xs ≠ [] → buffer.drop (s.bufferData + i) = xs)
    (hTurns : kHeaderLen ≤ turns + p.length) :
    (∃ raised, readHeader order buffer turns i s = .error raised ∧ raised.fault = outOfRoom ∧
      Refused order p xs) ∨
    ∃ a b s' mode, xs = a ++ b ∧ (xs ≠ [] → a ≠ []) ∧
      readHeader order buffer turns i s = .ok s' ∧ At buffer s' b ∧ s'.calls = s.calls ∧
      (frameFormat order).lazyFeed (.reading p) a = .ok ([], mode) ∧
      Tracks order s'.handler mode := by
  induction turns generalizing i s p xs with
  | zero =>
    have hShort := hReading.short
    omega
  | succ turns ih =>
    cases xs with
    | nil =>
      refine .inr ⟨[], [], s, .reading p, rfl, fun h => absurd rfl h, ?_,
        ⟨hNum, fun h => absurd rfl h⟩, rfl, rfl, .inl hReading⟩
      rw [List.length_nil] at hNum
      rw [readHeader, if_pos hNum]
    | cons x xs =>
      have hDrop := hPointer (by simp)
      have hRest : xs = buffer.drop (s.bufferData + (i + 1)) := by
        rw [← Nat.add_assoc, ← List.drop_drop, hDrop, List.drop_one, List.tail_cons]
      have hSub : s.num - 1 = xs.length := by rw [hNum, List.length_cons, Nat.add_sub_cancel]
      have hLen : (p ++ [x]).length = p.length + 1 := by simp
      rw [readHeader_succ hReading hNum hDrop]
      by_cases hFull : p.length + 1 = kHeaderLen
      · rw [if_pos hFull]
        by_cases hRoom : (MessageHeader.ofBytes order (p ++ [x])).messageLength.toNat ≤ maxArrayLen
        · rw [if_pos hRoom]
          right
          by_cases hZero : (MessageHeader.ofBytes order (p ++ [x])).messageLength.toNat = 0
          · exact ⟨[x], xs, _, .jammed, rfl, by simp, rfl, ⟨hSub, fun _ => hRest.symm⟩, rfl,
              lazyFeed_jams (hLen.trans hFull) hZero, hReading.startBody_jammed hFull hZero⟩
          · have hReading' := hReading.startBody hFull hZero hRoom
            exact ⟨[x], xs, _, .reading (p ++ [x]), rfl, by simp, rfl,
              ⟨hSub, fun _ => hRest.symm⟩, rfl,
              Format.lazyFeed_of_unfinished hReading'.unfinished hReading'.admitted, hReading'⟩
        · rw [if_neg hRoom]
          exact .inl ⟨_, rfl, rfl, [x], xs, rfl, by simp, hLen.trans hFull, by omega⟩
      · rw [if_neg hFull]
        have hShort := hReading.short
        have hReading' := hReading.push (by omega) x
        have hPending : Reading order _ (p ++ [x]) := .inl hReading'
        rcases ih (i + 1) { s with handler := pushHeader s.handler hShort x, num := s.num - 1 }
            (p ++ [x]) xs hReading' hSub (fun _ => hRest.symm) (by omega) with
          ⟨raised, hRun, hFault, hRefused⟩ |
          ⟨a, b, s', mode, hSplit, _, hRun, hAt, hCalls, hFeed, hAfter⟩
        · exact .inl ⟨raised, hRun, hFault, hRefused.cons⟩
        · refine .inr ⟨x :: a, b, s', mode, by rw [hSplit, List.cons_append], by simp, hRun, hAt,
            hCalls, ?_, hAfter⟩
          rw [Format.lazyFeed_cons_of_unfinished a hPending.unfinished hPending.admitted, hFeed]

theorem readSlice_of_drop {buffer a b : Bytes} {index : Nat} (h : buffer.drop index = a ++ b)
    (ha : a ≠ []) : readSlice buffer index a.length = some a := by
  have hPos := List.length_pos_iff.mpr ha
  have hLen : index + a.length ≤ buffer.length := by
    have hDrop := congrArg List.length h
    rw [List.length_drop, List.length_append] at hDrop
    omega
  rw [readSlice, if_pos hLen, h, List.take_left]

section Copy

variable {order : Endian} {buffer : Bytes} {s : ReceiveState} {body a b : Bytes}

/-- `a` is the input up to the end of the frame or of the chunk. -/
structure ToCopy (s : ReceiveState) (a b : Bytes) : Prop where
  nonempty : a ≠ []
  le : a.length ≤ s.handler.remainingLength
  ends : b ≠ [] → a.length = s.handler.remainingLength

theorem ToCopy.copyLen_eq (h : ToCopy s a b) (hAt : At buffer s (a ++ b)) :
    (if s.handler.remainingLength ≤ s.num then s.handler.remainingLength else s.num) =
      a.length := by
  have hNum := hAt.num
  have hLe := h.le
  rw [List.length_append] at hNum
  by_cases hb : b = []
  · rw [hb, List.length_nil] at hNum
    split <;> omega
  · rw [if_pos (by rw [← h.ends hb]; omega), h.ends hb]

theorem ToCopy.readSlice_eq (h : ToCopy s a b) (hAt : At buffer s (a ++ b)) :
    readSlice buffer s.bufferData a.length = some a :=
  readSlice_of_drop (hAt.pointer (List.append_ne_nil_of_left_ne_nil h.nonempty b)) h.nonempty

def countCopied (handler : TcpMessageHandler) (count : Nat) : TcpMessageHandler :=
  { handler with
    remainingLength := handler.remainingLength - count
    lastCopyLen := handler.lastCopyLen + count }

theorem copyBody_eq (hReading : ReadingBody order s.handler body) (hAt : At buffer s (a ++ b))
    (hCopy : ToCopy s a b) (hMax : a.length ≤ securecMemMaxLen) :
    copyBody buffer s = .ok (finishFrame (countCopied s.handler a.length)
      ⟨s.handler.messageHeader.messageLength.toNat, body ++ a⟩
      { s with
        handler := countCopied s.handler a.length
        num := s.num - a.length
        bufferData := s.bufferData + a.length }) := by
  have hTotal := hReading.total
  have hLe := hCopy.le
  have hMemcpy : memcpyS a.length a.length = .eok :=
    (memcpyS_self_eq_eok_iff _).mpr ⟨List.length_pos_iff.mpr hCopy.nonempty, hMax⟩
  have hWrite : Buffer.write ⟨s.handler.messageHeader.messageLength.toNat, body⟩
      s.handler.lastCopyLen a = .ok ⟨s.handler.messageHeader.messageLength.toNat, body ++ a⟩ := by
    rw [hReading.copied]
    apply Buffer.write_end
    change body.length + a.length ≤ s.handler.messageHeader.messageLength.toNat
    omega
  simp only [copyBody, copyTo, ReceiveState.attempt, Except.mapError, bind, Except.bind,
    hReading.block, hCopy.copyLen_eq hAt, hCopy.readSlice_eq hAt, hMemcpy, hWrite]
  rfl

def copyTooLong : Fault := memcpyError .erange

theorem copyBody_tooLong (hReading : ReadingBody order s.handler body)
    (hAt : At buffer s (a ++ b)) (hCopy : ToCopy s a b) (hMax : securecMemMaxLen < a.length) :
    ∃ raised, copyBody buffer s = .error raised ∧ raised.fault = copyTooLong := by
  have hMemcpy : memcpyS a.length a.length = .erange := by
    rw [memcpyS, if_neg (by omega), if_pos (.inr hMax)]
  simp only [copyBody, copyTo, ReceiveState.attempt, Except.mapError, bind, Except.bind,
    hReading.block, hCopy.copyLen_eq hAt, hCopy.readSlice_eq hAt, hMemcpy]
  exact ⟨_, rfl, rfl⟩

theorem exists_toCopy {xs : Bytes} (hReading : ReadingBody order s.handler body) (hxs : xs ≠ []) :
    ∃ a b, xs = a ++ b ∧ ToCopy s a b := by
  have hPos := hReading.remaining_pos
  have hLen := List.length_pos_iff.mpr hxs
  have hTake : (xs.take s.handler.remainingLength).length =
      min s.handler.remainingLength xs.length := List.length_take
  refine ⟨xs.take s.handler.remainingLength, xs.drop s.handler.remainingLength,
    (List.take_append_drop _ _).symm, List.length_pos_iff.mp (by omega), by omega, fun hb => ?_⟩
  have hDrop := List.length_pos_iff.mpr hb
  rw [List.length_drop] at hDrop
  omega

end Copy

theorem ReadingBody.isFrame {order : Endian} {handler : TcpMessageHandler} {body a : Bytes}
    (h : ReadingBody order handler body) (ha : a.length = handler.remainingLength) :
    (frameFormat order).IsFrame (handler.header.toList ++ body ++ a) := by
  have hTotal := h.total
  rw [h.header] at hTotal
  change (handler.header.toList ++ body ++ a).length = kHeaderLen +
    (MessageHeader.ofBytes order
      ((handler.header.toList ++ body ++ a).take kHeaderLen)).messageLength.toNat
  rw [List.append_assoc, take_header_append, List.length_append, List.length_append,
    handler.header.length_toList]
  omega

theorem headerLen_le_header_append (header : Vector UInt8 kHeaderLen) (body : Bytes) :
    kHeaderLen ≤ (header.toList ++ body).length := by
  rw [List.length_append, header.length_toList]
  omega

theorem ReadingBody.frameCall_eq {order : Endian} {handler : TcpMessageHandler} {body : Bytes}
    (h : ReadingBody order handler body) (a : Bytes) :
    frameCall order (handler.header.toList ++ body ++ a) =
      handler.messageHeader.call (body ++ a) := by
  rw [frameCall, List.append_assoc, take_header_append, ← h.header,
    List.drop_left' handler.header.length_toList]

theorem ReadingBody.extend {order : Endian} {handler : TcpMessageHandler} {body a : Bytes}
    (h : ReadingBody order handler body) (ha : a.length < handler.remainingLength) :
    ReadingBody order
      { countCopied handler a.length with
        messageBuffer := some ⟨handler.messageHeader.messageLength.toNat, body ++ a⟩ }
      (body ++ a) := by
  have hTotal := h.total
  refine ⟨h.callback, h.index, h.header, rfl, ?_, ?_, ?_, h.room⟩
  · change handler.lastCopyLen + a.length = (body ++ a).length
    rw [h.copied, List.length_append]
  · change 0 < handler.remainingLength - a.length
    omega
  · change (body ++ a).length + (handler.remainingLength - a.length) =
      handler.messageHeader.messageLength.toNat
    rw [List.length_append]
    omega

theorem copyBody_ends {order : Endian} {buffer : Bytes} {s : ReceiveState} {body a b : Bytes}
    (hReading : ReadingBody order s.handler body) (hAt : At buffer s (a ++ b))
    (hCopy : ToCopy s a b) (hMax : a.length ≤ securecMemMaxLen)
    (hEnd : a.length = s.handler.remainingLength) :
    ∃ s', copyBody buffer s = .ok s' ∧ At buffer s' b ∧ ReadingHeader s'.handler [] ∧
      s'.calls = s.calls ++ [frameCall order (s.handler.header.toList ++ body ++ a)] := by
  have hZero : (countCopied s.handler a.length).remainingLength = 0 := by
    change s.handler.remainingLength - a.length = 0
    omega
  refine ⟨_, copyBody_eq hReading hAt hCopy hMax, ?_⟩
  rw [finishFrame, if_pos hZero]
  have hNum := hAt.num
  rw [List.length_append] at hNum
  refine ⟨⟨?_, fun _ => ?_⟩, ⟨hReading.callback, hZero, rfl, Nat.zero_lt_succ 15, rfl, rfl⟩, ?_⟩
  · change s.num - a.length = b.length
    omega
  · change buffer.drop (s.bufferData + a.length) = b
    rw [← List.drop_drop, hAt.pointer (List.append_ne_nil_of_left_ne_nil hCopy.nonempty b),
      List.drop_left]
  · rw [hReading.frameCall_eq]
    change s.calls ++ (if s.handler.messageCallback = true then _ else _) = _
    rw [if_pos hReading.callback]
    rfl

theorem copyBody_extends {order : Endian} {buffer : Bytes} {s : ReceiveState} {body a : Bytes}
    (hReading : ReadingBody order s.handler body) (hAt : At buffer s (a ++ []))
    (hCopy : ToCopy s a []) (hMax : a.length ≤ securecMemMaxLen)
    (hLt : a.length < s.handler.remainingLength) :
    ∃ s', copyBody buffer s = .ok s' ∧ At buffer s' [] ∧ s'.calls = s.calls ∧
      s'.handler.header = s.handler.header ∧ ReadingBody order s'.handler (body ++ a) := by
  have hNonzero : ¬ (countCopied s.handler a.length).remainingLength = 0 := by
    change ¬ s.handler.remainingLength - a.length = 0
    omega
  refine ⟨_, copyBody_eq hReading hAt hCopy hMax, ?_⟩
  rw [finishFrame, if_neg hNonzero]
  refine ⟨⟨?_, fun h => absurd rfl h⟩, rfl, rfl, hReading.extend hLt⟩
  have hNum := hAt.num
  rw [List.append_nil] at hNum
  change s.num - a.length = 0
  rw [hNum, Nat.sub_self]

theorem copyBody_spec {order : Endian} {buffer : Bytes} {s : ReceiveState} {body xs : Bytes}
    (hReading : ReadingBody order s.handler body) (hAt : At buffer s xs) (hxs : xs ≠ []) :
    (∃ raised, copyBody buffer s = .error raised ∧ raised.fault = copyTooLong ∧
      securecMemMaxLen < xs.length) ∨
    ∃ a b s' fs mode, xs = a ++ b ∧ a ≠ [] ∧ copyBody buffer s = .ok s' ∧ At buffer s' b ∧
      (frameFormat order).lazyFeed (.reading (s.handler.header.toList ++ body)) a =
        .ok (fs, mode) ∧
      Tracks order s'.handler mode ∧ s'.calls = s.calls ++ fs.map (frameCall order) := by
  obtain ⟨a, b, rfl, hCopy⟩ := @exists_toCopy order s body xs hReading hxs
  by_cases hMax : a.length ≤ securecMemMaxLen
  case neg =>
    obtain ⟨raised, hRun, hFault⟩ := copyBody_tooLong hReading hAt hCopy (by omega)
    exact .inl ⟨raised, hRun, hFault, by rw [List.length_append]; omega⟩
  have hPending : Reading order s.handler (s.handler.header.toList ++ body) :=
    .inr ⟨body, rfl, hReading⟩
  right
  by_cases hEnd : a.length = s.handler.remainingLength
  · obtain ⟨s', hRun, hAt', hHeader, hCalls⟩ := copyBody_ends hReading hAt hCopy hMax hEnd
    have hLong : kHeaderLen < (s.handler.header.toList ++ body ++ a).length := by
      have hPos := List.length_pos_iff.mpr hCopy.nonempty
      rw [List.length_append, List.length_append, Vector.length_toList]
      omega
    have hFeed := Format.lazyFeed_of_isFrame (hReading.isFrame hEnd) hCopy.nonempty hLong
      (hPending.admitted.append (headerLen_le_header_append _ _) a)
    exact ⟨a, b, s', _, _, rfl, hCopy.nonempty, hRun, hAt', hFeed, .inl hHeader, hCalls⟩
  · obtain rfl : b = [] := by
      by_contra hb
      exact hEnd (hCopy.ends hb)
    have hLe := hCopy.le
    obtain ⟨s', hRun, hAt', hCalls, hSame, hBody⟩ :=
      copyBody_extends hReading hAt hCopy hMax (by omega)
    have hReading' : Reading order s'.handler (s.handler.header.toList ++ body ++ a) :=
      .inr ⟨body ++ a, by rw [hSame, List.append_assoc], hBody⟩
    exact ⟨a, [], s', _, _, rfl, hCopy.nonempty, hRun, hAt',
      Format.lazyFeed_of_unfinished hReading'.unfinished hReading'.admitted, hReading',
      by rw [hCalls, List.map_nil, List.append_nil]⟩

def headerOverrun : Fault := .outOfBounds "header_" kHeaderLen

theorem readHeader_jammed {order : Endian} {buffer : Bytes} {s : ReceiveState} {xs : Bytes}
    (hJammed : Jammed s.handler) (hAt : At buffer s xs) (hxs : xs ≠ []) (turns : Nat) :
    readHeader order buffer (turns + 1) 0 s = .error ⟨headerOverrun, s⟩ := by
  obtain ⟨x, xs, rfl⟩ := List.exists_cons_of_ne_nil hxs
  have hPos : ¬ s.num = 0 := by rw [hAt.num]; simp
  have hIndex : s.handler.headerIndex + 1 = (kHeaderLen : Int) := by rw [hJammed.index]; omega
  have hWrite : writeHeader s.handler.header (kHeaderLen : Int) x = .error headerOverrun :=
    dif_neg (by simp)
  rw [readHeader, if_neg hPos, Nat.add_zero, readInput_of_drop (hAt.pointer hxs)]
  simp only [ReceiveState.attempt, Except.mapError, bind, Except.bind, hIndex, hWrite]

theorem receiveTurn_jammed {order : Endian} {buffer : Bytes} {s : ReceiveState} {xs : Bytes}
    (hJammed : Jammed s.handler) (hAt : At buffer s xs) (hxs : xs ≠ []) :
    receiveTurn order buffer s = .error ⟨headerOverrun, s⟩ := by
  have hRead : readHeader order buffer kHeaderLen 0 s = .error ⟨headerOverrun, s⟩ :=
    readHeader_jammed hJammed hAt hxs 15
  rw [receiveTurn, if_pos hJammed.remaining, hRead]
  rfl

/-- Why a turn on the input `xs` raises: a copy is too long for `memcpy_s`, or the buffer for a
body cannot be made. -/
def Interrupted (order : Endian) (p xs : Bytes) (fault : Fault) : Prop :=
  (fault = copyTooLong ∧ securecMemMaxLen < xs.length) ∨ (fault = outOfRoom ∧ Refused order p xs)

/-- One turn of the loop takes a non-empty part of the input as the lazy decoder does, or raises. -/
theorem receiveTurn_spec {order : Endian} {buffer : Bytes} {s : ReceiveState} {p xs : Bytes}
    (hReading : Reading order s.handler p) (hAt : At buffer s xs) (hxs : xs ≠ []) :
    (∃ raised, receiveTurn order buffer s = .error raised ∧
      Interrupted order p xs raised.fault) ∨
    ∃ a b s' fs mode, xs = a ++ b ∧ a ≠ [] ∧ receiveTurn order buffer s = .ok s' ∧
      At buffer s' b ∧ (frameFormat order).lazyFeed (.reading p) a = .ok (fs, mode) ∧
      Tracks order s'.handler mode ∧ s'.calls = s.calls ++ fs.map (frameCall order) := by
  rcases hReading with hHeader | ⟨body, rfl, hBody⟩
  · rcases @readHeader_spec order buffer kHeaderLen 0 s p xs hHeader hAt.num hAt.pointer
        (by omega) with
      ⟨raised, hRun, hFault, hRefused⟩ |
      ⟨a, b, s₁, mode₁, rfl, hTaken, hRun, hAt₁, hCalls, hFeed, hTracks₁⟩
    · refine .inl ⟨raised, ?_, .inr ⟨hFault, hRefused⟩⟩
      rw [receiveTurn, if_pos hHeader.remaining, hRun]
      rfl
    have haNe : a ≠ [] := hTaken hxs
    have hTurn : receiveTurn order buffer s =
        if 0 < s₁.handler.remainingLength ∧ 0 < s₁.num then copyBody buffer s₁ else .ok s₁ := by
      rw [receiveTurn, if_pos hHeader.remaining, hRun]
      rfl
    rw [hTurn]
    by_cases hCopy : 0 < s₁.handler.remainingLength ∧ 0 < s₁.num
    · rw [if_pos hCopy]
      have hb : b ≠ [] := List.length_pos_iff.mp (by rw [← hAt₁.num]; exact hCopy.2)
      have hRemaining := Nat.pos_iff_ne_zero.mp hCopy.1
      cases mode₁ with
      | jammed => exact absurd hTracks₁.remaining hRemaining
      | reading q =>
        rcases hTracks₁ with hHeader₁ | ⟨body, rfl, hBody⟩
        · exact absurd hHeader₁.remaining hRemaining
        · rcases copyBody_spec hBody hAt₁ hb with ⟨raised, hRun₂, hFault, hLong⟩ |
            ⟨a₂, b₂, s₂, fs, mode, rfl, _, hRun₂, hAt₂, hFeed₂, hTracks₂, hCalls₂⟩
          · exact .inl ⟨raised, hRun₂, .inl ⟨hFault, by rw [List.length_append]; omega⟩⟩
          refine .inr ⟨a ++ a₂, b₂, s₂, fs, mode, (List.append_assoc _ _ _).symm,
            List.append_ne_nil_of_left_ne_nil haNe a₂, hRun₂, hAt₂, ?_, hTracks₂, ?_⟩
          · rw [Format.lazyFeed_append_of hFeed, hFeed₂]
            rfl
          · rw [hCalls₂, hCalls]
    · rw [if_neg hCopy]
      refine .inr ⟨a, b, s₁, [], mode₁, rfl, haNe, rfl, hAt₁, hFeed, hTracks₁, ?_⟩
      rw [hCalls, List.map_nil, List.append_nil]
  · have hPos := hBody.remaining_pos
    have hTurn : receiveTurn order buffer s = copyBody buffer s := by
      have hNum : 0 < s.num := by rw [hAt.num]; exact List.length_pos_iff.mpr hxs
      rw [receiveTurn, if_neg (by omega)]
      exact if_pos ⟨hPos, hNum⟩
    rw [hTurn]
    rcases copyBody_spec hBody hAt hxs with ⟨raised, hRun, hFault, hLong⟩ | hCopied
    · exact .inl ⟨raised, hRun, .inl ⟨hFault, hLong⟩⟩
    · exact .inr hCopied

def stopFault : Stop → Fault
  | .overrun => headerOverrun
  | .refused => outOfRoom

/-- What the lazy decoder makes of some input, as a result of the code: the calls of the
frames handed out and a handler that tracks the decoder, or the fault at which it stops. -/
def Follows (order : Endian) (calls : List MessageReceive)
    (result : Except Fault (TcpMessageHandler × List MessageReceive)) :
    Except Stop (List Bytes × Mode UInt8) → Prop
  | .ok (fs, mode) =>
    ∃ handler, result = .ok (handler, calls ++ fs.map (frameCall order)) ∧
      Tracks order handler mode
  | .error stop => result = .error (stopFault stop)

theorem Follows.append {order : Endian} {calls : List MessageReceive}
    {result : Except Fault (TcpMessageHandler × List MessageReceive)} {fs : List Bytes}
    {later : Except Stop (List Bytes × Mode UInt8)}
    (h : Follows order (calls ++ fs.map (frameCall order)) result later) :
    Follows order calls result (later.map fun later => (fs ++ later.1, later.2)) := by
  cases later with
  | error stop => exact h
  | ok later =>
    obtain ⟨handler, hResult, hAfter⟩ := h
    refine ⟨handler, ?_, hAfter⟩
    rw [hResult, List.map_append, List.append_assoc]

theorem receiveLoop_spec {order : Endian} {buffer : Bytes} (turns : Nat) {s : ReceiveState}
    {mode : Mode UInt8} {xs : Bytes} (hTurns : xs.length ≤ turns)
    (hTracks : Tracks order s.handler mode) (hAt : At buffer s xs) :
    (securecMemMaxLen < xs.length ∧
      returned (receiveLoop order buffer turns s) = .error copyTooLong) ∨
    Follows order s.calls (returned (receiveLoop order buffer turns s))
      ((frameFormat order).lazyFeed mode xs) := by
  induction turns generalizing s mode xs with
  | zero =>
    obtain rfl : xs = [] := List.length_eq_zero_iff.mp (by omega)
    exact .inr ⟨s.handler, by rw [List.map_nil, List.append_nil]; rfl, hTracks⟩
  | succ turns ih =>
    rw [receiveLoop]
    by_cases hxs : xs = []
    · subst hxs
      have hNum : ¬ 0 < s.num := by rw [hAt.num]; simp
      rw [if_neg hNum]
      exact .inr ⟨s.handler, by rw [List.map_nil, List.append_nil]; rfl, hTracks⟩
    · have hNum : 0 < s.num := by rw [hAt.num]; exact List.length_pos_iff.mpr hxs
      rw [if_pos hNum]
      cases mode with
      | jammed =>
        rw [receiveTurn_jammed hTracks hAt hxs, Format.lazyFeed_jammed hxs]
        exact .inr rfl
      | reading p =>
        rcases receiveTurn_spec hTracks hAt hxs with
          ⟨raised, hRun, ⟨hFault, hLong⟩ | ⟨hFault, hRefused⟩⟩ |
          ⟨a, b, s₁, fs, mode, rfl, ha, hRun, hAt₁, hFeed, hTracks₁, hCalls₁⟩
        · rw [hRun, ← hFault]
          exact .inl ⟨hLong, rfl⟩
        · rw [hRun, hRefused.lazyFeed_eq]
          exact .inr (congrArg Except.error hFault)
        have hPos := List.length_pos_iff.mpr ha
        rw [List.length_append] at hTurns ⊢
        rw [hRun, Format.lazyFeed_append_of hFeed]
        rcases ih (by omega) hTracks₁ hAt₁ with ⟨hLong, hRest⟩ | hRest
        · exact .inl ⟨by omega, hRest⟩
        · rw [hCalls₁] at hRest
          exact .inr hRest.append

/-- One call of `ReceiveMessage` does what the lazy decoder does with its argument, unless a
copy is too long for `memcpy_s`. -/
theorem receiveMessage_spec {order : Endian} {handler : TcpMessageHandler} {mode : Mode UInt8}
    (chunk : Bytes) (hTracks : Tracks order handler mode) :
    (securecMemMaxLen < chunk.length ∧ receiveMessage order handler chunk = .error copyTooLong) ∨
    Follows order [] (receiveMessage order handler chunk)
      ((frameFormat order).lazyFeed mode chunk) := by
  have hAt : At chunk ⟨handler, 0, chunk.length, []⟩ chunk := ⟨rfl, fun _ => rfl⟩
  exact receiveLoop_spec chunk.length (le_refl _) hTracks hAt

theorem receiveMessage_follows {order : Endian} {handler : TcpMessageHandler} {mode : Mode UInt8}
    {chunk : Bytes} (hTracks : Tracks order handler mode)
    (hMax : chunk.length ≤ securecMemMaxLen) :
    Follows order [] (receiveMessage order handler chunk)
      ((frameFormat order).lazyFeed mode chunk) := by
  rcases receiveMessage_spec chunk hTracks with ⟨hLong, _⟩ | h
  · omega
  · exact h

theorem receiveChunks_cons {order : Endian} {handler handler₁ : TcpMessageHandler} {chunk : Bytes}
    {calls : List MessageReceive} (chunks : List Bytes)
    (h : receiveMessage order handler chunk = .ok (handler₁, calls)) :
    receiveChunks order handler (chunk :: chunks) =
      (receiveChunks order handler₁ chunks).map fun later => (later.1, calls ++ later.2) := by
  rw [receiveChunks, h]
  cases hRest : receiveChunks order handler₁ chunks <;> simp [bind, Except.bind, Except.map, hRest]

theorem receiveChunks_cons_error {order : Endian} {handler : TcpMessageHandler} {chunk : Bytes}
    {fault : Fault} (chunks : List Bytes)
    (h : receiveMessage order handler chunk = .error fault) :
    receiveChunks order handler (chunk :: chunks) = .error fault := by
  rw [receiveChunks, h]
  rfl

/-- A sequence of calls does what the lazy decoder does with the concatenation. -/
theorem receiveChunks_spec {order : Endian} {handler : TcpMessageHandler} {mode : Mode UInt8}
    (chunks : List Bytes) (hTracks : Tracks order handler mode) :
    ((∃ chunk ∈ chunks, securecMemMaxLen < chunk.length) ∧
      receiveChunks order handler chunks = .error copyTooLong) ∨
    Follows order [] (receiveChunks order handler chunks)
      ((frameFormat order).lazyFeed mode chunks.flatten) := by
  induction chunks generalizing handler mode with
  | nil => exact .inr ⟨handler, rfl, hTracks⟩
  | cons chunk chunks ih =>
    rw [List.flatten_cons]
    rcases receiveMessage_spec chunk hTracks with ⟨hLong, hRun⟩ | hChunk
    · exact .inl ⟨⟨chunk, List.mem_cons_self, hLong⟩, receiveChunks_cons_error chunks hRun⟩
    cases hFeed : (frameFormat order).lazyFeed mode chunk with
    | error stop =>
      rw [hFeed] at hChunk
      rw [Format.lazyFeed_append_of_error hFeed]
      exact .inr (receiveChunks_cons_error chunks hChunk)
    | ok first =>
      rw [hFeed] at hChunk
      obtain ⟨handler₁, hRun₁, hTracks₁⟩ := hChunk
      rw [receiveChunks_cons chunks hRun₁, Format.lazyFeed_append_of hFeed]
      rcases ih hTracks₁ with ⟨⟨long, hMem, hLong⟩, hRest⟩ | hRest
      · exact .inl ⟨⟨long, List.mem_cons_of_mem _ hMem, hLong⟩, by rw [hRest]; rfl⟩
      right
      cases hLater : (frameFormat order).lazyFeed first.2 chunks.flatten with
      | error stop =>
        rw [hLater] at hRest
        rw [show receiveChunks order handler₁ chunks = .error (stopFault stop) from hRest]
        rfl
      | ok later =>
        rw [hLater] at hRest
        obtain ⟨handler₂, hRun₂, hTracks₂⟩ := hRest
        rw [hRun₂]
        exact ⟨handler₂, by rw [List.map_append]; rfl, hTracks₂⟩

theorem receiveChunks_follows {order : Endian} {handler : TcpMessageHandler} {mode : Mode UInt8}
    {chunks : List Bytes} (hTracks : Tracks order handler mode)
    (hMax : ∀ chunk ∈ chunks, chunk.length ≤ securecMemMaxLen) :
    Follows order [] (receiveChunks order handler chunks)
      ((frameFormat order).lazyFeed mode chunks.flatten) := by
  rcases receiveChunks_spec chunks hTracks with ⟨⟨chunk, hMem, hLong⟩, _⟩ | h
  · have hLe := hMax chunk hMem
    omega
  · exact h

end TcpMessageHandler

end PsRpc
