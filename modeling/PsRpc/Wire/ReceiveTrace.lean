import Mathlib.Data.List.TakeWhile
import PsRpc.Wire.StreamRefinement

/-! # The accesses of `ReceiveMessage`

The trace of a call lists the values that `header_index_` takes, the writes to `header_`, the
copies to `message_buffer_` and the callback invocations, in their order and up to the fault
if there is one. It is read off the states that the embedded functions go through. The parser
stays inside of its arrays exactly on the streams on which the lazy decoder does not overrun
a header, and it hands out slices that lie inside of the frame exactly for headers whose meta
length is not greater than the whole length.
-/

namespace PsRpc

open ByteOrder Framing

/-- `header_index_` gets a value, `header_` is written, `memcpy_s` writes `copyLen` bytes behind
`last_copy_len_` in `message_buffer_`, or the callback is called. -/
inductive Access where
  | headerIndex (value : Int)
  | header (index : Int)
  | messageBuffer (lastCopyLen copyLen size : Nat) (messageLength : UInt64)
  | callback (call : MessageReceive)
deriving DecidableEq, Repr

/-- The bounds of `header_index_`, of `header_` and of `message_buffer_`, whose size is the
length that the current header declares. -/
def Access.InBounds : Access → Prop
  | .headerIndex value => -1 ≤ value ∧ value ≤ 15
  | .header index => 0 ≤ index ∧ index ≤ 15
  | .messageBuffer lastCopyLen copyLen size messageLength =>
    lastCopyLen + copyLen ≤ messageLength.toNat ∧ size = messageLength.toNat
  | .callback _ => True

instance : DecidablePred Access.InBounds := fun access => by
  cases access <;> unfold Access.InBounds <;> infer_instance

def Access.call : Access → Option MessageReceive
  | .callback call => some call
  | _ => none

namespace TcpMessageHandler

/-- The accesses of `readHeader`, whose turns are taken one by one. -/
def headerAccesses (order : Endian) (buffer : Bytes) : Nat → Nat → ReceiveState → List Access
  | 0, _, _ => []
  | turns + 1, i, s =>
    if s.num = 0 then []
    else
      .headerIndex (s.handler.headerIndex + 1) :: .header (s.handler.headerIndex + 1) ::
        match readHeader order buffer 1 i s with
        | .ok s' =>
          if s.handler.headerIndex + 1 = kHeaderLen - 1 then []
          else headerAccesses order buffer turns (i + 1) s'
        | .error _ => []

def copyAccesses (buffer : Bytes) (s : ReceiveState) : List Access :=
  match s.handler.messageBuffer with
  | some block =>
    .messageBuffer s.handler.lastCopyLen
        (if s.handler.remainingLength ≤ s.num then s.handler.remainingLength else s.num)
        block.size s.handler.messageHeader.messageLength ::
      match copyBody buffer s with
      | .ok s' =>
        (s'.calls.drop s.calls.length).map .callback ++ [.headerIndex s'.handler.headerIndex]
      | .error _ => []
  | none => []

def bodyAccesses (buffer : Bytes) : Except Raised ReceiveState → List Access
  | .ok s => if 0 < s.handler.remainingLength ∧ 0 < s.num then copyAccesses buffer s else []
  | .error _ => []

def turnAccesses (order : Endian) (buffer : Bytes) (s : ReceiveState) : List Access :=
  if s.handler.remainingLength = 0 then
    headerAccesses order buffer kHeaderLen 0 s ++
      bodyAccesses buffer (readHeader order buffer kHeaderLen 0 s)
  else bodyAccesses buffer (.ok s)

def loopAccesses (order : Endian) (buffer : Bytes) : Nat → ReceiveState → List Access
  | 0, _ => []
  | turns + 1, s =>
    if 0 < s.num then
      turnAccesses order buffer s ++
        match receiveTurn order buffer s with
        | .ok s' => loopAccesses order buffer turns s'
        | .error _ => []
    else []

def messageAccesses (order : Endian) (handler : TcpMessageHandler) (buffer : Bytes) :
    List Access :=
  loopAccesses order buffer buffer.length ⟨handler, 0, buffer.length, []⟩

def chunkAccesses (order : Endian) : TcpMessageHandler → List Bytes → List Access
  | _, [] => []
  | handler, chunk :: chunks =>
    messageAccesses order handler chunk ++
      match receiveMessage order handler chunk with
      | .ok (handler', _) => chunkAccesses order handler' chunks
      | .error _ => []

/-- Accesses inside of the arrays, with the calls among them. -/
structure Sound (accesses : List Access) (calls : List MessageReceive) : Prop where
  inBounds : ∀ access ∈ accesses, access.InBounds
  calls_eq : accesses.filterMap Access.call = calls

theorem Sound.nil : Sound [] [] := ⟨by simp, rfl⟩

theorem Sound.append {xs ys : List Access} {calls later : List MessageReceive}
    (hx : Sound xs calls) (hy : Sound ys later) : Sound (xs ++ ys) (calls ++ later) := by
  constructor
  · rw [List.forall_mem_append]
    exact ⟨hx.inBounds, hy.inBounds⟩
  · rw [List.filterMap_append, hx.calls_eq, hy.calls_eq]

theorem Sound.cons {access : Access} {xs : List Access} {calls : List MessageReceive}
    (hBounds : access.InBounds) (hCall : access.call = none) (h : Sound xs calls) :
    Sound (access :: xs) calls := by
  constructor
  · rw [List.forall_mem_cons]
    exact ⟨hBounds, h.inBounds⟩
  · rw [List.filterMap_cons_none hCall, h.calls_eq]

theorem Sound.callbacks (calls : List MessageReceive) : Sound (calls.map .callback) calls := by
  constructor
  · intro access hAccess
    obtain ⟨call, _, rfl⟩ := List.mem_map.mp hAccess
    trivial
  · rw [List.filterMap_map]
    exact List.filterMap_some

theorem Tracks.index_bounds {order : Endian} {handler : TcpMessageHandler} {mode : Mode UInt8}
    (h : Tracks order handler mode) : -1 ≤ handler.headerIndex ∧ handler.headerIndex ≤ 15 := by
  cases mode with
  | jammed => rw [h.index]; decide
  | reading p =>
    rcases h with hHeader | ⟨body, _, hBody⟩
    · have hShort := hHeader.short
      rw [hHeader.index]
      change p.length < 16 at hShort
      omega
    · rw [hBody.index]
      decide

/-! ## One turn -/

theorem headerAccesses_sound {order : Endian} {buffer : Bytes} (turns i : Nat) (s : ReceiveState)
    (p xs : Bytes) (hReading : ReadingHeader s.handler p) (hNum : s.num = xs.length)
    (hPointer : xs ≠ [] → buffer.drop (s.bufferData + i) = xs) :
    Sound (headerAccesses order buffer turns i s) [] := by
  induction turns generalizing i s p xs with
  | zero => exact .nil
  | succ turns ih =>
    rw [headerAccesses]
    cases xs with
    | nil =>
      rw [List.length_nil] at hNum
      rw [if_pos hNum]
      exact .nil
    | cons x xs =>
      have hDrop := hPointer (by simp)
      have hShort := hReading.short
      have hIndex : s.handler.headerIndex + 1 = (p.length : Int) := by rw [hReading.index]; omega
      have hBound : p.length < 16 := hShort
      have hPos : ¬ s.num = 0 := by rw [hNum]; simp
      have hLast : (p.length : Int) = (kHeaderLen : Int) - 1 ↔ p.length + 1 = kHeaderLen := by omega
      rw [if_neg hPos, hIndex]
      refine .cons ⟨by omega, by omega⟩ rfl (.cons ⟨by omega, by omega⟩ rfl ?_)
      rw [readHeader_succ hReading hNum hDrop]
      simp only [hLast]
      by_cases hFull : p.length + 1 = kHeaderLen
      · simp only [if_pos hFull]
        split <;> exact .nil
      · simp only [if_neg hFull, readHeader]
        refine ih (i + 1) _ (p ++ [x]) xs (hReading.push (by omega) x) ?_ fun _ => ?_
        · change s.num - 1 = xs.length
          rw [hNum, List.length_cons, Nat.add_sub_cancel]
        · change buffer.drop (s.bufferData + (i + 1)) = xs
          rw [← Nat.add_assoc, ← List.drop_drop, hDrop, List.drop_one, List.tail_cons]

theorem copyAccesses_sound {order : Endian} {buffer : Bytes} {s : ReceiveState} {body xs : Bytes}
    (hReading : ReadingBody order s.handler body) (hAt : At buffer s xs) (hxs : xs ≠ []) :
    ((∃ raised, copyBody buffer s = .error raised) → Sound (copyAccesses buffer s) []) ∧
    ∀ s' new mode, copyBody buffer s = .ok s' → Tracks order s'.handler mode →
      s'.calls = s.calls ++ new → Sound (copyAccesses buffer s) new := by
  obtain ⟨a, b, rfl, hCopy⟩ := @exists_toCopy order s body xs hReading hxs
  have hAccess : Access.InBounds (.messageBuffer s.handler.lastCopyLen
      (if s.handler.remainingLength ≤ s.num then s.handler.remainingLength else s.num)
      s.handler.messageHeader.messageLength.toNat s.handler.messageHeader.messageLength) := by
    have hTotal := hReading.total
    have hLe := hCopy.le
    rw [hCopy.copyLen_eq hAt, hReading.copied]
    exact ⟨by omega, rfl⟩
  simp only [copyAccesses, hReading.block]
  constructor
  · rintro ⟨raised, hRun⟩
    rw [hRun]
    exact .cons hAccess rfl .nil
  · intro s' new mode hRun hTracks hCalls
    rw [hRun]
    simp only [hCalls, List.drop_left]
    refine .cons hAccess rfl ?_
    have hIndex : Sound [.headerIndex s'.handler.headerIndex] [] :=
      .cons hTracks.index_bounds rfl .nil
    have hAll := (Sound.callbacks new).append hIndex
    rwa [List.append_nil] at hAll

theorem bodyAccesses_sound {order : Endian} {buffer : Bytes} {s : ReceiveState}
    {mode : Mode UInt8} {xs : Bytes} (hTracks : Tracks order s.handler mode)
    (hAt : At buffer s xs) :
    let result := if 0 < s.handler.remainingLength ∧ 0 < s.num then copyBody buffer s else .ok s
    ((∃ raised, result = .error raised) → Sound (bodyAccesses buffer (.ok s)) []) ∧
    ∀ s' new mode, result = .ok s' → Tracks order s'.handler mode → s'.calls = s.calls ++ new →
      Sound (bodyAccesses buffer (.ok s)) new := by
  intro result
  by_cases hCopy : 0 < s.handler.remainingLength ∧ 0 < s.num
  · have hxs : xs ≠ [] := List.length_pos_iff.mp (by rw [← hAt.num]; exact hCopy.2)
    have hRemaining := Nat.pos_iff_ne_zero.mp hCopy.1
    simp only [result, bodyAccesses, if_pos hCopy]
    cases mode with
    | jammed => exact absurd hTracks.remaining hRemaining
    | reading p =>
      rcases hTracks with hHeader | ⟨body, _, hBody⟩
      · exact absurd hHeader.remaining hRemaining
      · exact copyAccesses_sound hBody hAt hxs
  · simp only [result, bodyAccesses, if_neg hCopy]
    refine ⟨fun _ => .nil, ?_⟩
    intro s' new mode' hResult _ hCalls
    obtain rfl := Except.ok.inj hResult
    rw [List.self_eq_append_right.mp hCalls]
    exact .nil

theorem turnAccesses_sound {order : Endian} {buffer : Bytes} {s : ReceiveState} {p xs : Bytes}
    (hReading : Reading order s.handler p) (hAt : At buffer s xs) :
    ((∃ raised, receiveTurn order buffer s = .error raised) →
      Sound (turnAccesses order buffer s) []) ∧
    ∀ s' new mode, receiveTurn order buffer s = .ok s' → Tracks order s'.handler mode →
      s'.calls = s.calls ++ new → Sound (turnAccesses order buffer s) new := by
  by_cases hZero : s.handler.remainingLength = 0
  · rcases hReading with hHeader | ⟨body, rfl, hBody⟩
    · have hHead := @headerAccesses_sound order buffer kHeaderLen 0 s p xs hHeader hAt.num
        hAt.pointer
      rcases @readHeader_spec order buffer kHeaderLen 0 s p xs hHeader hAt.num hAt.pointer
          (by omega) with
        ⟨raised, hRun, _⟩ | ⟨a, b, s₁, mode₁, rfl, _, hRun, hAt₁, hCalls₁, _, hTracks₁⟩
      · simp only [receiveTurn, turnAccesses, if_pos hZero, hRun, bind, Except.bind]
        refine ⟨fun _ => hHead.append .nil, ?_⟩
        intro s' new mode hResult
        cases hResult
      have hBody := bodyAccesses_sound hTracks₁ hAt₁
      simp only [receiveTurn, turnAccesses, if_pos hZero, hRun, bind, Except.bind]
      refine ⟨fun hError => hHead.append (hBody.1 hError), ?_⟩
      intro s' new mode hResult hTracks hCalls
      exact hHead.append (hBody.2 s' new mode hResult hTracks (by rw [hCalls, hCalls₁]))
    · exact absurd hBody.remaining_pos (by omega)
  · have hTracks : Tracks order s.handler (.reading p) := hReading
    simp only [receiveTurn, turnAccesses, if_neg hZero, bind, Except.bind]
    exact bodyAccesses_sound hTracks hAt

theorem turnAccesses_jammed {order : Endian} {buffer : Bytes} {s : ReceiveState} {xs : Bytes}
    (hJammed : Jammed s.handler) (hAt : At buffer s xs) (hxs : xs ≠ []) :
    (∃ access ∈ turnAccesses order buffer s, ¬ access.InBounds) ∧
      (turnAccesses order buffer s).filterMap Access.call = [] := by
  have hPos : ¬ s.num = 0 := by
    rw [hAt.num]
    exact List.length_pos_iff.mpr hxs |>.ne'
  have hIndex : s.handler.headerIndex + 1 = (kHeaderLen : Int) := by rw [hJammed.index]; omega
  have hError (turns : Nat) :
      readHeader order buffer (turns + 1) 0 s = .error ⟨headerOverrun, s⟩ :=
    readHeader_jammed hJammed hAt hxs turns
  have hTrace : turnAccesses order buffer s = [.headerIndex kHeaderLen, .header kHeaderLen] := by
    rw [turnAccesses, if_pos hJammed.remaining, show kHeaderLen = 15 + 1 from rfl, headerAccesses,
      if_neg hPos, hError 0, hError 15, hIndex]
    rfl
  rw [hTrace]
  exact ⟨⟨.header kHeaderLen, by simp, by decide⟩, rfl⟩

/-! ## Whole runs -/

/-- The accesses of a run on `xs` that starts in a state that tracks `mode`: inside of the arrays
exactly if the lazy decoder does not overrun a header, with the calls of the frames that it hands
out. A copy too long for `memcpy_s` ends the run before. -/
def Observes {α : Type} (order : Endian) (mode : Mode UInt8) (xs : Bytes) (accesses : List Access)
    (result : Except Fault α) : Prop :=
  (result = .error copyTooLong ∧ (∀ access ∈ accesses, access.InBounds) ∧
    accesses.filterMap Access.call <+:
      ((frameFormat order).handedOut mode xs).map (frameCall order)) ∨
  (result ≠ .error copyTooLong ∧
    ((∀ access ∈ accesses, access.InBounds) ↔
      (frameFormat order).lazyFeed mode xs ≠ .error .overrun) ∧
    accesses.filterMap Access.call = ((frameFormat order).handedOut mode xs).map (frameCall order))

theorem stopFault_ne_copyTooLong (stop : Stop) : stopFault stop ≠ copyTooLong := by
  cases stop with
  | overrun => simp [stopFault, headerOverrun, copyTooLong, memcpyError]
  | refused => decide

section Observes

variable {α β : Type} {order : Endian} {mode mode' : Mode UInt8} {p a b : Bytes}
  {accesses later : List Access} {fs : List Bytes} {result : Except Fault α}
  {rest : Except Fault β}

theorem Observes.nil (h : result ≠ .error copyTooLong) : Observes order mode [] [] result :=
  .inr ⟨h, by simp, rfl⟩

theorem Observes.append (hSound : Sound accesses (fs.map (frameCall order)))
    (hFeed : (frameFormat order).lazyFeed mode a = .ok (fs, mode'))
    (hLater : Observes order mode' b later rest)
    (hResult : result = .error copyTooLong ↔ rest = .error copyTooLong) :
    Observes order mode (a ++ b) (accesses ++ later) result := by
  rw [Observes, Format.handedOut_append hFeed, List.filterMap_append, hSound.calls_eq,
    List.map_append, List.prefix_append_right_inj, List.append_cancel_left_eq,
    Format.lazyFeed_append_of hFeed, List.forall_mem_append, ne_eq, hResult]
  rcases hLater with ⟨hTooLong, hBounds, hCalls⟩ | ⟨hOther, hBounds, hCalls⟩
  · exact .inl ⟨hTooLong, ⟨hSound.inBounds, hBounds⟩, hCalls⟩
  · refine .inr ⟨hOther, ?_, hCalls⟩
    rw [hBounds, and_iff_right hSound.inBounds]
    cases (frameFormat order).lazyFeed mode' b <;> simp [Except.map]

theorem Observes.too_long (hSound : Sound accesses []) (hResult : result = .error copyTooLong) :
    Observes order mode a accesses result :=
  .inl ⟨hResult, hSound.inBounds, by rw [hSound.calls_eq]; exact List.nil_prefix⟩

theorem Observes.refused (hSound : Sound accesses []) (hRefused : Refused order p a)
    (hResult : result = .error outOfRoom) : Observes order (.reading p) a accesses result := by
  refine .inr ⟨?_, iff_of_true hSound.inBounds (by rw [hRefused.lazyFeed_eq]; simp), ?_⟩
  · rw [hResult]
    exact fun h => stopFault_ne_copyTooLong .refused (Except.error.inj h)
  · rw [hSound.calls_eq, hRefused.handedOut_eq, List.map_nil]

theorem Observes.overrun (ha : a ≠ []) (hAccess : ∃ access ∈ accesses, ¬ access.InBounds)
    (hCalls : accesses.filterMap Access.call = []) (hResult : result = .error headerOverrun) :
    Observes order .jammed a accesses result := by
  refine .inr ⟨?_, iff_of_false ?_ ?_, ?_⟩
  · rw [hResult]
    exact fun h => stopFault_ne_copyTooLong .overrun (Except.error.inj h)
  · obtain ⟨access, hMem, hOut⟩ := hAccess
    exact fun h => hOut (h access hMem)
  · rw [Format.lazyFeed_jammed ha]
    exact fun h => h rfl
  · rw [hCalls, Format.handedOut_jammed, List.map_nil]

end Observes

theorem loopAccesses_observes {order : Endian} {buffer : Bytes} (turns : Nat) {s : ReceiveState}
    {mode : Mode UInt8} {xs : Bytes} (hTurns : xs.length ≤ turns)
    (hTracks : Tracks order s.handler mode) (hAt : At buffer s xs) :
    Observes order mode xs (loopAccesses order buffer turns s)
      (returned (receiveLoop order buffer turns s)) := by
  induction turns generalizing s mode xs with
  | zero =>
    obtain rfl : xs = [] := List.length_eq_zero_iff.mp (by omega)
    exact .nil (by simp [receiveLoop, returned])
  | succ turns ih =>
    rw [loopAccesses, receiveLoop]
    by_cases hxs : xs = []
    · subst hxs
      have hNum : ¬ 0 < s.num := by rw [hAt.num]; simp
      rw [if_neg hNum, if_neg hNum]
      exact .nil (by simp [returned])
    · have hNum : 0 < s.num := by rw [hAt.num]; exact List.length_pos_iff.mpr hxs
      rw [if_pos hNum, if_pos hNum]
      cases mode with
      | jammed =>
        obtain ⟨hAccess, hCalls⟩ := @turnAccesses_jammed order buffer s xs hTracks hAt hxs
        rw [receiveTurn_jammed hTracks hAt hxs]
        simp only [List.append_nil]
        exact .overrun hxs hAccess hCalls rfl
      | reading p =>
        have hSound := turnAccesses_sound hTracks hAt
        rcases receiveTurn_spec hTracks hAt hxs with
          ⟨raised, hRun, hInterrupted⟩ |
          ⟨a, b, s₁, fs, mode, rfl, ha, hRun, hAt₁, hFeed, hTracks₁, hCalls₁⟩
        · have hBefore := hSound.1 ⟨raised, hRun⟩
          rw [hRun]
          simp only [List.append_nil]
          rcases hInterrupted with ⟨hFault, _⟩ | ⟨hFault, hRefused⟩
          · exact .too_long hBefore (congrArg Except.error hFault)
          · exact .refused hBefore hRefused (congrArg Except.error hFault)
        · have hPos := List.length_pos_iff.mpr ha
          rw [List.length_append] at hTurns
          rw [hRun]
          exact .append (hSound.2 s₁ _ mode hRun hTracks₁ hCalls₁) hFeed
            (ih (by omega) hTracks₁ hAt₁) Iff.rfl

theorem messageAccesses_observes {order : Endian} {handler : TcpMessageHandler}
    {mode : Mode UInt8} (chunk : Bytes) (hTracks : Tracks order handler mode) :
    Observes order mode chunk (messageAccesses order handler chunk)
      (receiveMessage order handler chunk) := by
  have hAt : At chunk ⟨handler, 0, chunk.length, []⟩ chunk := ⟨rfl, fun _ => rfl⟩
  exact loopAccesses_observes chunk.length (le_refl _) hTracks hAt

theorem chunkAccesses_observes {order : Endian} {handler : TcpMessageHandler} {mode : Mode UInt8}
    (chunks : List Bytes) (hTracks : Tracks order handler mode) :
    Observes order mode chunks.flatten (chunkAccesses order handler chunks)
      (receiveChunks order handler chunks) := by
  induction chunks generalizing handler mode with
  | nil => exact .nil (by simp [receiveChunks])
  | cons chunk chunks ih =>
    have hHead := messageAccesses_observes chunk hTracks
    rw [chunkAccesses, List.flatten_cons]
    rcases receiveMessage_spec chunk hTracks with ⟨_, hRun⟩ | hFollows
    · rw [receiveChunks_cons_error chunks hRun]
      simp only [hRun, List.append_nil]
      rcases hHead with ⟨_, hBounds, hCalls⟩ | ⟨hOther, _⟩
      · have hMore := Format.handedOut_isPrefix_append (F := frameFormat order) mode chunk
          chunks.flatten
        exact .inl ⟨rfl, hBounds, hCalls.trans (hMore.map (frameCall order))⟩
      · exact absurd hRun hOther
    cases hFeed : (frameFormat order).lazyFeed mode chunk with
    | error stop =>
      rw [hFeed] at hFollows
      have hRun : receiveMessage order handler chunk = .error (stopFault stop) := hFollows
      rw [receiveChunks_cons_error chunks hRun]
      simp only [hRun, List.append_nil]
      rw [hRun, Observes, hFeed] at hHead
      rw [Observes, Format.handedOut_append_of_error hFeed, Format.lazyFeed_append_of_error hFeed]
      exact hHead
    | ok first =>
      rw [hFeed] at hFollows
      obtain ⟨handler₁, hRun, hTracks₁⟩ := hFollows
      have hSound : Sound (messageAccesses order handler chunk)
          (first.1.map (frameCall order)) := by
        rcases hHead with ⟨hTooLong, _⟩ | ⟨_, hBounds, hCalls⟩
        · rw [hRun] at hTooLong
          cases hTooLong
        · refine ⟨hBounds.mpr (by rw [hFeed]; simp), ?_⟩
          rw [hCalls, Format.handedOut_of_lazyFeed hFeed]
      rw [receiveChunks_cons chunks hRun]
      simp only [hRun]
      refine .append hSound hFeed (ih hTracks₁) ?_
      cases receiveChunks order handler₁ chunks <;> simp [Except.map]

theorem receiveChunks_ne_tooLong {order : Endian} {handler : TcpMessageHandler}
    {mode : Mode UInt8} {chunks : List Bytes} (hTracks : Tracks order handler mode)
    (hMax : ∀ chunk ∈ chunks, chunk.length ≤ securecMemMaxLen) :
    receiveChunks order handler chunks ≠ .error copyTooLong := by
  have hFollows := receiveChunks_follows hTracks hMax
  cases hFeed : (frameFormat order).lazyFeed mode chunks.flatten with
  | error stop =>
    rw [hFeed] at hFollows
    rw [show receiveChunks order handler chunks = .error (stopFault stop) from hFollows]
    exact fun h => stopFault_ne_copyTooLong stop (Except.error.inj h)
  | ok later =>
    rw [hFeed] at hFollows
    obtain ⟨handler', hRun, _⟩ := hFollows
    rw [hRun]
    simp

end TcpMessageHandler

open TcpMessageHandler

/-! ## Bounds of the arrays -/

/-- The parser stays inside of its arrays if no header that declares an empty body is followed by
a further byte, and for calls that `memcpy_s` does not refuse only then. -/
theorem receive_in_bounds_iff (order : Endian) (junk : Vector UInt8 kHeaderLen)
    (chunks : List Bytes) :
    (NonzeroLengths order chunks.flatten.dropLast →
      ∀ access ∈ chunkAccesses order (new junk).setCallback chunks, access.InBounds) ∧
    ((∀ chunk ∈ chunks, chunk.length ≤ 2 ^ 31 - 1) →
      (∀ access ∈ chunkAccesses order (new junk).setCallback chunks, access.InBounds) →
      NonzeroLengths order chunks.flatten.dropLast) := by
  have hTracks := tracks_new order junk
  have hIff : (frameFormat order).lazyFeed (.reading []) chunks.flatten ≠ .error .overrun ↔
      NonzeroLengths order chunks.flatten.dropLast :=
    (Format.lazyFeed_ne_overrun_iff Format.admitted_nil).trans nonzeroLengths_iff.symm
  rw [← hIff]
  rcases chunkAccesses_observes chunks hTracks with ⟨hTooLong, hBounds, _⟩ | ⟨_, hBounds, _⟩
  · exact ⟨fun _ => hBounds, fun hMax => absurd hTooLong (receiveChunks_ne_tooLong hTracks hMax)⟩
  · exact ⟨hBounds.mpr, fun _ => hBounds.mp⟩

/-- Sixteen zero bytes declare an empty body, and one more byte is written behind `header_`. -/
theorem receive_out_of_bounds :
    ¬ ∀ access ∈ chunkAccesses .little (new (Vector.replicate 16 0)).setCallback
      [List.replicate 17 0], access.InBounds := by
  decide

/-! ## Slices of the frame -/

/-- The meta slice and the payload slice lie inside of the received frame, and the size of the
second is the difference of the lengths. -/
def MessageReceive.Inside (call : MessageReceive) : Prop :=
  call.metaLength.toNat ≤ call.buffer.length ∧
  call.metaLength.toNat + call.size.toNat ≤ call.buffer.length ∧
  (call.size.toNat : Int) = (call.buffer.length : Int) - (call.metaLength.toNat : Int)

instance (call : MessageReceive) : Decidable call.Inside :=
  inferInstanceAs (Decidable (_ ∧ _ ∧ _))

def bodiedFrames (order : Endian) (stream : Bytes) : List Bytes :=
  (completeFrames order stream).takeWhile fun frame => decide (kHeaderLen < frame.length)

theorem isFrame_of_mem_bodiedFrames {order : Endian} {stream frame : Bytes}
    (h : frame ∈ bodiedFrames order stream) : (frameFormat order).IsFrame frame :=
  isFrame_of_mem_completeFrames ((List.takeWhile_sublist _).subset h)

/-- The last byte of a stream completes at most one frame. -/
theorem completeFrames_concat (order : Endian) (init : Bytes) (last : UInt8) :
    completeFrames order (init ++ [last]) = completeFrames order init ∨
      ∃ frame, completeFrames order (init ++ [last]) = completeFrames order init ++ [frame] := by
  have hFeed := (frameFormat order).feed_append [] init [last]
  rw [completeFrames, completeFrames, hFeed, List.takeWhile_append]
  split
  · next hAll =>
    rw [(List.takeWhile_sublist _).eq_of_length hAll, Format.feed_cons, Format.push]
    split
    · simp only [Format.feed_nil, List.append_nil, List.takeWhile_cons, List.takeWhile_nil]
      split
      · exact .inr ⟨_, rfl⟩
      · exact .inl (List.append_nil _)
    · exact .inl (List.append_nil _)
  · exact .inl rfl

theorem mem_bodiedFrames {order : Endian} {stream frame : Bytes}
    (hLengths : NonzeroLengths order stream.dropLast) (hFrame : frame ∈ completeFrames order stream)
    (hBody : (frameHeader order frame).messageLength ≠ 0) : frame ∈ bodiedFrames order stream := by
  have hLong : kHeaderLen < frame.length :=
    (messageLength_ne_zero_iff (isFrame_of_mem_completeFrames hFrame)).mp hBody
  rcases List.eq_nil_or_concat stream with rfl | ⟨init, last, rfl⟩
  · cases hFrame
  rw [List.concat_eq_append] at hFrame hLengths ⊢
  rw [List.dropLast_concat, nonzeroLengths_iff] at hLengths
  have hInit : (completeFrames order init).takeWhile (fun f => decide (kHeaderLen < f.length)) =
      completeFrames order init :=
    List.takeWhile_eq_self_iff.mpr fun f hf => decide_eq_true (hLengths f hf)
  rcases completeFrames_concat order init last with hSame | ⟨g, hMore⟩
  · rw [hSame] at hFrame
    rw [bodiedFrames, hSame, hInit]
    exact hFrame
  · rw [hMore] at hFrame
    rw [bodiedFrames, hMore, List.takeWhile_append_of_pos fun f hf =>
      decide_eq_true (hLengths f hf)]
    rcases List.mem_append.mp hFrame with hOld | hNew
    · exact List.mem_append_left _ hOld
    · obtain rfl := List.mem_singleton.mp hNew
      rw [List.takeWhile_cons_of_pos (by simpa using hLong)]
      exact List.mem_append_right _ List.mem_cons_self

theorem messageLength_ne_zero_of_mem_bodiedFrames {order : Endian} {stream frame : Bytes}
    (h : frame ∈ bodiedFrames order stream) : (frameHeader order frame).messageLength ≠ 0 := by
  rw [messageLength_ne_zero_iff (isFrame_of_mem_bodiedFrames h)]
  have hBody := List.mem_takeWhile_imp h
  simpa using hBody

theorem frameCall_inside_iff {order : Endian} {frame : Bytes}
    (h : (frameFormat order).IsFrame frame) :
    (frameCall order frame).Inside ↔
      (frameHeader order frame).messageMetaLength.toNat ≤
        (frameHeader order frame).messageLength.toNat := by
  have hBuffer : (frameCall order frame).buffer.length =
      (frameHeader order frame).messageLength.toNat := by
    have hLen : frame.length = kHeaderLen + (frameHeader order frame).messageLength.toNat := h
    change (frame.drop kHeaderLen).length = _
    rw [List.length_drop]
    omega
  have hMeta : (frameCall order frame).metaLength =
      (frameHeader order frame).messageMetaLength := rfl
  rw [MessageReceive.Inside, hBuffer, hMeta]
  constructor
  · exact fun hInside => hInside.1
  · intro hLe
    have hSize : (frameCall order frame).size.toNat =
        (frameHeader order frame).messageLength.toNat -
          (frameHeader order frame).messageMetaLength.toNat := by
      change ((frameHeader order frame).messageLength -
        (frameHeader order frame).messageMetaLength.toUInt64).toNat = _
      rw [UInt64.toNat_sub_of_le, UInt32.toNat_toUInt64]
      rwa [UInt64.le_iff_toNat_le, UInt32.toNat_toUInt64]
    rw [hSize]
    omega

theorem callback_mem_iff {accesses : List Access} {call : MessageReceive} :
    .callback call ∈ accesses ↔ call ∈ accesses.filterMap Access.call := by
  rw [List.mem_filterMap]
  constructor
  · intro h
    exact ⟨_, h, rfl⟩
  · rintro ⟨access, hMem, hCall⟩
    cases access with
    | callback other =>
      obtain rfl := Option.some.inj hCall
      exact hMem
    | headerIndex => cases hCall
    | header => cases hCall
    | messageBuffer => cases hCall

/-- On a stream on which the parser stays inside of its arrays, every slice that is handed out lies
inside of its frame if every complete header declares a meta that is not longer than the frame, and
for calls that `memcpy_s` does not refuse only then. -/
theorem delivered_slices_inside_iff (order : Endian) (junk : Vector UInt8 kHeaderLen)
    (chunks : List Bytes) (hLengths : NonzeroLengths order chunks.flatten.dropLast) :
    ((∀ frame ∈ completeFrames order chunks.flatten, (frameHeader order frame).messageLength ≠ 0 →
        (frameHeader order frame).messageMetaLength.toNat ≤
          (frameHeader order frame).messageLength.toNat) →
      ∀ call, .callback call ∈ chunkAccesses order (new junk).setCallback chunks → call.Inside) ∧
    ((∀ chunk ∈ chunks, chunk.length ≤ 2 ^ 31 - 1) →
      (∀ call, .callback call ∈ chunkAccesses order (new junk).setCallback chunks → call.Inside) →
      ∀ frame ∈ completeFrames order chunks.flatten, (frameHeader order frame).messageLength ≠ 0 →
        (frameHeader order frame).messageMetaLength.toNat ≤
          (frameHeader order frame).messageLength.toNat) := by
  have hTracks := tracks_new order junk
  have hHanded : (frameFormat order).handedOut (.reading []) chunks.flatten =
      bodiedFrames order chunks.flatten :=
    Format.handedOut_eq_takeWhile Format.admitted_nil chunks.flatten
  have hObserves := chunkAccesses_observes chunks hTracks
  rw [Observes, hHanded] at hObserves
  constructor
  · intro hFits call hCall
    have hMem : call ∈ (bodiedFrames order chunks.flatten).map (frameCall order) := by
      rw [callback_mem_iff] at hCall
      rcases hObserves with ⟨_, _, hCalls⟩ | ⟨_, _, hCalls⟩
      · exact hCalls.subset hCall
      · rwa [hCalls] at hCall
    obtain ⟨frame, hFrame, rfl⟩ := List.mem_map.mp hMem
    rw [frameCall_inside_iff (isFrame_of_mem_bodiedFrames hFrame)]
    exact hFits frame ((List.takeWhile_sublist _).subset hFrame)
      (messageLength_ne_zero_of_mem_bodiedFrames hFrame)
  · intro hMax hInside frame hComplete hBody
    have hFrame := mem_bodiedFrames hLengths hComplete hBody
    rcases hObserves with ⟨hTooLong, _⟩ | ⟨_, _, hCalls⟩
    · exact absurd hTooLong (receiveChunks_ne_tooLong hTracks hMax)
    · rw [← frameCall_inside_iff (isFrame_of_mem_bodiedFrames hFrame)]
      apply hInside
      rw [callback_mem_iff, hCalls]
      exact List.mem_map_of_mem hFrame

def twoFrameChunks : List Bytes :=
  [[1, 0, 0, 0, 1, 0, 0, 0, 2, 0, 0, 0, 0, 0, 0, 0, 7, 8, 1, 0, 0],
    [0, 0, 0, 0, 0, 1, 0, 0, 0, 0, 0, 0, 0, 9]]

theorem delivered_slices_inside_two_frames :
    NonzeroLengths .little twoFrameChunks.flatten.dropLast ∧
      ∀ call, .callback call ∈
        chunkAccesses .little (new (Vector.replicate 16 0)).setCallback twoFrameChunks →
      call.Inside :=
  ⟨by decide, (delivered_slices_inside_iff .little (Vector.replicate 16 0) twoFrameChunks
    (by decide)).1 (by decide)⟩

/-- A frame of one byte whose header declares a meta of two: the size of the payload wraps. -/
theorem delivered_slices_outside :
    ¬ ∀ call, .callback call ∈ chunkAccesses .little (new (Vector.replicate 16 0)).setCallback
      [[1, 0, 0, 0, 2, 0, 0, 0, 1, 0, 0, 0, 0, 0, 0, 0, 7]] → call.Inside := by
  intro h
  have hCall : Access.callback ⟨[7], 2, Protos.protobuf, 0xffffffffffffffff⟩ ∈
      chunkAccesses .little (new (Vector.replicate 16 0)).setCallback
        [[1, 0, 0, 0, 2, 0, 0, 0, 1, 0, 0, 0, 0, 0, 0, 0, 7]] := by
    decide
  exact absurd (h _ hCall) (by decide)

end PsRpc
