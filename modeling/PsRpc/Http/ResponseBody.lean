import PsRpc.Wire.Message

/-! # The body of an HTTP response

`HttpClient` sizes the output vector when the headers are there, fills it chunk by chunk and cuts it
when the response is complete. libevent hands out the headers as they were sent and removes from its
buffer as many bytes as it is asked for. Memory that a vector needs is there.
-/

namespace PsRpc

/-- `std::vector<char>`; its memory is null as long as its capacity is zero. -/
structure CharVector where
  bytes : Bytes
  capacity : Nat
deriving DecidableEq, Repr

namespace CharVector

def maxSize : Nat := 2 ^ 63 - 1

def clear (vector : CharVector) : CharVector := { vector with bytes := [] }

/-- `what` is the text of the `length_error`. -/
def resize (what : String) (vector : CharVector) (size : Nat) : Except Fault CharVector :=
  if maxSize < size then .error (.exception what)
  else
    .ok ⟨vector.bytes.take size ++ List.replicate (size - vector.bytes.length) 0,
      max vector.capacity size⟩

end CharVector

structure Header where
  key : String
  value : String
deriving DecidableEq, Repr

def isSpace (c : Char) : Bool :=
  c = ' ' || c = '\t' || c = '\n' || c = Char.ofNat 11 || c = Char.ofNat 12 || c = '\r'

/-- `strtouq(text, nullptr, 10)`. -/
def strtouq (text : List Char) : Nat :=
  let (negative, rest) : Bool × List Char :=
    match text.dropWhile isSpace with
    | '-' :: rest => (true, rest)
    | '+' :: rest => (false, rest)
    | rest => (false, rest)
  let number := (rest.takeWhile Char.isDigit).foldl (fun n c => 10 * n + (c.toNat - 48)) 0
  if 2 ^ 64 ≤ number then 2 ^ 64 - 1
  else if negative then (2 ^ 64 - number) % 2 ^ 64
  else number

def kMessageChunkLength : Nat := 4096

structure HttpMessageHandler where
  body : CharVector
  contentLen : Nat := 0
  offset : Nat := 0
deriving DecidableEq, Repr

namespace HttpMessageHandler

def initBodySize (handler : HttpMessageHandler) : Except Fault HttpMessageHandler := do
  let body ← handler.body.resize "vector::_M_fill_insert" ((handler.contentLen + 1) % 2 ^ 64)
  .ok { handler with body := body }

/-- `memcpy_s` gets the number of bytes as the size of its destination too. -/
def receiveMessage (handler : HttpMessageHandler) (buffer : Bytes) :
    Except Fault HttpMessageHandler :=
  if handler.body.capacity = 0 then .error (memcpyError .einval)
  else
    match memcpyS buffer.length buffer.length with
    | .eok =>
      if handler.offset + buffer.length ≤ handler.body.bytes.length then
        .ok { handler with
          body := { handler.body with bytes := overwrite handler.body.bytes handler.offset buffer }
          offset := handler.offset + buffer.length }
      else .error (.outOfBounds "body_" (handler.offset + buffer.length))
    | ret => .error (memcpyError ret)

end HttpMessageHandler

namespace HttpClient

def readHeader (handler : HttpMessageHandler) (header : Header) :
    Except Fault HttpMessageHandler :=
  if header.key = "Content-Length" then
    HttpMessageHandler.initBodySize { handler with contentLen := strtouq header.value.toList }
  else .ok handler

def readHeaderDoneCallback (handler : HttpMessageHandler) (headers : List Header) :
    Except Fault HttpMessageHandler :=
  headers.foldlM readHeader handler

/-- The `while` loop over the buffer of the request. Every turn takes a byte at least. -/
def removeLoop : Nat → HttpMessageHandler → Bytes → Except Fault HttpMessageHandler
  | 0, handler, _ => .ok handler
  | turns + 1, handler, evbuf =>
    if evbuf = [] then .ok handler
    else do
      let handler ← handler.receiveMessage (evbuf.take kMessageChunkLength)
      removeLoop turns handler (evbuf.drop kMessageChunkLength)

def readChunkDataCallback (handler : HttpMessageHandler) (evbuf : Bytes) :
    Except Fault HttpMessageHandler :=
  removeLoop evbuf.length handler evbuf

def readCallback (handler : HttpMessageHandler) (bodySize : Nat) :
    Except Fault HttpMessageHandler := do
  let body ← handler.body.resize "vector::_M_default_append" bodySize
  .ok { handler with body := body }

end HttpClient

/-- A response: its headers, and what is in the buffer at each call of the chunk callback. A
content length is the length of the body, in whatever letters it is announced. -/
structure Response where
  headers : List Header
  chunks : List Bytes
  announced : ∀ header ∈ headers,
    header.key.toList.map Char.toLower = "content-length".toList →
      strtouq header.value.toList = chunks.flatten.length
  fits : chunks.flatten.length < CharVector.maxSize

/-- The callbacks that `Get` and `Post` run through, and the output vector behind them. -/
def Response.receive (response : Response) (output : CharVector) : Except Fault Bytes := do
  let handler : HttpMessageHandler := { body := output.clear }
  let handler ← HttpClient.readHeaderDoneCallback handler response.headers
  let handler ← response.chunks.foldlM HttpClient.readChunkDataCallback handler
  let handler ← HttpClient.readCallback handler response.chunks.flatten.length
  .ok handler.body.bytes

/-! ## Filling the vector -/

/-- The vector has `size` bytes, the first of which are those received so far. -/
structure HttpMessageHandler.Received (handler : HttpMessageHandler) (size : Nat)
    (received : Bytes) : Prop where
  offset_eq : handler.offset = received.length
  length_eq : handler.body.bytes.length = size
  take_eq : handler.body.bytes.take received.length = received
  capacity_le : size ≤ handler.body.capacity

/-- Bytes that fit are received, others are not. -/
def Fills (size : Nat) (received : Bytes) : Except Fault HttpMessageHandler → Prop
  | .ok handler => handler.Received size received
  | .error _ => size < received.length

namespace HttpMessageHandler

variable {handler : HttpMessageHandler} {size : Nat} {received more : Bytes}

theorem Received.length_le (h : handler.Received size received) : received.length ≤ size := by
  have hLength := congrArg List.length h.take_eq
  rw [List.length_take, h.length_eq] at hLength
  omega

theorem Received.overwrite_eq (h : handler.Received size received) (more : Bytes) :
    overwrite handler.body.bytes handler.offset more =
      received ++ more ++ handler.body.bytes.drop (received.length + more.length) := by
  have hLe := h.length_le
  rw [overwrite, h.offset_eq, h.take_eq, h.length_eq, Nat.sub_eq_zero_of_le hLe,
    List.replicate_zero, List.append_nil]

theorem Received.receiveMessage (h : handler.Received size received) (hMore : more ≠ [])
    (hPiece : more.length ≤ kMessageChunkLength) :
    Fills size (received ++ more) (handler.receiveMessage more) := by
  have hPos : 0 < more.length := List.length_pos_iff.mpr hMore
  have hCopy : memcpyS more.length more.length = .eok := by
    rw [memcpyS_self_eq_eok_iff]
    rw [kMessageChunkLength] at hPiece
    exact ⟨hPos, by rw [securecMemMaxLen]; omega⟩
  rw [HttpMessageHandler.receiveMessage]
  split
  · next hNull =>
    have hCapacity := h.capacity_le
    rw [Fills, List.length_append]
    omega
  · rw [hCopy]
    dsimp only
    rw [h.offset_eq, h.length_eq]
    split
    · next hFits =>
      have hWritten := h.overwrite_eq more
      rw [h.offset_eq] at hWritten
      refine ⟨by rw [List.length_append], ?_, ?_, h.capacity_le⟩
      · rw [hWritten, List.length_append, List.length_append, List.length_drop, h.length_eq]
        omega
      · rw [hWritten, List.take_left']
        rfl
    · next hLong =>
      rw [Fills, List.length_append]
      omega

end HttpMessageHandler

section Loops

variable {handler : HttpMessageHandler} {size : Nat} {received more : Bytes}

theorem Fills.bind {result : Except Fault HttpMessageHandler}
    {next : HttpMessageHandler → Except Fault HttpMessageHandler} (h : Fills size received result)
    (hNext : ∀ handler : HttpMessageHandler, handler.Received size received →
      Fills size (received ++ more) (next handler)) :
    Fills size (received ++ more) (result >>= next) := by
  cases result with
  | error fault =>
    have hLong : size < received.length := h
    change size < (received ++ more).length
    rw [List.length_append]
    omega
  | ok handler => exact hNext handler h

theorem fills_removeLoop (turns : Nat) {evbuf : Bytes} (hTurns : evbuf.length ≤ turns)
    (h : handler.Received size received) :
    Fills size (received ++ evbuf) (HttpClient.removeLoop turns handler evbuf) := by
  induction turns generalizing handler received evbuf with
  | zero =>
    rw [List.eq_nil_of_length_eq_zero (by omega : evbuf.length = 0), List.append_nil]
    exact h
  | succ turns ih =>
    rw [HttpClient.removeLoop]
    split
    · next hEmpty =>
      rw [hEmpty, List.append_nil]
      exact h
    · next hMore =>
      have hPos : 0 < evbuf.length := List.length_pos_iff.mpr hMore
      have hPiece : evbuf.take kMessageChunkLength ≠ [] := by
        rw [← List.length_pos_iff, List.length_take, kMessageChunkLength]
        omega
      have hSplit : received ++ evbuf =
          received ++ evbuf.take kMessageChunkLength ++ evbuf.drop kMessageChunkLength := by
        rw [List.append_assoc, List.take_append_drop]
      rw [hSplit]
      refine (h.receiveMessage hPiece (List.length_take_le _ _)).bind ?_
      intro handler hReceived
      apply ih ?_ hReceived
      rw [List.length_drop, kMessageChunkLength]
      omega

theorem fills_chunks (chunks : List Bytes) (h : handler.Received size received) :
    Fills size (received ++ chunks.flatten)
      (chunks.foldlM HttpClient.readChunkDataCallback handler) := by
  induction chunks generalizing handler received with
  | nil =>
    rw [List.flatten_nil, List.append_nil]
    exact h
  | cons chunk chunks ih =>
    rw [List.foldlM_cons, List.flatten_cons, ← List.append_assoc]
    refine (fills_removeLoop chunk.length (le_refl _) h).bind ?_
    intro handler hReceived
    exact ih hReceived

end Loops

/-! ## The headers -/

def announcedSize (headers : List Header) (total size : Nat) : Nat :=
  if headers.any (·.key = "Content-Length") then total + 1 else size

theorem readHeader_received {handler : HttpMessageHandler} {header : Header} {size total : Nat}
    (h : handler.Received size []) (hFits : total < CharVector.maxSize)
    (hTotal : header.key = "Content-Length" → strtouq header.value.toList = total) :
    ∃ handler', HttpClient.readHeader handler header = .ok handler' ∧
      handler'.Received (if header.key = "Content-Length" then total + 1 else size) [] := by
  rw [HttpClient.readHeader]
  split
  · next hKey =>
    have hSize : (total + 1) % 2 ^ 64 = total + 1 := by
      rw [CharVector.maxSize] at hFits
      omega
    rw [HttpMessageHandler.initBodySize, hTotal hKey]
    dsimp only
    rw [hSize, CharVector.resize, if_neg (by omega)]
    refine ⟨_, rfl, h.offset_eq, ?_, List.take_zero, le_max_right _ _⟩
    rw [List.length_append, List.length_take, List.length_replicate]
    omega
  · exact ⟨handler, rfl, h⟩

theorem readHeaders_received {headers : List Header} {handler : HttpMessageHandler}
    {size total : Nat} (h : handler.Received size []) (hFits : total < CharVector.maxSize)
    (hTotal : ∀ header ∈ headers, header.key = "Content-Length" →
      strtouq header.value.toList = total) :
    ∃ handler', HttpClient.readHeaderDoneCallback handler headers = .ok handler' ∧
      handler'.Received (announcedSize headers total size) [] := by
  induction headers generalizing handler size with
  | nil => exact ⟨handler, rfl, h⟩
  | cons header headers ih =>
    obtain ⟨hHead, hTail⟩ := List.forall_mem_cons.mp hTotal
    obtain ⟨handler₁, hFirst, hReceived⟩ := readHeader_received h hFits hHead
    obtain ⟨handler₂, hRest, hReceived⟩ := ih hReceived hTail
    refine ⟨handler₂, ?_, ?_⟩
    · rw [HttpClient.readHeaderDoneCallback, List.foldlM_cons, hFirst]
      exact hRest
    · have hSize : announcedSize headers total
          (if header.key = "Content-Length" then total + 1 else size) =
            announcedSize (header :: headers) total size := by
        simp only [announcedSize, List.any_cons]
        by_cases hKey : header.key = "Content-Length" <;> simp [hKey]
      rwa [hSize] at hReceived

namespace Response

variable (response : Response)

def Spelled : Prop := ∃ header ∈ response.headers, header.key = "Content-Length"

def size : Nat := announcedSize response.headers response.chunks.flatten.length 0

theorem total_of_spelled {header : Header} (hMem : header ∈ response.headers)
    (hKey : header.key = "Content-Length") :
    strtouq header.value.toList = response.chunks.flatten.length := by
  apply response.announced header hMem
  rw [hKey]
  decide

/-- The size suffices if the length is announced in the right letters, or if there is no body. -/
theorem length_le_size_iff :
    response.chunks.flatten.length ≤ response.size ↔
      response.chunks.flatten = [] ∨ response.Spelled := by
  have hAny : response.headers.any (·.key = "Content-Length") = true ↔ response.Spelled := by
    simp only [List.any_eq_true, decide_eq_true_eq, Spelled]
  rw [size, announcedSize]
  split
  · next hSpelled => simp [hAny.mp hSpelled]
  · next hNot =>
    rw [hAny] at hNot
    rw [Nat.le_zero, List.length_eq_zero_iff]
    exact (or_iff_left hNot).symm

theorem receive_eq (output : CharVector) :
    ∃ handler, HttpClient.readHeaderDoneCallback { body := output.clear } response.headers =
        .ok handler ∧
      Fills response.size response.chunks.flatten
        (response.chunks.foldlM HttpClient.readChunkDataCallback handler) := by
  have hEmpty : HttpMessageHandler.Received { body := output.clear } 0 [] :=
    ⟨rfl, rfl, rfl, Nat.zero_le _⟩
  obtain ⟨handler, hHeaders, hReceived⟩ := readHeaders_received hEmpty response.fits
    fun header hMem hKey => response.total_of_spelled hMem hKey
  exact ⟨handler, hHeaders, fills_chunks response.chunks hReceived⟩

theorem readCallback_received {handler : HttpMessageHandler}
    (h : handler.Received response.size response.chunks.flatten) :
    ∃ handler', HttpClient.readCallback handler response.chunks.flatten.length = .ok handler' ∧
      handler'.body.bytes = response.chunks.flatten := by
  have hFits := response.fits
  rw [HttpClient.readCallback, CharVector.resize, if_neg (by omega)]
  refine ⟨_, rfl, ?_⟩
  rw [h.take_eq, h.length_eq, Nat.sub_eq_zero_of_le h.length_le]
  exact List.append_nil _

end Response

/-- The output is the body, and every write stays inside of the vector, if and only if the response
has no body or announces its length under the name `Content-Length`, in these letters. -/
theorem response_body_iff (response : Response) (output : CharVector) :
    response.receive output = .ok response.chunks.flatten ↔
      response.chunks.flatten = [] ∨
        ∃ header ∈ response.headers, header.key = "Content-Length" := by
  obtain ⟨handler, hHeaders, hFills⟩ := response.receive_eq output
  refine Iff.trans ?_ response.length_le_size_iff
  rw [Response.receive, hHeaders]
  change ((response.chunks.foldlM HttpClient.readChunkDataCallback handler) >>= _) = _ ↔ _
  cases hChunks : response.chunks.foldlM HttpClient.readChunkDataCallback handler with
  | error fault =>
    rw [hChunks] at hFills
    have hLong : response.size < response.chunks.flatten.length := hFills
    constructor
    · intro hOk
      cases hOk
    · intro hLe
      omega
  | ok handler' =>
    rw [hChunks] at hFills
    obtain ⟨last, hLast, hBytes⟩ := response.readCallback_received hFills
    constructor
    · intro _
      exact HttpMessageHandler.Received.length_le hFills
    · intro _
      change ((HttpClient.readCallback handler' response.chunks.flatten.length) >>= _) = _
      rw [hLast, ← hBytes]
      rfl

def lowerCaseResponse : Response where
  headers := [⟨"content-length", "1"⟩]
  chunks := [[65]]
  announced := by decide
  fits := by decide

/-- A body of one byte whose length is announced in small letters: the vector stays empty, so the
byte is written behind its end, or to the null pointer if the vector never had memory. -/
theorem response_body_lower_case :
    lowerCaseResponse.receive ⟨[], 16⟩ = .error (.outOfBounds "body_" 1) ∧
      lowerCaseResponse.receive ⟨[], 0⟩ =
        .error (.exception "The memcpy_s error, errorno(22)") :=
  ⟨rfl, by decide⟩

end PsRpc
