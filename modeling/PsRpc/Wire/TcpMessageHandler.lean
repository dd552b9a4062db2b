import PsRpc.Wire.Message

/-! # The stream parser `TcpMessageHandler`

`ReceiveMessage` is embedded with the state it keeps between calls and with its local
variables: the moving pointer `buffer_data` (as an offset into the argument) and `num`, which
the header loop and the body copy advance separately. A fresh object leaves `header_` and
the bytes of a new buffer uninitialised. An exception leaves the object as it is at that point.
The members `is_parsed_` and `mBuffer` are never used by the source and are left out.
-/

namespace PsRpc

open ByteOrder

/-- `messageCallback` is whether `SetCallback` has been called. -/
structure TcpMessageHandler where
  messageCallback : Bool
  messageBuffer : Option Buffer
  remainingLength : Nat
  header : Vector UInt8 kHeaderLen
  headerIndex : Int
  lastCopyLen : Nat
  messageHeader : MessageHeader
deriving DecidableEq, Repr

/-- The arguments of one invocation of `message_callback_`: the received frame, of which
`[0, metaLength)` goes to `ParseFromArray`, and the payload pointer and size behind it. -/
structure MessageReceive where
  buffer : Bytes
  metaLength : UInt32
  protos : Protos
  size : UInt64
deriving DecidableEq, Repr

def MessageReceive.metaBytes (call : MessageReceive) : Option Bytes :=
  readSlice call.buffer 0 call.metaLength.toNat

def MessageReceive.data (call : MessageReceive) : Option Bytes :=
  readSlice call.buffer call.metaLength.toNat call.size.toNat

/-- The call that a handler with this header and this complete buffer makes. The size is a
subtraction of unsigned 64-bit integers. -/
def MessageHeader.call (header : MessageHeader) (buffer : Bytes) : MessageReceive where
  buffer := buffer
  metaLength := header.messageMetaLength
  protos := header.messageProto
  size := header.messageLength - header.messageMetaLength.toUInt64

namespace TcpMessageHandler

/-- The constructor; `header_` is not initialised. -/
def new (junk : Vector UInt8 kHeaderLen) : TcpMessageHandler where
  messageCallback := false
  messageBuffer := none
  remainingLength := 0
  header := junk
  headerIndex := -1
  lastCopyLen := 0
  messageHeader := {}

def setCallback (handler : TcpMessageHandler) : TcpMessageHandler :=
  { handler with messageCallback := true }

def writeHeader (header : Vector UInt8 kHeaderLen) (index : Int) (byte : UInt8) :
    Except Fault (Vector UInt8 kHeaderLen) :=
  if h : 0 ≤ index ∧ index.toNat < kHeaderLen then .ok (header.set index.toNat byte h.2)
  else .error (.outOfBounds "header_" index)

/-- What follows the sixteenth header byte: the three fields are read from `header_`. -/
def parseHeader (order : Endian) (handler : TcpMessageHandler) : TcpMessageHandler :=
  let messageHeader := MessageHeader.ofBytes order handler.header.toList
  { handler with
    messageHeader := messageHeader
    remainingLength := messageHeader.messageLength.toNat }

/-- The greatest size of an array, `PTRDIFF_MAX`. -/
def maxArrayLen : Nat := 2 ^ 63 - 1

/-- `new unsigned char[remaining_length_]`. Memory does not run out. -/
def newBuffer (handler : TcpMessageHandler) : Except Fault Buffer :=
  if handler.remainingLength ≤ maxArrayLen then .ok (.alloc handler.remainingLength)
  else .error (.exception "std::bad_array_new_length")

def resetFrame (handler : TcpMessageHandler) : TcpMessageHandler :=
  { handler with messageBuffer := none, headerIndex := -1, lastCopyLen := 0 }

/-- `ReceiveMessage` between two turns of its loop: the object, the local variables and the
callback invocations made so far. -/
structure ReceiveState where
  handler : TcpMessageHandler
  bufferData : Nat
  num : Nat
  calls : List MessageReceive
deriving DecidableEq, Repr

structure Raised where
  fault : Fault
  state : ReceiveState
deriving DecidableEq, Repr

def ReceiveState.attempt {α : Type} (s : ReceiveState) (action : Except Fault α) :
    Except Raised α :=
  action.mapError (Raised.mk · s)

def readInput (buffer : Bytes) (index : Nat) : Except Fault UInt8 :=
  match buffer[index]? with
  | some byte => .ok byte
  | none => .error (.outOfBounds "buffer" index)

/-- The `for` loop over `i`; the first argument counts the turns left, `kHeaderLen - i`. The
pointer moves only when the header is complete. -/
def readHeader (order : Endian) (buffer : Bytes) :
    Nat → Nat → ReceiveState → Except Raised ReceiveState
  | 0, _, s => .ok s
  | turns + 1, i, s =>
    if s.num = 0 then .ok s else do
      let byte ← s.attempt (readInput buffer (s.bufferData + i))
      let index := s.handler.headerIndex + 1
      let header ← s.attempt (writeHeader s.handler.header index byte)
      let handler := { s.handler with header := header, headerIndex := index }
      if index = kHeaderLen - 1 then
        let s := { s with handler := parseHeader order handler, num := s.num - 1 }
        let block ← s.attempt (newBuffer s.handler)
        .ok { s with
          handler := { s.handler with messageBuffer := some block }
          bufferData := s.bufferData + (i + 1) }
      else
        readHeader order buffer turns (i + 1) { s with handler := handler, num := s.num - 1 }

/-- The callback and the reset once `remaining_length_` has reached zero. -/
def finishFrame (handler : TcpMessageHandler) (buffer : Buffer) (s : ReceiveState) :
    ReceiveState :=
  if handler.remainingLength = 0 then
    { s with
      handler := resetFrame handler
      calls := s.calls ++
        (if handler.messageCallback then [handler.messageHeader.call buffer.data] else []) }
  else { s with handler := { handler with messageBuffer := some buffer } }

/-- `memcpy_s(message_buffer_.get() + last_copy_len_, copy_len, buffer_data, copy_len)`. A null
buffer gives a null destination only while `last_copy_len_` is zero. -/
def copyTo (messageBuffer : Option Buffer) (lastCopyLen copyLen : Nat) (src : Bytes) :
    Except Fault Buffer :=
  match messageBuffer, memcpyS copyLen copyLen with
  | some block, .eok => block.write lastCopyLen src
  | none, .eok =>
    if lastCopyLen = 0 then .error (memcpyError .einval)
    else .error (.outOfBounds "message_buffer_" lastCopyLen)
  | _, ret => .error (memcpyError ret)

/-- The copy of body bytes. The counters move before the result of `memcpy_s` is looked at. -/
def copyBody (buffer : Bytes) (s : ReceiveState) : Except Raised ReceiveState := do
  let copyLen := if s.handler.remainingLength ≤ s.num then s.handler.remainingLength else s.num
  let src ← s.attempt (match readSlice buffer s.bufferData copyLen with
    | some src => .ok src
    | none => .error (.outOfBounds "buffer" (s.bufferData + copyLen)))
  let handler := { s.handler with
    remainingLength := s.handler.remainingLength - copyLen
    lastCopyLen := s.handler.lastCopyLen + copyLen }
  let moved := { s with
    handler := handler, num := s.num - copyLen, bufferData := s.bufferData + copyLen }
  let block ← moved.attempt
    (copyTo s.handler.messageBuffer s.handler.lastCopyLen copyLen src)
  .ok (finishFrame handler block moved)

def receiveTurn (order : Endian) (buffer : Bytes) (s : ReceiveState) :
    Except Raised ReceiveState := do
  let s ← if s.handler.remainingLength = 0 then readHeader order buffer kHeaderLen 0 s else .ok s
  if 0 < s.handler.remainingLength ∧ 0 < s.num then copyBody buffer s else .ok s

/-- The `while` loop. A turn that does not raise takes at least one byte, so as many turns
as there are bytes suffice. -/
def receiveLoop (order : Endian) (buffer : Bytes) : Nat → ReceiveState → Except Raised ReceiveState
  | 0, s => .ok s
  | turns + 1, s =>
    if 0 < s.num then do
      let s ← receiveTurn order buffer s
      receiveLoop order buffer turns s
    else .ok s

def returned : Except Raised ReceiveState → Except Fault (TcpMessageHandler × List MessageReceive)
  | .ok s => .ok (s.handler, s.calls)
  | .error raised => .error raised.fault

def leftBehind : Except Raised ReceiveState → TcpMessageHandler × List MessageReceive
  | .ok s => (s.handler, s.calls)
  | .error raised => (raised.state.handler, raised.state.calls)

/-- `ReceiveMessage(buffer, num)`, with the callback invocations it makes. -/
def receiveMessage (order : Endian) (handler : TcpMessageHandler) (buffer : Bytes) :
    Except Fault (TcpMessageHandler × List MessageReceive) :=
  returned (receiveLoop order buffer buffer.length ⟨handler, 0, buffer.length, []⟩)

/-- The object and the callback invocations when `ReceiveMessage` has returned or raised. -/
def afterMessage (order : Endian) (handler : TcpMessageHandler) (buffer : Bytes) :
    TcpMessageHandler × List MessageReceive :=
  leftBehind (receiveLoop order buffer buffer.length ⟨handler, 0, buffer.length, []⟩)

theorem afterMessage_of_ok {order : Endian} {handler : TcpMessageHandler} {buffer : Bytes}
    {after : TcpMessageHandler × List MessageReceive}
    (h : receiveMessage order handler buffer = .ok after) :
    afterMessage order handler buffer = after := by
  rw [receiveMessage] at h
  rw [afterMessage]
  cases hRun : receiveLoop order buffer buffer.length ⟨handler, 0, buffer.length, []⟩ with
  | ok s =>
    rw [hRun] at h
    exact Except.ok.inj h
  | error raised =>
    rw [hRun] at h
    cases h

/-- The calls of `OnReadHandler` for the chunks that `evbuffer_remove` hands out one by one. -/
def receiveChunks (order : Endian) (handler : TcpMessageHandler) :
    List Bytes → Except Fault (TcpMessageHandler × List MessageReceive)
  | [] => .ok (handler, [])
  | chunk :: chunks => do
    let (handler, calls) ← receiveMessage order handler chunk
    let (handler, later) ← receiveChunks order handler chunks
    .ok (handler, calls ++ later)

end TcpMessageHandler

end PsRpc
