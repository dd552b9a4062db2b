import PsRpc.Collective.Exchange
import PsRpc.Node.Requests
import PsRpc.Wire.MetaCodec

/-! # Data on its way to the handler of a server

A message of `Send` or `Broadcast` passes the checks of the sender, is written as a frame, comes out
of the stream parser of a server and is copied by `ProcessSendData` before `request_handler_` is
called. The copy is the only step that refuses a message that the steps before it accept.
-/

namespace PsRpc

open ByteOrder

def NodeRole.ofNumber (number : Int) : NodeRole :=
  if number = 0 then .server
  else if number = 1 then .worker
  else if number = 2 then .scheduler
  else .unrecognized number

def WireMeta.packet (message : WireMeta) (data : Bytes) : Packet :=
  ⟨⟨.collectiveSendData, message.requestId.toNat, .ofNumber message.role.toInt,
    message.rankId.toUInt32, message.userCmd.toInt⟩, data⟩

/-- `requests` are the calls of `request_handler_`, which is set, with the meta and the bytes that
they get; `echoes` is what `ProcessCollectiveSendData` has sent back. -/
structure ServerNode where
  tables : CollectiveTables
  requests : List (WireMeta × Bytes)
  echoes : List (WireMeta × Bytes)

namespace ServerNode

def processSendData (s : ServerNode) (message : WireMeta) (data : Bytes) :
    Except Fault ServerNode :=
  let ret := memcpyS data.length data.length
  if ret ≠ .eok then .error (memcpyError ret)
  else .ok { s with requests := s.requests ++ [(message, data)] }

def processCollectiveSendData (s : ServerNode) (message : WireMeta) (data : Bytes) : ServerNode :=
  { s with echoes := s.echoes ++ [(message, data)] }

/-- All of `RunReceiveCallback`, without a step of another thread in between. -/
def runReceiveCallback (s : ServerNode) (packet : Packet) : Except Fault ServerNode :=
  match s.tables.runReceiveCallback packet with
  | (.error fault, _) => .error fault
  | (.ok none, tables) => .ok { s with tables := tables }
  | (.ok (some key), tables) =>
    let ran := match tables.receiveCallbacks.lookup key with
      | some output => tables.takeData key output
      | none => tables
    .ok { s with tables := { ran with receiveCallbacks := ran.receiveCallbacks.erase key } }

/-- The message callback of `CreateTcpServer`. -/
def onMessage (s : ServerNode) (delivered : Delivered WireMeta) : Except Fault ServerNode :=
  let message := delivered.message
  if message.cmd = .ofNat NodeCommand.sendData.number then s.processSendData message delivered.data
  else if message.cmd = .ofNat NodeCommand.collectiveSendData.number then
    (s.processCollectiveSendData message delivered.data).runReceiveCallback
      (message.packet delivered.data)
  else
    .error (.exception ("The cmd:" ++ toString message.cmd.toInt ++ " is not supported!"))

/-- The calls of the message callback that the stream parser makes, until one of them raises. -/
def serve (codec : MetaCodec WireMeta) : ServerNode → List MessageReceive → Except Fault ServerNode
  | s, [] => .ok s
  | s, call :: calls =>
    match call.delivered codec with
    | none => .error (.outOfBounds "message_buffer_" call.buffer.length)
    | some delivered => do
      let s ← s.onMessage delivered
      s.serve codec calls

/-- A connection of the server, with the chunks that it reads. -/
def receive (order : Endian) (codec : MetaCodec WireMeta) (handler : TcpMessageHandler)
    (s : ServerNode) (chunks : List Bytes) : Except Fault (TcpMessageHandler × ServerNode) := do
  let (handler, calls) ← handler.receiveChunks order chunks
  let s ← s.serve codec calls
  .ok (handler, s)

end ServerNode

/-- A message that a call of `Send` or `Broadcast` sends, with at most `2 ^ 31 - 1` bytes. -/
structure Accepted where
  view : NodeView
  invocation : Invocation
  request : Request
  requestId : Nat
  rankId : UInt32
  data : Bytes
  called : invocation.request view = .ok request
  sends : .sendMessage rankId data ∈ request.script
  size_le : data.length ≤ 2 ^ 31 - 1

namespace Accepted

def message (m : Accepted) : WireMeta := ((Call.new m.request).messageMeta m.requestId).toWire

theorem message_cmd (m : Accepted) : m.message.cmd = .ofNat NodeCommand.sendData.number := rfl

theorem fits (codec : MetaRuntime) (m : Accepted) :
    (codec.serializeAsString m.message).length + m.data.length < 2 ^ 63 := by
  have hMeta := codec.length_lt m.message
  have hSize := m.size_le
  omega

def outgoing (codec : MetaRuntime) (m : Accepted) : Outgoing codec.toMetaCodec :=
  codec.outgoing m.message .raw m.data (by rw [message_cmd]; decide) (m.fits codec)

end Accepted

namespace ServerNode

theorem processSendData_eq (s : ServerNode) (m : Accepted) :
    s.processSendData m.message m.data =
      if 0 < m.data.length then .ok { s with requests := s.requests ++ [(m.message, m.data)] }
      else .error (memcpyError .erange) := by
  by_cases hData : 0 < m.data.length
  · have hCopied := (memcpyS_self_eq_eok_iff _).mpr ⟨hData, m.size_le⟩
    rw [if_pos hData, processSendData, hCopied]
    rfl
  · rw [if_neg hData, processSendData, Nat.eq_zero_of_not_pos hData]
    rfl

theorem serve_cons (order : Endian) (codec : MetaRuntime) (s : ServerNode) (m : Accepted)
    (calls : List MessageReceive) :
    s.serve codec.toMetaCodec (frameCall order ((m.outgoing codec).frame order) :: calls) =
      s.processSendData m.message m.data >>= fun s => s.serve codec.toMetaCodec calls := by
  rw [serve, (m.outgoing codec).frameCall_delivered]
  rfl

/-- Every message reaches the handler once and in its turn if and only if none is empty. -/
theorem serve_frames_iff (order : Endian) (codec : MetaRuntime) (messages : List Accepted)
    (s : ServerNode) :
    (∃ s', s.serve codec.toMetaCodec
        (messages.map fun m => frameCall order ((m.outgoing codec).frame order)) = .ok s' ∧
      s'.requests = s.requests ++ messages.map fun m => (m.message, m.data)) ↔
    ∀ m ∈ messages, 0 < m.data.length := by
  induction messages generalizing s with
  | nil => exact ⟨by simp, fun _ => ⟨s, rfl, by simp⟩⟩
  | cons m messages ih =>
    rw [List.map_cons, serve_cons, processSendData_eq, List.forall_mem_cons]
    by_cases hData : 0 < m.data.length
    · rw [if_pos hData, ← ih { s with requests := s.requests ++ [(m.message, m.data)] }]
      simp only [hData, true_and, List.map_cons, List.append_assoc, List.singleton_append]
      rfl
    · rw [if_neg hData]
      constructor
      · rintro ⟨s', hServe, _⟩
        cases hServe
      · rintro ⟨hPos, _⟩
        exact absurd hPos hData

theorem receive_frames {order : Endian} {codec : MetaRuntime} {messages : List Accepted}
    {chunks : List Bytes} (junk : Vector UInt8 kHeaderLen)
    (hMax : ∀ chunk ∈ chunks, chunk.length ≤ securecMemMaxLen)
    (hCut : chunks.flatten = (messages.map fun m => (m.outgoing codec).frame order).flatten) :
    ∃ handler, ∀ s : ServerNode,
      s.receive order codec.toMetaCodec (TcpMessageHandler.new junk).setCallback chunks =
        s.serve codec.toMetaCodec
            (messages.map fun m => frameCall order ((m.outgoing codec).frame order)) >>=
          fun s => .ok (handler, s) := by
  have hFrames : chunks.flatten =
      ((messages.map (·.outgoing codec)).map (·.frame order)).flatten := by
    rw [hCut, List.map_map]
    rfl
  obtain ⟨handler, _, hRun⟩ := TcpMessageHandler.receiveChunks_frames
    (TcpMessageHandler.readingHeader_new junk) (messages.map (·.outgoing codec)) hMax hFrames
  refine ⟨handler, fun s => ?_⟩
  rw [receive, hRun, List.map_map]
  rfl

end ServerNode

/-- Messages of `Send` and `Broadcast` on one connection, received in any chunks: the handler is
called exactly once for each of them, in order and with its bytes, and nothing is raised, if and
only if none of them is empty. -/
theorem payload_reaches_handler_iff (order : Endian) (codec : MetaRuntime)
    (junk : Vector UInt8 kHeaderLen) (s : ServerNode) (messages : List Accepted) :
    ∃ stream, sendAll order codec.toMetaCodec
        (messages.map fun m => (.client, m.outgoing codec)) ⟨[]⟩ = .ok stream ∧
      ∀ chunks : List Bytes, (∀ chunk ∈ chunks, chunk ≠ [] ∧ chunk.length ≤ 2 ^ 31 - 1) →
        chunks.flatten = stream.output →
        ((∃ handler s', s.receive order codec.toMetaCodec
              (TcpMessageHandler.new junk).setCallback chunks = .ok (handler, s') ∧
          s'.requests = s.requests ++ messages.map fun m => (m.message, m.data)) ↔
        ∀ m ∈ messages, 0 < m.data.length) := by
  refine ⟨_, sendAll_eq order _ ⟨[]⟩, ?_⟩
  intro chunks hChunks hCut
  rw [List.map_map] at hCut
  obtain ⟨handler, hReceive⟩ := ServerNode.receive_frames junk
    (fun chunk hChunk => (hChunks chunk hChunk).2) hCut
  rw [hReceive, ← ServerNode.serve_frames_iff order codec messages s]
  constructor
  · rintro ⟨handler', s', hOk, hRequests⟩
    obtain ⟨served, hServe, hEnd⟩ := bind_eq_ok hOk
    cases hEnd
    exact ⟨s', hServe, hRequests⟩
  · rintro ⟨s', hServe, hRequests⟩
    refine ⟨handler, s', ?_, hRequests⟩
    rw [hServe]
    rfl

def sendPlan (data : Bytes) : Plan :=
  ⟨twoServers, 7, [0], 1, none, [], [.sendMessage 0 (data.take data.length), .wait]⟩

theorem sendPlan_eq (data : Bytes) :
    (Invocation.send .server 0 (some data) data.length 7).plan twoServers = .ok (sendPlan data) :=
  rfl

def smallAccepted (data : Bytes) (h : (data.take data.length).length ≤ 2 ^ 31 - 1) : Accepted where
  view := twoServers
  invocation := .send .server 0 (some data) data.length 7
  request := ⟨sendPlan data, Invocation.plan_shaped (sendPlan_eq data)⟩
  requestId := 1
  rankId := 0
  data := data.take data.length
  called := rfl
  sends := List.mem_cons_self
  size_le := h

def bytewise (stream : Bytes) : List Bytes := stream.map fun byte => [byte]

theorem bytewise_flatten (stream : Bytes) : (bytewise stream).flatten = stream := by
  simp [bytewise, ← List.flatMap_def]

theorem bytewise_chunk {stream chunk : Bytes} (h : chunk ∈ bytewise stream) :
    chunk ≠ [] ∧ chunk.length ≤ 2 ^ 31 - 1 := by
  obtain ⟨byte, _, rfl⟩ := List.mem_map.mp h
  exact ⟨List.cons_ne_nil _ _, by simp⟩

theorem payload_reaches_handler_two_messages :
    ∃ stream handler s',
      sendAll .little wireCodec.toMetaCodec
        [(.client, (smallAccepted [5] (by decide)).outgoing wireCodec),
          (.client, (smallAccepted [6, 6] (by decide)).outgoing wireCodec)] ⟨[]⟩ = .ok stream ∧
      (ServerNode.mk .new [] []).receive .little wireCodec.toMetaCodec
          (TcpMessageHandler.new (Vector.replicate 16 0)).setCallback (bytewise stream.output) =
        .ok (handler, s') ∧
      s'.requests.map Prod.snd = [[5], [6, 6]] := by
  obtain ⟨stream, hSend, h⟩ := payload_reaches_handler_iff .little wireCodec
    (Vector.replicate 16 0) ⟨.new, [], []⟩
    [smallAccepted [5] (by decide), smallAccepted [6, 6] (by decide)]
  obtain ⟨handler, s', hReceive, hRequests⟩ :=
    (h _ (fun _ => bytewise_chunk) (bytewise_flatten stream.output)).mpr (by simp [smallAccepted])
  refine ⟨stream, handler, s', hSend, hReceive, ?_⟩
  rw [hRequests]
  rfl

/-- `Send` accepts an empty payload, and `ProcessSendData` raises on it. -/
theorem empty_payload_raises :
    ∃ stream,
      sendAll .little wireCodec.toMetaCodec
        [(.client, (smallAccepted [] (by decide)).outgoing wireCodec)] ⟨[]⟩ = .ok stream ∧
      (ServerNode.mk .new [] []).receive .little wireCodec.toMetaCodec
          (TcpMessageHandler.new (Vector.replicate 16 0)).setCallback (bytewise stream.output) =
        .error (.exception "The memcpy_s error, errorno(34)") := by
  let m : Accepted := smallAccepted [] (by decide)
  refine ⟨⟨(m.outgoing wireCodec).frame .little⟩, ?_, ?_⟩
  · rw [sendAll_eq]
    simp [m]
  · have hCut : (bytewise ((m.outgoing wireCodec).frame .little)).flatten =
        ([m].map fun m => (m.outgoing wireCodec).frame .little).flatten := by
      rw [bytewise_flatten]
      simp
    obtain ⟨handler, hReceive⟩ := ServerNode.receive_frames (Vector.replicate 16 0)
      (fun _ hChunk => (bytewise_chunk hChunk).2) hCut
    rw [hReceive, List.map_cons, ServerNode.serve_cons, ServerNode.processSendData_eq]
    rfl

end PsRpc
