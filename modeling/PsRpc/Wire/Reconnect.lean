import PsRpc.Wire.RoundTrip

/-! # `TcpClient` across a reconnection

The stream parser is a member of the `TcpClient` object. `Init` replaces the libevent buffer
and starts a new connection, but it does not touch the parser: bytes of a frame that the old
connection did not complete stay in front of the first bytes of the new one. The server side
gives every accepted connection a `TcpConnection`, and with it a parser, of its own.
-/

namespace PsRpc

open ByteOrder Framing

variable {M : Type}

/-- The members that `Init`, `EventCallback` and the read path use. `eventBase` is the static
`event_base_`; a buffer event is known by a number. `disconnectedCallback` is whether the callback
of `AbstractNode::InitClientToScheduler` is set, which waits and calls `Init`. -/
structure TcpClient where
  serverAddress : String
  serverPort : UInt16
  messageHandler : TcpMessageHandler
  bufferEvent : Option Nat
  eventBase : Bool
  isStop : Bool
  isConnected : Bool
  disconnectedCallback : Bool

structure InitEnv where
  checkIp : Bool := true
  usePthreads : Int := 0
  newBase : Bool := true
  memsetEok : Bool := true
  newBufferEvent : Option Nat
  enable : Int := 0
  connect : Int := 0

/-- The bits of `events` in the order in which `EventCallback` tests them. -/
inductive BevEvent where
  | connected
  | error
  | eof
  | other
deriving DecidableEq, Repr

namespace TcpClient

def new (address : String) (port : UInt16) (junk : Vector UInt8 kHeaderLen) : TcpClient where
  serverAddress := address
  serverPort := port
  messageHandler := (TcpMessageHandler.new junk).setCallback
  bufferEvent := none
  eventBase := false
  isStop := true
  isConnected := false
  disconnectedCallback := false

def setDisconnectedCallback (client : TcpClient) : TcpClient :=
  { client with disconnectedCallback := true }

def raiseUnless (ok : Bool) (what : String) : Except Fault Unit :=
  if ok then .ok () else .error (.exception what)

def init (client : TcpClient) (env : InitEnv) : Except Fault TcpClient := do
  raiseUnless env.checkIp ("The tcp client ip:" ++ client.serverAddress ++ " is illegal!")
  raiseUnless (env.usePthreads = 0) "Use event pthread failed!"
  raiseUnless (client.eventBase || env.newBase) ": The pointer[event_base_] is null."
  let isStop := client.isStop && client.eventBase
  raiseUnless env.memsetEok "Initialize sockaddr_in failed!"
  let bufferEvent ← exceptionIfNull "buffer_event_" env.newBufferEvent
  raiseUnless (env.enable ≠ -1) "Buffer event enable read and write failed!"
  raiseUnless (0 ≤ env.connect) ("Connect server ip:" ++ client.serverAddress ++ " and port: " ++
    toString client.serverPort ++ " is failed!")
  .ok { client with bufferEvent := some bufferEvent, eventBase := true, isStop := isStop }

/-- `setsockopt` is the result of `SetTcpNoDelay`'s system call. -/
def eventCallback (client : TcpClient) (event : BevEvent) (env : InitEnv) (setsockopt : Int) :
    Except Fault TcpClient :=
  match event with
  | .connected => do
    raiseUnless (0 ≤ setsockopt) "Set socket no delay failed!"
    .ok { client with isConnected := true }
  | .error => if client.disconnectedCallback then client.init env else .ok client
  | .eof => .ok client
  | .other => .ok client

/-- `ReadCallback` and `OnReadHandler` on the chunks that libevent hands out one by one. -/
def readCallback (order : Endian) (client : TcpClient) (chunks : List Bytes) :
    Except Fault (TcpClient × List MessageReceive) := do
  let (handler, calls) ← client.messageHandler.receiveChunks order chunks
  .ok ({ client with messageHandler := handler }, calls)

theorem init_ok {client client' : TcpClient} {env : InitEnv} (h : client.init env = .ok client') :
    client'.messageHandler = client.messageHandler ∧
      client'.disconnectedCallback = client.disconnectedCallback := by
  simp only [init, bind, Except.bind, raiseUnless, exceptionIfNull] at h
  repeat' split at h
  all_goals first
    | cases h; exact ⟨rfl, rfl⟩
    | cases h

/-- The parser of the object is the same before and after a reconnection. -/
theorem eventCallback_error_messageHandler {client client' : TcpClient} {env : InitEnv}
    {setsockopt : Int} (h : client.eventCallback .error env setsockopt = .ok client') :
    client'.messageHandler = client.messageHandler := by
  change (if client.disconnectedCallback = true then client.init env else .ok client) = _ at h
  split at h
  · exact (init_ok h).1
  · cases h
    rfl

end TcpClient

def IsChunking (chunks : List Bytes) (stream : Bytes) : Prop :=
  (∀ chunk ∈ chunks, chunk ≠ [] ∧ chunk.length ≤ 2 ^ 31 - 1) ∧ chunks.flatten = stream

theorem IsChunking.length_le {chunks : List Bytes} {stream : Bytes} (h : IsChunking chunks stream) :
    ∀ chunk ∈ chunks, chunk.length ≤ securecMemMaxLen :=
  fun chunk hChunk => (h.1 chunk hChunk).2

theorem isChunking_singletons (stream : Bytes) : IsChunking (stream.map ([·])) stream := by
  refine ⟨?_, ?_⟩
  · intro chunk hChunk
    obtain ⟨byte, _, rfl⟩ := List.mem_map.mp hChunk
    exact ⟨by simp, by simp⟩
  · induction stream with
    | nil => rfl
    | cons byte rest ih => rw [List.map_cons, List.flatten_cons, ih, List.singleton_append]

/-- The callback of the client gets exactly the messages of the connection, in order, for every
sequence of messages and every chunking of their frames. -/
def DecodesAsFresh (order : Endian) (codec : MetaCodec M) (client : TcpClient) : Prop :=
  ∀ (messages : List (Outgoing codec)) (chunks : List Bytes),
    IsChunking chunks (messages.map (·.frame order)).flatten →
    ∃ client' calls, client.readCallback order chunks = .ok (client', calls) ∧
      calls.map (·.delivered codec) = messages.map (fun m => some m.delivered)

namespace Outgoing

variable {codec : MetaCodec M}

theorem body_of_delivered {order : Endian} {f : Bytes} {m : Outgoing codec}
    (hFrame : (frameFormat order).IsFrame f)
    (hDelivered : (frameCall order f).delivered codec = some m.delivered) :
    (MessageHeader.ofBytes order (f.take kHeaderLen)).messageProto = m.protos ∧
      (MessageHeader.ofBytes order (f.take kHeaderLen)).messageMetaLength.toNat =
        m.serialized.length ∧
      f.drop kHeaderLen = m.serialized ++ m.data := by
  generalize hHeader : MessageHeader.ofBytes order (f.take kHeaderLen) = header
  generalize hBody : f.drop kHeaderLen = body
  have hLength : body.length = header.messageLength.toNat := by
    have hTotal : f.length = kHeaderLen + header.messageLength.toNat := by
      rw [← hHeader]
      exact hFrame
    rw [← hBody, List.length_drop]
    omega
  rw [frameCall, hHeader, hBody, MessageReceive.delivered] at hDelivered
  obtain ⟨metaBytes, hMeta, hRest⟩ := Option.bind_eq_some_iff.mp hDelivered
  obtain ⟨data, hData, hEq⟩ := Option.bind_eq_some_iff.mp hRest
  obtain ⟨hProtos, rfl, _, rfl⟩ := Delivered.mk.inj (Option.some.inj hEq)
  obtain ⟨hMetaLe, hMetaEq, hMetaLen⟩ := readSlice_eq_some hMeta
  obtain ⟨_, hDataEq, hDataLen⟩ := readSlice_eq_some hData
  change m.serialized = (body.drop 0).take header.messageMetaLength.toNat at hMetaEq
  change 0 + header.messageMetaLength.toNat ≤ body.length at hMetaLe
  change m.serialized.length = header.messageMetaLength.toNat at hMetaLen
  have hSize : (header.messageLength - header.messageMetaLength.toUInt64).toNat =
      body.length - header.messageMetaLength.toNat := by
    have hLe : header.messageMetaLength.toUInt64 ≤ header.messageLength := by
      rw [UInt64.le_iff_toNat_le, UInt32.toNat_toUInt64]
      omega
    rw [UInt64.toNat_sub_of_le _ _ hLe, UInt32.toNat_toUInt64, hLength]
  change m.data = (body.drop header.messageMetaLength.toNat).take
    (header.messageLength - header.messageMetaLength.toUInt64).toNat at hDataEq
  rw [hSize, List.take_of_length_le (by rw [List.length_drop])] at hDataEq
  refine ⟨hProtos, hMetaLen.symm, ?_⟩
  rw [hMetaEq, hDataEq, List.drop_zero, List.take_append_drop]

theorem frame_of_delivered {order : Endian} {f : Bytes} {m : Outgoing codec}
    (hFrame : (frameFormat order).IsFrame f)
    (hDelivered : (frameCall order f).delivered codec = some m.delivered) :
    f = m.frame order := by
  obtain ⟨hProtos, hMeta, hBody⟩ := body_of_delivered hFrame hDelivered
  have hLen : kHeaderLen ≤ f.length := hFrame.headerLen_le
  have hHeader : MessageHeader.ofBytes order (f.take kHeaderLen) = m.header := by
    have hTotal : f.length = kHeaderLen +
        (MessageHeader.ofBytes order (f.take kHeaderLen)).messageLength.toNat := hFrame
    have hDrop := congrArg List.length hBody
    rw [List.length_drop] at hDrop
    generalize MessageHeader.ofBytes order (f.take kHeaderLen) = header at *
    obtain ⟨proto, metaLength, length⟩ := header
    have hMetaEq : metaLength = m.header.messageMetaLength := by
      apply UInt32.toNat_inj.mp
      rw [metaLength_toNat]
      exact hMeta
    have hLengthEq : length = m.header.messageLength := by
      apply UInt64.toNat_inj.mp
      rw [messageLength_toNat]
      change f.length = kHeaderLen + length.toNat at hTotal
      omega
    rw [hMetaEq, hLengthEq, show proto = m.protos from hProtos]
    rfl
  rw [frame, ← hHeader, ← hBody, MessageHeader.toBytes_ofBytes order (List.length_take_of_le hLen),
    List.take_append_drop]

def withProtos (m : Outgoing codec) (protos : Protos) : Outgoing codec :=
  { m with protos := protos }

theorem frame_withProtos_length (order : Endian) (m : Outgoing codec) (protos : Protos) :
    ((m.withProtos protos).frame order).length = (m.frame order).length := by
  rw [frame_length, frame_length]
  rfl

theorem protos_eq_of_frame_eq {order : Endian} {m m' : Outgoing codec}
    (h : m.frame order = m'.frame order) : m.protos = m'.protos := by
  have hHeader := m.ofBytes_take_frame order
  rw [h, ofBytes_take_frame] at hHeader
  exact congrArg MessageHeader.messageProto hHeader.symm

end Outgoing

namespace TcpMessageHandler

/-- A handler that has read `cut` and then gets the frame of `m` can only deliver exactly `m`
if this frame starts with `cut` followed by itself. -/
theorem shifted_of_receiveChunks {codec : MetaCodec M} {order : Endian}
    {handler handler' : TcpMessageHandler} {cut : Bytes} (hReading : Reading order handler cut)
    {m : Outgoing codec} {chunks : List Bytes} (hChunks : IsChunking chunks (m.frame order))
    {calls : List MessageReceive}
    (hRun : receiveChunks order handler chunks = .ok (handler', calls))
    (hCalls : calls.map (·.delivered codec) = [some m.delivered]) :
    m.frame order <+: cut ++ m.frame order := by
  have hTracks : Tracks order handler (.reading cut) := hReading
  have hFollows := receiveChunks_follows hTracks hChunks.length_le
  rw [hChunks.2] at hFollows
  cases hFeed : (frameFormat order).lazyFeed (.reading cut) (m.frame order) with
  | error stop =>
    rw [hFeed] at hFollows
    change receiveChunks order handler chunks = .error (stopFault stop) at hFollows
    rw [hRun] at hFollows
    cases hFollows
  | ok result =>
    obtain ⟨fs, mode⟩ := result
    rw [hFeed] at hFollows
    obtain ⟨_, hRun', _⟩ := hFollows
    rw [hRun] at hRun'
    obtain ⟨_, rfl⟩ := Prod.mk.inj (Except.ok.inj hRun')
    rw [List.nil_append, List.map_map] at hCalls
    obtain ⟨f, rfl, hf⟩ := List.map_eq_singleton_iff.mp hCalls
    have hFrame := Format.isFrame_of_mem_lazyFeed hFeed f List.mem_cons_self
    have hConserves := Format.lazyFeed_conserves hFeed
    rw [List.flatten_singleton, Outgoing.frame_of_delivered hFrame hf] at hConserves
    exact hConserves

end TcpMessageHandler

theorem TcpMessageHandler.receiveChunks_cut {codec : MetaCodec M} {order : Endian}
    {handler : TcpMessageHandler} (hReading : ReadingHeader handler [])
    (old : List (Outgoing codec)) (broken : Outgoing codec) {cut rest : Bytes}
    (hCut : cut ++ rest = broken.frame order) (hRest : rest ≠ []) {chunks : List Bytes}
    (hChunks : IsChunking chunks ((old.map (·.frame order)).flatten ++ cut)) :
    ∃ handler', Reading order handler' cut ∧ receiveChunks order handler chunks =
      .ok (handler', old.map fun m => frameCall order (m.frame order)) := by
  have hUnfinished : (frameFormat order).Unfinished cut := by
    apply Format.IsFrame.unfinished_of_append _ hRest
    rw [hCut]
    exact broken.frame_isFrame order
  have hAdmitted : (frameFormat order).Admitted cut :=
    (broken.frame_admitted order).of_isPrefixOf ⟨rest, hCut⟩
  have hFeed : (frameFormat order).lazyFeed (.reading []) chunks.flatten =
      .ok (old.map (·.frame order), .reading cut) := by
    have hCutFeed := Format.lazyFeed_of_unfinished (p := []) hUnfinished hAdmitted
    rw [hChunks.2, Format.lazyFeed_append_of (lazyFeed_frames order old), hCutFeed]
    change Except.ok (_ ++ [], _) = _
    rw [List.append_nil]
    rfl
  have hTracks : Tracks order handler (.reading []) := .inl hReading
  have hFollows := receiveChunks_follows hTracks hChunks.length_le
  rw [hFeed] at hFollows
  obtain ⟨handler', hRun, hReading'⟩ := hFollows
  rw [List.nil_append, List.map_map] at hRun
  exact ⟨handler', hReading', hRun⟩

theorem TcpClient.readCallback_eq {order : Endian} {client : TcpClient} {chunks : List Bytes}
    {handler : TcpMessageHandler} {calls : List MessageReceive}
    (h : client.messageHandler.receiveChunks order chunks = .ok (handler, calls)) :
    client.readCallback order chunks = .ok ({ client with messageHandler := handler }, calls) := by
  rw [readCallback, h]
  rfl

theorem TcpClient.receiveChunks_of_readCallback {order : Endian} {client client' : TcpClient}
    {chunks : List Bytes} {calls : List MessageReceive}
    (h : client.readCallback order chunks = .ok (client', calls)) :
    client.messageHandler.receiveChunks order chunks = .ok (client'.messageHandler, calls) := by
  rw [readCallback] at h
  cases hRun : client.messageHandler.receiveChunks order chunks with
  | error fault =>
    rw [hRun] at h
    cases h
  | ok result =>
    rw [hRun] at h
    cases h
    rfl

/-- A client whose parser has read `cut` decodes a new stream as a fresh one does exactly if
nothing was cut off. Two frames that differ in their proto only cannot both repeat `cut`. -/
theorem decodesAsFresh_iff {codec : MetaCodec M} {order : Endian} {client : TcpClient}
    {cut : Bytes} (hReading : TcpMessageHandler.Reading order client.messageHandler cut)
    (message : Outgoing codec) : DecodesAsFresh order codec client ↔ cut = [] := by
  constructor
  · intro hFresh
    by_contra hNe
    have hShifted : ∀ m : Outgoing codec, m.frame order <+: cut ++ m.frame order := by
      intro m
      have hChunks := isChunking_singletons (m.frame order)
      obtain ⟨client', calls, hRun, hCalls⟩ :=
        hFresh [m] ((m.frame order).map ([·])) (by simpa using hChunks)
      exact TcpMessageHandler.shifted_of_receiveChunks hReading hChunks
        (TcpClient.receiveChunks_of_readCallback hRun) hCalls
    have hFrames : (message.withProtos Protos.raw).frame order =
        (message.withProtos Protos.protobuf).frame order := by
      apply eq_of_shifted hNe (hShifted _) (hShifted _)
      rw [Outgoing.frame_withProtos_length, Outgoing.frame_withProtos_length]
    have hProtos : Protos.raw = Protos.protobuf := Outgoing.protos_eq_of_frame_eq hFrames
    exact absurd hProtos (by decide)
  · rintro rfl messages chunks hChunks
    obtain ⟨handler', _, hRun⟩ := TcpMessageHandler.receiveChunks_frames
      (TcpMessageHandler.readingHeader_of_nil hReading) messages hChunks.length_le hChunks.2
    refine ⟨_, _, TcpClient.readCallback_eq hRun, ?_⟩
    rw [List.map_map]
    apply List.map_congr_left
    intro m _
    exact m.frameCall_delivered order

/-- The old connection delivers its complete frames and fails after a strict part `cut` of a
further frame; the client reconnects. Then the new connection is decoded as by a fresh parser,
whatever is sent on it, if and only if the old one failed at the end of a frame. -/
theorem reconnect_clean_iff (order : Endian) (codec : MetaCodec M) (address : String)
    (port : UInt16) (junk : Vector UInt8 kHeaderLen) (first second : InitEnv) (setsockopt : Int)
    (client₁ : TcpClient)
    (hInit : (TcpClient.new address port junk).setDisconnectedCallback.init first = .ok client₁)
    (old : List (Outgoing codec)) (broken : Outgoing codec) (cut rest : Bytes)
    (hCut : cut ++ rest = broken.frame order) (hRest : rest ≠ []) (chunks : List Bytes)
    (hChunks : IsChunking chunks ((old.map (·.frame order)).flatten ++ cut)) :
    ∃ client₂ calls, client₁.readCallback order chunks = .ok (client₂, calls) ∧
      calls.map (·.delivered codec) = old.map (fun m => some m.delivered) ∧
      ∀ client₃, client₂.eventCallback .error second setsockopt = .ok client₃ →
        (DecodesAsFresh order codec client₃ ↔ cut = []) := by
  have hHandler : TcpMessageHandler.ReadingHeader client₁.messageHandler [] := by
    rw [(TcpClient.init_ok hInit).1]
    exact TcpMessageHandler.readingHeader_new junk
  obtain ⟨handler, hReading, hRun⟩ :=
    TcpMessageHandler.receiveChunks_cut hHandler old broken hCut hRest hChunks
  refine ⟨_, _, TcpClient.readCallback_eq hRun, ?_, ?_⟩
  · rw [List.map_map]
    apply List.map_congr_left
    intro m _
    exact m.frameCall_delivered order
  · intro client₃ hEvent
    apply decodesAsFresh_iff _ broken
    rw [TcpClient.eventCallback_error_messageHandler hEvent]
    exact hReading

def loopbackClient : TcpClient :=
  (TcpClient.new "127.0.0.1" 9000 (Vector.replicate kHeaderLen 0)).setDisconnectedCallback

theorem reconnect_clean_iff_one_byte :
    ∃ client₁ client₂ client₃, loopbackClient.init { newBufferEvent := some 0 } = .ok client₁ ∧
      client₁.readCallback .little [[1]] = .ok (client₂, []) ∧
      client₂.eventCallback .error { newBufferEvent := some 1 } 0 = .ok client₃ ∧
      ¬DecodesAsFresh .little rawCodec client₃ := by
  obtain ⟨client₂, calls, hRun, hCalls, hFresh⟩ :=
    reconnect_clean_iff .little rawCodec "127.0.0.1" 9000 (Vector.replicate kHeaderLen 0)
      { newBufferEvent := some 0 } { newBufferEvent := some 1 } 0 _ rfl [] twoByteMessage [1]
      ((twoByteMessage.frame .little).drop 1) (by decide) (by decide) [[1]] ⟨by decide, by decide⟩
  obtain rfl : calls = [] := List.map_eq_nil_iff.mp hCalls
  cases hRun
  exact ⟨_, _, _, rfl, rfl, rfl, fun h => absurd ((hFresh _ rfl).mp h) (by decide)⟩

/-- One byte of a frame arrives on the old connection. On the new one the parser takes it for
the first byte of the header, reads a body length of 512 and waits: the complete frame that the
new connection brings is not delivered, although a fresh parser delivers it. -/
theorem reconnect_swallows_frame :
    ∃ client₁ client₂ client₃ client₄ fresh call,
      loopbackClient.init { newBufferEvent := some 0 } = .ok client₁ ∧
      client₁.readCallback .little [(twoByteMessage.frame .little).take 1] = .ok (client₂, []) ∧
      client₂.eventCallback .error { newBufferEvent := some 1 } 0 = .ok client₃ ∧
      client₃.readCallback .little [twoByteMessage.frame .little] = .ok (client₄, []) ∧
      client₁.readCallback .little [twoByteMessage.frame .little] = .ok (fresh, [call]) ∧
      call.delivered rawCodec = some twoByteMessage.delivered :=
  ⟨_, _, _, _, _, _, rfl, rfl, rfl, rfl, rfl, rfl⟩

end PsRpc
