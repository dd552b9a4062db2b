import PsRpc.Heartbeat.Farewell
import PsRpc.Scheduler.ControlFormat
import PsRpc.Wire.TcpLink

/-! # The session of a node with the scheduler, byte by byte

The requests and the responses of `Session` as the handlers write and read them: protobuf messages
in frames on the two directions of one connection. Each side reads its stream in pieces that need
not end where a message ends. Every run on the bytes is a run of `Session`, in which each queue is
taken from its front.
-/

namespace PsRpc

open Execution ByteOrder

/-! ## Requests -/

namespace NodeRequest

def cmd : NodeRequest → NodeCommand
  | .register _ => .register
  | .heartbeat _ => .heartbeat
  | .fetchServers => .fetchServer
  | .finish _ => .finish

/-- The message that the sender serializes; `nodeId` is the id of the sending node. -/
def payload (runtime : ControlRuntime) (nodeId : String) : NodeRequest → Bytes
  | .register message => runtime.register.serializeAsString message
  | .heartbeat message => runtime.heartbeat.serializeAsString message
  | .fetchServers => runtime.fetchServers.serializeAsString nodeId
  | .finish message => runtime.finish.serializeAsString message.nodeId

def wireMeta (requestId : Nat) (request : NodeRequest) : WireMeta :=
  ⟨.ofNat request.cmd.number, .ofNat requestId, 0, 0, 0⟩

/-- What the handlers of the scheduler take a message for; `none` if there is no handler. -/
def ofDelivered (runtime : ControlRuntime) (delivered : Delivered WireMeta) : Option NodeRequest :=
  let cmd := delivered.message.cmd
  if cmd = .ofNat NodeCommand.heartbeat.number then
    some (.heartbeat (runtime.heartbeat.parseFromArray delivered.data))
  else if cmd = .ofNat NodeCommand.register.number then
    some (.register (runtime.register.parseFromArray delivered.data))
  else if cmd = .ofNat NodeCommand.finish.number then
    some (.finish ⟨runtime.finish.parseFromArray delivered.data⟩)
  else if cmd = .ofNat NodeCommand.fetchServer.number then some .fetchServers
  else none

/-- The values of the message are those that its fields can hold. -/
def Fits : NodeRequest → Prop
  | .register message => message.Fits
  | .heartbeat message => FitsText message.nodeId
  | .fetchServers => True
  | .finish message => FitsText message.nodeId

variable {runtime : ControlRuntime}

theorem cmd_of_ofDelivered {delivered : Delivered WireMeta} {request : NodeRequest}
    (h : ofDelivered runtime delivered = some request) :
    delivered.message.cmd = .ofNat request.cmd.number := by
  simp only [ofDelivered] at h
  split at h
  · next hCmd => cases h; exact hCmd
  split at h
  · next hCmd => cases h; exact hCmd
  split at h
  · next hCmd => cases h; exact hCmd
  split at h
  · next hCmd => cases h; exact hCmd
  · cases h

theorem ofDelivered_payload {request : NodeRequest} (h : request.Fits) (nodeId : String)
    {delivered : Delivered WireMeta} (hCmd : delivered.message.cmd = .ofNat request.cmd.number)
    (hData : delivered.data = request.payload runtime nodeId) :
    ofDelivered runtime delivered = some request := by
  cases request with
  | register message =>
    simp only [ofDelivered, hCmd, hData, cmd, payload]
    rw [if_neg (by decide), if_pos trivial, runtime.register.parse_serialize _ h]
  | heartbeat message =>
    simp only [ofDelivered, hCmd, hData, cmd, payload]
    rw [if_pos trivial, runtime.heartbeat.parse_serialize _ h]
  | fetchServers =>
    simp only [ofDelivered, hCmd, cmd]
    rw [if_neg (by decide), if_neg (by decide), if_neg (by decide), if_pos trivial]
  | finish message =>
    simp only [ofDelivered, hCmd, hData, cmd, payload]
    rw [if_neg (by decide), if_neg (by decide), if_pos trivial, runtime.finish.parse_serialize _ h]

theorem length_payload_lt (runtime : ControlRuntime) {request : NodeRequest} (h : request.Fits)
    {nodeId : String} (hNodeId : FitsText nodeId) :
    (request.payload runtime nodeId).length < 2 ^ 31 := by
  cases request with
  | register message => exact runtime.register.length_lt _ h
  | heartbeat message => exact runtime.heartbeat.length_lt _ h
  | fetchServers => exact runtime.fetchServers.length_lt _ hNodeId
  | finish message => exact runtime.finish.length_lt _ h

end NodeRequest

/-! ## Responses -/

namespace NodeResponse

/-- The message that the scheduler serializes; the answer to `FinishMessage` is its bytes. -/
def payload (runtime : ControlRuntime) (request : Bytes) : NodeResponse → Bytes
  | .register message => runtime.registerResp.serializeAsString message
  | .heartbeat message => runtime.heartbeatResp.serializeAsString message.attributes
  | .fetchServers serversMeta => runtime.fetchServersResp.serializeAsString serversMeta
  | .finish => request
  | .data => request
  | .unsupported _ => request

/-- What the handlers of the node take a message of the scheduler for; `none` if `at` does not find
an attribute. -/
def ofDelivered (runtime : ControlRuntime) (delivered : Delivered WireMeta) :
    Option NodeResponse :=
  let cmd := delivered.message.cmd
  if cmd = .ofNat NodeCommand.heartbeat.number then
    (HeartbeatRespMessage.ofAttributes (runtime.heartbeatResp.parseFromArray delivered.data)).map
      .heartbeat
  else if cmd = .ofNat NodeCommand.register.number then
    some (.register (runtime.registerResp.parseFromArray delivered.data))
  else if cmd = .ofNat NodeCommand.fetchServer.number then
    some (.fetchServers (runtime.fetchServersResp.parseFromArray delivered.data))
  else if cmd = .ofNat NodeCommand.finish.number then some .finish
  else some (.unsupported cmd.toInt)

def Fits : NodeResponse → Prop
  | .register message => message.Fits
  | .fetchServers serversMeta => ServersMeta.FitAll serversMeta
  | _ => True

instance : (response : NodeResponse) → Decidable response.Fits
  | .register message => inferInstanceAs (Decidable message.Fits)
  | .heartbeat _ => isTrue trivial
  | .fetchServers serversMeta => inferInstanceAs (Decidable (ServersMeta.FitAll serversMeta))
  | .finish => isTrue trivial
  | .data => isTrue trivial
  | .unsupported _ => isTrue trivial

def Answers : NodeResponse → NodeCommand → Prop
  | .register _, .register => True
  | .heartbeat _, .heartbeat => True
  | .fetchServers _, .fetchServer => True
  | .finish, .finish => True
  | _, _ => False

theorem Answers.unique {response : NodeResponse} {cmd cmd' : NodeCommand}
    (h : response.Answers cmd) (h' : response.Answers cmd') : cmd = cmd' := by
  cases response <;> cases cmd <;> cases h <;> cases cmd' <;> cases h' <;> rfl

variable {runtime : ControlRuntime}

theorem ofDelivered_payload {response : NodeResponse} (h : response.Fits) {cmd : NodeCommand}
    (hAnswers : response.Answers cmd) {request : Bytes} {delivered : Delivered WireMeta}
    (hCmd : delivered.message.cmd = .ofNat cmd.number)
    (hData : delivered.data = response.payload runtime request) :
    ofDelivered runtime delivered = some response := by
  cases response with
  | register message =>
    cases cmd <;> cases hAnswers
    simp only [ofDelivered, hCmd, hData, payload]
    rw [if_neg (by decide), if_pos trivial, runtime.registerResp.parse_serialize _ h]
  | heartbeat message =>
    cases cmd <;> cases hAnswers
    simp only [ofDelivered, hCmd, hData, payload]
    rw [if_pos trivial, runtime.heartbeatResp.parse_serialize _ ⟨message, rfl⟩,
      HeartbeatRespMessage.ofAttributes_attributes, Option.map_some]
  | fetchServers serversMeta =>
    cases cmd <;> cases hAnswers
    simp only [ofDelivered, hCmd, hData, payload]
    rw [if_neg (by decide), if_neg (by decide), if_pos trivial,
      runtime.fetchServersResp.parse_serialize _ h]
  | finish =>
    cases cmd <;> cases hAnswers
    simp only [ofDelivered, hCmd]
    rw [if_neg (by decide), if_neg (by decide), if_neg (by decide), if_pos trivial]
  | data => cases hAnswers
  | unsupported cmd => cases hAnswers

theorem length_payload_lt (runtime : ControlRuntime) {response : NodeResponse} (h : response.Fits)
    {request : Bytes} {metaLength : Nat} (hMeta : metaLength < 2 ^ 31)
    (hRequest : metaLength + request.length < 2 ^ 63) :
    metaLength + (response.payload runtime request).length < 2 ^ 63 := by
  have hBound {length : Nat} (hLength : length < 2 ^ 31) : metaLength + length < 2 ^ 63 := by
    omega
  cases response with
  | register message => exact hBound (runtime.registerResp.length_lt _ h)
  | heartbeat message => exact hBound (runtime.heartbeatResp.length_lt _ ⟨message, rfl⟩)
  | fetchServers serversMeta => exact hBound (runtime.fetchServersResp.length_lt _ h)
  | finish => exact hRequest
  | data => exact hRequest
  | unsupported cmd => exact hRequest

end NodeResponse

namespace SchedulerNode

/-- The message callback of `CreateTcpServer`: the bytes that it sends back, and the state. -/
def onMessage (runtime : ControlRuntime) (s : SchedulerNode) (now : Int)
    (delivered : Delivered WireMeta) : Except Fault Bytes × SchedulerNode :=
  let cmd := delivered.message.cmd
  let data := delivered.data
  if cmd = .ofNat NodeCommand.heartbeat.number then
    let result := s.processHeartbeat now (runtime.heartbeat.parseFromArray data)
    (.ok (runtime.heartbeatResp.serializeAsString result.1.attributes), result.2)
  else if cmd = .ofNat NodeCommand.register.number then
    let result := s.processRegister now (runtime.register.parseFromArray data)
    (result.1.map runtime.registerResp.serializeAsString, result.2)
  else if cmd = .ofNat NodeCommand.finish.number then
    (.ok data, (s.processFinish ⟨runtime.finish.parseFromArray data⟩).2)
  else if cmd = .ofNat NodeCommand.fetchServer.number then
    let result := s.processFetchServers
    (.ok (runtime.fetchServersResp.serializeAsString result.1), result.2)
  else (.error (.exception ("The cmd:" ++ toString cmd.toInt ++ " is not supported!")), s)

/-- The callback does what `Session` says that the scheduler does for the request. -/
theorem onMessage_of_ofDelivered {runtime : ControlRuntime} (s : SchedulerNode) (now : Int)
    {delivered : Delivered WireMeta} {request : NodeRequest}
    (h : NodeRequest.ofDelivered runtime delivered = some request) :
    (s.onMessage runtime now delivered).2 = s.step (request.label now) ∧
      (s.onMessage runtime now delivered).1.toOption =
        (s.answer now request).map (·.payload runtime delivered.data) := by
  simp only [NodeRequest.ofDelivered] at h
  simp only [onMessage]
  split at h
  · next hCmd =>
    cases h
    rw [if_pos hCmd]
    exact ⟨rfl, rfl⟩
  next hHeartbeat =>
  rw [if_neg hHeartbeat]
  split at h
  · next hCmd =>
    cases h
    rw [if_pos hCmd]
    refine ⟨rfl, ?_⟩
    simp only [answer]
    split
    · next hError => rw [hError]; rfl
    · next hOk => rw [hOk]; rfl
  next hRegister =>
  rw [if_neg hRegister]
  split at h
  · next hCmd =>
    cases h
    rw [if_pos hCmd]
    exact ⟨rfl, rfl⟩
  next hFinish =>
  rw [if_neg hFinish]
  split at h
  · next hCmd =>
    cases h
    rw [if_pos hCmd]
    exact ⟨rfl, rfl⟩
  · cases h

theorem answers_of_answer {s : SchedulerNode} {now : Int} {request : NodeRequest}
    {response : NodeResponse} (h : s.answer now request = some response) :
    response.Answers request.cmd := by
  cases request with
  | register message =>
    rw [answer] at h
    split at h
    · cases h
    · cases h
      trivial
  | heartbeat message => cases h; trivial
  | fetchServers => cases h; trivial
  | finish message => cases h; trivial

end SchedulerNode

/-! ## The session -/

def requestItem (runtime : ControlRuntime) (delivered : Delivered WireMeta) :
    Option (Nat × NodeRequest) :=
  (NodeRequest.ofDelivered runtime delivered).map fun request =>
    (delivered.message.requestId.toNat, request)

def responseItem (runtime : ControlRuntime) (delivered : Delivered WireMeta) :
    Option (Nat × NodeResponse) :=
  (NodeResponse.ofDelivered runtime delivered).map fun response =>
    (delivered.message.requestId.toNat, response)

/-- `up` carries the requests, `down` the responses. -/
structure WireSession where
  client : Client
  scheduler : SchedulerNode
  up : Channel
  down : Channel
  handled : List NodeResponse

/-- `serve` and `take` are the calls of the two message callbacks; a read event gets `count` bytes
or what is there. -/
inductive WireLabel where
  | client (label : ClientLabel)
  | schedulerRead (count : Nat)
  | serve (now : Int)
  | nodeRead (count : Nat)
  | take
  | scheduler (label : SchedulerLabel)

namespace WireSession

def new (node : ClusterNode) (status : NodeStatus) (config : ClusterConfig)
    (upJunk downJunk : Vector UInt8 kHeaderLen) : WireSession :=
  ⟨.new node status, .new config, .new upJunk, .new downJunk, []⟩

def sendRequests (endian : Endian) (runtime : ControlRuntime) (nodeId : String) (up : Channel)
    (requests : List (Nat × NodeRequest)) : Except Fault Channel :=
  requests.foldlM
    (fun up request => up.send endian .client runtime .protobuf (request.2.wireMeta request.1)
      (request.2.payload runtime nodeId)) up

def move (endian : Endian) (runtime : ControlRuntime) (times : ClusterTimes) (w : WireSession)
    (label : ClientLabel) : Option WireSession :=
  (w.client.step times label).bind fun client =>
    (sendRequests endian runtime w.client.node.nodeInfo.nodeId w.up
      (client.sent.drop w.client.sent.length)).toOption.map fun up =>
        { w with client := client, up := up }

def step (endian : Endian) (runtime : ControlRuntime) (times : ClusterTimes) (w : WireSession) :
    WireLabel → Option WireSession
  | .client label => if label.isOwn then w.move endian runtime times label else none
  | .schedulerRead count => (w.up.read endian count).toOption.map fun up => { w with up := up }
  | .serve now =>
    (w.up.next runtime).bind fun call =>
      let result := w.scheduler.onMessage runtime now call.1
      match result.1.toOption with
      | none => some { w with scheduler := result.2, up := call.2 }
      | some data =>
        (w.down.send endian .connection runtime .protobuf call.1.message data).toOption.map
          fun down => { w with scheduler := result.2, up := call.2, down := down }
  | .nodeRead count => (w.down.read endian count).toOption.map fun down => { w with down := down }
  | .take =>
    (w.down.next runtime).bind fun call =>
      (responseItem runtime call.1).bind fun response =>
        { w with down := call.2, handled := w.handled ++ [response.2] }.move endian runtime times
          (.take response.1 response.2)
  | .scheduler label => some { w with scheduler := w.scheduler.step label }

def nextAnswer (runtime : ControlRuntime) (w : WireSession) (now : Int) : Option NodeResponse :=
  (w.up.next runtime).bind fun call =>
    (NodeRequest.ofDelivered runtime call.1).bind fun request => w.scheduler.answer now request

/-- The next request id and the values of the node, or those of the next answer, are such that the
fields of a message can hold them. -/
def Fits (runtime : ControlRuntime) (w : WireSession) : WireLabel → Prop
  | .serve now => ∀ response ∈ w.nextAnswer runtime now, response.Fits
  | _ => w.client.node.registerMessage.Fits ∧ w.client.tracker.nextRequestId + 1 < 2 ^ 64

instance (runtime : ControlRuntime) (w : WireSession) :
    (label : WireLabel) → Decidable (w.Fits runtime label)
  | .serve now =>
    match h : w.nextAnswer runtime now with
    | none => isTrue (by simp [Fits, h])
    | some response => decidable_of_iff response.Fits (by simp [Fits, h])
  | .client _ => inferInstanceAs (Decidable (_ ∧ _))
  | .schedulerRead _ => inferInstanceAs (Decidable (_ ∧ _))
  | .nodeRead _ => inferInstanceAs (Decidable (_ ∧ _))
  | .take => inferInstanceAs (Decidable (_ ∧ _))
  | .scheduler _ => inferInstanceAs (Decidable (_ ∧ _))

structure Refines (endian : Endian) (runtime : ControlRuntime) (w : WireSession) (s : Session) :
    Prop where
  client : w.client = s.client
  scheduler : w.scheduler = s.scheduler
  handled : w.handled = s.handled
  requests : w.up.Conveys runtime endian (requestItem runtime) s.requests
  responses : w.down.Conveys runtime endian (responseItem runtime) s.responses

end WireSession

/-- What the node says about itself in a request is what it knows. -/
def NodeRequest.From (node : ClusterNode) : NodeRequest → Prop
  | .register message => message = node.registerMessage
  | .heartbeat message => message.nodeId = node.nodeInfo.nodeId
  | .fetchServers => True
  | .finish message => message.nodeId = node.nodeInfo.nodeId

theorem NodeRequest.From.fits {node : ClusterNode} {request : NodeRequest}
    (h : request.From node) (hFits : node.registerMessage.Fits) : request.Fits := by
  cases request with
  | register message =>
    cases h
    exact hFits
  | heartbeat message =>
    change FitsText message.nodeId
    rw [show message.nodeId = _ from h]
    exact hFits.nodeId
  | fetchServers => trivial
  | finish message =>
    change FitsText message.nodeId
    rw [show message.nodeId = _ from h]
    exact hFits.nodeId

/-- What a step of the node sends: at most one request, with the next id. -/
theorem Client.step_sent {times : ClusterTimes} {c c' : Client} {label : ClientLabel}
    (h : c.step times label = some c') :
    c'.sent = c.sent ∨ ∃ request, c'.sent = c.sent ++ [(c.tracker.nextRequestId + 1, request)] ∧
      request.From c.node ∧ (request.cmd = .heartbeat →
        c.timer = .sending ∨
          ∃ requestId message, label = .take requestId (.heartbeat message)) := by
  cases label with
  | register =>
    cases h
    exact .inr ⟨_, rfl, rfl, by rintro ⟨⟩⟩
  | fetchServers =>
    cases h
    exact .inr ⟨_, rfl, trivial, by rintro ⟨⟩⟩
  | disconnect =>
    cases h
    exact .inr ⟨_, rfl, rfl, by rintro ⟨⟩⟩
  | addMessageTrack expected =>
    cases h
    exact .inl rfl
  | waitTurn requestId timedOut =>
    rw [step] at h
    split at h
    · cases h
      exact .inl rfl
    · cases h
  | stop =>
    cases h
    exact .inl rfl
  | timerCheck =>
    rw [step] at h
    split at h
    · cases h
      exact .inl rfl
    · cases h
  | timerSend =>
    rw [step] at h
    split at h
    · next hSending =>
      cases h
      exact .inr ⟨_, rfl, rfl, fun _ => .inl hSending⟩
    · cases h
  | timerWait timedOut now =>
    rw [step] at h
    split at h
    · dsimp only at h
      split at h
      · cases h
        exact .inl rfl
      · cases h
        exact .inl rfl
    · cases h
  | take requestId response =>
    obtain ⟨_, rfl⟩ := take_eq_some h
    cases response with
    | register message =>
      left
      rw [takeResponse]
      split
      · rfl
      · rfl
    | heartbeat message =>
      simp only [takeResponse, processHeartbeatResp]
      split
      · exact .inr ⟨_, rfl, rfl, fun _ => .inr ⟨requestId, message, rfl⟩⟩
      · exact .inl rfl
    | _ => exact .inl rfl
  | loopWait timedOut =>
    rw [step] at h
    split at h
    · dsimp only at h
      split at h
      · cases h
        exact .inl rfl
      · cases h
        exact .inl rfl
    · cases h

namespace WireSession

variable {endian : Endian} {runtime : ControlRuntime} {times : ClusterTimes} {w w' : WireSession}
  {s : Session}

theorem cmd_ne_zero (request : NodeRequest) : Int32.ofNat request.cmd.number ≠ 0 := by
  cases request with
  | register _ => exact (by decide : Int32.ofNat NodeCommand.register.number ≠ 0)
  | heartbeat _ => exact (by decide : Int32.ofNat NodeCommand.heartbeat.number ≠ 0)
  | fetchServers => exact (by decide : Int32.ofNat NodeCommand.fetchServer.number ≠ 0)
  | finish _ => exact (by decide : Int32.ofNat NodeCommand.finish.number ≠ 0)

theorem conveys_sendRequests {up : Channel} {items : List (Nat × NodeRequest)}
    (h : up.Conveys runtime endian (requestItem runtime) items) {nodeId : String}
    (hNodeId : FitsText nodeId) {requestId : Nat} (hId : requestId < 2 ^ 64) {request : NodeRequest}
    (hFits : request.Fits) :
    ∃ up', sendRequests endian runtime nodeId up [(requestId, request)] = .ok up' ∧
      up'.Conveys runtime endian (requestItem runtime) (items ++ [(requestId, request)]) := by
  have hLength : (runtime.serializeAsString (request.wireMeta requestId)).length +
      (request.payload runtime nodeId).length < 2 ^ 63 := by
    have hMeta := runtime.length_lt (request.wireMeta requestId)
    have hPayload := request.length_payload_lt runtime hFits hNodeId
    omega
  have hItem : requestItem runtime (runtime.outgoing (request.wireMeta requestId) .protobuf
      (request.payload runtime nodeId) (cmd_ne_zero request) hLength).delivered =
        some (requestId, request) := by
    rw [requestItem, NodeRequest.ofDelivered_payload hFits nodeId rfl rfl, Option.map_some]
    change some ((UInt64.ofNat requestId).toNat, request) = _
    rw [UInt64.toNat_ofNat_of_lt' hId]
  obtain ⟨up', hSend, hConveys⟩ := h.send .client hItem
  refine ⟨up', ?_, hConveys⟩
  rw [sendRequests, List.foldlM_cons]
  change (up.send endian .client runtime .protobuf (request.wireMeta requestId)
    (request.payload runtime nodeId) >>= pure) = _
  rw [bind_pure]
  exact hSend

theorem Refines.move (h : w.Refines endian runtime s) {label : ClientLabel} {client : Client}
    (hFits : w.client.node.registerMessage.Fits)
    (hId : w.client.tracker.nextRequestId + 1 < 2 ^ 64)
    (hStep : w.client.step times label = some client) :
    ∃ w' s', w.move endian runtime times label = some w' ∧ s.move times label = some s' ∧
      w'.Refines endian runtime s' := by
  have hMove : s.move times label = some { s with
      client := client, requests := s.requests ++ client.sent.drop s.client.sent.length } := by
    rw [Session.move, ← h.client, hStep]
    rfl
  rw [WireSession.move, hStep, Option.bind_some]
  rw [← h.client] at hMove
  rcases Client.step_sent hStep with hSent | ⟨request, hSent, hRequest, _⟩
  · rw [hSent, List.drop_length] at hMove ⊢
    rw [List.append_nil] at hMove
    exact ⟨{ w with client := client }, _, rfl, hMove, rfl, h.scheduler, h.handled, h.requests,
      h.responses⟩
  · rw [hSent, List.drop_left] at hMove ⊢
    have hNodeId : FitsText w.client.node.nodeInfo.nodeId := hFits.nodeId
    obtain ⟨up, hSend, hUp⟩ := conveys_sendRequests h.requests hNodeId hId (hRequest.fits hFits)
    rw [hSend]
    exact ⟨{ w with client := client, up := up }, _, rfl, hMove, rfl, h.scheduler, h.handled, hUp,
      h.responses⟩

theorem Refines.nextAnswer_eq (h : w.Refines endian runtime s) (now : Int)
    {request : Nat × NodeRequest}
    {rest : List (Nat × NodeRequest)} (hQueue : s.requests = request :: rest)
    (hCalls : w.up.calls ≠ []) : w.nextAnswer runtime now = s.scheduler.answer now request.2 := by
  have hRequests := h.requests
  rw [hQueue] at hRequests
  obtain ⟨m, up, hNext, hItem, _⟩ := hRequests.next hCalls
  obtain ⟨decoded, hDecoded, rfl⟩ := Option.map_eq_some_iff.mp hItem
  rw [nextAnswer, hNext, Option.bind_some, hDecoded, Option.bind_some, h.scheduler]

theorem Refines.serve (h : w.Refines endian runtime s) {now : Int}
    (hFits : ∀ response ∈ w.nextAnswer runtime now, response.Fits) (hCalls : w.up.calls ≠ []) :
    ∃ w' s', w.step endian runtime times (.serve now) = some w' ∧
      s.step times (.process 0 now) = some s' ∧ w'.Refines endian runtime s' := by
  have hRequests := h.requests
  cases hQueue : s.requests with
  | nil =>
    rw [hQueue] at hRequests
    have hNone := hRequests.length_calls_le
    exact absurd (List.length_eq_zero_iff.mp (Nat.le_zero.mp hNone)) hCalls
  | cons item rest =>
    rw [hQueue] at hRequests
    obtain ⟨m, up, hNext, hItem, hUp⟩ := hRequests.next hCalls
    obtain ⟨request, hRequest, rfl⟩ := Option.map_eq_some_iff.mp hItem
    obtain ⟨hState, hReply⟩ :=
      SchedulerNode.onMessage_of_ofDelivered w.scheduler now hRequest
    have hProcess : s.step times (.process 0 now) = some { s with
        scheduler := w.scheduler.step (request.label now)
        requests := rest
        responses := s.responses ++ (w.scheduler.answer now request).toList.map fun response =>
          (m.delivered.message.requestId.toNat, response) } := by
      rw [Session.step, hQueue, h.scheduler]
      rfl
    rw [WireSession.step, hNext, Option.bind_some]
    dsimp only
    rw [hState, hReply]
    cases hAnswer : w.scheduler.answer now request with
    | none =>
      rw [hAnswer] at hProcess
      refine ⟨_, _, rfl, hProcess, h.client, rfl, h.handled, hUp, ?_⟩
      simpa using h.responses
    | some response =>
      have hResponse : response.Fits := by
        apply hFits
        rw [h.nextAnswer_eq now hQueue hCalls, ← h.scheduler, hAnswer]
        rfl
      have hCmd := NodeRequest.cmd_of_ofDelivered hRequest
      have hNonzero : m.message.cmd ≠ 0 := by
        rw [show m.message.cmd = _ from hCmd]
        exact cmd_ne_zero request
      have hLength :=
        response.length_payload_lt runtime hResponse (runtime.length_lt m.message) m.fits
      let reply := runtime.outgoing m.message .protobuf (response.payload runtime m.data) hNonzero
        hLength
      have hDecoded : NodeResponse.ofDelivered runtime reply.delivered = some response :=
        NodeResponse.ofDelivered_payload hResponse
          (SchedulerNode.answers_of_answer hAnswer) hCmd rfl
      have hSent : responseItem runtime reply.delivered =
          some (m.delivered.message.requestId.toNat, response) := by
        rw [responseItem, hDecoded]
        rfl
      obtain ⟨down, hSend, hDown⟩ := h.responses.send .connection hSent
      rw [hAnswer] at hProcess
      refine ⟨{ w with
        scheduler := w.scheduler.step (request.label now), up := up, down := down }, _, ?_,
        hProcess,
        h.client, rfl, h.handled, hUp, hDown⟩
      change (w.down.send endian .connection runtime .protobuf m.message
        (response.payload runtime m.data)).toOption.map _ = _
      rw [show w.down.send endian .connection runtime .protobuf m.message
        (response.payload runtime m.data) = .ok down from hSend]
      rfl

theorem Refines.take (h : w.Refines endian runtime s) (hCalls : w.down.calls ≠ []) :
    ∃ (requestId : Nat) (response : NodeResponse) (w' : WireSession) (s' : Session),
      w.step endian runtime times .take = w'.move endian runtime times (.take requestId response) ∧
      s.step times (.take 0) = s'.move times (.take requestId response) ∧
      w'.client = w.client ∧ w'.Refines endian runtime s' := by
  have hResponses := h.responses
  cases hQueue : s.responses with
  | nil =>
    rw [hQueue] at hResponses
    have hNone := hResponses.length_calls_le
    exact absurd (List.length_eq_zero_iff.mp (Nat.le_zero.mp hNone)) hCalls
  | cons item rest =>
    rw [hQueue] at hResponses
    obtain ⟨m, down, hNext, hItem, hDown⟩ := hResponses.next hCalls
    refine ⟨item.1, item.2, { w with down := down, handled := w.handled ++ [item.2] },
      { s with responses := rest, handled := s.handled ++ [item.2] }, ?_, ?_, rfl, h.client,
      h.scheduler, congrArg (· ++ [item.2]) h.handled, h.requests, hDown⟩
    · rw [WireSession.step, hNext, Option.bind_some]
      dsimp only
      rw [hItem, Option.bind_some]
    · rw [Session.step, hQueue]
      rfl

end WireSession

/-- Each queue is taken from its front. -/
def SessionLabel.InOrder : SessionLabel → Prop
  | .process place _ => place = 0
  | .take place => place = 0
  | _ => True

instance SessionLabel.decidableInOrder : (label : SessionLabel) → Decidable label.InOrder
  | .client _ => isTrue trivial
  | .process place _ => inferInstanceAs (Decidable (place = 0))
  | .take place => inferInstanceAs (Decidable (place = 0))
  | .scheduler _ => isTrue trivial

def WireLabel.toSession : WireLabel → Option SessionLabel
  | .client label => some (.client label)
  | .schedulerRead _ => none
  | .serve now => some (.process 0 now)
  | .nodeRead _ => none
  | .take => some (.take 0)
  | .scheduler label => some (.scheduler label)

theorem WireLabel.inOrder_of_toSession {label : WireLabel} {l : SessionLabel}
    (h : label.toSession = some l) : l.InOrder := by
  cases label with
  | client _ => cases h; trivial
  | schedulerRead _ => cases h
  | serve _ => cases h; rfl
  | nodeRead _ => cases h
  | take => cases h; rfl
  | scheduler _ => cases h; trivial

namespace WireSession

variable {endian : Endian} {runtime : ControlRuntime} {times : ClusterTimes} {w w' : WireSession}
  {s : Session}

theorem refines_new (endian : Endian) (runtime : ControlRuntime) (node : ClusterNode)
    (status : NodeStatus) (config : ClusterConfig) (upJunk downJunk : Vector UInt8 kHeaderLen) :
    (new node status config upJunk downJunk).Refines endian runtime (.new node status config) :=
  ⟨rfl, rfl, rfl, Channel.conveys_new upJunk, Channel.conveys_new downJunk⟩

theorem Refines.schedulerRead (h : w.Refines endian runtime s) (count : Nat) :
    ∃ w', w.step endian runtime times (.schedulerRead count) = some w' ∧
      w'.Refines endian runtime s := by
  obtain ⟨up, hRead, _, hUp⟩ := h.requests.read count
  refine ⟨{ w with up := up }, ?_, h.client, h.scheduler, h.handled, hUp, h.responses⟩
  rw [step, hRead]
  rfl

theorem Refines.nodeRead (h : w.Refines endian runtime s) (count : Nat) :
    ∃ w', w.step endian runtime times (.nodeRead count) = some w' ∧
      w'.Refines endian runtime s := by
  obtain ⟨down, hRead, _, hDown⟩ := h.responses.read count
  refine ⟨{ w with down := down }, ?_, h.client, h.scheduler, h.handled, h.requests, hDown⟩
  rw [step, hRead]
  rfl

theorem calls_ne_nil_of_next {c c' : Channel} {delivered : Delivered WireMeta}
    (h : c.next runtime = some (delivered, c')) : c.calls ≠ [] := by
  rintro hEmpty
  rw [Channel.next, hEmpty] at h
  cases h

/-- Each step on the bytes is no step or one step of `Session`. -/
theorem Refines.step (h : w.Refines endian runtime s) {label : WireLabel}
    (hFits : w.Fits runtime label)
    (hStep : w.step endian runtime times label = some w') :
    ∃ s', exec (Session.step times) s label.toSession.toList = some s' ∧
      w'.Refines endian runtime s' := by
  have hOne {l : SessionLabel} {s' : Session} (hSession : s.step times l = some s') :
      exec (Session.step times) s [l] = some s' := Option.bind_eq_some_iff.mpr ⟨s', hSession, rfl⟩
  cases label with
  | client label =>
    rw [WireSession.step] at hStep
    split at hStep
    · next hOwn =>
      obtain ⟨client, hClient, _⟩ := Option.bind_eq_some_iff.mp hStep
      obtain ⟨next, s', hMove, hSession, hNext⟩ := h.move hFits.1 hFits.2 hClient
      cases hMove.symm.trans hStep
      refine ⟨s', hOne ?_, hNext⟩
      rw [Session.step, if_pos hOwn, hSession]
    · cases hStep
  | schedulerRead count =>
    obtain ⟨next, hRead, hNext⟩ := h.schedulerRead count
    cases hRead.symm.trans hStep
    exact ⟨s, rfl, hNext⟩
  | serve now =>
    obtain ⟨call, hCall, _⟩ := Option.bind_eq_some_iff.mp hStep
    obtain ⟨next, s', hServe, hSession, hNext⟩ :=
      h.serve hFits (calls_ne_nil_of_next hCall)
    cases hServe.symm.trans hStep
    exact ⟨s', hOne hSession, hNext⟩
  | nodeRead count =>
    obtain ⟨next, hRead, hNext⟩ := h.nodeRead count
    cases hRead.symm.trans hStep
    exact ⟨s, rfl, hNext⟩
  | take =>
    obtain ⟨call, hCall, _⟩ := Option.bind_eq_some_iff.mp hStep
    obtain ⟨requestId, response, mid, sMid, hTake, hSession, hClient, hMid⟩ :=
      h.take (calls_ne_nil_of_next hCall)
    rw [hTake] at hStep
    obtain ⟨client, hClientStep, _⟩ := Option.bind_eq_some_iff.mp hStep
    have hMidFits : mid.client.node.registerMessage.Fits ∧
        mid.client.tracker.nextRequestId + 1 < 2 ^ 64 := by
      rw [hClient]
      exact hFits
    obtain ⟨next, s', hMove, hSessionMove, hNext⟩ := hMid.move hMidFits.1 hMidFits.2 hClientStep
    cases hMove.symm.trans hStep
    exact ⟨s', hOne (hSession.trans hSessionMove), hNext⟩
  | scheduler label =>
    cases hStep
    refine ⟨{ s with scheduler := s.scheduler.step label }, hOne rfl, h.client, ?_, h.handled,
      h.requests, h.responses⟩
    rw [h.scheduler]

theorem Refines.serves (h : w.Refines endian runtime s) {item : Nat × NodeRequest}
    {rest : List (Nat × NodeRequest)} (hQueue : s.requests = item :: rest) (now : Int)
    (hRead : w.Fits runtime (.schedulerRead w.up.link.output.length))
    (hAnswer : ∀ response ∈ s.scheduler.answer now item.2, response.Fits) :
    ∃ w' s', exec (restrict (Fits runtime) (WireSession.step endian runtime times)) w
        [.schedulerRead w.up.link.output.length, .serve now] = some w' ∧
      s.step times (.process 0 now) = some s' ∧ w'.Refines endian runtime s' := by
  obtain ⟨up, hUp, hOutput, hRequests⟩ := h.requests.read w.up.link.output.length
  rw [List.drop_length] at hOutput
  have hMid : Refines endian runtime { w with up := up } s :=
    ⟨h.client, h.scheduler, h.handled, hRequests, h.responses⟩
  have hCalls : up.calls ≠ [] := by
    rw [hQueue] at hRequests
    exact List.ne_nil_of_length_eq_add_one (hRequests.length_calls hOutput)
  have hFits : Fits runtime { w with up := up } (.serve now) := by
    rw [Fits, hMid.nextAnswer_eq now hQueue hCalls]
    exact hAnswer
  obtain ⟨w', s', hServe, hSession, hRefines⟩ := hMid.serve hFits hCalls
  have hArrive : w.step endian runtime times (.schedulerRead w.up.link.output.length) =
      some { w with up := up } := by
    rw [WireSession.step, hUp]
    rfl
  exact ⟨w', s', exec_restrict_cons hRead hArrive (exec_restrict_cons hFits hServe rfl), hSession,
    hRefines⟩

theorem Refines.takes (h : w.Refines endian runtime s) {item : Nat × NodeResponse}
    {rest : List (Nat × NodeResponse)} (hQueue : s.responses = item :: rest) {s' : Session}
    (hFits : w.Fits runtime .take) (hTake : s.step times (.take 0) = some s') :
    ∃ w', exec (restrict (Fits runtime) (WireSession.step endian runtime times)) w
        [.nodeRead w.down.link.output.length, .take] = some w' ∧ w'.Refines endian runtime s' := by
  obtain ⟨down, hDown, hOutput, hResponses⟩ := h.responses.read w.down.link.output.length
  rw [List.drop_length] at hOutput
  have hMid : Refines endian runtime { w with down := down } s :=
    ⟨h.client, h.scheduler, h.handled, h.requests, hResponses⟩
  have hCalls : down.calls ≠ [] := by
    rw [hQueue] at hResponses
    exact List.ne_nil_of_length_eq_add_one (hResponses.length_calls hOutput)
  obtain ⟨requestId, response, mid, sMid, hStep, hSession, hClient, hRefines⟩ := hMid.take hCalls
  rw [hSession] at hTake
  obtain ⟨client, hClientStep, _⟩ := Option.map_eq_some_iff.mp hTake
  rw [← hRefines.client] at hClientStep
  have hMidFits : mid.client.node.registerMessage.Fits ∧
      mid.client.tracker.nextRequestId + 1 < 2 ^ 64 := by
    rw [hClient]
    exact hFits
  obtain ⟨w', s'', hMove, hSessionMove, hNext⟩ := hRefines.move hMidFits.1 hMidFits.2 hClientStep
  cases hSessionMove.symm.trans hTake
  have hArrive : w.step endian runtime times (.nodeRead w.down.link.output.length) =
      some { w with down := down } := by
    rw [WireSession.step, hDown]
    rfl
  exact ⟨w', exec_restrict_cons hFits hArrive
    (exec_restrict_cons hFits (hStep.trans hMove) rfl), hNext⟩

theorem Refines.restrict_step (h : w.Refines endian runtime s) {label : WireLabel}
    (hStep : restrict (Fits runtime) (WireSession.step endian runtime times) w label = some w') :
    ∃ labels s', exec (restrict (fun _ label => label.InOrder) (Session.step times)) s labels =
      some s' ∧ w'.Refines endian runtime s' := by
  obtain ⟨hFits, hStep⟩ := restrict_eq_some.mp hStep
  obtain ⟨s', hRun, hRefines⟩ := h.step hFits hStep
  refine ⟨label.toSession.toList, s', exec_restrict_iff.mpr ⟨hRun, ?_⟩, hRefines⟩
  intro before l after mid hLabels _
  apply WireLabel.inOrder_of_toSession
  rw [← Option.mem_toList, hLabels]
  exact List.mem_append_right _ List.mem_cons_self

end WireSession

end PsRpc
