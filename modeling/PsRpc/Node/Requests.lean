import PsRpc.Node.Send
import PsRpc.Node.Tracker

/-! # The requests of a node and its event loop

The threads that call `Send` or `Broadcast`, the servers that answer, and the one event loop that
takes the responses, as a transition function. Each section that the source runs under a mutex is
one step: `AddMessageTrack`, `set_message_callback`, a turn of `Wait`, `ProcessSendDataResp`, the
first part of `RunMessageCallback` with `CheckMessageTrack`, the run of the stored closure, the
erasure of its entry, and `NotifyMessageArrival`.
-/

namespace PsRpc

open Execution

structure Request extends Plan where
  shaped : toPlan.Shaped

def Invocation.request (view : NodeView) (invocation : Invocation) : Except Fault Request :=
  match h : invocation.plan view with
  | .error fault => .error fault
  | .ok plan => .ok ⟨plan, plan_shaped h⟩

inductive Reply where
  | pending
  | answered (data : Bytes)
  | handled (data : Bytes)
deriving DecidableEq, Repr

structure Message where
  rankId : UInt32
  data : Bytes
  reply : Reply
deriving DecidableEq, Repr

inductive Status where
  | running
  | waited (res : Bool)
  | returned (res : Bool)
  | raised (fault : Fault)
deriving DecidableEq, Repr

/-- The frame of a call after its `AddMessageTrack`. `counted` are the responses that
`NotifyMessageArrival` counted while `Wait` had not returned. -/
structure Call where
  request : Request
  todo : List Action
  sent : List Message
  output : List VectorPtr
  status : Status
  counted : Nat

namespace Call

def new (request : Request) : Call := ⟨request, request.script, [], request.initial, .running, 0⟩

def messageMeta (call : Call) (requestId : Nat) : MessageMeta :=
  ⟨.sendData, requestId, call.request.view.role, call.request.view.rankId, call.request.command⟩

def setReply (call : Call) (k : Nat) (reply : Reply) : Call :=
  { call with sent := call.sent.modify k fun message => { message with reply := reply } }

def answer (call : Call) (k : Nat) (data : Bytes) : Option Call :=
  match call.sent[k]? with
  | some ⟨_, _, .pending⟩ => some (call.setReply k (.answered data))
  | _ => none

def response (call : Call) (k : Nat) : Option (UInt32 × Bytes) :=
  match call.sent[k]? with
  | some ⟨rankId, _, .answered data⟩ => some (rankId, data)
  | _ => none

/-- The body of the stored closure, on the copy `res` of the map of the request. -/
def runClosure (call : Call) (res : Table UInt32 Bytes) : Call :=
  match call.request.closure with
  | none => call
  | some .set => { call with output := call.request.rankIds.map res.lookup }
  | some .extend => { call with output := call.output ++ call.request.rankIds.map res.lookup }

def ended (call : Call) : Bool :=
  match call.status with
  | .waited _ | .returned _ => true
  | _ => false

def count (call : Call) : Call :=
  if call.ended then call else { call with counted := call.counted + 1 }

def finish (call : Call) : Option Call :=
  match call.status with
  | .waited res => some { call with status := .returned res }
  | _ => none

end Call

/-- `ServerNode::Response` writes the role and the rank id of the server into the meta. -/
def MessageMeta.response (requestMeta : MessageMeta) (rankId : UInt32) : MessageMeta :=
  { requestMeta with role := .server, rankId := rankId }

/-- Where the event loop is with a response: `ProcessSendDataResp` is done, a closure of the call
`frame` was found after `CheckMessageTrack`, it has run, `RunMessageCallback` is done, or an
exception has left the loop. -/
inductive Loop where
  | idle
  | stored (requestId : Nat)
  | found (requestId frame : Nat)
  | ran (requestId : Nat)
  | checked (requestId : Nat)
  | dead
deriving DecidableEq, Repr

/-- A call is known by its request id. The closure in `messageCallbacks` refers to the variables
of the call that registered it, so the entry is this call. -/
structure NodeState where
  tracker : MessageTracker
  messageCallbacks : Table Nat Nat
  receiveMessages : Table Nat (Table UInt32 Bytes)
  calls : Table Nat Call
  loop : Loop

/-- `act` is the next action of the thread of a call; `respond` hands the response to the message
`k` to the event loop, and `loop` is its next step. -/
inductive Label where
  | call (view : NodeView) (invocation : Invocation)
  | act (id : Nat)
  | waitTurn (id : Nat) (timedOut : Bool)
  | returns (id : Nat)
  | answer (id k : Nat) (data : Bytes)
  | respond (id k : Nat)
  | loop

namespace NodeState

def new : NodeState := ⟨.new, ∅, ∅, ∅, .idle⟩

def setCall (s : NodeState) (id : Nat) (call : Call) : NodeState :=
  { s with calls := s.calls.insert id call }

def begin (s : NodeState) (request : Request) : NodeState :=
  let added := s.tracker.addMessageTrack (UInt32.ofNat request.expected)
  { s with tracker := added.2 }.setCall added.1 (.new request)

def setMessageCallback (s : NodeState) (requestId : Nat) : NodeState :=
  { s with messageCallbacks := s.messageCallbacks.insert requestId requestId }

def act (s : NodeState) (id : Nat) (call : Call) : Option NodeState :=
  match call.todo with
  | .setMessageCallback :: rest =>
    some ((s.setMessageCallback id).setCall id { call with todo := rest })
  | .sendMessage rankId data :: rest =>
    some (s.setCall id
      { call with sent := call.sent ++ [⟨rankId, data, .pending⟩], todo := rest })
  | .raise fault :: _ => some (s.setCall id { call with status := .raised fault, todo := [] })
  | _ => none

def waitTurn (s : NodeState) (id : Nat) (call : Call) (timedOut : Bool) : Option NodeState :=
  if call.todo = [.wait] then
    let turn := s.tracker.waitTurn id timedOut
    match turn.1 with
    | some res =>
      some ({ s with tracker := turn.2 }.setCall id { call with status := .waited res, todo := [] })
    | none => some { s with tracker := turn.2 }
  else none

def processSendDataResp (s : NodeState) (respMeta : MessageMeta) (data : Bytes) :
    Except Fault NodeState :=
  if 0 < data.length ∧ memcpyS data.length data.length ≠ .eok then
    .error (memcpyError (memcpyS data.length data.length))
  else
    match s.receiveMessages.lookup respMeta.requestId with
    | some res => .ok { s with
        receiveMessages := s.receiveMessages.insert respMeta.requestId
          (res.insert respMeta.rankId data) }
    | none => .ok { s with
        receiveMessages := s.receiveMessages.insert respMeta.requestId
          (AList.insert respMeta.rankId data ∅) }

/-- `CheckMessageTrack` and the search in `message_callbacks_`. -/
def checkCallback (s : NodeState) (requestId : Nat) : NodeState :=
  let check := s.tracker.checkMessageTrack requestId
  match check.1, s.messageCallbacks.lookup requestId with
  | true, some frame => { s with tracker := check.2, loop := .found requestId frame }
  | _, _ => { s with tracker := check.2, loop := .checked requestId }

/-- The closure that the call `frame` registered: it takes the map of its request out of
`receive_messages_` and writes to the output of the call. -/
def runMessageCallback (s : NodeState) (frame : Nat) : Option NodeState :=
  (s.calls.lookup frame).map fun call =>
    { s with
      receiveMessages := (s.receiveMessages.subscript frame ∅).erase frame }.setCall frame
        (call.runClosure (s.receiveMessages.getD frame ∅))

def notifyMessageArrival (s : NodeState) (requestId : Nat) : Option NodeState :=
  (s.calls.lookup requestId).map fun call =>
    { s with tracker := s.tracker.notifyMessageArrival requestId }.setCall requestId call.count

def respond (s : NodeState) (id k : Nat) (call : Call) : Option NodeState :=
  (call.response k).map fun response =>
    match s.processSendDataResp ((call.messageMeta id).response response.1) response.2 with
    | .error _ => { s with loop := .dead }
    | .ok s' => { s' with loop := .stored id }.setCall id (call.setReply k (.handled response.2))

def turn (s : NodeState) : Option NodeState :=
  match s.loop with
  | .stored id => some (s.checkCallback id)
  | .found id frame => (s.runMessageCallback frame).map fun s' => { s' with loop := .ran id }
  | .ran id =>
    some { s with messageCallbacks := s.messageCallbacks.erase id, loop := .checked id }
  | .checked id => (s.notifyMessageArrival id).map fun s' => { s' with loop := .idle }
  | .idle | .dead => none

def step (s : NodeState) : Label → Option NodeState
  | .call view invocation =>
    match invocation.request view with
    | .error _ => some s
    | .ok request => some (s.begin request)
  | .act id => (s.calls.lookup id).bind fun call => s.act id call
  | .waitTurn id timedOut => (s.calls.lookup id).bind fun call => s.waitTurn id call timedOut
  | .returns id =>
    (s.calls.lookup id).bind fun call => call.finish.map fun call' => s.setCall id call'
  | .answer id k data =>
    (s.calls.lookup id).bind fun call => (call.answer k data).map fun call' => s.setCall id call'
  | .respond id k =>
    if s.loop = .idle then (s.calls.lookup id).bind fun call => s.respond id k call else none
  | .loop => s.turn

end NodeState

end PsRpc
