import Mathlib.Data.List.Perm.Basic
import PsRpc.Node.CallbackLifetime
import PsRpc.Node.Matching
import PsRpc.Node.Server
import PsRpc.Wire.TcpLink

/-! # Requests and responses, byte by byte

The calls of `Send` and `Broadcast` of a node and the servers that answer them, where each server
has a connection with the node that carries frames in both directions. A request handler may answer
its requests late and in any order. The node knows of an answer what it reads from the connection.
Every run on the bytes is a run of `NodeState`.
-/

namespace PsRpc

open Execution ByteOrder

def Message.forget (message : Message) : Message := { message with reply := .pending }

/-- The call without the replies, which only the servers know. -/
def Call.forget (call : Call) : Call := { call with sent := call.sent.map Message.forget }

theorem Call.forget_setReply (call : Call) (k : Nat) (reply : Reply) :
    (call.setReply k reply).forget = call.forget := by
  have hSent :
    (call.sent.modify k fun message => { message with reply := reply }).map Message.forget =
      call.sent.map Message.forget := by
    apply List.ext_getElem?
    intro i
    rw [List.getElem?_map, List.getElem?_modify, List.getElem?_map]
    cases call.sent[i]? with
    | none => rfl
    | some message =>
      simp only [Option.map_some]
      split
      · rfl
      · rfl
  rw [forget, setReply, hSent]
  rfl

def Label.isOwn : Label → Bool
  | .answer _ _ _ => false
  | .respond _ _ => false
  | _ => true

namespace NodeState

def messageAt (s : NodeState) (id k : Nat) : Option Message :=
  (s.calls.lookup id).bind fun call => call.sent[k]?

/-- The messages stay as they are; new ones have no reply. -/
def Keeps (s s' : NodeState) : Prop :=
  ∀ id k, s'.messageAt id k = s.messageAt id k ∨
    s.messageAt id k = none ∧ ∀ message, s'.messageAt id k = some message → message.reply = .pending

/-- `node` is `s` without the replies. -/
structure Same (node s : NodeState) : Prop where
  tracker : node.tracker = s.tracker
  messageCallbacks : node.messageCallbacks = s.messageCallbacks
  receiveMessages : node.receiveMessages = s.receiveMessages
  loop : node.loop = s.loop
  calls : ∀ id, node.calls.lookup id = (s.calls.lookup id).map Call.forget

variable {node node' s s' : NodeState}

theorem Same.lookup (h : Same node s) {id : Nat} {call : Call}
    (hCall : node.calls.lookup id = some call) :
    ∃ sCall, s.calls.lookup id = some sCall ∧ call = sCall.forget := by
  rw [h.calls, Option.map_eq_some_iff] at hCall
  obtain ⟨sCall, hLookup, hForget⟩ := hCall
  exact ⟨sCall, hLookup, hForget.symm⟩

theorem Same.setCall (h : Same node s) (id : Nat) (call : Call) :
    Same (node.setCall id call.forget) (s.setCall id call) := by
  refine ⟨h.tracker, h.messageCallbacks, h.receiveMessages, h.loop, ?_⟩
  intro id'
  simp only [NodeState.setCall, Table.lookup_insert]
  split
  · rfl
  · exact h.calls id'

theorem messageAt_setCall (s : NodeState) (id id' k : Nat) (call : Call) :
    (s.setCall id call).messageAt id' k =
      if id' = id then call.sent[k]? else s.messageAt id' k := by
  simp only [messageAt, NodeState.setCall, Table.lookup_insert]
  split
  · rfl
  · rfl

theorem Keeps.refl (s : NodeState) : Keeps s s := fun _ _ => .inl rfl

theorem keeps_setCall {id : Nat} {call call' : Call} (hCall : s.calls.lookup id = some call)
    (hSame : s'.calls = s.calls)
    (hSent : ∀ k : Nat, call'.sent[k]? = call.sent[k]? ∨
      call.sent[k]? = none ∧
        ∀ message : Message, call'.sent[k]? = some message → message.reply = .pending) :
    Keeps s (s'.setCall id call') := by
  intro id' k
  rw [messageAt_setCall]
  split
  · next hId =>
    subst hId
    rw [messageAt, hCall, Option.bind_some]
    exact hSent k
  · left
    rw [messageAt, hSame]
    rfl

theorem messageAt_setReply {id : Nat} {call : Call} (hCall : s.calls.lookup id = some call)
    (k : Nat) (reply : Reply) (id' k' : Nat) :
    (s.setCall id (call.setReply k reply)).messageAt id' k' =
      if (id', k') = (id, k) then
        (s.messageAt id k).map fun message => { message with reply := reply }
      else s.messageAt id' k' := by
  rw [messageAt_setCall]
  by_cases hId : id' = id
  · subst hId
    rw [if_pos rfl, messageAt, messageAt, hCall, Option.bind_some, Option.bind_some]
    change (call.sent.modify k _)[k']? = _
    rw [List.getElem?_modify]
    by_cases hK : k = k'
    · subst hK
      simp
    · rw [if_neg (fun h => hK (Prod.mk.inj h).2.symm)]
      simp [hK]
  · rw [if_neg hId, if_neg (fun h => hId (Prod.mk.inj h).1)]

theorem Same.setReply (h : Same node s) {id : Nat} {call : Call}
    (hCall : s.calls.lookup id = some call) (k : Nat) (reply : Reply) :
    Same node (s.setCall id (call.setReply k reply)) := by
  refine ⟨h.tracker, h.messageCallbacks, h.receiveMessages, h.loop, ?_⟩
  intro id'
  simp only [NodeState.setCall, Table.lookup_insert, h.calls]
  split
  · next hId =>
    rw [hId, hCall, Option.map_some, Option.map_some, Call.forget_setReply]
  · rfl

theorem keeps_of_sent {id : Nat} {call call' : Call} (hCall : s.calls.lookup id = some call)
    (hSame : s'.calls = s.calls) (hSent : call'.sent = call.sent) :
    Keeps s (s'.setCall id call') :=
  keeps_setCall hCall hSame fun k => .inl (by rw [hSent])

theorem keeps_begin (hLinked : Linked s) (request : Request) : Keeps s (s.begin request) := by
  intro id k
  simp only [messageAt, begin, NodeState.setCall, Table.lookup_insert,
    MessageTracker.addMessageTrack]
  split
  · next hId =>
    right
    constructor
    · have hFresh : s.calls.lookup id = none := by
        rw [Option.eq_none_iff_forall_ne_some]
        intro call hCall
        have hLe := hLinked.fresh id call hCall
        omega
      rw [hFresh]
      rfl
    · intro message hMessage
      cases hMessage
  · exact .inl rfl

theorem Same.begin (h : Same node s) (request : Request) :
    Same (node.begin request) (s.begin request) := by
  obtain ⟨tracker, callbacks, received, calls, loop⟩ := node
  obtain ⟨rfl, rfl, rfl, rfl, hCalls⟩ := h
  refine Same.setCall ?_ _ (.new request)
  exact ⟨rfl, rfl, rfl, rfl, hCalls⟩

theorem Same.act (h : Same node s) {id : Nat} {call : Call} (hCall : s.calls.lookup id = some call)
    (hAct : node.act id call.forget = some node') :
    ∃ s', s.act id call = some s' ∧ Same node' s' ∧ Keeps s s' := by
  rw [NodeState.act] at hAct
  split at hAct
  · next rest hTodo =>
    cases hAct
    have hTodo : call.todo = _ := hTodo
    have hSet : Same (node.setMessageCallback id) (s.setMessageCallback id) :=
      ⟨h.tracker, congrArg (·.insert id id) h.messageCallbacks, h.receiveMessages, h.loop, h.calls⟩
    exact ⟨(s.setMessageCallback id).setCall id { call with todo := rest },
      by rw [NodeState.act, hTodo], hSet.setCall id { call with todo := rest },
      keeps_of_sent hCall rfl rfl⟩
  · next rankId data rest hTodo =>
    cases hAct
    have hTodo : call.todo = _ := hTodo
    let call' : Call := { call with sent := call.sent ++ [⟨rankId, data, .pending⟩], todo := rest }
    have hForget : call'.forget =
        { call.forget with
          sent := call.forget.sent ++ [⟨rankId, data, .pending⟩], todo := rest } := by
      simp [call', Call.forget, Message.forget]
    refine ⟨s.setCall id call', by rw [NodeState.act, hTodo], hForget ▸ h.setCall id call', ?_⟩
    refine keeps_setCall hCall rfl ?_
    intro k
    change (call.sent ++ [_])[k]? = _ ∨ _
    rcases Nat.lt_or_ge k call.sent.length with hLt | hGe
    · exact .inl (List.getElem?_append_left hLt)
    · right
      refine ⟨List.getElem?_eq_none hGe, ?_⟩
      intro message hMessage
      rw [List.getElem?_append_right hGe] at hMessage
      rw [List.mem_singleton.mp (List.mem_of_getElem? hMessage)]
  · next fault rest hTodo =>
    cases hAct
    have hTodo : call.todo = _ := hTodo
    exact ⟨s.setCall id { call with status := .raised fault, todo := [] },
      by rw [NodeState.act, hTodo],
      h.setCall id { call with status := .raised fault, todo := [] }, keeps_of_sent hCall rfl rfl⟩
  · cases hAct

theorem Same.waitTurn (h : Same node s) {id : Nat} {call : Call} {timedOut : Bool}
    (hCall : s.calls.lookup id = some call)
    (hWait : node.waitTurn id call.forget timedOut = some node') :
    ∃ s', s.waitTurn id call timedOut = some s' ∧ Same node' s' ∧ Keeps s s' := by
  obtain ⟨tracker, callbacks, received, calls, loop⟩ := node
  obtain ⟨rfl, rfl, rfl, rfl, hCalls⟩ := h
  rw [NodeState.waitTurn] at hWait ⊢
  split at hWait
  case isFalse => cases hWait
  case isTrue hTodo =>
    have hTodo : call.todo = [.wait] := hTodo
    rw [if_pos hTodo]
    dsimp only at hWait ⊢
    cases hRes : (s.tracker.waitTurn id timedOut).1 with
    | none =>
      rw [hRes] at hWait
      cases hWait
      exact ⟨_, rfl, ⟨rfl, rfl, rfl, rfl, hCalls⟩, .refl _⟩
    | some res =>
      rw [hRes] at hWait
      cases hWait
      refine ⟨_, rfl, Same.setCall ?_ id { call with status := .waited res, todo := [] },
        keeps_of_sent hCall rfl rfl⟩
      exact ⟨rfl, rfl, rfl, rfl, hCalls⟩

theorem Same.checkCallback (h : Same node s) (id : Nat) :
    Same (node.checkCallback id) (s.checkCallback id) ∧ Keeps s (s.checkCallback id) := by
  obtain ⟨tracker, callbacks, received, calls, loop⟩ := node
  obtain ⟨rfl, rfl, rfl, rfl, hCalls⟩ := h
  rw [NodeState.checkCallback, NodeState.checkCallback]
  dsimp only
  split
  · exact ⟨⟨rfl, rfl, rfl, rfl, hCalls⟩, fun _ _ => .inl rfl⟩
  · exact ⟨⟨rfl, rfl, rfl, rfl, hCalls⟩, fun _ _ => .inl rfl⟩

theorem Same.runMessageCallback (h : Same node s) {frame : Nat}
    (hRun : node.runMessageCallback frame = some node') :
    ∃ s', s.runMessageCallback frame = some s' ∧ Same node' s' ∧ Keeps s s' := by
  obtain ⟨call, hLookup, rfl⟩ := Option.map_eq_some_iff.mp hRun
  obtain ⟨sCall, hCall, rfl⟩ := h.lookup hLookup
  obtain ⟨tracker, callbacks, received, calls, loop⟩ := node
  obtain ⟨rfl, rfl, rfl, rfl, hCalls⟩ := h
  let ran := sCall.runClosure (s.receiveMessages.getD frame ∅)
  have hForget : ran.forget = sCall.forget.runClosure (s.receiveMessages.getD frame ∅) := by
    simp only [ran, Call.runClosure, Call.forget]
    split <;> rfl
  have hSent : ran.sent = sCall.sent := by
    simp only [ran, Call.runClosure]
    split <;> rfl
  refine ⟨_, congrArg (Option.map _) hCall, ?_, keeps_of_sent hCall rfl hSent⟩
  rw [← hForget]
  refine Same.setCall ?_ frame ran
  exact ⟨rfl, rfl, rfl, rfl, hCalls⟩

theorem Same.notifyMessageArrival (h : Same node s) {id : Nat}
    (hNotify : node.notifyMessageArrival id = some node') :
    ∃ s', s.notifyMessageArrival id = some s' ∧ Same node' s' ∧ Keeps s s' := by
  obtain ⟨call, hLookup, rfl⟩ := Option.map_eq_some_iff.mp hNotify
  obtain ⟨sCall, hCall, rfl⟩ := h.lookup hLookup
  obtain ⟨tracker, callbacks, received, calls, loop⟩ := node
  obtain ⟨rfl, rfl, rfl, rfl, hCalls⟩ := h
  have hForget : sCall.count.forget = sCall.forget.count := by
    rw [Call.count, Call.count]
    split
    · next hEnded => rw [if_pos (by exact hEnded)]
    · next hEnded =>
      rw [if_neg (by exact hEnded)]
      rfl
  have hSent : sCall.count.sent = sCall.sent := by
    rw [Call.count]
    split <;> rfl
  refine ⟨_, congrArg (Option.map _) hCall, ?_, keeps_of_sent hCall rfl hSent⟩
  rw [← hForget]
  refine Same.setCall ?_ id sCall.count
  exact ⟨rfl, rfl, rfl, rfl, hCalls⟩

theorem Same.setLoop (h : Same node s) (loop : Loop) :
    Same { node with loop := loop } { s with loop := loop } :=
  ⟨h.tracker, h.messageCallbacks, h.receiveMessages, rfl, h.calls⟩

theorem Same.turn (h : Same node s) (hTurn : node.turn = some node') :
    ∃ s', s.turn = some s' ∧ Same node' s' ∧ Keeps s s' := by
  rw [NodeState.turn, h.loop] at hTurn
  rw [NodeState.turn]
  cases hLoop : s.loop with
  | idle =>
    rw [hLoop] at hTurn
    cases hTurn
  | dead =>
    rw [hLoop] at hTurn
    cases hTurn
  | stored id =>
    rw [hLoop] at hTurn
    cases hTurn
    exact ⟨_, rfl, h.checkCallback id⟩
  | found id frame =>
    rw [hLoop] at hTurn
    obtain ⟨ran, hRun, rfl⟩ := Option.map_eq_some_iff.mp hTurn
    obtain ⟨s', hRun', hSame, hKeeps⟩ := h.runMessageCallback hRun
    exact ⟨_, congrArg (Option.map _) hRun', hSame.setLoop _, hKeeps⟩
  | ran id =>
    rw [hLoop] at hTurn
    cases hTurn
    exact ⟨_, rfl, ⟨h.tracker, congrArg (·.erase id) h.messageCallbacks, h.receiveMessages, rfl,
      h.calls⟩, fun _ _ => .inl rfl⟩
  | checked id =>
    rw [hLoop] at hTurn
    obtain ⟨notified, hNotify, rfl⟩ := Option.map_eq_some_iff.mp hTurn
    obtain ⟨s', hNotify', hSame, hKeeps⟩ := h.notifyMessageArrival hNotify
    exact ⟨_, congrArg (Option.map _) hNotify', hSame.setLoop _, hKeeps⟩

theorem Same.timely (h : Same node s) (label : Label) : node.timely label = s.timely label := by
  unfold NodeState.timely
  rw [h.loop]

/-- What the node does on its own does not depend on the replies. -/
theorem Same.step (h : Same node s) (hLinked : Linked s) {label : Label} (hOwn : label.isOwn = true)
    (hStep : node.step label = some node') :
    ∃ s', s.step label = some s' ∧ Same node' s' ∧ Keeps s s' := by
  cases label with
  | call view invocation =>
    rw [NodeState.step] at hStep ⊢
    split at hStep
    · cases hStep
      exact ⟨s, rfl, h, .refl s⟩
    · next request hRequest =>
      cases hStep
      exact ⟨_, rfl, h.begin request, keeps_begin hLinked request⟩
  | act id =>
    obtain ⟨call, hLookup, hAct⟩ := Option.bind_eq_some_iff.mp hStep
    obtain ⟨sCall, hCall, rfl⟩ := h.lookup hLookup
    obtain ⟨s', hAct', hNext⟩ := h.act hCall hAct
    exact ⟨s', Option.bind_eq_some_iff.mpr ⟨sCall, hCall, hAct'⟩, hNext⟩
  | waitTurn id timedOut =>
    obtain ⟨call, hLookup, hWait⟩ := Option.bind_eq_some_iff.mp hStep
    obtain ⟨sCall, hCall, rfl⟩ := h.lookup hLookup
    obtain ⟨s', hWait', hNext⟩ := h.waitTurn hCall hWait
    exact ⟨s', Option.bind_eq_some_iff.mpr ⟨sCall, hCall, hWait'⟩, hNext⟩
  | returns id =>
    obtain ⟨call, hLookup, hReturn⟩ := Option.bind_eq_some_iff.mp hStep
    obtain ⟨sCall, hCall, rfl⟩ := h.lookup hLookup
    obtain ⟨call', hFinish, rfl⟩ := Option.map_eq_some_iff.mp hReturn
    obtain ⟨res, hStatus, rfl⟩ := Call.finish_eq_some hFinish
    have hFinish' : sCall.finish = some { sCall with status := .returned res } := by
      rw [Call.finish, show sCall.status = .waited res from hStatus]
    exact ⟨_, Option.bind_eq_some_iff.mpr ⟨sCall, hCall, congrArg (Option.map _) hFinish'⟩,
      h.setCall id { sCall with status := .returned res }, keeps_of_sent hCall rfl rfl⟩
  | answer => cases hOwn
  | respond => cases hOwn
  | loop => exact h.turn hStep

end NodeState

/-! ## The servers and the connections -/

/-- The meta of a response, as far as `ProcessSendDataResp` reads it. -/
def WireMeta.respMeta (message : WireMeta) : MessageMeta :=
  ⟨.sendData, message.requestId.toNat, .ofNumber message.role.toInt, message.rankId.toUInt32,
    message.userCmd.toInt⟩

def WireMeta.response (message : WireMeta) (rankId : UInt32) : WireMeta :=
  { message with role := .ofInt NodeRole.server.number, rankId := rankId.toInt32 }

def NodeState.onResponse (s : NodeState) (delivered : Delivered WireMeta) : NodeState :=
  match s.processSendDataResp delivered.message.respMeta delivered.data with
  | .error _ => { s with loop := .dead }
  | .ok stored => { stored with loop := .stored delivered.message.requestId.toNat }

theorem NodeState.processSendDataResp_cases (data : Bytes) :
    (∃ fault, ∀ s respMeta, processSendDataResp s respMeta data = .error fault) ∨
      ∀ s respMeta, processSendDataResp s respMeta data = .ok { s with
        receiveMessages := s.receiveMessages.insert respMeta.requestId
          ((s.receiveMessages.getD respMeta.requestId ∅).insert respMeta.rankId data) } := by
  by_cases hFault : 0 < data.length ∧ memcpyS data.length data.length ≠ .eok
  · left
    exact ⟨_, fun s respMeta => if_pos hFault⟩
  · right
    intro s respMeta
    rw [processSendDataResp, if_neg hFault]
    split
    · next res hRes => rw [Table.getD, hRes, Option.getD_some]
    · next hRes => rw [Table.getD, hRes, Option.getD_none]

theorem NodeState.Same.onResponse {node s : NodeState} (h : Same node s) {id k : Nat} {call : Call}
    {rankId : UInt32} {data : Bytes} (hCall : s.calls.lookup id = some call)
    (hResponse : call.response k = some (rankId, data)) {delivered : Delivered WireMeta}
    (hId : delivered.message.requestId.toNat = id)
    (hRank : delivered.message.rankId.toUInt32 = rankId) (hData : delivered.data = data) :
    ∃ s', s.respond id k call = some s' ∧ Same (node.onResponse delivered) s' ∧
      (s'.calls = s.calls ∨
        s'.calls = (s.setCall id (call.setReply k (.handled data))).calls) := by
  obtain ⟨tracker, callbacks, received, calls, loop⟩ := node
  obtain ⟨rfl, rfl, rfl, rfl, hCalls⟩ := h
  subst hId hRank hData
  rw [NodeState.respond, hResponse, Option.map_some]
  rcases processSendDataResp_cases delivered.data with ⟨fault, hError⟩ | hOk
  · rw [NodeState.onResponse, hError, hError]
    exact ⟨_, rfl, ⟨rfl, rfl, rfl, rfl, hCalls⟩, .inl rfl⟩
  · rw [NodeState.onResponse, hOk, hOk]
    let id := delivered.message.requestId.toNat
    let stored := s.receiveMessages.insert id
      ((s.receiveMessages.getD id ∅).insert delivered.message.rankId.toUInt32 delivered.data)
    have hStored : Same ⟨s.tracker, s.messageCallbacks, stored, calls, .stored id⟩
        { s with receiveMessages := stored, loop := .stored id } := ⟨rfl, rfl, rfl, rfl, hCalls⟩
    exact ⟨_, rfl, hStored.setReply hCall k (.handled delivered.data), .inr rfl⟩

structure Answer where
  rankId : UInt32
  requestId : Nat
  data : Bytes
deriving DecidableEq, Repr

/-- `asked` are the requests that `request_handler_` of each server has got and not answered,
`answers` all answers, oldest first. -/
structure WireCalls where
  node : NodeState
  up : UInt32 → Channel
  asked : UInt32 → List (WireMeta × Bytes)
  down : UInt32 → Channel
  answers : List Answer

/-- `serve` and `take` are the calls of the message callbacks of a server and of the node; a server
calls `Response` for the request at a place of its list. -/
inductive WireCallsLabel where
  | node (label : Label)
  | serverRead (rankId : UInt32) (count : Nat)
  | serve (rankId : UInt32)
  | response (rankId : UInt32) (place : Nat) (data : Bytes)
  | nodeRead (rankId : UInt32) (count : Nat)
  | take (rankId : UInt32)

/-- The payload of the next message, if the call sends one next, has less than `2 ^ 62` bytes. -/
def Call.nextFits (call : Call) : Bool :=
  match call.todo with
  | .sendMessage _ data :: _ => data.length < 2 ^ 62
  | _ => true

namespace WireCalls

def new (upJunk downJunk : UInt32 → Vector UInt8 kHeaderLen) : WireCalls :=
  ⟨.new, fun rankId => .new (upJunk rankId), fun _ => [], fun rankId => .new (downJunk rankId), []⟩

def write (endian : Endian) (codec : MetaRuntime) (w : WireCalls) (id : Nat) (call : Call) :
    Option WireCalls :=
  match call.todo with
  | .sendMessage rankId data :: _ =>
    ((w.up rankId).send endian .client codec .raw (call.messageMeta id).toWire
      data).toOption.map fun channel => { w with up := Function.update w.up rankId channel }
  | _ => some w

def step (endian : Endian) (codec : MetaRuntime) (w : WireCalls) :
    WireCallsLabel → Option WireCalls
  | .node (.act id) =>
    (w.node.calls.lookup id).bind fun call =>
      (w.write endian codec id call).bind fun written =>
        (w.node.act id call).map fun node => { written with node := node }
  | .node label =>
    if label.isOwn then (w.node.step label).map fun node => { w with node := node } else none
  | .serverRead rankId count =>
    ((w.up rankId).read endian count).toOption.map fun channel =>
      { w with up := Function.update w.up rankId channel }
  | .serve rankId =>
    ((w.up rankId).next codec).bind fun call =>
      let size := call.1.data.length
      if call.1.message.cmd = .ofNat NodeCommand.sendData.number ∧ memcpyS size size = .eok then
        some { w with
          up := Function.update w.up rankId call.2
          asked := Function.update w.asked rankId
            (w.asked rankId ++ [(call.1.message, call.1.data)]) }
      else none
  | .response rankId place data =>
    (w.asked rankId)[place]?.bind fun request =>
      let message := request.1.response rankId
      ((w.down rankId).send endian .connection codec .raw message data).toOption.map
        fun channel =>
          { w with
            asked := Function.update w.asked rankId ((w.asked rankId).eraseIdx place)
            down := Function.update w.down rankId channel
            answers := w.answers ++ [⟨rankId, message.requestId.toNat, data⟩] }
  | .nodeRead rankId count =>
    ((w.down rankId).read endian count).toOption.map fun channel =>
      { w with down := Function.update w.down rankId channel }
  | .take rankId =>
    if w.node.loop = .idle then
      ((w.down rankId).next codec).bind fun call =>
        if call.1.message.cmd = .ofNat NodeCommand.sendData.number then
          some { w with
            node := w.node.onResponse call.1
            down := Function.update w.down rankId call.2 }
        else none
    else none

/-- The steps of the node are timely, the request ids are such that the field of the meta can hold
them, and the payloads have less than `2 ^ 62` bytes. -/
def Fits (w : WireCalls) : WireCallsLabel → Prop
  | .node (.act id) => id < 2 ^ 64 ∧ (w.node.calls.lookup id).all Call.nextFits = true
  | .node label => w.node.timely label = true
  | .response _ _ data => data.length < 2 ^ 62
  | _ => True

instance (w : WireCalls) : (label : WireCallsLabel) → Decidable (w.Fits label)
  | .node (.act _) => inferInstanceAs (Decidable (_ ∧ _))
  | .node (.call _ _) => inferInstanceAs (Decidable (_ = _))
  | .node (.waitTurn _ _) => inferInstanceAs (Decidable (_ = _))
  | .node (.returns _) => inferInstanceAs (Decidable (_ = _))
  | .node (.answer _ _ _) => inferInstanceAs (Decidable (_ = _))
  | .node (.respond _ _) => inferInstanceAs (Decidable (_ = _))
  | .node .loop => inferInstanceAs (Decidable (_ = _))
  | .serverRead _ _ => isTrue trivial
  | .serve _ => isTrue trivial
  | .response _ _ _ => inferInstanceAs (Decidable (_ < _))
  | .nodeRead _ _ => isTrue trivial
  | .take _ => isTrue trivial

end WireCalls

/-! ## Where the messages are -/

/-- A message of the call `id` on its way, as the meta and the bytes that it is carried as. -/
structure Ref where
  id : Nat
  k : Nat
  message : WireMeta
  data : Bytes

namespace Ref

def key (ref : Ref) : Nat × Nat := (ref.id, ref.k)

def item (ref : Ref) : WireMeta × Bytes := (ref.message, ref.data)

structure Tagged (ref : Ref) : Prop where
  cmd : ref.message.cmd = .ofNat NodeCommand.sendData.number
  requestId : ref.message.requestId.toNat = ref.id

structure PendingAt (s : NodeState) (rankId : UInt32) (ref : Ref) : Prop extends ref.Tagged where
  found : ∃ data, s.messageAt ref.id ref.k = some ⟨rankId, data, .pending⟩

structure AnsweredAt (s : NodeState) (rankId : UInt32) (ref : Ref) : Prop extends ref.Tagged where
  rank : ref.message.rankId.toUInt32 = rankId
  found : ∃ data, s.messageAt ref.id ref.k = some ⟨rankId, data, .answered ref.data⟩

end Ref

namespace WireCalls

def whole (delivered : Delivered WireMeta) : Option (WireMeta × Bytes) :=
  some (delivered.message, delivered.data)

/-- Where the messages to one server are: `sent` on the way to it, `asked` at its handler and
`answered` on the way back. -/
structure Lines (endian : Endian) (codec : MetaRuntime) (w : WireCalls) (s : NodeState)
    (rankId : UInt32) (sent asked answered : List Ref) : Prop where
  up : (w.up rankId).Conveys codec endian whole (sent.map Ref.item)
  handler : w.asked rankId = asked.map Ref.item
  down : (w.down rankId).Conveys codec endian whole (answered.map Ref.item)
  nodup : ((sent ++ asked ++ answered).map Ref.key).Nodup
  pending : ∀ ref ∈ sent ++ asked, ref.PendingAt s rankId
  answers : ∀ ref ∈ answered, ref.AnsweredAt s rankId

/-- Every reply is one that a request handler has given to this request. -/
def Logged (w : WireCalls) (s : NodeState) : Prop :=
  ∀ id k rankId sent data,
    s.messageAt id k = some ⟨rankId, sent, .answered data⟩ ∨
      s.messageAt id k = some ⟨rankId, sent, .handled data⟩ →
    ⟨rankId, id, data⟩ ∈ w.answers

structure Follows (endian : Endian) (codec : MetaRuntime) (w : WireCalls) (s : NodeState) :
    Prop where
  same : w.node.Same s
  linked : s.Linked
  lines : ∀ rankId, ∃ sent asked answered, w.Lines endian codec s rankId sent asked answered
  logged : w.Logged s

variable {endian : Endian} {codec : MetaRuntime} {w w' : WireCalls} {s s' : NodeState}

theorem follows_new (endian : Endian) (codec : MetaRuntime)
    (upJunk downJunk : UInt32 → Vector UInt8 kHeaderLen) :
    (new upJunk downJunk).Follows endian codec .new := by
  refine ⟨⟨rfl, rfl, rfl, rfl, fun _ => rfl⟩, .new, ?_, ?_⟩
  · intro rankId
    exact ⟨[], [], [], Channel.conveys_new _, rfl, Channel.conveys_new _, List.nodup_nil, by simp,
      by simp⟩
  · rintro id k rankId sent data (hMessage | hMessage)
    · cases hMessage
    · cases hMessage

theorem Lines.of_messages {rankId : UInt32} {sent asked answered : List Ref}
    (h : w.Lines endian codec s rankId sent asked answered) (hUp : w'.up rankId = w.up rankId)
    (hAsked : w'.asked rankId = w.asked rankId) (hDown : w'.down rankId = w.down rankId)
    (hKept : ∀ ref ∈ sent ++ asked ++ answered, ∀ message,
      s.messageAt ref.id ref.k = some message → message.rankId = rankId →
        s'.messageAt ref.id ref.k = some message) :
    w'.Lines endian codec s' rankId sent asked answered := by
  refine ⟨hUp ▸ h.up, hAsked ▸ h.handler, hDown ▸ h.down, h.nodup, ?_, ?_⟩
  · intro ref hRef
    obtain ⟨hTagged, data, hFound⟩ := h.pending ref hRef
    exact ⟨hTagged, data, hKept ref (List.mem_append_left _ hRef) _ hFound rfl⟩
  · intro ref hRef
    obtain ⟨hTagged, hRank, data, hFound⟩ := h.answers ref hRef
    exact ⟨hTagged, hRank, data, hKept ref (List.mem_append_right _ hRef) _ hFound rfl⟩

theorem Lines.found {rankId : UInt32} {sent asked answered : List Ref}
    (h : w.Lines endian codec s rankId sent asked answered) {ref : Ref}
    (hRef : ref ∈ sent ++ asked ++ answered) :
    ∃ message, s.messageAt ref.id ref.k = some message ∧ message.rankId = rankId := by
  rcases List.mem_append.mp hRef with hPending | hAnswered
  · obtain ⟨_, data, hFound⟩ := h.pending ref hPending
    exact ⟨_, hFound, rfl⟩
  · obtain ⟨_, _, data, hFound⟩ := h.answers ref hAnswered
    exact ⟨_, hFound, rfl⟩

theorem messageAt_of_keeps (h : NodeState.Keeps s s') {id k : Nat} {message : Message}
    (hFound : s.messageAt id k = some message) : s'.messageAt id k = some message := by
  rcases h id k with hSame | ⟨hNone, _⟩
  · rw [hSame, hFound]
  · rw [hNone] at hFound
    cases hFound

theorem Logged.of_keeps (h : w.Logged s) (hKeeps : NodeState.Keeps s s')
    (hAnswers : w'.answers = w.answers) : w'.Logged s' := by
  intro id k rankId sent data hReply
  rw [hAnswers]
  rcases hKeeps id k with hSame | ⟨_, hPending⟩
  · rw [hSame] at hReply
    exact h id k rankId sent data hReply
  · rcases hReply with hReply | hReply
    · cases hPending _ hReply
    · cases hPending _ hReply

def SameBut (w w' : WireCalls) (rankId : UInt32) : Prop :=
  ∀ other, other ≠ rankId →
    w'.up other = w.up other ∧ w'.asked other = w.asked other ∧ w'.down other = w.down other

theorem lines_of_sameBut (h : w.Follows endian codec s) (rankId : UInt32)
    (hSame : SameBut w w' rankId)
    (hKept : ∀ id k message, s.messageAt id k = some message → message.rankId ≠ rankId →
      s'.messageAt id k = some message)
    (hLines : ∃ sent asked answered, w'.Lines endian codec s' rankId sent asked answered)
    (other : UInt32) :
    ∃ sent asked answered, w'.Lines endian codec s' other sent asked answered := by
  by_cases hOther : other = rankId
  · rw [hOther]
    exact hLines
  · obtain ⟨hUp, hAsked, hDown⟩ := hSame other hOther
    obtain ⟨sent, asked, answered, hOld⟩ := h.lines other
    refine ⟨sent, asked, answered, hOld.of_messages hUp hAsked hDown ?_⟩
    intro ref _ message hFound hRank
    exact hKept _ _ _ hFound (hRank ▸ hOther)

theorem lines_of_keeps (h : w.Follows endian codec s) (hKeeps : NodeState.Keeps s s')
    (hUp : w'.up = w.up) (hAsked : w'.asked = w.asked) (hDown : w'.down = w.down)
    (rankId : UInt32) :
    ∃ sent asked answered, w'.Lines endian codec s' rankId sent asked answered := by
  obtain ⟨sent, asked, answered, hLines⟩ := h.lines rankId
  refine ⟨sent, asked, answered, hLines.of_messages (by rw [hUp]) (by rw [hAsked])
    (by rw [hDown]) ?_⟩
  intro ref _ message hFound _
  exact messageAt_of_keeps hKeeps hFound

/-! ## The steps -/

theorem Follows.own (h : w.Follows endian codec s) {label : Label} (hOwn : label.isOwn = true)
    {node : NodeState} (hStep : w.node.step label = some node) :
    ∃ s', s.step label = some s' ∧ Follows endian codec { w with node := node } s' := by
  obtain ⟨s', hStep', hSame, hKeeps⟩ := h.same.step h.linked hOwn hStep
  exact ⟨s', hStep', hSame, (NodeState.step_view h.linked hStep').1,
    lines_of_keeps h hKeeps rfl rfl rfl, h.logged.of_keeps hKeeps rfl⟩

theorem cmd_ne_zero {message : WireMeta} (h : message.cmd = .ofNat NodeCommand.sendData.number) :
    message.cmd ≠ 0 := by
  rw [h]
  decide

theorem length_lt (codec : MetaRuntime) (message : WireMeta) {data : Bytes}
    (h : data.length < 2 ^ 62) :
    (codec.serializeAsString message).length + data.length < 2 ^ 63 := by
  have hMeta := codec.length_lt message
  omega

theorem sameBut_up (w : WireCalls) (rankId : UInt32) (channel : Channel) (node : NodeState) :
    SameBut w { w with node := node, up := Function.update w.up rankId channel } rankId :=
  fun _ hOther => ⟨Function.update_of_ne hOther _ _, rfl, rfl⟩

theorem sameBut_down (w : WireCalls) (rankId : UInt32) (channel : Channel) (node : NodeState) :
    SameBut w { w with node := node, down := Function.update w.down rankId channel } rankId :=
  fun _ hOther => ⟨rfl, rfl, Function.update_of_ne hOther _ _⟩

theorem Follows.send (h : w.Follows endian codec s) {id : Nat} {call : Call} {rankId : UInt32}
    {data : Bytes}
    {rest : List Action} (hCall : s.calls.lookup id = some call)
    (hTodo : call.todo = .sendMessage rankId data :: rest) (hId : id < 2 ^ 64)
    (hData : data.length < 2 ^ 62) (hAct : s.act id call = some s') {node : NodeState}
    (hSame : node.Same s') (hKeeps : NodeState.Keeps s s') :
    ∃ channel, (w.up rankId).send endian .client codec .raw (call.messageMeta id).toWire data =
        .ok channel ∧
      Follows endian codec
        { w with node := node, up := Function.update w.up rankId channel } s' := by
  have hStep : s.step (.act id) = some s' := Option.bind_eq_some_iff.mpr ⟨call, hCall, hAct⟩
  have hLinked := (NodeState.step_view h.linked hStep).1
  let ref : Ref := ⟨id, call.sent.length, (call.messageMeta id).toWire, data⟩
  have hTagged : ref.Tagged := ⟨rfl, UInt64.toNat_ofNat_of_lt' hId⟩
  obtain ⟨sent, asked, answered, hLines⟩ := h.lines rankId
  obtain ⟨channel, hSend, hUp⟩ := hLines.up.send .client
    (show whole (codec.outgoing ref.message .raw ref.data (cmd_ne_zero hTagged.cmd)
      (length_lt codec _ hData)).delivered = some ref.item from rfl)
  refine ⟨channel, hSend, hSame, hLinked, ?_, h.logged.of_keeps hKeeps rfl⟩
  refine lines_of_sameBut h rankId (sameBut_up w rankId channel node)
    (fun _ _ _ hFound _ => messageAt_of_keeps hKeeps hFound) ?_
  have hNew : s.messageAt ref.id ref.k = none := by
    rw [NodeState.messageAt, hCall, Option.bind_some]
    exact List.getElem?_eq_none (Nat.le_refl _)
  have hKey : ref.key ∉ (sent ++ asked ++ answered).map Ref.key := by
    rintro hMem
    obtain ⟨other, hOther, hSameKey⟩ := List.mem_map.mp hMem
    obtain ⟨message, hFound, _⟩ := hLines.found hOther
    obtain ⟨hSameId, hSameK⟩ := Prod.mk.inj hSameKey
    rw [hSameId, hSameK, hNew] at hFound
    cases hFound
  refine ⟨sent ++ [ref], asked, answered, ?_, hLines.handler, hLines.down, ?_, ?_, ?_⟩
  · change (Function.update w.up rankId channel rankId).Conveys _ _ _ _
    rw [Function.update_self, List.map_append]
    exact hUp
  · have hPerm :
      (sent ++ [ref] ++ asked ++ answered).Perm (ref :: (sent ++ asked ++ answered)) := by
      simp only [List.append_assoc, List.singleton_append]
      exact List.perm_middle
    rw [(hPerm.map Ref.key).nodup_iff, List.map_cons, List.nodup_cons]
    exact ⟨hKey, hLines.nodup⟩
  · intro other hOther
    rw [List.append_assoc, List.singleton_append, List.mem_append, List.mem_cons] at hOther
    rcases hOther with hOld | rfl | hOld
    · obtain ⟨hTag, data', hFound⟩ := hLines.pending other (List.mem_append_left _ hOld)
      exact ⟨hTag, data', messageAt_of_keeps hKeeps hFound⟩
    · refine ⟨hTagged, data, ?_⟩
      rw [NodeState.act, hTodo] at hAct
      cases hAct
      rw [NodeState.messageAt_setCall, if_pos rfl]
      exact List.getElem?_concat_length
    · obtain ⟨hTag, data', hFound⟩ := hLines.pending other (List.mem_append_right _ hOld)
      exact ⟨hTag, data', messageAt_of_keeps hKeeps hFound⟩
  · intro other hOther
    obtain ⟨hTag, hRank, data', hFound⟩ := hLines.answers other hOther
    exact ⟨hTag, hRank, data', messageAt_of_keeps hKeeps hFound⟩

theorem Follows.serverRead (h : w.Follows endian codec s) (rankId : UInt32) (count : Nat) :
    ∃ channel, (w.up rankId).read endian count = .ok channel ∧
      Follows endian codec { w with up := Function.update w.up rankId channel } s := by
  obtain ⟨sent, asked, answered, hLines⟩ := h.lines rankId
  obtain ⟨channel, hRead, _, hUp⟩ := hLines.up.read count
  refine ⟨channel, hRead, h.same, h.linked, ?_, h.logged⟩
  refine lines_of_sameBut h rankId (sameBut_up w rankId channel w.node)
    (fun _ _ _ hFound _ => hFound) ?_
  refine ⟨sent, asked, answered, ?_, hLines.handler, hLines.down, hLines.nodup, hLines.pending,
    hLines.answers⟩
  change (Function.update w.up rankId channel rankId).Conveys _ _ _ _
  rw [Function.update_self]
  exact hUp

theorem Follows.nodeRead (h : w.Follows endian codec s) (rankId : UInt32) (count : Nat) :
    ∃ channel, (w.down rankId).read endian count = .ok channel ∧
      Follows endian codec { w with down := Function.update w.down rankId channel } s := by
  obtain ⟨sent, asked, answered, hLines⟩ := h.lines rankId
  obtain ⟨channel, hRead, _, hDown⟩ := hLines.down.read count
  refine ⟨channel, hRead, h.same, h.linked, ?_, h.logged⟩
  refine lines_of_sameBut h rankId (sameBut_down w rankId channel w.node)
    (fun _ _ _ hFound _ => hFound) ?_
  refine ⟨sent, asked, answered, hLines.up, hLines.handler, ?_, hLines.nodup, hLines.pending,
    hLines.answers⟩
  change (Function.update w.down rankId channel rankId).Conveys _ _ _ _
  rw [Function.update_self]
  exact hDown

theorem Follows.serve (h : w.Follows endian codec s) {rankId : UInt32}
    {delivered : Delivered WireMeta}
    {channel : Channel} (hNext : (w.up rankId).next codec = some (delivered, channel)) :
    Follows endian codec { w with
      up := Function.update w.up rankId channel
      asked := Function.update w.asked rankId
        (w.asked rankId ++ [(delivered.message, delivered.data)]) } s := by
  refine ⟨h.same, h.linked, ?_, h.logged⟩
  refine lines_of_sameBut h rankId ?_ (fun _ _ _ hFound _ => hFound) ?_
  · intro other hOther
    exact ⟨Function.update_of_ne hOther _ _, Function.update_of_ne hOther _ _, rfl⟩
  · obtain ⟨sent, asked, answered, hLines⟩ := h.lines rankId
    obtain ⟨item, items, hItems, hItem, hUp⟩ := hLines.up.of_next hNext
    obtain ⟨ref, rest, rfl, rfl, rfl⟩ := List.map_eq_cons_iff.mp hItems
    refine ⟨rest, asked ++ [ref], answered, ?_, ?_, hLines.down, ?_, ?_, hLines.answers⟩
    · change (Function.update w.up rankId channel rankId).Conveys _ _ _ _
      rw [Function.update_self]
      exact hUp
    · change Function.update w.asked rankId _ rankId = _
      rw [Function.update_self, hLines.handler, List.map_append, List.map_singleton,
        ← Option.some.inj hItem]
    · have hPerm :
        (rest ++ (asked ++ [ref]) ++ answered).Perm (ref :: rest ++ asked ++ answered) := by
        simp only [List.append_assoc, List.cons_append, List.nil_append]
        exact (List.perm_middle.append_left rest).trans List.perm_middle
      rw [(hPerm.map Ref.key).nodup_iff]
      exact hLines.nodup
    · intro other hOther
      apply hLines.pending
      simp only [List.mem_append, List.mem_cons, List.not_mem_nil, or_false] at hOther ⊢
      tauto

theorem call_of_messageAt {id k : Nat} {message : Message} (h : s.messageAt id k = some message) :
    ∃ call, s.calls.lookup id = some call ∧ call.sent[k]? = some message :=
  Option.bind_eq_some_iff.mp h

def Replied (s s' : NodeState) (ref : Ref) (reply : Reply) : Prop :=
  ∀ id k, s'.messageAt id k =
    if (id, k) = ref.key then (s.messageAt id k).map fun message => { message with reply := reply }
    else s.messageAt id k

section Replied

variable {ref : Ref} {reply : Reply} {rankId : UInt32} {sentData : Bytes} {old : Reply}

theorem replied_setReply {call : Call} (hCall : s.calls.lookup ref.id = some call) (reply : Reply) :
    Replied s (s.setCall ref.id (call.setReply ref.k reply)) ref reply := by
  intro id k
  rw [NodeState.messageAt_setReply hCall]
  split
  · next hKey =>
    cases hKey
    exact (if_pos rfl).symm
  · next hKey => exact (if_neg hKey).symm

theorem Replied.self (h : Replied s s' ref reply)
    (hFound : s.messageAt ref.id ref.k = some ⟨rankId, sentData, old⟩) :
    s'.messageAt ref.id ref.k = some ⟨rankId, sentData, reply⟩ := by
  have hKey : (ref.id, ref.k) = ref.key := rfl
  rw [h, if_pos hKey, hFound]
  rfl

theorem Replied.other (h : Replied s s' ref reply) {id k : Nat} (hKey : (id, k) ≠ ref.key) :
    s'.messageAt id k = s.messageAt id k := by
  rw [h, if_neg hKey]

theorem Replied.elsewhere (h : Replied s s' ref reply)
    (hFound : s.messageAt ref.id ref.k = some ⟨rankId, sentData, old⟩) (id k : Nat)
    (message : Message) (hOther : s.messageAt id k = some message)
    (hRank : message.rankId ≠ rankId) :
    s'.messageAt id k = some message := by
  rw [h.other]
  · exact hOther
  · rintro ⟨⟩
    rw [hFound] at hOther
    cases hOther
    exact hRank rfl

theorem Replied.pending (h : Replied s s' ref reply) {other : Ref} (hKey : other.key ≠ ref.key)
    (hPending : other.PendingAt s rankId) : other.PendingAt s' rankId := by
  obtain ⟨hTag, data, hFound⟩ := hPending
  exact ⟨hTag, data, (h.other hKey).trans hFound⟩

theorem Replied.answered (h : Replied s s' ref reply) {other : Ref} (hKey : other.key ≠ ref.key)
    (hAnswered : other.AnsweredAt s rankId) : other.AnsweredAt s' rankId := by
  obtain ⟨hTag, hRank, data, hFound⟩ := hAnswered
  exact ⟨hTag, hRank, data, (h.other hKey).trans hFound⟩

theorem Replied.logged (h : Replied s s' ref reply) (hLogged : w.Logged s)
    (hFound : s.messageAt ref.id ref.k = some ⟨rankId, sentData, old⟩)
    (hAnswers : w.answers ⊆ w'.answers)
    (hReply : ∀ data, reply = .answered data ∨ reply = .handled data →
      ⟨rankId, ref.id, data⟩ ∈ w'.answers) : w'.Logged s' := by
  intro id k otherRank otherSent data hOther
  by_cases hKey : (id, k) = ref.key
  · cases hKey
    rw [h.self hFound] at hOther
    rcases hOther with hOther | hOther
    · cases hOther
      exact hReply data (.inl rfl)
    · cases hOther
      exact hReply data (.inr rfl)
  · rw [h.other hKey] at hOther
    exact hAnswers (hLogged id k otherRank otherSent data hOther)

end Replied

theorem Follows.response (h : w.Follows endian codec s) {rankId : UInt32} {place : Nat}
    {data : Bytes}
    {request : WireMeta × Bytes} (hRequest : (w.asked rankId)[place]? = some request)
    (hData : data.length < 2 ^ 62) :
    ∃ channel id k s', (w.down rankId).send endian .connection codec .raw
        (request.1.response rankId) data = .ok channel ∧
      s.step (.answer id k data) = some s' ∧
      Follows endian codec { w with
        asked := Function.update w.asked rankId ((w.asked rankId).eraseIdx place)
        down := Function.update w.down rankId channel
        answers := w.answers ++
          [⟨rankId, (request.1.response rankId).requestId.toNat, data⟩] } s' := by
  obtain ⟨sent, asked, answered, hLines⟩ := h.lines rankId
  rw [hLines.handler, List.getElem?_map, Option.map_eq_some_iff] at hRequest
  obtain ⟨ref, hRef, rfl⟩ := hRequest
  obtain ⟨hTagged, sentData, hFound⟩ :=
    hLines.pending ref (List.mem_append_right _ (List.mem_of_getElem? hRef))
  obtain ⟨call, hCall, hSent⟩ := call_of_messageAt hFound
  let reply : Ref := ⟨ref.id, ref.k, ref.message.response rankId, data⟩
  have hReplyTagged : reply.Tagged := ⟨hTagged.cmd, hTagged.requestId⟩
  obtain ⟨channel, hSend, hDown⟩ := hLines.down.send .connection
    (show whole (codec.outgoing reply.message .raw reply.data (cmd_ne_zero hReplyTagged.cmd)
      (length_lt codec _ hData)).delivered = some reply.item from rfl)
  have hAnswer : s.step (.answer ref.id ref.k data) =
      some (s.setCall ref.id (call.setReply ref.k (.answered data))) := by
    refine Option.bind_eq_some_iff.mpr ⟨call, hCall, ?_⟩
    rw [Call.answer, hSent]
    rfl
  have hReplied := replied_setReply hCall (.answered data)
  have hPerm :
    (sent ++ asked ++ answered).Perm (ref :: (sent ++ asked.eraseIdx place ++ answered)) := by
    obtain ⟨hPlace, rfl⟩ := List.getElem?_eq_some_iff.mp hRef
    have hErase := (List.getElem_cons_eraseIdx_perm hPlace).symm
    simp only [List.append_assoc]
    exact ((hErase.append_right answered).append_left sent).trans List.perm_middle
  have hNodup := hLines.nodup
  rw [(hPerm.map Ref.key).nodup_iff, List.map_cons, List.nodup_cons] at hNodup
  have hKeys : ∀ other ∈ sent ++ asked.eraseIdx place ++ answered, other.key ≠ ref.key :=
    fun other hOther hSame => hNodup.1 (hSame ▸ List.mem_map_of_mem hOther)
  refine ⟨channel, ref.id, ref.k, _, hSend, hAnswer, h.same.setReply hCall _ _,
    (NodeState.step_view h.linked hAnswer).1, ?_, ?_⟩
  · refine lines_of_sameBut h rankId ?_ (hReplied.elsewhere hFound) ?_
    · intro other hOther
      exact ⟨rfl, Function.update_of_ne hOther _ _, Function.update_of_ne hOther _ _⟩
    · refine ⟨sent, asked.eraseIdx place, answered ++ [reply], hLines.up, ?_, ?_, ?_, ?_, ?_⟩
      · change Function.update w.asked rankId _ rankId = _
        rw [Function.update_self, hLines.handler, List.eraseIdx_map]
      · change (Function.update w.down rankId channel rankId).Conveys _ _ _ _
        rw [Function.update_self, List.map_append]
        exact hDown
      · rw [← List.append_assoc, ((List.perm_append_singleton _ _).map Ref.key).nodup_iff,
          List.map_cons, List.nodup_cons]
        exact hNodup
      · intro other hOther
        have hOld : other ∈ sent ++ asked := by
          rcases List.mem_append.mp hOther with hSent | hAsked
          · exact List.mem_append_left _ hSent
          · exact List.mem_append_right _ (List.mem_of_mem_eraseIdx hAsked)
        exact hReplied.pending (hKeys other (List.mem_append_left _ hOther))
          (hLines.pending other hOld)
      · intro other hOther
        rcases List.mem_append.mp hOther with hOld | hNew
        · exact hReplied.answered (hKeys other (List.mem_append_right _ hOld))
            (hLines.answers other hOld)
        · cases List.mem_singleton.mp hNew
          exact ⟨hReplyTagged, rfl, sentData, hReplied.self hFound⟩
  · refine hReplied.logged h.logged hFound (List.subset_append_left _ _) ?_
    rintro answer (hReply | hReply)
    · cases hReply
      rw [← hTagged.requestId]
      exact List.mem_append_right _ List.mem_cons_self
    · cases hReply

theorem Follows.take (h : w.Follows endian codec s) (hIdle : w.node.loop = .idle) {rankId : UInt32}
    {delivered : Delivered WireMeta} {channel : Channel}
    (hNext : (w.down rankId).next codec = some (delivered, channel)) :
    ∃ id k s', s.step (.respond id k) = some s' ∧
      Follows endian codec { w with
        node := w.node.onResponse delivered
        down := Function.update w.down rankId channel } s' := by
  obtain ⟨sent, asked, answered, hLines⟩ := h.lines rankId
  obtain ⟨item, items, hItems, hItem, hDown⟩ := hLines.down.of_next hNext
  obtain ⟨ref, rest, rfl, rfl, rfl⟩ := List.map_eq_cons_iff.mp hItems
  obtain ⟨hMessage, hData⟩ := Prod.mk.inj (Option.some.inj hItem)
  obtain ⟨hTagged, hRank, sentData, hFound⟩ := hLines.answers ref List.mem_cons_self
  obtain ⟨call, hCall, hSent⟩ := call_of_messageAt hFound
  have hKeys : ∀ other ∈ sent ++ asked ++ rest, other.key ≠ ref.key := by
    have hNodup := hLines.nodup
    rw [(List.perm_middle.map Ref.key).nodup_iff, List.map_cons, List.nodup_cons] at hNodup
    exact fun other hOther hSame => hNodup.1 (hSame ▸ List.mem_map_of_mem hOther)
  have hResponse : call.response ref.k = some (rankId, ref.data) := by
    rw [Call.response, hSent]
  have hStep (s' : NodeState) (hRespond : s.respond ref.id ref.k call = some s') :
      s.step (.respond ref.id ref.k) = some s' := by
    rw [NodeState.step, if_pos (h.same.loop ▸ hIdle), hCall]
    exact hRespond
  have hMeta : delivered.message.requestId.toNat = ref.id := hMessage ▸ hTagged.requestId
  have hFrom : delivered.message.rankId.toUInt32 = rankId := hMessage ▸ hRank
  obtain ⟨s', hRespond, hSame, hReplies⟩ :=
    h.same.onResponse hCall hResponse hMeta hFrom hData
  have hLinked := (NodeState.step_view h.linked (hStep s' hRespond)).1
  obtain ⟨hKept, hElsewhere, hLogged⟩ :
      (∀ id k, (id, k) ≠ ref.key → s'.messageAt id k = s.messageAt id k) ∧
      (∀ id k message, s.messageAt id k = some message → message.rankId ≠ rankId →
        s'.messageAt id k = some message) ∧ w.Logged s' := by
    rcases hReplies with hCalls | hCalls
    · have hMessages (id k : Nat) : s'.messageAt id k = s.messageAt id k := by
        rw [NodeState.messageAt, hCalls]
        rfl
      refine ⟨fun id k _ => hMessages id k, fun id k _ hOther _ => (hMessages id k).trans hOther,
        ?_⟩
      intro id k otherRank otherSent data hReply
      rw [hMessages] at hReply
      exact h.logged id k otherRank otherSent data hReply
    · have hReplied : Replied s s' ref (.handled ref.data) := by
        intro id k
        rw [← replied_setReply hCall (.handled ref.data) id k, NodeState.messageAt, hCalls]
        rfl
      refine ⟨fun id k hKey => hReplied.other hKey, hReplied.elsewhere hFound,
        hReplied.logged h.logged hFound (List.Subset.refl _) ?_⟩
      rintro answer (hReply | hReply)
      · cases hReply
      · cases hReply
        exact h.logged ref.id ref.k rankId sentData ref.data (.inl hFound)
  refine ⟨ref.id, ref.k, s', hStep s' hRespond, hSame, hLinked, ?_, hLogged⟩
  refine lines_of_sameBut h rankId (sameBut_down w rankId channel _) hElsewhere ?_
  refine ⟨sent, asked, rest, hLines.up, hLines.handler, ?_, ?_, ?_, ?_⟩
  · change (Function.update w.down rankId channel rankId).Conveys _ _ _ _
    rw [Function.update_self]
    exact hDown
  · have hNodup := hLines.nodup
    rw [(List.perm_middle.map Ref.key).nodup_iff, List.map_cons, List.nodup_cons] at hNodup
    exact hNodup.2
  · intro other hOther
    obtain ⟨hTag, data, hOld⟩ := hLines.pending other hOther
    exact ⟨hTag, data, (hKept _ _ (hKeys other (List.mem_append_left _ hOther))).trans hOld⟩
  · intro other hOther
    obtain ⟨hTag, hOtherRank, data, hOld⟩ := hLines.answers other (List.mem_cons_of_mem _ hOther)
    exact ⟨hTag, hOtherRank, data,
      (hKept _ _ (hKeys other (List.mem_append_right _ hOther))).trans hOld⟩

/-- Each step on the bytes is no step or one timely step of `NodeState`. -/
theorem Follows.act (h : w.Follows endian codec s) {id : Nat} (hFits : w.Fits (.node (.act id)))
    (hStep : w.step endian codec (.node (.act id)) = some w') :
    ∃ s', s.step (.act id) = some s' ∧ w'.Follows endian codec s' := by
  obtain ⟨call, hLookup, hRest⟩ := Option.bind_eq_some_iff.mp hStep
  obtain ⟨written, hWrite, hRest⟩ := Option.bind_eq_some_iff.mp hRest
  obtain ⟨node, hAct, rfl⟩ := Option.map_eq_some_iff.mp hRest
  obtain ⟨hId, hNextFits⟩ := hFits
  rw [hLookup] at hNextFits
  obtain ⟨sCall, hCall, rfl⟩ := h.same.lookup hLookup
  obtain ⟨s', hAct', hSame, hKeeps⟩ := h.same.act hCall hAct
  have hNode : s.step (.act id) = some s' :=
    Option.bind_eq_some_iff.mpr ⟨sCall, hCall, hAct'⟩
  refine ⟨s', hNode, ?_⟩
  rw [write] at hWrite
  split at hWrite
  · next rankId data rest hTodo =>
    have hTodo : sCall.todo = .sendMessage rankId data :: rest := hTodo
    have hData : data.length < 2 ^ 62 := by
      have hCallFits : sCall.forget.nextFits = true := hNextFits
      rw [Call.nextFits, show sCall.forget.todo = _ from hTodo] at hCallFits
      exact of_decide_eq_true hCallFits
    obtain ⟨channel, hSend, hFollows⟩ := h.send hCall hTodo hId hData hAct' hSame hKeeps
    have hSend : (w.up rankId).send endian .client codec .raw
        (sCall.forget.messageMeta id).toWire data = .ok channel := hSend
    rw [hSend] at hWrite
    cases hWrite
    exact hFollows
  · cases hWrite
    exact ⟨hSame, (NodeState.step_view h.linked hNode).1,
      lines_of_keeps h hKeeps rfl rfl rfl, h.logged.of_keeps hKeeps rfl⟩

theorem Follows.step (h : w.Follows endian codec s) {label : WireCallsLabel}
    (hMove : restrict Fits (step endian codec) w label = some w') :
    ∃ labels s', exec (restrict (fun s l => s.timely l = true) NodeState.step) s labels = some s' ∧
      w'.Follows endian codec s' := by
  obtain ⟨hFits, hStep⟩ := restrict_eq_some.mp hMove
  have hOwn {l : Label} (hIsOwn : l.isOwn = true) (hTimely : w.node.timely l = true)
      (hNode : (w.node.step l).map (fun node => { w with node := node }) = some w') :
      ∃ labels s', exec (restrict (fun s l => s.timely l = true) NodeState.step) s labels =
        some s' ∧ w'.Follows endian codec s' := by
    obtain ⟨node, hInside, rfl⟩ := Option.map_eq_some_iff.mp hNode
    obtain ⟨s', hNode', hFollows⟩ := h.own hIsOwn hInside
    exact ⟨[l], s', exec_restrict_cons (h.same.timely l ▸ hTimely) hNode' rfl, hFollows⟩
  cases label with
  | node label =>
    cases label with
    | act id =>
      obtain ⟨s', hNode, hFollows⟩ := h.act hFits hStep
      exact ⟨[.act id], s', exec_restrict_cons rfl hNode rfl, hFollows⟩
    | call view invocation => exact hOwn rfl hFits hStep
    | waitTurn id timedOut => exact hOwn rfl hFits hStep
    | returns id => exact hOwn rfl hFits hStep
    | loop => exact hOwn rfl hFits hStep
    | answer id k data => cases hStep
    | respond id k => cases hStep
  | serverRead rankId count =>
    obtain ⟨channel, hRead, hFollows⟩ := h.serverRead rankId count
    rw [WireCalls.step, hRead] at hStep
    cases hStep
    exact ⟨[], s, rfl, hFollows⟩
  | serve rankId =>
    obtain ⟨call, hNext, hRest⟩ := Option.bind_eq_some_iff.mp hStep
    dsimp only at hRest
    split at hRest
    · cases hRest
      exact ⟨[], s, rfl, h.serve hNext⟩
    · cases hRest
  | response rankId place data =>
    obtain ⟨request, hRequest, hRest⟩ := Option.bind_eq_some_iff.mp hStep
    obtain ⟨channel, id, k, s', hSend, hAnswer, hFollows⟩ := h.response hRequest hFits
    dsimp only at hRest
    rw [hSend] at hRest
    cases hRest
    exact ⟨[.answer id k data], s', exec_restrict_cons rfl hAnswer rfl, hFollows⟩
  | nodeRead rankId count =>
    obtain ⟨channel, hRead, hFollows⟩ := h.nodeRead rankId count
    rw [WireCalls.step, hRead] at hStep
    cases hStep
    exact ⟨[], s, rfl, hFollows⟩
  | take rankId =>
    rw [WireCalls.step] at hStep
    split at hStep
    · next hIdle =>
      obtain ⟨call, hNext, hRest⟩ := Option.bind_eq_some_iff.mp hStep
      split at hRest
      · cases hRest
        obtain ⟨id, k, s', hRespond, hFollows⟩ := h.take hIdle hNext
        exact ⟨[.respond id k], s', exec_restrict_cons rfl hRespond rfl, hFollows⟩
      · cases hRest
    · cases hStep

end WireCalls

/-- Every run on the bytes is a timely run of `NodeState`, whatever the pieces are in which the
connections are read and in whatever order the servers answer. So when `Wait` of a `Send` with an
output and distinct rank ids has returned true, the entry of the output for the `i`-th rank id is
what the request handler of this server has answered to this very request. -/
theorem wire_send_output (endian : Endian) (codec : MetaRuntime)
    (upJunk downJunk : UInt32 → Vector UInt8 kHeaderLen) {labels : List WireCallsLabel}
    {w : WireCalls}
    (hRun : exec (restrict WireCalls.Fits (WireCalls.step endian codec)) (.new upJunk downJunk)
      labels = some w) :
    (∃ labels' s, exec (restrict (fun s l => s.timely l = true) NodeState.step) .new labels' =
      some s ∧ w.node.Same s) ∧
    ∀ id call closure, w.node.calls.lookup id = some call → call.request.closure = some closure →
      call.request.rankIds.Nodup → call.Succeeded →
      ∃ answers : List Bytes, answers.length = call.request.rankIds.length ∧
        call.output = closure.outcome call.request.initial (answers.map some) ∧
        ∀ (i : Nat) (rankId : UInt32), call.request.rankIds[i]? = some rankId →
          ∃ data, answers[i]? = some data ∧ ⟨rankId, id, data⟩ ∈ w.answers := by
  obtain ⟨labels', s, hNode, hFollows⟩ :=
    exec_simulates (fun w l w' s h hStep => WireCalls.Follows.step h hStep)
      (WireCalls.follows_new endian codec upJunk downJunk) hRun
  refine ⟨⟨labels', s, hNode, hFollows.same⟩, ?_⟩
  intro id call closure hLookup hClosure hNodup hDone
  obtain ⟨sCall, hCall, rfl⟩ := hFollows.same.lookup hLookup
  have hClosure : sCall.request.closure = some closure := hClosure
  have hNodup : sCall.request.rankIds.Nodup := hNodup
  have hDone : sCall.Succeeded := hDone
  obtain ⟨answers, hRankIds, hReplies, hOutput⟩ :=
    NodeState.output_of_waited (exec_of_exec_restrict hNode) hCall hClosure hNodup hDone
  refine ⟨answers, ?_, ?_, ?_⟩
  · have hLength := congrArg List.length hReplies
    change answers.length = sCall.request.rankIds.length
    rw [← hRankIds, List.length_map]
    rw [List.length_map, List.length_map] at hLength
    exact hLength.symm
  · exact hOutput
  · intro i rankId hRank
    have hRank : sCall.request.rankIds[i]? = some rankId := hRank
    rw [← hRankIds, List.getElem?_map, Option.map_eq_some_iff] at hRank
    obtain ⟨⟨_, sent, reply⟩, hSent, rfl⟩ := hRank
    have hReply := congrArg (·[i]?) hReplies
    simp only [List.getElem?_map, hSent, Option.map_some] at hReply
    obtain ⟨data, hAnswer, rfl⟩ := Option.map_eq_some_iff.mp hReply.symm
    refine ⟨data, hAnswer, hFollows.logged id i _ sent data (.inr ?_)⟩
    rw [NodeState.messageAt, hCall, Option.bind_some]
    exact hSent

theorem WireCalls.exec_node {endian : Endian} {codec : MetaRuntime} {w : WireCalls}
    {labels : List Label} {node : NodeState}
    (hOwn : ∀ label ∈ labels, label.isOwn = true ∧ ∀ id, label ≠ .act id)
    (hNode : exec (restrict (fun s l => s.timely l = true) NodeState.step) w.node labels =
      some node) :
    exec (restrict Fits (step endian codec)) w (labels.map .node) =
      some { w with node := node } := by
  induction labels generalizing w with
  | nil =>
    cases hNode
    rfl
  | cons label labels ih =>
    obtain ⟨next, hNext, hRest⟩ := Option.bind_eq_some_iff.mp hNode
    obtain ⟨hTimely, hNext⟩ := restrict_eq_some.mp hNext
    obtain ⟨hLabel, hLabels⟩ := List.forall_mem_cons.mp hOwn
    have hFits : w.Fits (.node label) := by
      cases label with
      | act id => exact absurd rfl (hLabel.2 id)
      | _ => exact hTimely
    have hStep : w.step endian codec (.node label) = some { w with node := next } := by
      rw [step, if_pos hLabel.1, hNext]
      · rfl
      · exact fun id => hLabel.2 id
    exact exec_restrict_cons hFits hStep (ih (w := { w with node := next }) hLabels hRest)

namespace WireCalls

variable (endian : Endian) (codec : MetaRuntime) {w : WireCalls} {rankId : UInt32}

/-- The next message of a call, on a connection with nothing on its way, gets to the server. -/
theorem exec_request {id : Nat} {call : Call} {sent : NodeState} {data : Bytes}
    {rest : List Action} (hId : id < 2 ^ 64) (hCall : w.node.calls.lookup id = some call)
    (hTodo : call.todo = .sendMessage rankId data :: rest) (hAct : w.node.act id call = some sent)
    (hUp : (w.up rankId).Conveys codec endian whole [])
    (hData : 0 < data.length ∧ data.length ≤ securecMemMaxLen) :
    ∃ count channel, exec (restrict Fits (step endian codec)) w
      [.node (.act id), .serverRead rankId count, .serve rankId] = some { w with
        node := sent
        up := Function.update w.up rankId channel
        asked := Function.update w.asked rankId
          (w.asked rankId ++ [((call.messageMeta id).toWire, data)]) } := by
  have hFits : data.length < 2 ^ 62 := Nat.lt_of_le_of_lt hData.2 (by decide)
  have hItem : whole (codec.outgoing (call.messageMeta id).toWire .raw data (cmd_ne_zero rfl)
      (length_lt codec _ hFits)).delivered = some ((call.messageMeta id).toWire, data) := rfl
  obtain ⟨written, arrived, delivered, channel, hSend, hRead, hNext, hGot⟩ :=
    hUp.passes .client hItem
  obtain ⟨hMessage, hBytes⟩ := Prod.mk.inj (Option.some.inj hGot)
  let first : WireCalls := { w with node := sent, up := Function.update w.up rankId written }
  let second : WireCalls := { w with node := sent, up := Function.update w.up rankId arrived }
  have hNow : w.Fits (.node (.act id)) := by
    refine ⟨hId, ?_⟩
    rw [hCall, Option.all_some, Call.nextFits, hTodo]
    exact decide_eq_true hFits
  have hWrite : w.step endian codec (.node (.act id)) = some first := by
    have hSend : (w.up rankId).send endian .client codec .raw (call.messageMeta id).toWire data =
        .ok written := hSend
    rw [step, hCall, Option.bind_some, write, hTodo]
    dsimp only
    rw [hSend, hAct]
    rfl
  have hArrive : first.step endian codec (.serverRead rankId written.link.output.length) =
      some second := by
    have hUp : first.up rankId = written := Function.update_self ..
    rw [step, hUp, hRead]
    exact congrArg (fun up => some { w with node := sent, up := up }) (Function.update_idem ..)
  have hServe : second.step endian codec (.serve rankId) = some { w with
      node := sent
      up := Function.update w.up rankId channel
      asked := Function.update w.asked rankId
        (w.asked rankId ++ [((call.messageMeta id).toWire, data)]) } := by
    have hUp : second.up rankId = arrived := Function.update_self ..
    rw [step, hUp, hNext, Option.bind_some]
    dsimp only
    rw [hMessage, hBytes, if_pos ⟨rfl, (memcpyS_self_eq_eok_iff _).mpr hData⟩, Function.update_idem]
  exact ⟨written.link.output.length, channel, exec_restrict_cons hNow hWrite
    (exec_restrict_cons trivial hArrive (exec_restrict_cons trivial hServe rfl))⟩

/-- An answer, on a connection with nothing on its way, gets to the node. -/
theorem exec_answer {place : Nat} {message : WireMeta} {data : Bytes} (answer : Bytes)
    (hAsked : (w.asked rankId)[place]? = some (message, data))
    (hCmd : message.cmd = .ofNat NodeCommand.sendData.number) (hIdle : w.node.loop = .idle)
    (hDown : (w.down rankId).Conveys codec endian whole []) (hAnswer : answer.length < 2 ^ 62) :
    ∃ count channel, exec (restrict Fits (step endian codec)) w
      [.response rankId place answer, .nodeRead rankId count, .take rankId] = some { w with
        node := w.node.onResponse ⟨.raw, [], message.response rankId, answer⟩
        asked := Function.update w.asked rankId ((w.asked rankId).eraseIdx place)
        down := Function.update w.down rankId channel
        answers := w.answers ++ [⟨rankId, message.requestId.toNat, answer⟩] } := by
  have hItem : whole (codec.outgoing (message.response rankId) .raw answer (cmd_ne_zero hCmd)
      (length_lt codec _ hAnswer)).delivered = some (message.response rankId, answer) := rfl
  obtain ⟨written, arrived, delivered, channel, hSend, hRead, hNext, hGot⟩ :=
    hDown.passes .connection hItem
  obtain ⟨hMessage, hBytes⟩ := Prod.mk.inj (Option.some.inj hGot)
  let answered : WireCalls := { w with
    asked := Function.update w.asked rankId ((w.asked rankId).eraseIdx place)
    answers := w.answers ++ [⟨rankId, message.requestId.toNat, answer⟩] }
  let first : WireCalls := { answered with down := Function.update w.down rankId written }
  let second : WireCalls := { answered with down := Function.update w.down rankId arrived }
  have hRespond : w.step endian codec (.response rankId place answer) = some first := by
    have hSend : (w.down rankId).send endian .connection codec .raw (message.response rankId)
        answer = .ok written := hSend
    rw [step, hAsked, Option.bind_some]
    dsimp only
    rw [hSend]
    rfl
  have hArrive : first.step endian codec (.nodeRead rankId written.link.output.length) =
      some second := by
    have hDown : first.down rankId = written := Function.update_self ..
    rw [step, hDown, hRead]
    exact congrArg (fun down => some { answered with down := down }) (Function.update_idem ..)
  have hTake : second.step endian codec (.take rankId) = some { answered with
      node := w.node.onResponse ⟨.raw, [], message.response rankId, answer⟩
      down := Function.update w.down rankId channel } := by
    have hDown : second.down rankId = arrived := Function.update_self ..
    have hSendData : delivered.message.cmd = .ofNat NodeCommand.sendData.number :=
      (congrArg WireMeta.cmd hMessage).trans hCmd
    rw [step, if_pos (show second.node.loop = .idle from hIdle), hDown, hNext, Option.bind_some,
      if_pos hSendData, NodeState.onResponse, hMessage, hBytes, Function.update_idem]
    rfl
  exact ⟨written.link.output.length, channel, exec_restrict_cons hAnswer hRespond
    (exec_restrict_cons trivial hArrive (exec_restrict_cons trivial hTake rfl))⟩

end WireCalls

/-- A `Send` to the server 1, which answers. -/
theorem wire_send_output_one_server :
    ∃ up down w,
      exec (restrict WireCalls.Fits (WireCalls.step .little wireCodec))
        (.new (fun _ => .replicate _ 0) fun _ => .replicate _ 0)
        [.node (.call twoServers (.sendForOutput .server 1 (some [3]) 1 6 (some none))),
          .node (.act 1), .node (.act 1), .serverRead 1 up, .serve 1, .response 1 0 [30],
          .nodeRead 1 down, .take 1, .node .loop, .node .loop, .node .loop, .node .loop,
          .node (.waitTurn 1 false)] = some w ∧
      ∃ call, w.node.calls.lookup 1 = some call ∧ call.Succeeded ∧ call.output = [some [30]] ∧
        ∃ answers : List Bytes, call.output = answers.map some ∧
          ∃ data, answers[0]? = some data ∧ ⟨1, 1, data⟩ ∈ w.answers := by
  let message : WireMeta := ⟨.ofNat NodeCommand.sendData.number, 1, 1, 0, 6⟩
  obtain ⟨called, added, stored, ready, sent, done, call, hCalled, hAdded, hAddedTodo, hStored,
    hReady, hReadyTodo, hMeta, hSent, hIdle, hNode, hCall, hDone, hClosure, hRankIds, hOutput⟩ :
      ∃ called added stored ready sent done call,
        exec (restrict (fun s l => s.timely l = true) NodeState.step) .new
          [.call twoServers (.sendForOutput .server 1 (some [3]) 1 6 (some none))] = some called ∧
        called.calls.lookup 1 = some added ∧
        added.todo = [.setMessageCallback, .sendMessage 1 [3], .wait] ∧
        called.act 1 added = some stored ∧
        stored.calls.lookup 1 = some ready ∧ ready.todo = [.sendMessage 1 [3], .wait] ∧
        (ready.messageMeta 1).toWire = message ∧ stored.act 1 ready = some sent ∧
        sent.loop = .idle ∧
        exec (restrict (fun s l => s.timely l = true) NodeState.step)
          (sent.onResponse ⟨.raw, [], message.response 1, [30]⟩)
          [.loop, .loop, .loop, .loop, .waitTurn 1 false] = some done ∧
        done.calls.lookup 1 = some call ∧ call.Succeeded ∧ call.request.closure = some .set ∧
        call.request.rankIds = [1] ∧ call.output = [some [30]] :=
    ⟨_, _, _, _, _, _, _, rfl, rfl, rfl, rfl, rfl, rfl, rfl, rfl, rfl, rfl, rfl, .inl rfl, rfl, rfl,
      rfl⟩
  let base : WireCalls := .new (fun _ => .replicate _ 0) fun _ => .replicate _ 0
  have hStore : exec (restrict WireCalls.Fits (WireCalls.step .little wireCodec))
      { base with node := called } [.node (.act 1)] = some { base with node := stored } := by
    refine exec_restrict_cons ⟨by decide, ?_⟩ ?_ rfl
    · rw [hAdded, Option.all_some, Call.nextFits, hAddedTodo]
    · rw [WireCalls.step, hAdded, Option.bind_some, WireCalls.write, hAddedTodo, hStored]
      rfl
  obtain ⟨up, upTaken, hRequest⟩ :=
    WireCalls.exec_request .little wireCodec (w := { base with node := stored }) (by decide) hReady
      hReadyTodo hSent (Channel.conveys_new _) (by decide)
  rw [hMeta] at hRequest
  let asked : WireCalls := { base with
    node := sent
    up := Function.update base.up 1 upTaken
    asked := Function.update base.asked 1 [(message, [3])] }
  have hAsked : (asked.asked 1)[0]? = some (message, [3]) := rfl
  obtain ⟨down, downTaken, hAnswer⟩ :=
    WireCalls.exec_answer .little wireCodec (w := asked) [30] hAsked rfl hIdle
      (Channel.conveys_new _) (by decide)
  have hRun := exec_append.mpr ⟨_, WireCalls.exec_node (w := base) (by simp [Label.isOwn]) hCalled,
    exec_append.mpr ⟨_, hStore, exec_append.mpr ⟨_, hRequest, exec_append.mpr ⟨_, hAnswer,
      WireCalls.exec_node (by simp [Label.isOwn]) hNode⟩⟩⟩⟩
  obtain ⟨_, hOutputs⟩ := wire_send_output .little wireCodec _ _ hRun
  obtain ⟨answers, _, hAnswers, hEach⟩ :=
    hOutputs 1 call .set hCall hClosure (by rw [hRankIds]; exact List.nodup_singleton 1) hDone
  exact ⟨_, _, _, hRun, call, hCall, hDone, hOutput, answers, hAnswers,
    hEach 0 1 (by rw [hRankIds]; rfl)⟩

end PsRpc
