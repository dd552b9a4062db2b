import PsRpc.Heartbeat.Timer
import PsRpc.Node.Tracker
import PsRpc.Scheduler.Cluster

/-! # A node and its event loop

The connections of a worker or a server are served by one event loop on a thread of its own, which
runs the handlers of the responses and then calls `NotifyMessageArrival`. The heartbeat thread and
the threads of the application send requests and wait for their responses. `ProcessHeartbeatResp`
sends a request, too, and waits for it: on the thread of the event loop, where no other response is
taken before `Wait` returns.
-/

namespace PsRpc

open Execution

inductive NodeRequest where
  | register (message : RegisterMessage)
  | heartbeat (message : HeartbeatMessage)
  | fetchServers
  | finish (message : FinishMessage)
deriving DecidableEq, Repr

/-- `data` is a response of a server, and `unsupported` a message with a command that has no
handler. -/
inductive NodeResponse where
  | register (message : RegisterRespMessage)
  | heartbeat (message : HeartbeatRespMessage)
  | fetchServers (serversMeta : List ServersMeta)
  | finish
  | data
  | unsupported (cmd : Int)
deriving DecidableEq, Repr

/-- `waiting` is the `Wait` of `ProcessHeartbeatResp` for `requestId`, in the handler of the
response `answered`. -/
inductive LoopPhase where
  | idle
  | waiting (requestId answered : Nat) (message : HeartbeatRespMessage)
  | raised (fault : Fault)
deriving DecidableEq, Repr

/-- `checking` is before the condition of the loop, and `sending` before `AddMessageTrack`. -/
inductive TimerPhase where
  | checking
  | sending
  | waiting (requestId : Nat)
  | ended
deriving DecidableEq, Repr

namespace NodeStatus

def updateReady (s : NodeStatus) (message : HeartbeatRespMessage) : NodeStatus :=
  { s with isReady := message.isClusterReady }

def updateFinish (s : NodeStatus) : NodeStatus := { s with isFinish := true }

def updateTimeout (s : NodeStatus) (message : HeartbeatRespMessage) : NodeStatus :=
  let s := { s with isTimeout := message.isClusterTimeout }
  let s :=
    if s.isTimeout && s.eventCallback then { s with isReady := true }.raiseEvent .clusterTimeout
    else s
  if message.isNodeTimeout && s.eventCallback then s.raiseEvent .nodeTimeout else s

/-- The flags that `Stop` sets; the two classes differ. -/
def stop (s : NodeStatus) (nodeRole : NodeRole) : NodeStatus :=
  if nodeRole = .worker then { s with isReady := true, isTimeout := true, isFinish := true }
  else { s with isFinish := true }

end NodeStatus

/-- `sent` are the requests to the scheduler with their ids, oldest first. -/
structure Client where
  node : ClusterNode
  status : NodeStatus
  tracker : MessageTracker
  loop : LoopPhase
  timer : TimerPhase
  sent : List (Nat × NodeRequest)

/-- `disconnect` is `Disconnect` as far as to its `Wait`, `addMessageTrack` that of a message to
servers; `take` and `loopWait` are steps of the event loop. -/
inductive ClientLabel where
  | register
  | fetchServers
  | disconnect
  | addMessageTrack (expected : UInt32)
  | waitTurn (requestId : Nat) (timedOut : Bool)
  | stop
  | timerCheck
  | timerSend
  | timerWait (timedOut : Bool) (now : Int)
  | take (requestId : Nat) (response : NodeResponse)
  | loopWait (timedOut : Bool)
deriving DecidableEq, Repr

namespace Client

def new (node : ClusterNode) (status : NodeStatus) : Client :=
  ⟨node, status, .new, .idle, .checking, []⟩

/-- `SendMessageSync` as far as to its `Wait`. -/
def sendMessageSync (c : Client) (request : NodeRequest) : Nat × Client :=
  let added := c.tracker.addMessageTrack 1
  (added.1, { c with tracker := added.2, sent := c.sent ++ [(added.1, request)] })

/-- `Heartbeat` as far as to its `Wait`. -/
def heartbeat (c : Client) (isNodeFinish : Bool) : Nat × Client :=
  c.sendMessageSync (.heartbeat ⟨c.node.nodeInfo.nodeId, isNodeFinish⟩)

def notifyMessageArrival (c : Client) (requestId : Nat) : Client :=
  { c with tracker := c.tracker.notifyMessageArrival requestId }

/-- `ProcessHeartbeatResp`, as far as to the `Wait` in it if there is one. -/
def processHeartbeatResp (c : Client) (requestId : Nat) (message : HeartbeatRespMessage) : Client :=
  let c := { c with status := c.status.updateReady message }
  if message.isClusterFinish then
    let sent := c.heartbeat true
    { sent.2 with loop := .waiting sent.1 requestId message }
  else { c with status := c.status.updateTimeout message }.notifyMessageArrival requestId

/-- The message callback of `client_to_scheduler_`, and that of a client to a server. -/
def takeResponse (c : Client) (requestId : Nat) : NodeResponse → Client
  | .register message =>
    match c.node.processRegisterResp message with
    | .error fault => { c with loop := .raised fault }
    | .ok node => { c with node := node }.notifyMessageArrival requestId
  | .heartbeat message => c.processHeartbeatResp requestId message
  | .fetchServers serversMeta =>
    { c with node := c.node.processFetchServersResp serversMeta }.notifyMessageArrival requestId
  | .finish => c.notifyMessageArrival requestId
  | .data => c.notifyMessageArrival requestId
  | .unsupported cmd =>
    { c with loop := .raised (.exception ("The cmd:" ++ toString cmd ++ " is not supported!")) }

/-- The rest of `ProcessHeartbeatResp` after its `Wait` has returned. -/
def finishHeartbeatResp (c : Client) (answered : Nat) (message : HeartbeatRespMessage) : Client :=
  { c with
    status := c.status.updateFinish.updateTimeout message
    loop := .idle }.notifyMessageArrival answered

/-- `Wait` of the application may be called with any id that was given out. The application's
event callback is taken to return without calling the node. -/
def step (times : ClusterTimes) (c : Client) : ClientLabel → Option Client
  | .register => some (c.sendMessageSync (.register c.node.registerMessage)).2
  | .fetchServers => some (c.sendMessageSync .fetchServers).2
  | .disconnect => some (c.sendMessageSync (.finish ⟨c.node.nodeInfo.nodeId⟩)).2
  | .addMessageTrack expected =>
    some { c with tracker := (c.tracker.addMessageTrack expected).2 }
  | .waitTurn requestId timedOut =>
    if 0 < requestId ∧ requestId ≤ c.tracker.nextRequestId then
      some { c with tracker := (c.tracker.waitTurn requestId timedOut).2 }
    else none
  | .stop => some { c with status := c.status.stop c.node.nodeInfo.nodeRole }
  | .timerCheck =>
    match c.timer with
    | .checking => some { c with timer := if c.status.isFinish then .ended else .sending }
    | _ => none
  | .timerSend =>
    match c.timer with
    | .sending =>
      let sent := c.heartbeat false
      some { sent.2 with timer := .waiting sent.1 }
    | _ => none
  | .timerWait timedOut now =>
    match c.timer with
    | .waiting requestId =>
      let turn := c.tracker.waitTurn requestId timedOut
      match turn.1 with
      | none => some { c with tracker := turn.2 }
      | some sent =>
        some { c with
          tracker := turn.2, status := c.status.timerTurn times sent now, timer := .checking }
    | _ => none
  | .take requestId response =>
    if c.loop = .idle then some (c.takeResponse requestId response) else none
  | .loopWait timedOut =>
    match c.loop with
    | .waiting requestId answered message =>
      let turn := c.tracker.waitTurn requestId timedOut
      match turn.1 with
      | none => some { c with tracker := turn.2 }
      | some _ => some ({ c with tracker := turn.2 }.finishHeartbeatResp answered message)
    | _ => none

end Client

/-! ## The event loop in `Wait` -/

def LoopPhase.isWaiting : LoopPhase → Bool
  | .waiting _ _ _ => true
  | _ => false

/-- A heartbeat with `is_node_finish`. -/
def NodeRequest.isAnnouncement : NodeRequest → Bool
  | .heartbeat message => message.isNodeFinish
  | _ => false

/-- The response to a heartbeat with `IS_CLUSTER_FINISH` in it. -/
def NodeResponse.isFinish : NodeResponse → Bool
  | .heartbeat message => message.isClusterFinish
  | _ => false

def ClientLabel.takesFinish : ClientLabel → Bool
  | .take _ response => response.isFinish
  | _ => false

namespace Client

/-- The event loop is in a handler, in `Wait` for a request that is not answered yet, and does not
take the response to this request. -/
def SelfWait (times : ClusterTimes) (c : Client) : Prop :=
  ∃ requestId answered message, c.loop = .waiting requestId answered message ∧
    (c.tracker.entry requestId).1 ≠ (c.tracker.entry requestId).2 ∧
    ∀ response, c.step times (.take requestId response) = none

def announcements (c : Client) : Nat := c.sent.countP fun request => request.2.isAnnouncement

variable {times : ClusterTimes} {c c' : Client}

def SendsOrdinary (c c' : Client) : Prop :=
  ∃ new, c'.sent = c.sent ++ new ∧ ∀ request ∈ new, request.2.isAnnouncement = false

theorem SendsOrdinary.nothing (h : c'.sent = c.sent) : SendsOrdinary c c' :=
  ⟨[], by rw [h, List.append_nil], by simp⟩

theorem SendsOrdinary.one {request : Nat × NodeRequest} (h : c'.sent = c.sent ++ [request])
    (hRequest : request.2.isAnnouncement = false) : SendsOrdinary c c' :=
  ⟨[request], h, by simpa using hRequest⟩

theorem SendsOrdinary.announcements (h : SendsOrdinary c c') :
    c'.announcements = c.announcements := by
  obtain ⟨new, hSent, hNew⟩ := h
  have hNone : new.countP (fun request => request.2.isAnnouncement) = 0 := by
    rw [List.countP_eq_zero]
    intro request hRequest
    rw [hNew request hRequest]
    exact Bool.false_ne_true
  rw [Client.announcements, hSent, List.countP_append, hNone]
  rfl

theorem take_eq_some {requestId : Nat} {response : NodeResponse}
    (h : c.step times (.take requestId response) = some c') :
    c.loop = .idle ∧ c' = c.takeResponse requestId response := by
  rw [step] at h
  split at h
  · next hIdle => exact ⟨hIdle, (Option.some.inj h).symm⟩
  · cases h

/-- What a step without `IS_CLUSTER_FINISH` does to the tracker, the event loop and the heartbeat
thread. -/
inductive Move (c : Client) (l : ClientLabel) (c' : Client) : Prop where
  | request (expected : UInt32) (tracker : c'.tracker = (c.tracker.addMessageTrack expected).2)
      (loop : c'.loop = c.loop)
      (timer : c'.timer = c.timer ∨ c'.timer = .waiting (c.tracker.nextRequestId + 1))
  | waitTurn (requestId : Nat) (timedOut : Bool)
      (tracker : c'.tracker = (c.tracker.waitTurn requestId timedOut).2) (loop : c'.loop = c.loop)
      (caller : l = .waitTurn requestId timedOut ∨ c.timer = .waiting requestId)
      (timer : c'.timer = c.timer ∨ c'.timer = .checking)
  | loopTurn (requestId answered : Nat) (message : HeartbeatRespMessage) (timedOut : Bool)
      (waiting : c.loop = .waiting requestId answered message)
      (tracker : c'.tracker = (c.tracker.waitTurn requestId timedOut).2) (loop : c'.loop = c.loop)
      (turn : (c.tracker.waitTurn requestId timedOut).1 = none) (timer : c'.timer = c.timer)
  | loopReturn (requestId answered : Nat) (message : HeartbeatRespMessage) (timedOut : Bool)
      (label : l = .loopWait timedOut) (waiting : c.loop = .waiting requestId answered message)
      (turn : (c.tracker.waitTurn requestId timedOut).1 ≠ none) (loop : c'.loop = .idle)
      (tracker : c'.tracker.nextRequestId = c.tracker.nextRequestId) (timer : c'.timer = c.timer)
  | take (idle : c.loop = .idle) (loop : c'.loop.isWaiting = false)
      (tracker : c'.tracker.nextRequestId = c.tracker.nextRequestId) (timer : c'.timer = c.timer)
  | internal (tracker : c'.tracker = c.tracker) (loop : c'.loop = c.loop)
      (timer : c'.timer = c.timer ∨ c'.timer = .sending ∨ c'.timer = .ended)

theorem Move.nextRequestId_le {l : ClientLabel} (h : Move c l c') :
    c.tracker.nextRequestId ≤ c'.tracker.nextRequestId := by
  cases h with
  | request _ tracker _ _ =>
    rw [tracker]
    exact Nat.le_succ _
  | waitTurn _ _ tracker _ _ _ => rw [tracker, MessageTracker.nextRequestId_waitTurn]
  | loopTurn _ _ _ _ _ tracker _ _ _ => rw [tracker, MessageTracker.nextRequestId_waitTurn]
  | loopReturn _ _ _ _ _ _ _ _ tracker _ => exact tracker.ge
  | take _ _ tracker _ => exact tracker.ge
  | internal tracker _ _ => rw [tracker]

theorem Move.timer_waiting {l : ClientLabel} (h : Move c l c') {requestId : Nat}
    (hWaiting : c'.timer = .waiting requestId) :
    c.timer = .waiting requestId ∨
      requestId = c.tracker.nextRequestId + 1 ∧ requestId ≤ c'.tracker.nextRequestId := by
  cases h with
  | request _ tracker _ timer =>
    rcases timer with hSame | hNew
    · exact .inl (hSame ▸ hWaiting)
    · rw [hNew] at hWaiting
      cases hWaiting
      rw [tracker]
      exact .inr ⟨rfl, le_refl _⟩
  | waitTurn _ _ _ _ _ timer =>
    rcases timer with hSame | hNew
    · exact .inl (hSame ▸ hWaiting)
    · rw [hNew] at hWaiting
      cases hWaiting
  | loopTurn _ _ _ _ _ _ _ _ timer => exact .inl (timer ▸ hWaiting)
  | loopReturn _ _ _ _ _ _ _ _ _ timer => exact .inl (timer ▸ hWaiting)
  | take _ _ _ timer => exact .inl (timer ▸ hWaiting)
  | internal _ _ timer =>
    rcases timer with hSame | hNew | hNew
    · exact .inl (hSame ▸ hWaiting)
    · rw [hNew] at hWaiting
      cases hWaiting
    · rw [hNew] at hWaiting
      cases hWaiting

theorem takeResponse_other {response : NodeResponse} (hResponse : response.isFinish = false)
    (hIdle : c.loop = .idle) (l : ClientLabel) (requestId : Nat) :
    SendsOrdinary c (c.takeResponse requestId response) ∧
      Move c l (c.takeResponse requestId response) := by
  have hKept : c.loop.isWaiting = false := by rw [hIdle]; rfl
  cases response with
  | register message =>
    rw [takeResponse]
    split
    · exact ⟨.nothing rfl, .take hIdle rfl rfl rfl⟩
    · exact ⟨.nothing rfl, .take hIdle hKept rfl rfl⟩
  | heartbeat message =>
    have hFinish : message.isClusterFinish = false := hResponse
    simp only [takeResponse, processHeartbeatResp, hFinish]
    exact ⟨.nothing rfl, .take hIdle hKept rfl rfl⟩
  | fetchServers serversMeta => exact ⟨.nothing rfl, .take hIdle hKept rfl rfl⟩
  | finish => exact ⟨.nothing rfl, .take hIdle hKept rfl rfl⟩
  | data => exact ⟨.nothing rfl, .take hIdle hKept rfl rfl⟩
  | unsupported cmd => exact ⟨.nothing rfl, .take hIdle rfl rfl rfl⟩

theorem step_other {l : ClientLabel} (hLabel : l.takesFinish = false)
    (hStep : c.step times l = some c') :
    SendsOrdinary c c' ∧ Move c l c' := by
  cases l with
  | register =>
    cases hStep
    exact ⟨.one rfl rfl, .request 1 rfl rfl (.inl rfl)⟩
  | fetchServers =>
    cases hStep
    exact ⟨.one rfl rfl, .request 1 rfl rfl (.inl rfl)⟩
  | disconnect =>
    cases hStep
    exact ⟨.one rfl rfl, .request 1 rfl rfl (.inl rfl)⟩
  | addMessageTrack expected =>
    cases hStep
    exact ⟨.nothing rfl, .request expected rfl rfl (.inl rfl)⟩
  | waitTurn requestId timedOut =>
    rw [step] at hStep
    split at hStep
    · cases hStep
      exact ⟨.nothing rfl, .waitTurn requestId timedOut rfl rfl (.inl rfl) (.inl rfl)⟩
    · cases hStep
  | stop =>
    cases hStep
    exact ⟨.nothing rfl, .internal rfl rfl (.inl rfl)⟩
  | timerCheck =>
    rw [step] at hStep
    split at hStep
    · cases hStep
      refine ⟨.nothing rfl, .internal rfl rfl (.inr ?_)⟩
      cases c.status.isFinish with
      | true => exact .inr rfl
      | false => exact .inl rfl
    · cases hStep
  | timerSend =>
    rw [step] at hStep
    split at hStep
    · cases hStep
      exact ⟨.one rfl rfl, .request 1 rfl rfl (.inr rfl)⟩
    · cases hStep
  | timerWait timedOut now =>
    rw [step] at hStep
    split at hStep
    · next requestId hTimer =>
      dsimp only at hStep
      split at hStep
      · cases hStep
        exact ⟨.nothing rfl, .waitTurn requestId timedOut rfl rfl (.inr hTimer) (.inl rfl)⟩
      · cases hStep
        exact ⟨.nothing rfl, .waitTurn requestId timedOut rfl rfl (.inr hTimer) (.inr rfl)⟩
    · cases hStep
  | take requestId response =>
    obtain ⟨hIdle, rfl⟩ := take_eq_some hStep
    exact takeResponse_other hLabel hIdle _ requestId
  | loopWait timedOut =>
    rw [step] at hStep
    split at hStep
    · next requestId answered message hLoop =>
      dsimp only at hStep
      split at hStep
      · next hTurn =>
        cases hStep
        exact ⟨.nothing rfl, .loopTurn requestId answered message timedOut hLoop rfl rfl hTurn rfl⟩
      · next hTurn =>
        cases hStep
        refine ⟨.nothing rfl,
          .loopReturn requestId answered message timedOut rfl hLoop ?_ rfl ?_ rfl⟩
        · rw [hTurn]
          exact Option.some_ne_none _
        · exact MessageTracker.nextRequestId_waitTurn _ _ _
    · cases hStep

/-- A response with `IS_CLUSTER_FINISH` makes the event loop send a heartbeat and wait for it. -/
theorem step_finish {l : ClientLabel} (hLabel : l.takesFinish = true)
    (hStep : c.step times l = some c') :
    (∃ request, c'.sent = c.sent ++ [request] ∧ request.2.isAnnouncement = true) ∧
      c'.tracker = (c.tracker.addMessageTrack 1).2 ∧ c'.timer = c.timer ∧
      ∃ answered message, c'.loop = .waiting (c.tracker.nextRequestId + 1) answered message := by
  cases l with
  | take requestId response =>
    obtain ⟨_, rfl⟩ := take_eq_some hStep
    cases response with
    | heartbeat message =>
      have hFinish : message.isClusterFinish = true := hLabel
      simp only [takeResponse, processHeartbeatResp, hFinish, if_true]
      exact ⟨⟨_, rfl, rfl⟩, rfl, rfl, requestId, message, rfl⟩
    | _ => cases hLabel
  | _ => cases hLabel

end Client

end PsRpc
