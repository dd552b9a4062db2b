import PsRpc.Heartbeat.Client
import PsRpc.Scheduler.Goodbye

/-! # How often a node announces its end

A node, the scheduler and the messages between them, which are taken in any order. When the cluster
has finished, every answer to a heartbeat carries `IS_CLUSTER_FINISH`, the answer to an announcement
among them, and for each such answer the node sends an announcement.
-/

namespace PsRpc

open Execution

def NodeRequest.label (now : Int) : NodeRequest → SchedulerLabel
  | .register message => .register now message
  | .heartbeat message => .heartbeat now message
  | .fetchServers => .fetchServers
  | .finish message => .finish message

namespace SchedulerNode

/-- The answer of the scheduler; a registration for which the handler raises has none. -/
def answer (s : SchedulerNode) (now : Int) : NodeRequest → Option NodeResponse
  | .register message =>
    match (s.processRegister now message).1 with
    | .error _ => none
    | .ok response => some (.register response)
  | .heartbeat message => some (.heartbeat (s.processHeartbeat now message).1)
  | .fetchServers => some (.fetchServers s.processFetchServers.1)
  | .finish _ => some .finish

theorem processHeartbeat_isClusterFinish (s : SchedulerNode) (now : Int)
    (message : HeartbeatMessage) :
    (s.processHeartbeat now message).1.isClusterFinish = s.nodeManager.isClusterFinish := by
  obtain ⟨nodeId, isNodeFinish⟩ := message
  cases isNodeFinish <;> rfl

theorem isClusterFinish_of_answer {s : SchedulerNode} {now : Int} {request : NodeRequest}
    {response : NodeResponse} (hAnswer : s.answer now request = some response)
    (hFinish : response.isFinish = true) : s.nodeManager.isClusterFinish = true := by
  cases request with
  | register message =>
    rw [answer] at hAnswer
    split at hAnswer
    · cases hAnswer
    · cases hAnswer
      cases hFinish
  | heartbeat message =>
    cases hAnswer
    rw [← processHeartbeat_isClusterFinish s now message]
    exact hFinish
  | fetchServers =>
    cases hAnswer
    cases hFinish
  | finish message =>
    cases hAnswer
    cases hFinish

theorem step_isClusterFinish {s : SchedulerNode} (h : s.nodeManager.isClusterFinish = true)
    (label : SchedulerLabel) : (s.step label).nodeManager.isClusterFinish = true := by
  cases label with
  | register now message =>
    have hNext : (s.nodeManager.nextRankId message).2.isClusterFinish = true := by
      rcases NodeManager.nextRankId_cases s.nodeManager message with hSame | ⟨info, hNew⟩
      · rw [hSame, h]
      · rw [hNew.finish, h]
    change (s.processRegister now message).2.nodeManager.isClusterFinish = true
    rw [processRegister]
    split
    · exact hNext
    · exact hNext
  | heartbeat now message =>
    obtain ⟨nodeId, isNodeFinish⟩ := message
    cases isNodeFinish with
    | true => exact h
    | false => exact h
  | finish message => exact h
  | fetchServers => exact h
  | checkAvailable elapsed =>
    change (s.checkAvailable elapsed).nodeManager.isClusterFinish = true
    rw [checkAvailable]
    split
    · change s.nodeManager.checkClusterTimeout.isClusterFinish = true
      rw [NodeManager.checkClusterTimeout]
      split
      · exact h
      · exact h
    · exact h
  | updateState heartbeatTimeout now =>
    exact (NodeManager.clusterUpdate s.nodeManager heartbeatTimeout now).finish.mpr (.inl h)

end SchedulerNode

/-- A node and the scheduler. `requests` and `responses` are on their way; `handled` are the
responses of the scheduler that the event loop has taken, oldest first. -/
structure Session where
  client : Client
  scheduler : SchedulerNode
  requests : List (Nat × NodeRequest)
  responses : List (Nat × NodeResponse)
  handled : List NodeResponse

/-- `client` is a step of the node that takes no message of the scheduler, `process` and `take`
handle the message at a place, and `scheduler` is what the scheduler does apart from this node. -/
inductive SessionLabel where
  | client (label : ClientLabel)
  | process (place : Nat) (now : Int)
  | take (place : Nat)
  | scheduler (label : SchedulerLabel)
deriving DecidableEq, Repr

def ClientLabel.isOwn : ClientLabel → Bool
  | .take _ .data => true
  | .take _ _ => false
  | _ => true

namespace Session

def new (node : ClusterNode) (status : NodeStatus) (config : ClusterConfig) : Session :=
  ⟨.new node status, .new config, [], [], []⟩

def move (times : ClusterTimes) (s : Session) (label : ClientLabel) : Option Session :=
  (s.client.step times label).map fun client =>
    { s with client := client, requests := s.requests ++ client.sent.drop s.client.sent.length }

def step (times : ClusterTimes) (s : Session) : SessionLabel → Option Session
  | .client label => if label.isOwn then s.move times label else none
  | .process place now =>
    s.requests[place]?.map fun request =>
      { s with
        scheduler := s.scheduler.step (request.2.label now)
        requests := s.requests.eraseIdx place
        responses := s.responses ++
          (s.scheduler.answer now request.2).toList.map fun response => (request.1, response) }
  | .take place =>
    s.responses[place]?.bind fun response =>
      { s with
        responses := s.responses.eraseIdx place
        handled := s.handled ++ [response.2] }.move times (.take response.1 response.2)
  | .scheduler label => some { s with scheduler := s.scheduler.step label }

def finishAnswers (s : Session) : Nat := s.handled.countP (·.isFinish)

variable {times : ClusterTimes} {s s' : Session}

theorem takesFinish_of_isOwn {label : ClientLabel} (h : label.isOwn = true) :
    label.takesFinish = false := by
  cases label with
  | take requestId response =>
    cases response with
    | data => rfl
    | _ => cases h
  | _ => rfl

/-- What a step of the node sends: an announcement if it takes an answer with `IS_CLUSTER_FINISH`,
and none otherwise. -/
theorem move_cases {label : ClientLabel} (h : s.move times label = some s') :
    ∃ new, s'.client.sent = s.client.sent ++ new ∧ s'.requests = s.requests ++ new ∧
      s'.scheduler = s.scheduler ∧ s'.responses = s.responses ∧ s'.handled = s.handled ∧
      if label.takesFinish then ∃ request, new = [request] ∧ request.2.isAnnouncement = true
      else ∀ request ∈ new, request.2.isAnnouncement = false := by
  obtain ⟨client, hStep, rfl⟩ := Option.map_eq_some_iff.mp h
  cases hLabel : label.takesFinish with
  | true =>
    obtain ⟨⟨request, hSent, hAnnounces⟩, _⟩ := Client.step_finish hLabel hStep
    refine ⟨[request], hSent, ?_, rfl, rfl, rfl, ?_⟩
    · change s.requests ++ client.sent.drop s.client.sent.length = _
      rw [hSent, List.drop_left]
    · rw [if_pos rfl]
      exact ⟨request, rfl, hAnnounces⟩
  | false =>
    obtain ⟨⟨new, hSent, hNew⟩, _⟩ := Client.step_other hLabel hStep
    refine ⟨new, hSent, ?_, rfl, rfl, rfl, ?_⟩
    · change s.requests ++ client.sent.drop s.client.sent.length = _
      rw [hSent, List.drop_left]
    · rw [if_neg Bool.false_ne_true]
      exact hNew

theorem move_announcements {label : ClientLabel} (h : s.move times label = some s') :
    s'.client.announcements = s.client.announcements + if label.takesFinish then 1 else 0 := by
  obtain ⟨new, hSent, _, _, _, _, hNew⟩ := move_cases h
  split at hNew
  · next hLabel =>
    obtain ⟨request, rfl, hAnnounces⟩ := hNew
    rw [if_pos hLabel, Client.announcements, hSent, List.countP_append, List.countP_singleton,
      if_pos hAnnounces]
    rfl
  · next hLabel =>
    rw [if_neg hLabel]
    exact Client.SendsOrdinary.announcements ⟨new, hSent, hNew⟩

/-- Where an announcement on its way comes from: it was on its way before, or the step takes an
answer with `IS_CLUSTER_FINISH`. -/
theorem move_announced {label : ClientLabel} {P : Prop} (h : s.move times label = some s')
    (hOld : ∀ request ∈ s.requests, request.2.isAnnouncement = true → P)
    (hFinish : label.takesFinish = true → P) :
    ∀ request ∈ s'.requests, request.2.isAnnouncement = true → P := by
  obtain ⟨new, _, hRequests, _, _, _, hNew⟩ := move_cases h
  rw [hRequests]
  intro request hRequest hAnnounces
  rcases List.mem_append.mp hRequest with hIn | hIn
  · exact hOld request hIn hAnnounces
  · split at hNew
    · next hLabel => exact hFinish hLabel
    · rw [hNew request hIn] at hAnnounces
      cases hAnnounces

/-- The announcements are as many as the answers with `IS_CLUSTER_FINISH`. Both the answers and the
announcements on their way come from a cluster that has finished. -/
structure Feedback (s : Session) : Prop where
  counted : s.client.announcements = s.finishAnswers
  answered : ∀ response ∈ s.responses, response.2.isFinish = true →
    s.scheduler.nodeManager.isClusterFinish = true
  announced : ∀ request ∈ s.requests, request.2.isAnnouncement = true →
    s.scheduler.nodeManager.isClusterFinish = true

theorem Feedback.new (node : ClusterNode) (status : NodeStatus) (config : ClusterConfig) :
    Feedback (.new node status config) where
  counted := rfl
  answered := by simp [Session.new]
  announced := by simp [Session.new]

theorem Feedback.own (h : Feedback s) {label : ClientLabel} (hOwn : label.isOwn = true)
    (hMove : s.move times label = some s') : Feedback s' := by
  have hLabel := takesFinish_of_isOwn hOwn
  obtain ⟨new, _, _, hScheduler, hResponses, hHandled, _⟩ := move_cases hMove
  constructor
  · rw [move_announcements hMove, hLabel, finishAnswers, hHandled]
    exact h.counted
  · rw [hScheduler, hResponses]
    exact h.answered
  · rw [hScheduler]
    apply move_announced hMove h.announced
    rw [hLabel]
    exact fun hFinish => absurd hFinish Bool.false_ne_true

theorem Feedback.take (h : Feedback s) {place : Nat} {response : Nat × NodeResponse}
    (hPlace : s.responses[place]? = some response)
    (hMove : { s with
        responses := s.responses.eraseIdx place
        handled := s.handled ++ [response.2] }.move times (.take response.1 response.2) = some s') :
    Feedback s' := by
  obtain ⟨new, _, _, hScheduler, hResponses, hHandled, _⟩ := move_cases hMove
  constructor
  · rw [move_announcements hMove, finishAnswers, hHandled, List.countP_append,
      List.countP_singleton]
    exact congrArg (· + _) h.counted
  · rw [hScheduler, hResponses]
    intro response' hResponse'
    exact h.answered response' (List.mem_of_mem_eraseIdx hResponse')
  · rw [hScheduler]
    apply move_announced hMove h.announced
    intro hFinish
    exact h.answered response (List.mem_of_getElem? hPlace) hFinish

theorem Feedback.process (h : Feedback s) {place : Nat} {request : Nat × NodeRequest} (now : Int) :
    Feedback { s with
      scheduler := s.scheduler.step (request.2.label now)
      requests := s.requests.eraseIdx place
      responses := s.responses ++
        (s.scheduler.answer now request.2).toList.map fun response => (request.1, response) } := by
  constructor
  · exact h.counted
  · intro response hResponse hFinish
    apply SchedulerNode.step_isClusterFinish
    rcases List.mem_append.mp hResponse with hOld | hNew
    · exact h.answered response hOld hFinish
    · obtain ⟨answer, hAnswer, rfl⟩ := List.mem_map.mp hNew
      exact SchedulerNode.isClusterFinish_of_answer (Option.mem_toList.mp hAnswer) hFinish
  · intro request' hRequest' hAnnounces
    apply SchedulerNode.step_isClusterFinish
    exact h.announced request' (List.mem_of_mem_eraseIdx hRequest') hAnnounces

theorem Feedback.step {label : SessionLabel} (h : Feedback s)
    (hStep : s.step times label = some s') : Feedback s' := by
  cases label with
  | client label =>
    rw [Session.step] at hStep
    split at hStep
    · next hOwn => exact h.own hOwn hStep
    · cases hStep
  | process place now =>
    obtain ⟨request, _, rfl⟩ := Option.map_eq_some_iff.mp hStep
    exact h.process now
  | take place =>
    obtain ⟨response, hPlace, hMove⟩ := Option.bind_eq_some_iff.mp hStep
    exact h.take hPlace hMove
  | scheduler label =>
    cases hStep
    exact ⟨h.counted,
      fun response hResponse hFinish =>
        SchedulerNode.step_isClusterFinish (h.answered response hResponse hFinish) label,
      fun request hRequest hAnnounces =>
        SchedulerNode.step_isClusterFinish (h.announced request hRequest hAnnounces) label⟩

variable {node : ClusterNode} {status : NodeStatus} {config : ClusterConfig}
  {labels : List SessionLabel}

theorem Feedback.run (hRun : exec (Session.step times) (.new node status config) labels = some s) :
    Feedback s :=
  exec_invariant (fun _ _ _ h hStep => h.step hStep) (.new node status config) hRun

/-- An announcement is answered with the attribute that causes the next one. -/
theorem announcement_answer
    (hRun : exec (Session.step times) (.new node status config) labels = some s)
    {requestId : Nat} {request : NodeRequest} (hRequest : (requestId, request) ∈ s.requests)
    (hAnnounces : request.isAnnouncement = true) (now : Int) :
    ∃ response, s.scheduler.answer now request = some response ∧ response.isFinish = true := by
  have hFinish := (Feedback.run hRun).announced (requestId, request) hRequest hAnnounces
  cases request with
  | heartbeat message =>
    refine ⟨_, rfl, ?_⟩
    rw [← hFinish]
    exact SchedulerNode.processHeartbeat_isClusterFinish s.scheduler now message
  | _ => cases hAnnounces

end Session

/-- A node announces its end at most once if and only if its event loop takes at most one answer
with `IS_CLUSTER_FINISH`. -/
theorem announces_at_most_once_iff (times : ClusterTimes) (node : ClusterNode) (status : NodeStatus)
    (config : ClusterConfig) (labels : List SessionLabel) (s : Session)
    (hRun : exec (Session.step times) (.new node status config) labels = some s) :
    s.client.announcements ≤ 1 ↔ s.finishAnswers ≤ 1 := by
  rw [(Session.Feedback.run hRun).counted]

/-- A worker alone registers, finishes and gets an answer with `IS_CLUSTER_FINISH`; the scheduler
has processed its announcement. -/
def loneWorker : List SessionLabel :=
  [.client .register, .process 0 100, .take 0, .client (.waitTurn 1 false), .client .disconnect,
    .process 0 100, .take 0, .scheduler (.updateState 30 100), .client .timerCheck,
    .client .timerSend, .process 0 101, .take 0, .process 0 101]

theorem announces_at_most_once_iff_lone_worker :
    ∃ s, exec (Session.step {}) (.new (.newWorker "w") (.new 0 true) ⟨0, 1⟩) loneWorker = some s ∧
      s.finishAnswers = 1 ∧ s.client.announcements ≤ 1 := by
  obtain ⟨s, hRun, hFinish⟩ :
      ∃ s, exec (Session.step {}) (.new (.newWorker "w") (.new 0 true) ⟨0, 1⟩) loneWorker = some s ∧
        s.finishAnswers = 1 := ⟨_, rfl, rfl⟩
  refine ⟨s, hRun, hFinish, ?_⟩
  exact (announces_at_most_once_iff {} (.newWorker "w") (.new 0 true) ⟨0, 1⟩ loneWorker s hRun).mpr
    hFinish.le

/-- The answer to the announcement, which is taken after the `Wait` for it has timed out, makes the
worker announce its end again. -/
theorem announcement_repeated :
    ∃ s, exec (Session.step {}) (.new (.newWorker "w") (.new 0 true) ⟨0, 1⟩)
        (loneWorker ++ [.client (.loopWait true), .take 0]) = some s ∧
      s.client.sent.map Prod.snd = [.register ⟨"", 0, "w", .worker⟩, .finish ⟨"w"⟩,
        .heartbeat ⟨"w", false⟩, .heartbeat ⟨"w", true⟩, .heartbeat ⟨"w", true⟩] ∧
      s.client.announcements = 2 :=
  ⟨_, rfl, rfl, rfl⟩

end PsRpc
