import PsRpc.Heartbeat.WireSession
import PsRpc.Scheduler.AddressAgreement

/-! # The session of a node as a part of the cluster

`Cluster` has the messages of all nodes in one pool and leaves out the answers that no rank and no
address depends on. Each step of the session of one node, with the two queues taken from their
fronts, is done there by steps that leave the other nodes and their messages alone.
-/

namespace PsRpc

open Execution Lanes

/-! ## The messages of one node -/

namespace Envelope

def requestOf (nodeId : String) : Envelope → Option NodeRequest
  | .register sender message => if sender = nodeId then some (.register message) else none
  | .heartbeat message => if message.nodeId = nodeId then some (.heartbeat message) else none
  | .finish message => if message.nodeId = nodeId then some (.finish message) else none
  | .fetchServers sender => if sender = nodeId then some .fetchServers else none
  | .registerResp _ _ => none
  | .fetchServersResp _ _ _ => none

def responseOf (nodeId : String) : Envelope → Option NodeResponse
  | .registerResp receiver message => if receiver = nodeId then some (.register message) else none
  | .fetchServersResp receiver serversMeta _ =>
    if receiver = nodeId then some (.fetchServers serversMeta) else none
  | _ => none

theorem requestOf_other {envelope : Envelope} {nodeId id : String} {request : NodeRequest}
    (h : envelope.requestOf nodeId = some request) (hOther : id ≠ nodeId) :
    envelope.requestOf id = none := by
  cases envelope with
  | registerResp receiver message => cases h
  | fetchServersResp receiver serversMeta answered => cases h
  | _ =>
    rw [requestOf] at h ⊢
    split at h
    · next hId => rw [if_neg (by rw [hId]; exact Ne.symm hOther)]
    · cases h

theorem responseOf_other {envelope : Envelope} {nodeId id : String} {response : NodeResponse}
    (h : envelope.responseOf nodeId = some response) (hOther : id ≠ nodeId) :
    envelope.responseOf id = none := by
  cases envelope with
  | registerResp receiver message =>
    rw [responseOf] at h ⊢
    split at h
    · next hId => rw [if_neg (by rw [hId]; exact Ne.symm hOther)]
    · cases h
  | fetchServersResp receiver serversMeta answered =>
    rw [responseOf] at h ⊢
    split at h
    · next hId => rw [if_neg (by rw [hId]; exact Ne.symm hOther)]
    · cases h
  | _ => cases h

theorem responseOf_of_requestOf {envelope : Envelope} {nodeId : String} {request : NodeRequest}
    (h : envelope.requestOf nodeId = some request) (id : String) :
    envelope.responseOf id = none := by
  cases envelope with
  | registerResp receiver message => cases h
  | fetchServersResp receiver serversMeta answered => cases h
  | _ => rfl

theorem requestOf_of_responseOf {envelope : Envelope} {nodeId : String} {response : NodeResponse}
    (h : envelope.responseOf nodeId = some response) (id : String) :
    envelope.requestOf id = none := by
  cases envelope with
  | registerResp receiver message => rfl
  | fetchServersResp receiver serversMeta answered => rfl
  | _ => cases h

end Envelope

def NodeRequest.envelope (nodeId : String) : NodeRequest → Envelope
  | .register message => .register nodeId message
  | .heartbeat message => .heartbeat message
  | .fetchServers => .fetchServers nodeId
  | .finish message => .finish message

/-- The responses that change what a node knows; `Cluster` has no others. -/
def NodeResponse.kept : NodeResponse → Option NodeResponse
  | .register message => some (.register message)
  | .fetchServers serversMeta => some (.fetchServers serversMeta)
  | _ => none

namespace Cluster

def requestsOf (c : Cluster) (nodeId : String) : List NodeRequest :=
  c.inFlight.filterMap (Envelope.requestOf nodeId)

def responsesOf (c : Cluster) (nodeId : String) : List NodeResponse :=
  c.inFlight.filterMap (Envelope.responseOf nodeId)

theorem requestsOf_post (c : Cluster) (envelope : Envelope) (nodeId : String) :
    (c.post envelope).requestsOf nodeId =
      c.requestsOf nodeId ++ (envelope.requestOf nodeId).toList := by
  rw [requestsOf, post, filterMap_snoc, requestsOf]

theorem responsesOf_post (c : Cluster) (envelope : Envelope) (nodeId : String) :
    (c.post envelope).responsesOf nodeId =
      c.responsesOf nodeId ++ (envelope.responseOf nodeId).toList := by
  rw [responsesOf, post, filterMap_snoc, responsesOf]

/-- Nothing has changed for the other nodes. -/
def Aside (nodeId : String) (c c' : Cluster) : Prop :=
  ∀ id, id ≠ nodeId → c'.nodes.lookup id = c.nodes.lookup id ∧
    c'.requestsOf id = c.requestsOf id ∧ c'.responsesOf id = c.responsesOf id

theorem Aside.refl (nodeId : String) (c : Cluster) : c.Aside nodeId c :=
  fun _ _ => ⟨rfl, rfl, rfl⟩

theorem exists_request {c : Cluster} {nodeId : String} {request : NodeRequest}
    {rest : List NodeRequest} (h : c.requestsOf nodeId = request :: rest) :
    ∃ place envelope, c.inFlight[place]? = some envelope ∧
      envelope.requestOf nodeId = some request ∧
      { c with inFlight := c.inFlight.eraseIdx place }.requestsOf nodeId = rest ∧
      (∀ id, { c with inFlight := c.inFlight.eraseIdx place }.responsesOf id = c.responsesOf id) ∧
      ∀ id, id ≠ nodeId →
        { c with inFlight := c.inFlight.eraseIdx place }.requestsOf id = c.requestsOf id := by
  obtain ⟨place, envelope, hAt, hRequest, hRest, hOthers⟩ := exists_of_filterMap_eq_cons h
  refine ⟨place, envelope, hAt, hRequest, hRest, ?_, ?_⟩
  · intro id
    exact hOthers _ (Envelope.responseOf_of_requestOf hRequest id)
  · intro id hOther
    exact hOthers _ (Envelope.requestOf_other hRequest hOther)

theorem exists_response {c : Cluster} {nodeId : String} {response : NodeResponse}
    {rest : List NodeResponse} (h : c.responsesOf nodeId = response :: rest) :
    ∃ place envelope, c.inFlight[place]? = some envelope ∧
      envelope.responseOf nodeId = some response ∧
      { c with inFlight := c.inFlight.eraseIdx place }.responsesOf nodeId = rest ∧
      (∀ id, { c with inFlight := c.inFlight.eraseIdx place }.requestsOf id = c.requestsOf id) ∧
      ∀ id, id ≠ nodeId →
        { c with inFlight := c.inFlight.eraseIdx place }.responsesOf id = c.responsesOf id := by
  obtain ⟨place, envelope, hAt, hResponse, hRest, hOthers⟩ := exists_of_filterMap_eq_cons h
  refine ⟨place, envelope, hAt, hResponse, hRest, ?_, ?_⟩
  · intro id
    exact hOthers _ (Envelope.requestOf_of_responseOf hResponse id)
  · intro id hOther
    exact hOthers _ (Envelope.responseOf_other hResponse hOther)

theorem handle_request (c : Cluster) (now : Int) {envelope : Envelope} {nodeId : String}
    {request : NodeRequest} (h : envelope.requestOf nodeId = some request) :
    (c.handle now envelope).scheduler = c.scheduler.step (request.label now) ∧
      (c.handle now envelope).nodes = c.nodes ∧
      (∀ id, (c.handle now envelope).requestsOf id = c.requestsOf id) ∧
      (∀ id, id ≠ nodeId → (c.handle now envelope).responsesOf id = c.responsesOf id) ∧
      (c.handle now envelope).responsesOf nodeId = c.responsesOf nodeId ++
        ((c.scheduler.answer now request).bind NodeResponse.kept).toList := by
  cases envelope with
  | register sender message =>
    rw [Envelope.requestOf] at h
    split at h
    · next hSender =>
      subst hSender
      cases h
      cases hResult : (c.scheduler.processRegister now message).1 with
      | error fault =>
        rw [handle, SchedulerNode.answer, hResult]
        exact ⟨rfl, rfl, fun _ => rfl, fun _ _ => rfl, (List.append_nil _).symm⟩
      | ok response =>
        rw [handle, SchedulerNode.answer, hResult]
        refine ⟨rfl, rfl, ?_, ?_, ?_⟩
        · intro id
          rw [requestsOf_post]
          exact List.append_nil _
        · intro id hOther
          rw [responsesOf_post, Envelope.responseOf, if_neg (Ne.symm hOther)]
          exact List.append_nil _
        · rw [responsesOf_post, Envelope.responseOf, if_pos rfl]
          rfl
    · cases h
  | heartbeat message =>
    rw [Envelope.requestOf] at h
    split at h
    · cases h
      exact ⟨rfl, rfl, fun _ => rfl, fun _ _ => rfl, (List.append_nil _).symm⟩
    · cases h
  | finish message =>
    rw [Envelope.requestOf] at h
    split at h
    · cases h
      exact ⟨rfl, rfl, fun _ => rfl, fun _ _ => rfl, (List.append_nil _).symm⟩
    · cases h
  | fetchServers sender =>
    rw [Envelope.requestOf] at h
    split at h
    · next hSender =>
      subst hSender
      cases h
      simp only [handle]
      refine ⟨rfl, rfl, ?_, ?_, ?_⟩
      · intro id
        rw [requestsOf_post]
        exact List.append_nil _
      · intro id hOther
        rw [responsesOf_post, Envelope.responseOf, if_neg (Ne.symm hOther)]
        exact List.append_nil _
      · rw [responsesOf_post, Envelope.responseOf, if_pos rfl]
        rfl
    · cases h
  | registerResp receiver message => cases h
  | fetchServersResp receiver serversMeta answered => cases h

def learns (node : ClusterNode) : NodeResponse → ClusterNode
  | .register message =>
    match node.processRegisterResp message with
    | .error _ => node
    | .ok node => node
  | .fetchServers serversMeta => node.processFetchServersResp serversMeta
  | _ => node

theorem handle_response (c : Cluster) (now : Int) {envelope : Envelope} {nodeId : String}
    {response : NodeResponse} (h : envelope.responseOf nodeId = some response)
    {node : ClusterNode} (hNode : c.nodes.lookup nodeId = some node) :
    (c.handle now envelope).scheduler = c.scheduler ∧
      (c.handle now envelope).inFlight = c.inFlight ∧
      (∀ id, (c.handle now envelope).nodes.lookup id =
        if id = nodeId then some (learns node response) else c.nodes.lookup id) := by
  cases envelope with
  | registerResp receiver message =>
    rw [Envelope.responseOf] at h
    split at h
    · next hReceiver =>
      subst hReceiver
      cases h
      rw [handle, hNode, learns]
      dsimp only
      cases node.processRegisterResp message with
      | error fault =>
        refine ⟨rfl, rfl, ?_⟩
        intro id
        rcases eq_or_ne id receiver with rfl | hOther
        · rw [if_pos rfl]
          exact hNode
        · rw [if_neg hOther]
      | ok known =>
        refine ⟨rfl, rfl, ?_⟩
        intro id
        exact Table.lookup_insert _ _ _ _
    · cases h
  | fetchServersResp receiver serversMeta answered =>
    rw [Envelope.responseOf] at h
    split at h
    · next hReceiver =>
      subst hReceiver
      cases h
      rw [handle, hNode]
      refine ⟨rfl, rfl, ?_⟩
      intro id
      exact Table.lookup_insert _ _ _ _
    · cases h
  | _ => cases h

end Cluster

/-! ## A node in the cluster -/

theorem Client.step_own {times : ClusterTimes} {client client' : Client} {label : ClientLabel}
    (hOwn : label.isOwn = true) (h : client.step times label = some client') :
    client'.node = client.node ∧
      (client'.timer = .sending → client.timer = .sending ∨ label = .timerCheck) := by
  cases label with
  | waitTurn requestId timedOut =>
    rw [step] at h
    split at h
    · cases h
      exact ⟨rfl, .inl⟩
    · cases h
  | timerCheck =>
    rw [step] at h
    split at h
    · cases h
      exact ⟨rfl, fun _ => .inr rfl⟩
    · cases h
  | timerSend =>
    rw [step] at h
    split at h
    · cases h
      exact ⟨rfl, by rintro ⟨⟩⟩
    · cases h
  | timerWait timedOut now =>
    rw [step] at h
    split at h
    · dsimp only at h
      split at h
      · cases h
        exact ⟨rfl, .inl⟩
      · cases h
        exact ⟨rfl, by rintro ⟨⟩⟩
    · cases h
  | take requestId response =>
    obtain ⟨_, rfl⟩ := take_eq_some h
    cases response with
    | data => exact ⟨rfl, .inl⟩
    | _ => cases hOwn
  | loopWait timedOut =>
    rw [step] at h
    split at h
    · dsimp only at h
      split at h
      · cases h
        exact ⟨rfl, .inl⟩
      · cases h
        exact ⟨rfl, .inl⟩
    · cases h
  | _ =>
    cases h
    exact ⟨rfl, .inl⟩

namespace Session

/-- No heartbeat of the node, and no answer to one, is about to be sent or on its way. -/
structure Quiet (s : Session) : Prop where
  timer : s.client.timer ≠ .sending
  requests : ∀ request ∈ s.requests, request.2.cmd ≠ .heartbeat
  responses : ∀ response ∈ s.responses, ¬ response.2.Answers .heartbeat

/-- `Cluster` has the node `nodeId` as it is in its session, and of the messages on its way those
of the session that matter there. -/
structure Hosted (nodeId : String) (s : Session) (c : Cluster) : Prop where
  node : c.nodes.lookup nodeId = some s.client.node
  named : s.client.node.nodeInfo.nodeId = nodeId
  requests : c.requestsOf nodeId = s.requests.map Prod.snd
  responses : c.responsesOf nodeId = s.responses.filterMap fun response => response.2.kept
  quiet : s.client.node.ranked = false → s.Quiet

variable {nodeId : String} {s : Session} {c : Cluster} {client : Client}

theorem Hosted.stay (h : s.Hosted nodeId c) (hNode : client.node = s.client.node)
    (hTimer : client.timer = .sending → s.client.timer = .sending ∨ s.client.node.ranked = true) :
    { s with client := client }.Hosted nodeId c where
  node := by rw [h.node, ← hNode]
  named := by rw [← h.named, ← hNode]
  requests := h.requests
  responses := h.responses
  quiet := by
    intro hRanked
    have hUnranked : s.client.node.ranked = false := by rw [← hNode]; exact hRanked
    refine ⟨?_, (h.quiet hUnranked).requests, (h.quiet hUnranked).responses⟩
    intro hSending
    rcases hTimer hSending with hBefore | hBefore
    · exact (h.quiet hUnranked).timer hBefore
    · rw [hUnranked] at hBefore
      cases hBefore

theorem Hosted.step_post (h : s.Hosted nodeId c) {request : NodeRequest}
    (hFrom : request.From s.client.node)
    (hBeat : request.cmd = .heartbeat → s.client.node.ranked = true) :
    ∃ label, c.step label = some (c.post (request.envelope nodeId)) := by
  cases request with
  | register message =>
    cases hFrom
    refine ⟨.register nodeId, ?_⟩
    rw [Cluster.step, h.node]
    rfl
  | heartbeat message =>
    obtain ⟨id, isNodeFinish⟩ := message
    obtain rfl : id = _ := hFrom
    refine ⟨.heartbeat nodeId isNodeFinish, ?_⟩
    rw [Cluster.step, h.node, Option.bind_some, if_pos (hBeat rfl)]
    rfl
  | fetchServers =>
    refine ⟨.fetchServers nodeId, ?_⟩
    rw [Cluster.step, h.node]
    rfl
  | finish message =>
    obtain ⟨id⟩ := message
    obtain rfl : id = _ := hFrom
    refine ⟨.finish nodeId, ?_⟩
    rw [Cluster.step, h.node]
    rfl

theorem requestOf_envelope {request : NodeRequest} {node : ClusterNode}
    (hFrom : request.From node) (hNamed : node.nodeInfo.nodeId = nodeId) (id : String) :
    (request.envelope nodeId).requestOf id = if nodeId = id then some request else none := by
  cases request with
  | heartbeat message =>
    have hId : message.nodeId = nodeId := hFrom.trans hNamed
    simp only [NodeRequest.envelope, Envelope.requestOf, hId]
  | finish message =>
    have hId : message.nodeId = nodeId := hFrom.trans hNamed
    simp only [NodeRequest.envelope, Envelope.requestOf, hId]
  | _ => rfl

theorem responseOf_envelope (request : NodeRequest) (id : String) :
    (request.envelope nodeId).responseOf id = none := by
  cases request <;> rfl

theorem aside_post {request : NodeRequest} {node : ClusterNode} (hFrom : request.From node)
    (hNamed : node.nodeInfo.nodeId = nodeId) :
    c.Aside nodeId (c.post (request.envelope nodeId)) := by
  intro id hOther
  refine ⟨rfl, ?_, ?_⟩
  · rw [Cluster.requestsOf_post, requestOf_envelope hFrom hNamed, if_neg (Ne.symm hOther),
      Option.toList_none, List.append_nil]
  · rw [Cluster.responsesOf_post, responseOf_envelope, Option.toList_none, List.append_nil]

theorem Hosted.post (h : s.Hosted nodeId c) {request : NodeRequest}
    (hFrom : request.From s.client.node)
    (hBeat : request.cmd = .heartbeat → s.client.node.ranked = true) (requestId : Nat) :
    { s with requests := s.requests ++ [(requestId, request)] }.Hosted nodeId
      (c.post (request.envelope nodeId)) where
  node := h.node
  named := h.named
  requests := by
    rw [Cluster.requestsOf_post, requestOf_envelope hFrom h.named, if_pos rfl, h.requests,
      List.map_append]
    rfl
  responses := by
    rw [Cluster.responsesOf_post, responseOf_envelope, Option.toList_none, List.append_nil,
      h.responses]
  quiet := by
    intro hRanked
    refine ⟨(h.quiet hRanked).timer, ?_, (h.quiet hRanked).responses⟩
    intro sent hSent
    rcases List.mem_append.mp hSent with hOld | hNew
    · exact (h.quiet hRanked).requests sent hOld
    · rw [List.mem_singleton.mp hNew]
      intro hHeartbeat
      rw [hBeat hHeartbeat] at hRanked
      cases hRanked

theorem Hosted.move (h : s.Hosted nodeId c) {times : ClusterTimes} {label : ClientLabel}
    (hStep : s.client.step times label = some client) (hNode : client.node = s.client.node)
    (hTimer : client.timer = .sending → s.client.timer = .sending ∨ s.client.node.ranked = true)
    (hTake : (∃ requestId message, label = .take requestId (.heartbeat message)) →
      s.client.node.ranked = true) :
    ∃ labels c', exec Cluster.step c labels = some c' ∧ c'.scheduler = c.scheduler ∧
      c.Aside nodeId c' ∧
      { s with
        client := client
        requests := s.requests ++ client.sent.drop s.client.sent.length }.Hosted nodeId c' := by
  have hStay := h.stay hNode hTimer
  rcases Client.step_sent hStep with hSent | ⟨request, hSent, hFrom, hBeat⟩
  · rw [hSent, List.drop_length, List.append_nil]
    exact ⟨[], c, rfl, rfl, .refl nodeId c, hStay⟩
  · rw [hSent, List.drop_left]
    rw [← hNode] at hFrom
    have hRanked : request.cmd = .heartbeat → client.node.ranked = true := by
      intro hHeartbeat
      rw [hNode]
      cases hKnown : s.client.node.ranked with
      | true => rfl
      | false =>
        rcases hBeat hHeartbeat with hSending | hResponse
        · exact absurd hSending (h.quiet hKnown).timer
        · rw [← hKnown]
          exact hTake hResponse
    obtain ⟨l, hPost⟩ := hStay.step_post hFrom hRanked
    exact ⟨[l], _, Option.bind_eq_some_iff.mpr ⟨_, hPost, rfl⟩, rfl,
      aside_post hFrom hStay.named, hStay.post hFrom hRanked (s.client.tracker.nextRequestId + 1)⟩

theorem Hosted.serve (h : s.Hosted nodeId c) (hScheduler : s.scheduler = c.scheduler)
    {times : ClusterTimes} {now : Int} {s' : Session}
    (hStep : s.step times (.process 0 now) = some s') :
    ∃ label c', c.step label = some c' ∧ s'.scheduler = c'.scheduler ∧ c.Aside nodeId c' ∧
      s'.Hosted nodeId c' := by
  obtain ⟨request, hFirst, rfl⟩ := Option.map_eq_some_iff.mp hStep
  obtain ⟨rest, hRest⟩ : ∃ rest, s.requests = request :: rest := by
    cases hQueue : s.requests with
    | nil => rw [hQueue] at hFirst; cases hFirst
    | cons first rest => rw [hQueue] at hFirst; cases hFirst; exact ⟨rest, rfl⟩
  have hLane := h.requests
  rw [hRest, List.map_cons] at hLane
  obtain ⟨place, envelope, hAt, hRequest, hErased, hResponses, hOthers⟩ :=
    Cluster.exists_request hLane
  obtain ⟨hState, hNodes, hRequests, hAside, hAnswer⟩ :=
    Cluster.handle_request { c with inFlight := c.inFlight.eraseIdx place } now hRequest
  refine ⟨.process place now, _, by rw [Cluster.step, hAt]; rfl, ?_, ?_, ?_⟩
  · rw [hState, ← hScheduler]
  · intro id hOther
    refine ⟨by rw [hNodes], ?_, ?_⟩
    · rw [hRequests, hOthers id hOther]
    · rw [hAside id hOther, hResponses]
  · refine ⟨by rw [hNodes]; exact h.node, h.named, ?_, ?_, ?_⟩
    · rw [hRequests, hErased, hRest]
      rfl
    · rw [hAnswer, hResponses, h.responses, List.filterMap_append, ← hScheduler]
      cases s.scheduler.answer now request.2 with
      | none => rfl
      | some response => cases response <;> rfl
    · intro hRanked
      obtain ⟨hTimer, hQuiet, hAnswers⟩ := h.quiet hRanked
      refine ⟨hTimer, ?_, ?_⟩
      · intro sent hSent
        exact hQuiet sent (List.mem_of_mem_eraseIdx hSent)
      · intro response hResponse
        rcases List.mem_append.mp hResponse with hOld | hNew
        · exact hAnswers response hOld
        · obtain ⟨answer, hMem, rfl⟩ := List.mem_map.mp hNew
          have hGiven := SchedulerNode.answers_of_answer (Option.mem_toList.mp hMem)
          intro hHeartbeat
          exact hQuiet request (List.mem_of_getElem? hFirst) (hGiven.unique hHeartbeat)

theorem takeResponse_node (client : Client) (requestId : Nat) (response : NodeResponse) :
    (client.takeResponse requestId response).node = Cluster.learns client.node response ∧
      (client.takeResponse requestId response).timer = client.timer := by
  cases response with
  | register message =>
    rw [Client.takeResponse, Cluster.learns]
    cases client.node.processRegisterResp message with
    | error fault => exact ⟨rfl, rfl⟩
    | ok node => exact ⟨rfl, rfl⟩
  | heartbeat message =>
    simp only [Client.takeResponse, Client.processHeartbeatResp]
    split
    · exact ⟨rfl, rfl⟩
    · exact ⟨rfl, rfl⟩
  | _ => exact ⟨rfl, rfl⟩

theorem learns_of_kept {response : NodeResponse} (h : response.kept = none) (node : ClusterNode) :
    Cluster.learns node response = node := by
  cases response with
  | register message => cases h
  | fetchServers serversMeta => cases h
  | _ => rfl

theorem takeResponse_sent {response kept : NodeResponse} (h : response.kept = some kept)
    (client : Client) (requestId : Nat) :
    kept = response ∧ (client.takeResponse requestId response).sent = client.sent := by
  cases response with
  | register message =>
    cases h
    rw [Client.takeResponse]
    split
    · exact ⟨rfl, rfl⟩
    · exact ⟨rfl, rfl⟩
  | fetchServers serversMeta =>
    cases h
    exact ⟨rfl, rfl⟩
  | _ => cases h

theorem learns_nodeId (node : ClusterNode) (response : NodeResponse) :
    (Cluster.learns node response).nodeInfo.nodeId = node.nodeInfo.nodeId ∧
      (node.ranked = true → (Cluster.learns node response).ranked = true) := by
  cases response with
  | register message =>
    rw [Cluster.learns, ClusterNode.processRegisterResp]
    split
    · next hError =>
      split at hError
      · exact ⟨rfl, id⟩
      · cases hError
    · next hOk =>
      split at hOk
      · cases hOk
      · cases hOk
        exact ⟨rfl, fun _ => rfl⟩
  | _ => exact ⟨rfl, id⟩

theorem Hosted.take (h : s.Hosted nodeId c) (hScheduler : s.scheduler = c.scheduler)
    {times : ClusterTimes} {s' : Session} (hStep : s.step times (.take 0) = some s') :
    ∃ labels c', exec Cluster.step c labels = some c' ∧ s'.scheduler = c'.scheduler ∧
      c.Aside nodeId c' ∧ s'.Hosted nodeId c' := by
  obtain ⟨⟨requestId, response⟩, hFirst, hMove⟩ := Option.bind_eq_some_iff.mp hStep
  obtain ⟨client, hClient, rfl⟩ := Option.map_eq_some_iff.mp hMove
  have hMem : (requestId, response) ∈ s.responses := List.mem_of_getElem? hFirst
  obtain ⟨_, hTaken⟩ := Client.take_eq_some hClient
  obtain ⟨hNode, hTimer⟩ := takeResponse_node s.client requestId response
  rw [← hTaken] at hNode hTimer
  have hLane := h.responses
  obtain ⟨rest, hRest⟩ : ∃ rest, s.responses = (requestId, response) :: rest := by
    cases hQueue : s.responses with
    | nil => rw [hQueue] at hFirst; cases hFirst
    | cons first rest => rw [hQueue] at hFirst; cases hFirst; exact ⟨rest, rfl⟩
  rw [hRest, List.filterMap_cons] at hLane
  have hQuiet : s.client.node.ranked = false → s.client.timer ≠ .sending ∧
      (∀ request ∈ s.requests, request.2.cmd ≠ .heartbeat) ∧
      ∀ response ∈ rest, ¬ response.2.Answers .heartbeat := by
    intro hRanked
    refine ⟨(h.quiet hRanked).timer, (h.quiet hRanked).requests, ?_⟩
    intro response hResponse
    exact (h.quiet hRanked).responses response (by rw [hRest]; exact .tail _ hResponse)
  rw [hRest, List.eraseIdx_cons_zero]
  cases hKept : response.kept with
  | none =>
    rw [hKept] at hLane
    rw [learns_of_kept hKept] at hNode
    have hHosted : { s with
        responses := rest, handled := s.handled ++ [response] }.Hosted nodeId c :=
      ⟨h.node, h.named, h.requests, hLane, fun hRanked =>
        ⟨(hQuiet hRanked).1, (hQuiet hRanked).2.1, (hQuiet hRanked).2.2⟩⟩
    obtain ⟨labels, c', hRun, hSame, hAside, hHosted'⟩ := hHosted.move hClient hNode
      (by rw [hTimer]; exact .inl) (by
        rintro ⟨_, message, hLabel⟩
        cases hLabel
        cases hRanked : s.client.node.ranked with
        | true => rfl
        | false => exact absurd trivial ((h.quiet hRanked).responses _ hMem))
    exact ⟨labels, c', hRun, hScheduler.trans hSame.symm, hAside, hHosted'⟩
  | some kept =>
    rw [hKept] at hLane
    obtain ⟨rfl, hSent⟩ := takeResponse_sent hKept s.client requestId
    rw [← hTaken] at hSent
    obtain ⟨place, envelope, hAt, hResponse, hErased, hRequests, hOthers⟩ :=
      Cluster.exists_response hLane
    obtain ⟨hState, hInFlight, hNodes⟩ := Cluster.handle_response
      { c with inFlight := c.inFlight.eraseIdx place } 0 hResponse h.node
    refine ⟨[.process place 0], _, Option.bind_eq_some_iff.mpr
      ⟨_, by rw [Cluster.step, hAt]; rfl, rfl⟩, ?_, ?_, ?_⟩
    · rw [hState]
      exact hScheduler
    · intro id hOther
      refine ⟨by rw [hNodes, if_neg hOther], ?_, ?_⟩
      · rw [Cluster.requestsOf, hInFlight]
        exact hRequests id
      · rw [Cluster.responsesOf, hInFlight]
        exact hOthers id hOther
    · obtain ⟨hId, hStays⟩ := learns_nodeId s.client.node kept
      refine ⟨?_, ?_, ?_, ?_, ?_⟩
      · rw [hNodes, if_pos rfl, hNode]
      · rw [show client.node = _ from hNode, hId]
        exact h.named
      · rw [Cluster.requestsOf, hInFlight, hSent, List.drop_length, List.append_nil, ← h.requests]
        exact hRequests nodeId
      · rw [Cluster.responsesOf, hInFlight]
        exact hErased
      · intro hRanked
        have hUnranked : s.client.node.ranked = false := by
          rw [show client.node.ranked = _ from congrArg _ hNode] at hRanked
          cases hKnown : s.client.node.ranked with
          | false => rfl
          | true => rw [hStays hKnown] at hRanked; cases hRanked
        refine ⟨?_, ?_, (hQuiet hUnranked).2.2⟩
        · rw [show client.timer = _ from hTimer]
          exact (hQuiet hUnranked).1
        · rw [hSent, List.drop_length, List.append_nil]
          exact (hQuiet hUnranked).2.1

theorem Hosted.step (h : s.Hosted nodeId c) (hScheduler : s.scheduler = c.scheduler)
    {times : ClusterTimes} {label : WireLabel} {s' : Session}
    (hOther : ∀ l, label ≠ .scheduler l)
    (hStart : label = .client .timerCheck → s.client.node.ranked = true)
    (hRun : exec (Session.step times) s label.toSession.toList = some s') :
    ∃ labels c', exec Cluster.step c labels = some c' ∧ s'.scheduler = c'.scheduler ∧
      c.Aside nodeId c' ∧ s'.Hosted nodeId c' := by
  have hSame : s' = s → ∃ labels c', exec Cluster.step c labels = some c' ∧
      s'.scheduler = c'.scheduler ∧ c.Aside nodeId c' ∧ s'.Hosted nodeId c' := by
    rintro rfl
    exact ⟨[], c, rfl, hScheduler, .refl nodeId c, h⟩
  have hOne {l : SessionLabel} (hRun : exec (Session.step times) s [l] = some s') :
      s.step times l = some s' := by
    obtain ⟨_, hStep, hEnd⟩ := Option.bind_eq_some_iff.mp hRun
    cases hEnd
    exact hStep
  cases label with
  | client label =>
    have hStep := hOne hRun
    rw [Session.step] at hStep
    split at hStep
    · next hOwn =>
      obtain ⟨client, hClient, rfl⟩ := Option.map_eq_some_iff.mp hStep
      obtain ⟨hNode, hTimer⟩ := Client.step_own hOwn hClient
      obtain ⟨labels, c', hCluster, hKept, hAside, hHosted⟩ := h.move hClient hNode
        (fun hSending => (hTimer hSending).imp id fun hLabel => hStart (congrArg _ hLabel)) (by
          rintro ⟨_, _, rfl⟩
          cases hOwn)
      exact ⟨labels, c', hCluster, hScheduler.trans hKept.symm, hAside, hHosted⟩
    · cases hStep
  | schedulerRead count =>
    cases hRun
    exact hSame rfl
  | serve now =>
    obtain ⟨l, c', hStep, hServed⟩ := h.serve hScheduler (hOne hRun)
    exact ⟨[l], c', Option.bind_eq_some_iff.mpr ⟨c', hStep, rfl⟩, hServed⟩
  | nodeRead count =>
    cases hRun
    exact hSame rfl
  | take => exact h.take hScheduler (hOne hRun)
  | scheduler l => exact absurd rfl (hOther l)

theorem Hosted.aside (h : s.Hosted nodeId c) {other : String} {c' : Cluster}
    (hAside : c.Aside other c') (hOther : nodeId ≠ other) (scheduler : SchedulerNode) :
    { s with scheduler := scheduler }.Hosted nodeId c' := by
  obtain ⟨hNode, hRequests, hResponses⟩ := hAside nodeId hOther
  exact ⟨hNode.trans h.node, h.named, hRequests.trans h.requests, hResponses.trans h.responses,
    fun hRanked => ⟨(h.quiet hRanked).timer, (h.quiet hRanked).requests,
      (h.quiet hRanked).responses⟩⟩

end Session

end PsRpc
