import PsRpc.Scheduler.ClusterSession

/-! # The cluster, byte by byte

The scheduler with any number of servers and workers, each on a connection of its own. The steps
of the nodes, the read events of both sides and the calls of their handlers come in any order.
Every run on the bytes is a run of `Cluster`, so that what holds for the ranks and the addresses
there holds for the nodes that exchange the bytes.
-/

namespace PsRpc

open Execution ByteOrder

structure Peer where
  client : Client
  up : Channel
  down : Channel
  handled : List NodeResponse

structure WireCluster where
  scheduler : SchedulerNode
  peers : Table String Peer

/-- `peer` is a step of a node, or one of the scheduler on the connection of this node. -/
inductive WireClusterLabel where
  | startServer (nodeId ip : String) (port : UInt16) (status : NodeStatus)
      (upJunk downJunk : Vector UInt8 kHeaderLen)
  | startWorker (nodeId : String) (status : NodeStatus) (upJunk downJunk : Vector UInt8 kHeaderLen)
  | peer (nodeId : String) (label : WireLabel)
  | checkAvailable (elapsed : Bool)
  | updateState (heartbeatTimeout : UInt32) (now : Int)

namespace WireCluster

def new (config : ClusterConfig) : WireCluster := ⟨.new config, ∅⟩

def session (w : WireCluster) (peer : Peer) : WireSession :=
  ⟨peer.client, w.scheduler, peer.up, peer.down, peer.handled⟩

def put (w : WireCluster) (nodeId : String) (session : WireSession) : WireCluster :=
  ⟨session.scheduler,
    w.peers.insert nodeId ⟨session.client, session.up, session.down, session.handled⟩⟩

def start (w : WireCluster) (nodeId : String) (node : ClusterNode) (status : NodeStatus)
    (upJunk downJunk : Vector UInt8 kHeaderLen) : Option WireCluster :=
  if nodeId ∈ w.peers then none
  else some { w with
    peers := w.peers.insert nodeId ⟨.new node status, .new upJunk, .new downJunk, []⟩ }

/-- `Start` begins with the heartbeats when `Register` has returned, which waits for the response.
The other steps of the scheduler are not those of a node. -/
def allows (peer : Peer) : WireLabel → Bool
  | .client .timerCheck => peer.client.node.ranked
  | .scheduler _ => false
  | _ => true

def step (endian : Endian) (runtime : ControlRuntime) (times : ClusterTimes) (w : WireCluster) :
    WireClusterLabel → Option WireCluster
  | .startServer nodeId ip port status upJunk downJunk =>
    w.start nodeId (.newServer nodeId ip port) status upJunk downJunk
  | .startWorker nodeId status upJunk downJunk =>
    w.start nodeId (.newWorker nodeId) status upJunk downJunk
  | .peer nodeId label =>
    (w.peers.lookup nodeId).bind fun peer =>
      if allows peer label then
        ((w.session peer).step endian runtime times label).map (w.put nodeId)
      else none
  | .checkAvailable elapsed => some { w with scheduler := w.scheduler.checkAvailable elapsed }
  | .updateState heartbeatTimeout now =>
    some { w with scheduler := w.scheduler.updateState heartbeatTimeout now }

/-- The fields of the messages can hold the values that the step writes into them. -/
def Fits (runtime : ControlRuntime) (w : WireCluster) : WireClusterLabel → Prop
  | .peer nodeId label => ∀ peer ∈ w.peers.lookup nodeId, (w.session peer).Fits runtime label
  | _ => True

instance (runtime : ControlRuntime) (w : WireCluster) :
    (label : WireClusterLabel) → Decidable (w.Fits runtime label)
  | .startServer _ _ _ _ _ _ => isTrue trivial
  | .startWorker _ _ _ _ => isTrue trivial
  | .peer nodeId label =>
    match h : w.peers.lookup nodeId with
    | none => isTrue (by simp [Fits, h])
    | some peer => decidable_of_iff ((w.session peer).Fits runtime label) (by simp [Fits, h])
  | .checkAvailable _ => isTrue trivial
  | .updateState _ _ => isTrue trivial

end WireCluster

/-! ## The cluster on the bytes -/

namespace WireCluster

structure Follows (endian : Endian) (runtime : ControlRuntime) (w : WireCluster) (c : Cluster) :
    Prop where
  scheduler : w.scheduler = c.scheduler
  peers : ∀ nodeId peer, w.peers.lookup nodeId = some peer →
    ∃ s, (w.session peer).Refines endian runtime s ∧ s.Hosted nodeId c
  absent : ∀ nodeId, w.peers.lookup nodeId = none →
    c.nodes.lookup nodeId = none ∧ c.requestsOf nodeId = [] ∧ c.responsesOf nodeId = []

variable {endian : Endian} {runtime : ControlRuntime} {times : ClusterTimes} {w w' : WireCluster}
  {c c' : Cluster}

theorem follows_new (endian : Endian) (runtime : ControlRuntime) (config : ClusterConfig) :
    (new config).Follows endian runtime (.new config) where
  scheduler := rfl
  peers _ _ h := by cases h
  absent _ _ := ⟨rfl, rfl, rfl⟩

theorem Follows.put (h : w.Follows endian runtime c) {nodeId : String} {session : WireSession}
    {s : Session} (hScheduler : session.scheduler = c'.scheduler) (hAside : c.Aside nodeId c')
    (hRefines : session.Refines endian runtime s) (hHosted : s.Hosted nodeId c') :
    (w.put nodeId session).Follows endian runtime c' where
  scheduler := hScheduler
  peers := by
    intro id peer hPeer
    rw [WireCluster.put, Table.lookup_insert] at hPeer
    split at hPeer
    · next hId =>
      subst hId
      cases hPeer
      exact ⟨s, hRefines, hHosted⟩
    · next hOther =>
      obtain ⟨s', hRefines', hHosted'⟩ := h.peers id peer hPeer
      exact ⟨{ s' with scheduler := session.scheduler },
        ⟨hRefines'.client, rfl, hRefines'.handled, hRefines'.requests, hRefines'.responses⟩,
        hHosted'.aside hAside hOther _⟩
  absent := by
    intro id hAbsent
    rw [WireCluster.put, Table.lookup_insert] at hAbsent
    split at hAbsent
    · cases hAbsent
    · next hOther =>
      obtain ⟨hNode, hRequests, hResponses⟩ := hAside id hOther
      obtain ⟨hNode', hRequests', hResponses'⟩ := h.absent id hAbsent
      exact ⟨hNode.trans hNode', hRequests.trans hRequests', hResponses.trans hResponses'⟩

theorem Follows.schedule (h : w.Follows endian runtime c) (scheduler : SchedulerNode) :
    { w with scheduler := scheduler }.Follows endian runtime { c with scheduler := scheduler } where
  scheduler := rfl
  peers := by
    intro id peer hPeer
    obtain ⟨s, hRefines, hHosted⟩ := h.peers id peer hPeer
    refine ⟨{ s with scheduler := scheduler },
      ⟨hRefines.client, rfl, hRefines.handled, hRefines.requests, hRefines.responses⟩, ?_⟩
    exact ⟨hHosted.node, hHosted.named, hHosted.requests, hHosted.responses, fun hRanked =>
      ⟨(hHosted.quiet hRanked).timer, (hHosted.quiet hRanked).requests,
        (hHosted.quiet hRanked).responses⟩⟩
  absent := h.absent

theorem Follows.start (h : w.Follows endian runtime c) {nodeId : String} (node : ClusterNode)
    {status : NodeStatus} {upJunk downJunk : Vector UInt8 kHeaderLen}
    (hNamed : node.nodeInfo.nodeId = nodeId)
    (hStart : w.start nodeId node status upJunk downJunk = some w') :
    ∃ c', c.start nodeId node = some c' ∧ w'.Follows endian runtime c' := by
  rw [WireCluster.start] at hStart
  split at hStart
  · cases hStart
  next hNew =>
  cases hStart
  obtain ⟨hNode, hRequests, hResponses⟩ := h.absent nodeId (AList.lookup_eq_none.mpr hNew)
  refine ⟨{ c with nodes := c.nodes.insert nodeId node }, ?_, ?_⟩
  · rw [Cluster.start, if_neg (AList.lookup_eq_none.mp hNode)]
  · have hAside : c.Aside nodeId { c with nodes := c.nodes.insert nodeId node } := by
      intro id hOther
      refine ⟨?_, rfl, rfl⟩
      rw [Table.lookup_insert, if_neg hOther]
    have hHosted : Session.Hosted nodeId ⟨.new node status, w.scheduler, [], [], []⟩
        { c with nodes := c.nodes.insert nodeId node } := by
      refine ⟨?_, hNamed, hRequests, hResponses, ?_⟩
      · rw [Table.lookup_insert, if_pos rfl]
        rfl
      · intro _
        exact ⟨by rintro ⟨⟩, by simp, by simp⟩
    have hRefines : WireSession.Refines endian runtime
        ⟨.new node status, w.scheduler, .new upJunk, .new downJunk, []⟩
        ⟨.new node status, w.scheduler, [], [], []⟩ :=
      ⟨rfl, rfl, rfl, Channel.conveys_new upJunk, Channel.conveys_new downJunk⟩
    exact h.put h.scheduler hAside hRefines hHosted

theorem Follows.step (h : w.Follows endian runtime c) {label : WireClusterLabel}
    (hMove : restrict (Fits runtime) (step endian runtime times) w label = some w') :
    ∃ labels c', exec Cluster.step c labels = some c' ∧ w'.Follows endian runtime c' := by
  obtain ⟨hFits, hStep⟩ := restrict_eq_some.mp hMove
  have hOne {l : ClusterLabel} {c' : Cluster} (hCluster : c.step l = some c') :
      exec Cluster.step c [l] = some c' := Option.bind_eq_some_iff.mpr ⟨c', hCluster, rfl⟩
  cases label with
  | startServer nodeId ip port status upJunk downJunk =>
    obtain ⟨c', hStart, hFollows⟩ := h.start (.newServer nodeId ip port) rfl hStep
    exact ⟨[.startServer nodeId ip port], c', hOne hStart, hFollows⟩
  | startWorker nodeId status upJunk downJunk =>
    obtain ⟨c', hStart, hFollows⟩ := h.start (.newWorker nodeId) rfl hStep
    exact ⟨[.startWorker nodeId], c', hOne hStart, hFollows⟩
  | peer nodeId label =>
    obtain ⟨peer, hPeer, hRest⟩ := Option.bind_eq_some_iff.mp hStep
    split at hRest
    · next hAllows =>
      obtain ⟨session, hSession, rfl⟩ := Option.map_eq_some_iff.mp hRest
      obtain ⟨s, hRefines, hHosted⟩ := h.peers nodeId peer hPeer
      obtain ⟨s', hRun, hRefines'⟩ := hRefines.step (hFits peer hPeer) hSession
      have hOther : ∀ l, label ≠ .scheduler l := by
        rintro l rfl
        cases hAllows
      have hStart : label = .client .timerCheck → s.client.node.ranked = true := by
        rintro rfl
        rw [← hRefines.client]
        exact hAllows
      obtain ⟨labels, c', hCluster, hScheduler, hAside, hHosted'⟩ :=
        hHosted.step (hRefines.scheduler.symm.trans h.scheduler) hOther hStart hRun
      exact ⟨labels, c', hCluster,
        h.put (hRefines'.scheduler.trans hScheduler) hAside hRefines' hHosted'⟩
    · cases hRest
  | checkAvailable elapsed =>
    cases hStep
    refine ⟨[.checkAvailable elapsed], _, hOne rfl, ?_⟩
    rw [h.scheduler]
    exact h.schedule _
  | updateState heartbeatTimeout now =>
    cases hStep
    refine ⟨[.updateState heartbeatTimeout now], _, hOne rfl, ?_⟩
    rw [h.scheduler]
    exact h.schedule _

theorem Follows.lookup (h : w.Follows endian runtime c) (nodeId : String) :
    c.nodes.lookup nodeId = (w.peers.lookup nodeId).map fun peer => peer.client.node := by
  cases hPeer : w.peers.lookup nodeId with
  | none => exact (h.absent nodeId hPeer).1
  | some peer =>
    obtain ⟨s, hRefines, hHosted⟩ := h.peers nodeId peer hPeer
    rw [hHosted.node, ← hRefines.client]
    rfl

end WireCluster

namespace Cluster

variable {c : Cluster}

theorem Agreed.holds (h : c.Agreed) {nodeId : String} {node : ClusterNode}
    (hNode : c.nodes.lookup nodeId = some node) (hRanked : node.ranked = true) :
    c.scheduler.nodeManager.Holds node.nodeInfo.nodeRole node.nodeInfo.rankId nodeId := by
  obtain ⟨info, hInfo, hRank⟩ := h.ranked nodeId node hNode hRanked
  obtain ⟨known, hKnown, hMatches⟩ := h.known nodeId info hInfo
  rw [hNode] at hKnown
  cases hKnown
  exact ⟨info, hInfo, hMatches.role, hRank⟩

end Cluster

theorem WireCluster.exec_peer {endian : Endian} {runtime : ControlRuntime} {times : ClusterTimes}
    (w : WireCluster) (nodeId : String) {session session' : WireSession} {labels : List WireLabel}
    (hAllows : ∀ label ∈ labels, ∀ peer, allows peer label = true)
    (hRun : exec (restrict (WireSession.Fits runtime) (WireSession.step endian runtime times))
      session labels = some session') :
    exec (restrict (Fits runtime) (step endian runtime times)) (w.put nodeId session)
      (labels.map (.peer nodeId)) = some (w.put nodeId session') := by
  induction labels generalizing session with
  | nil =>
    cases hRun
    rfl
  | cons label labels ih =>
    obtain ⟨hLabel, hLabels⟩ := List.forall_mem_cons.mp hAllows
    obtain ⟨next, hNext, hRest⟩ := Option.bind_eq_some_iff.mp hRun
    obtain ⟨hFits, hStep⟩ := restrict_eq_some.mp hNext
    have hPeer : (w.put nodeId session).peers.lookup nodeId =
        some ⟨session.client, session.up, session.down, session.handled⟩ := AList.lookup_insert _
    have hNow : (w.put nodeId session).Fits runtime (.peer nodeId label) := by
      intro peer hMem
      rw [hPeer] at hMem
      cases hMem
      exact hFits
    have hPut : (w.put nodeId session).step endian runtime times (.peer nodeId label) =
        some (w.put nodeId next) := by
      rw [step, hPeer, Option.bind_some, if_pos (hLabel _)]
      change Option.map _ (session.step endian runtime times label) = _
      rw [hStep, Option.map_some]
      simp only [put, AList.insert_insert]
    exact exec_restrict_cons hNow hPut (ih hLabels hRest)

end PsRpc
