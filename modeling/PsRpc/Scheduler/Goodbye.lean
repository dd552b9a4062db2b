import PsRpc.Scheduler.ClusterState

/-! # The end of the scheduler

`ProcessHeartbeat` stops the scheduler when `heartbeats_finish_nodes_` and `nodes_info_` have the
same size. The two sets are then the same, because every id that goes into the first one is put
into the second one by `UpdateHeartbeat` just before.
-/

namespace PsRpc

inductive SchedulerLabel where
  | register (now : Int) (message : RegisterMessage)
  | heartbeat (now : Int) (message : HeartbeatMessage)
  | finish (message : FinishMessage)
  | fetchServers
  | checkAvailable (elapsed : Bool)
  | updateState (heartbeatTimeout : UInt32) (now : Int)
deriving DecidableEq, Repr

namespace SchedulerNode

/-- A message that a handler processes, or a part of a turn of the update thread. -/
def step (s : SchedulerNode) : SchedulerLabel → SchedulerNode
  | .register now message => (s.processRegister now message).2
  | .heartbeat now message => (s.processHeartbeat now message).2
  | .finish message => (s.processFinish message).2
  | .fetchServers => s.processFetchServers.2
  | .checkAvailable elapsed => s.checkAvailable elapsed
  | .updateState heartbeatTimeout now => s.updateState heartbeatTimeout now

def run (config : ClusterConfig) (labels : List SchedulerLabel) : SchedulerNode :=
  labels.foldl step (.new config)

/-- `ProcessHeartbeat` comes to `is_finish_ = true`. -/
def SetsFinish (s : SchedulerNode) (now : Int) (message : HeartbeatMessage) : Prop :=
  ({ s with isFinish := false }.processHeartbeat now message).2.isFinish = true

end SchedulerNode

def goodbyes (labels : List SchedulerLabel) : List String :=
  labels.filterMap fun
    | .heartbeat _ message => if message.isNodeFinish then some message.nodeId else none
    | _ => none

theorem goodbyes_append (labels labels' : List SchedulerLabel) :
    goodbyes (labels ++ labels') = goodbyes labels ++ goodbyes labels' :=
  List.filterMap_append

namespace NodeManager

/-- Who has said goodbye is in the registry, and has sent a message that says so. -/
structure Backed (said : List String) (m : NodeManager) : Prop where
  heard : ∀ id ∈ m.heartbeats, id ∈ m.nodesInfo
  registered : ∀ id ∈ m.heartbeatsFinishNodes, id ∈ m.nodesInfo
  said : ∀ id ∈ m.heartbeatsFinishNodes, id ∈ said

variable {said : List String} {m m' : NodeManager}

theorem Backed.new (config : ClusterConfig) : Backed [] (NodeManager.new.initNodeNum config) where
  heard _ hId := absurd hId (AList.notMem_empty _)
  registered := by simp [NodeManager.new, initNodeNum]
  said := by simp [NodeManager.new, initNodeNum]

theorem Backed.more (h : Backed said m) (later : List String) : Backed (said ++ later) m where
  heard := h.heard
  registered := h.registered
  said id hId := List.mem_append_left later (h.said id hId)

theorem Backed.same (h : Backed said m) (hSame : SameRegistry m m')
    (hFinish : m'.heartbeatsFinishNodes = m.heartbeatsFinishNodes) : Backed said m' := by
  constructor
  · exact hSame.keeps_heard h.heard
  · intro id hId
    rw [hFinish] at hId
    rw [mem_nodesInfo, hSame.nodes, ← mem_nodesInfo]
    exact h.registered id hId
  · rw [hFinish]
    exact h.said

theorem Backed.updateHeartbeat (h : Backed said m) (now : Int) (nodeId : String) :
    Backed said (m.updateHeartbeat now nodeId) := by
  have hGrows {id : String} (hId : id ∈ m.nodesInfo) :
      id ∈ (m.updateHeartbeat now nodeId).nodesInfo :=
    (AList.mem_insert _).mpr (.inr hId)
  constructor
  · intro id hId
    rcases (AList.mem_insert _).mp hId with rfl | hOld
    · exact (AList.mem_insert _).mpr (.inl rfl)
    · exact hGrows (h.heard id hOld)
  · intro id hId
    exact hGrows (h.registered id hId)
  · exact h.said

theorem Backed.updateNodeFinishState (h : Backed said m) (now : Int) (nodeId : String) :
    Backed (said ++ [nodeId]) ((m.updateHeartbeat now nodeId).updateNodeFinishState nodeId) := by
  have hHeard := h.updateHeartbeat now nodeId
  constructor
  · exact hHeard.heard
  · intro id hId
    rcases Finset.mem_insert.mp hId with rfl | hOld
    · exact (AList.mem_insert _).mpr (.inl rfl)
    · exact hHeard.registered id hOld
  · intro id hId
    rcases Finset.mem_insert.mp hId with rfl | hOld
    · simp
    · exact List.mem_append_left _ (h.said id hOld)

theorem nextRankId_heartbeatsFinishNodes (m : NodeManager) (message : RegisterMessage) :
    (m.nextRankId message).2.heartbeatsFinishNodes = m.heartbeatsFinishNodes := by
  rw [nextRankId]
  split
  · rfl
  · split
    · rfl
    · split <;> rfl

theorem Backed.nextRankId (h : Backed said m) (message : RegisterMessage) :
    Backed said (m.nextRankId message).2 := by
  have hFinish := nextRankId_heartbeatsFinishNodes m message
  rcases nextRankId_cases m message with hSame | ⟨info, hNew⟩
  · rwa [hSame]
  · constructor
    · exact hNew.keeps_heard h.heard
    · intro id hId
      rw [hFinish] at hId
      rw [hNew.nodesInfo, AList.mem_insert]
      exact .inr (h.registered id hId)
    · rw [hFinish]
      exact h.said

theorem updateClusterState_heartbeatsFinishNodes (m : NodeManager) (heartbeatTimeout : UInt32)
    (now : Int) :
    (m.updateClusterState heartbeatTimeout now).heartbeatsFinishNodes =
      m.heartbeatsFinishNodes := by
  obtain ⟨nodesInfo, timeoutNodesInfo, isClusterTimeout, hTimeout, _⟩ :=
    updateTimeoutState_eq m heartbeatTimeout now
  rw [updateClusterState, hTimeout, updateFinishState, updateReadyState]
  split <;> split <;> rfl

theorem checkClusterTimeout_heartbeatsFinishNodes (m : NodeManager) :
    m.checkClusterTimeout.heartbeatsFinishNodes = m.heartbeatsFinishNodes := by
  rw [checkClusterTimeout]
  split <;> rfl

end NodeManager

namespace SchedulerNode

open NodeManager

theorem step_backed {said : List String} {s : SchedulerNode} (h : Backed said s.nodeManager)
    (label : SchedulerLabel) : Backed (said ++ goodbyes [label]) (s.step label).nodeManager := by
  cases label with
  | register now message =>
    change Backed _ (s.processRegister now message).2.nodeManager
    rw [processRegister]
    split
    · exact (h.nextRankId message).more _
    · exact ((h.nextRankId message).updateHeartbeat now message.nodeId).more _
  | heartbeat now message =>
    change Backed _ (s.processHeartbeat now message).2.nodeManager
    obtain ⟨nodeId, isNodeFinish⟩ := message
    cases isNodeFinish with
    | true => exact h.updateNodeFinishState now nodeId
    | false => exact (h.updateHeartbeat now nodeId).more _
  | finish message =>
    have hSame : SameRegistry s.nodeManager (s.nodeManager.addFinishNode message) :=
      ⟨fun _ => rfl, rfl, rfl, fun _ => .inl⟩
    exact (h.same hSame rfl).more _
  | fetchServers => exact h.more _
  | checkAvailable elapsed =>
    change Backed _ (s.checkAvailable elapsed).nodeManager
    rw [checkAvailable]
    split
    · exact (h.same (.checkClusterTimeout _) (checkClusterTimeout_heartbeatsFinishNodes _)).more _
    · exact h.more _
  | updateState heartbeatTimeout now =>
    exact (h.same (.updateClusterState h.heard heartbeatTimeout now)
      (updateClusterState_heartbeatsFinishNodes _ heartbeatTimeout now)).more _

theorem run_backed (config : ClusterConfig) (labels : List SchedulerLabel) :
    Backed (goodbyes labels) (run config labels).nodeManager := by
  induction labels using List.reverseRecOn with
  | nil => exact .new config
  | append_singleton labels label ih =>
    rw [goodbyes_append, run, List.foldl_append]
    exact step_backed ih label

/-- Two sets of which one contains the other are the same if they have the same size. -/
theorem nodes_subset_of_check {said : List String} {m : NodeManager} (h : Backed said m)
    (hCheck : m.checkNodesFinishState = true) : ∀ id ∈ m.nodesInfo, id ∈ said := by
  have hSubset : m.heartbeatsFinishNodes ⊆ m.nodes := by
    intro id hId
    exact mem_nodes.mpr (h.registered id hId)
  have hCard : m.nodes.card ≤ m.heartbeatsFinishNodes.card := by
    rw [card_nodes]
    exact (of_decide_eq_true hCheck).ge
  intro id hId
  apply h.said
  rw [Finset.eq_of_subset_of_card_le hSubset hCard]
  exact mem_nodes.mpr hId

end SchedulerNode

/-- In every state of the scheduler, who has said goodbye is in the registry; and when
`ProcessHeartbeat` stops the scheduler, every node in the registry has said goodbye. -/
theorem scheduler_stop_backed (config : ClusterConfig) (labels : List SchedulerLabel) :
    (∀ id ∈ (SchedulerNode.run config labels).nodeManager.heartbeatsFinishNodes,
      id ∈ (SchedulerNode.run config labels).nodeManager.nodesInfo) ∧
    ∀ now message, (SchedulerNode.run config labels).SetsFinish now message →
      ∀ id ∈
        ((SchedulerNode.run config labels).processHeartbeat now message).2.nodeManager.nodesInfo,
        id ∈ goodbyes (labels ++ [.heartbeat now message]) := by
  have hBacked := SchedulerNode.run_backed config labels
  constructor
  · exact hBacked.registered
  · intro now message hSets id hId
    rw [goodbyes_append]
    refine SchedulerNode.nodes_subset_of_check (SchedulerNode.step_backed hBacked _) ?_ id hId
    exact (Bool.and_eq_true_iff.mp hSets).2

/-- A server and a worker, of which the server has said goodbye. -/
def serverGone : List SchedulerLabel :=
  [.register 1 ⟨"", 0, "s", .server⟩, .register 1 ⟨"", 0, "w", .worker⟩, .heartbeat 2 ⟨"s", true⟩]

theorem scheduler_stop_backed_two_nodes :
    (SchedulerNode.run ⟨1, 1⟩ serverGone).SetsFinish 3 ⟨"w", true⟩ ∧
    ∀ id ∈ ((SchedulerNode.run ⟨1, 1⟩ serverGone).processHeartbeat 3
        ⟨"w", true⟩).2.nodeManager.nodesInfo,
      id ∈ goodbyes (serverGone ++ [.heartbeat 3 ⟨"w", true⟩]) := by
  have hSets : (SchedulerNode.run ⟨1, 1⟩ serverGone).SetsFinish 3 ⟨"w", true⟩ := rfl
  exact ⟨hSets, (scheduler_stop_backed ⟨1, 1⟩ serverGone).2 3 ⟨"w", true⟩ hSets⟩

end PsRpc
