import PsRpc.Scheduler.ClusterState

/-! # When the cluster is finished

`finish_nodes_id_` collects the nodes that have sent a finish message and those that some
`UpdateClusterState` has found silent, and nobody leaves it. Its size is compared with
`total_node_num_` and with `current_node_num_`, the number of nodes at the last cluster timeout. The
cluster is finished too early if a silent node comes back, if more nodes register than are
configured, or if nodes register after a cluster timeout.
-/

namespace PsRpc

open Execution

structure FinishSession where
  manager : NodeManager
  finished : Finset String

namespace FinishSession

def new (config : ClusterConfig) : FinishSession := ⟨NodeManager.new.initNodeNum config, ∅⟩

def step (s : FinishSession) (label : ManagerLabel) : Option FinishSession :=
  (s.manager.step label).map fun manager =>
    { manager := manager
      finished := match label with
        | .addFinishNode message => insert message.nodeId s.finished
        | _ => s.finished }

/-- Heartbeats and finish messages come from registered nodes. As long as the cluster is not
finished, a node registers only before any cluster timeout and while the cluster is not complete,
and a node that was found silent without having finished stays silent. -/
def steady (s : FinishSession) : ManagerLabel → Prop
  | .nextRankId message =>
    s.manager.isClusterFinish = true ∨ message.nodeId ∈ s.manager.nodesInfo ∨
      (message.role = .server ∨ message.role = .worker →
        s.manager.nodes.card < s.manager.totalNodeNum.toNat ∧ s.manager.currentNodeNum = -1)
  | .updateHeartbeat _ nodeId => nodeId ∈ s.manager.nodesInfo
  | .updateNodeFinishState _ => True
  | .addFinishNode message => message.nodeId ∈ s.manager.nodesInfo
  | .updateClusterState heartbeatTimeout now =>
    s.manager.isClusterFinish = true ∨
      s.manager.finishNodesId \ s.finished ⊆ s.manager.timedOut heartbeatTimeout now
  | .checkClusterTimeout => True

instance (s : FinishSession) : (label : ManagerLabel) → Decidable (s.steady label)
  | .nextRankId message => inferInstanceAs (Decidable (_ ∨ message.nodeId ∈ _ ∨ (_ → _ ∧ _)))
  | .updateHeartbeat _ nodeId => inferInstanceAs (Decidable (nodeId ∈ s.manager.nodesInfo))
  | .updateNodeFinishState _ => isTrue trivial
  | .addFinishNode message => inferInstanceAs (Decidable (message.nodeId ∈ s.manager.nodesInfo))
  | .updateClusterState _ _ => inferInstanceAs (Decidable (_ ∨ (_ : Finset String) ⊆ _))
  | .checkClusterTimeout => isTrue trivial

/-- While the cluster is not finished, it does not have more nodes than either of the numbers that
`finish_nodes_id_` is compared with. -/
structure Counted (m : NodeManager) : Prop where
  heard : ∀ id ∈ m.heartbeats, id ∈ m.nodesInfo
  finishNodes : m.finishNodesId ⊆ m.nodes
  numbers : m.isClusterFinish = false →
    m.nodes.card ≤ m.totalNodeNum.toNat ∧
      (m.currentNodeNum = -1 ∨ m.currentNodeNum = m.nodes.card)

namespace Counted

variable {m m' : NodeManager}

theorem new (config : ClusterConfig) : Counted (NodeManager.new.initNodeNum config) where
  heard id hId := absurd hId (AList.notMem_empty id)
  finishNodes := Finset.empty_subset _
  numbers _ := ⟨Nat.zero_le _, .inl rfl⟩

theorem same (h : Counted m) (hSame : NodeManager.SameRegistry m m')
    (hFinishNodes : m'.finishNodesId ⊆ m.nodes) (hTotal : m'.totalNodeNum = m.totalNodeNum)
    (hFinish : m'.isClusterFinish = false → m.isClusterFinish = false)
    (hCurrent : m'.currentNodeNum = m.currentNodeNum ∨ m'.currentNodeNum = m.nodes.card) :
    Counted m' where
  heard := hSame.keeps_heard h.heard
  finishNodes := by
    rw [hSame.nodes_eq]
    exact hFinishNodes
  numbers hNot := by
    obtain ⟨hCard, hOld⟩ := h.numbers (hFinish hNot)
    rw [hSame.nodes_eq, hTotal]
    refine ⟨hCard, ?_⟩
    rcases hCurrent with hCurrent | hCurrent
    · rw [hCurrent]
      exact hOld
    · exact .inr hCurrent

theorem register (h : Counted m) {message : RegisterMessage}
    (hOk : m.isClusterFinish = true ∨ message.nodeId ∈ m.nodesInfo ∨
      (message.role = .server ∨ message.role = .worker →
        m.nodes.card < m.totalNodeNum.toNat ∧ m.currentNodeNum = -1)) :
    Counted (m.nextRankId message).2 := by
  rcases NodeManager.nextRankId_cases m message with hSame | ⟨info, hNew⟩
  · rw [hSame]
    exact h
  have hNodes := NodeManager.nodes_insert hNew.nodesInfo
  refine ⟨hNew.keeps_heard h.heard, ?_, ?_⟩
  · rw [hNodes, hNew.finishNodes]
    exact h.finishNodes.trans (Finset.subset_insert _ _)
  · intro hNot
    rw [hNew.finish] at hNot
    rcases hOk with hFinish | hKnown | hPlace
    · rw [hNot] at hFinish
      cases hFinish
    · exact absurd hKnown hNew.not_mem
    · obtain ⟨hCard, hCurrent⟩ := hPlace (hNew.role ▸ hNew.kind)
      rw [hNodes, hNew.total, hNew.current]
      exact ⟨(Finset.card_insert_le _ _).trans hCard, .inl hCurrent⟩

theorem update (h : Counted m) (heartbeatTimeout : UInt32) (now : Int) :
    Counted (m.updateClusterState heartbeatTimeout now) := by
  have hUpdate := NodeManager.clusterUpdate m heartbeatTimeout now
  refine h.same (.updateClusterState h.heard heartbeatTimeout now) ?_ hUpdate.total ?_
    (.inl hUpdate.current)
  · rw [hUpdate.finishNodes]
    apply Finset.union_subset h.finishNodes
    intro id hId
    exact NodeManager.mem_nodes.mpr (h.heard id (NodeManager.mem_heartbeats_of_timedOut hId))
  · rw [← Bool.not_eq_true, ← Bool.not_eq_true]
    exact mt fun hFinish => hUpdate.finish.mpr (.inl hFinish)

theorem checkClusterTimeout (h : Counted m) : Counted m.checkClusterTimeout := by
  rw [NodeManager.checkClusterTimeout]
  split
  · refine h.same ⟨fun _ => rfl, rfl, rfl, fun _ => .inl⟩ h.finishNodes rfl id (.inr ?_)
    rw [NodeManager.card_nodes]
  · exact h

end Counted

theorem counted_step {s s' : FinishSession} (h : Counted s.manager) {label : ManagerLabel}
    (hOk : s.steady label) (hStep : s.step label = some s') : Counted s'.manager := by
  cases label with
  | nextRankId message =>
    cases hStep
    exact h.register hOk
  | updateHeartbeat now nodeId =>
    cases hStep
    exact h.same (.updateHeartbeat hOk now) h.finishNodes rfl id (.inl rfl)
  | updateNodeFinishState nodeId =>
    cases hStep
    exact h.same ⟨fun _ => rfl, rfl, rfl, fun _ => .inl⟩ h.finishNodes rfl id (.inl rfl)
  | addFinishNode message =>
    cases hStep
    refine h.same ⟨fun _ => rfl, rfl, rfl, fun _ => .inl⟩ ?_ rfl id (.inl rfl)
    exact Finset.insert_subset (NodeManager.mem_nodes.mpr hOk) h.finishNodes
  | updateClusterState heartbeatTimeout now =>
    cases hStep
    exact h.update heartbeatTimeout now
  | checkClusterTimeout =>
    cases hStep
    exact h.checkClusterTimeout

/-- When the cluster is declared finished, `finish_nodes_id_` holds every node. -/
theorem Counted.all_finish {m : NodeManager} (h : Counted m) {heartbeatTimeout : UInt32} {now : Int}
    (hBefore : m.isClusterFinish = false)
    (hAfter : (m.updateClusterState heartbeatTimeout now).isClusterFinish = true) :
    (m.updateClusterState heartbeatTimeout now).finishNodesId = m.nodes := by
  have hUpdate := NodeManager.clusterUpdate m heartbeatTimeout now
  have hSame := NodeManager.SameRegistry.updateClusterState h.heard heartbeatTimeout now
  obtain ⟨hTotal, hCurrent⟩ := h.numbers hBefore
  refine Finset.eq_of_subset_of_card_le
    (hSame.nodes_eq ▸ (h.update heartbeatTimeout now).finishNodes) ?_
  rw [hUpdate.finish, hBefore] at hAfter
  rcases hAfter with hAfter | hAfter | hAfter
  · cases hAfter
  · omega
  · omega

end FinishSession

/-- In every steady run, an `UpdateClusterState` that declares the cluster finished finds every
node finished or silent. -/
theorem finish_declared_when_all_done (config : ClusterConfig) (labels : List ManagerLabel)
    (s : FinishSession)
    (hRun : exec (restrict FinishSession.steady FinishSession.step) (.new config) labels = some s)
    (heartbeatTimeout : UInt32) (now : Int)
    (hSteady : s.steady (.updateClusterState heartbeatTimeout now))
    (hBefore : s.manager.isClusterFinish = false)
    (hAfter : (s.manager.updateClusterState heartbeatTimeout now).isClusterFinish = true)
    (id : String) (hId : id ∈ (s.manager.updateClusterState heartbeatTimeout now).nodesInfo) :
    id ∈ s.finished ∨
      id ∈ (s.manager.updateClusterState heartbeatTimeout now).timeoutNodesInfo := by
  have hCounted : FinishSession.Counted s.manager := by
    refine exec_invariant (P := fun s => FinishSession.Counted s.manager) ?_ (.new config) hRun
    intro s l s' h hStep
    obtain ⟨hOk, hStep⟩ := restrict_eq_some.mp hStep
    exact FinishSession.counted_step h hOk hStep
  have hUpdate := NodeManager.clusterUpdate s.manager heartbeatTimeout now
  have hSame := NodeManager.SameRegistry.updateClusterState hCounted.heard heartbeatTimeout now
  rw [← NodeManager.mem_nodes, hSame.nodes_eq, ← hCounted.all_finish hBefore hAfter,
    hUpdate.finishNodes, Finset.mem_union] at hId
  rw [hUpdate.timeouts]
  by_cases hFinished : id ∈ s.finished
  · exact .inl hFinished
  · rcases hId with hOld | hNow
    · rcases hSteady with hFinish | hSilent
      · rw [hBefore] at hFinish
        cases hFinish
      · exact .inr (hSilent (Finset.mem_sdiff.mpr ⟨hOld, hFinished⟩))
    · exact .inr hNow

theorem finish_declared_when_all_done_pair :
    ∃ s, exec (restrict FinishSession.steady FinishSession.step) (.new ⟨1, 1⟩)
        [.nextRankId ⟨"10.0.0.1", 80, "a", .server⟩, .updateHeartbeat 1 "a",
          .nextRankId ⟨"", 0, "b", .worker⟩, .updateHeartbeat 30 "b", .addFinishNode ⟨"b"⟩] =
        some s ∧
      s.steady (.updateClusterState 30 40) ∧ s.manager.isClusterFinish = false ∧
      (s.manager.updateClusterState 30 40).isClusterFinish = true ∧
      "a" ∈ (s.manager.updateClusterState 30 40).nodesInfo ∧
      ("a" ∈ s.finished ∨ "a" ∈ (s.manager.updateClusterState 30 40).timeoutNodesInfo) := by
  obtain ⟨s, hRun, hSteady, hBefore, hAfter, hId⟩ : ∃ s,
      exec (restrict FinishSession.steady FinishSession.step) (.new ⟨1, 1⟩)
        [.nextRankId ⟨"10.0.0.1", 80, "a", .server⟩, .updateHeartbeat 1 "a",
          .nextRankId ⟨"", 0, "b", .worker⟩, .updateHeartbeat 30 "b", .addFinishNode ⟨"b"⟩] =
        some s ∧
      s.steady (.updateClusterState 30 40) ∧ s.manager.isClusterFinish = false ∧
      (s.manager.updateClusterState 30 40).isClusterFinish = true ∧
      "a" ∈ (s.manager.updateClusterState 30 40).nodesInfo :=
    ⟨_, rfl, by decide, rfl, rfl, by decide⟩
  exact ⟨s, hRun, hSteady, hBefore, hAfter, hId,
    finish_declared_when_all_done _ _ s hRun 30 40 hSteady hBefore hAfter "a" hId⟩

/-- `a` was silent at one `UpdateClusterState` and has sent a heartbeat since; the finish message
of `b` alone ends the cluster. -/
theorem finish_declared_while_working :
    ∃ s, exec FinishSession.step (.new ⟨1, 1⟩)
        [.nextRankId ⟨"10.0.0.1", 80, "a", .server⟩, .updateHeartbeat 1 "a",
          .nextRankId ⟨"", 0, "b", .worker⟩, .updateHeartbeat 30 "b", .updateClusterState 30 40,
          .updateHeartbeat 41 "a", .addFinishNode ⟨"b"⟩] = some s ∧
      s.manager.isClusterFinish = false ∧
      (s.manager.updateClusterState 30 42).isClusterFinish = true ∧
      "a" ∈ (s.manager.updateClusterState 30 42).nodesInfo ∧
      "a" ∉ s.finished ∧ "a" ∉ (s.manager.updateClusterState 30 42).timeoutNodesInfo :=
  ⟨_, rfl, rfl, rfl, by decide, by decide, by decide⟩

end PsRpc
