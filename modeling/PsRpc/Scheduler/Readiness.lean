import PsRpc.Scheduler.ClusterState

/-! # When the cluster is ready

`UpdateClusterState` compares the number of all registered nodes with `total_node_num_`. This is
the configured cluster only as long as no role has more nodes than configured: a surplus server
stands in for a missing worker, and a surplus node in a complete cluster keeps the numbers apart
for good.
-/

namespace PsRpc

open Execution

namespace NodeManager

def registered (m : NodeManager) (role : NodeRole) : Finset String :=
  m.nodes.filter fun id => (m.nodesInfo.lookup id).map NodeInfo.nodeRole = some role

theorem mem_registered {m : NodeManager} {role : NodeRole} {id : String} :
    id ∈ m.registered role ↔ ∃ info, m.nodesInfo.lookup id = some info ∧ info.nodeRole = role := by
  rw [registered, Finset.mem_filter, mem_nodes, mem_nodesInfo, Option.map_eq_some_iff]
  exact and_iff_right_of_imp fun ⟨info, hInfo, _⟩ => ⟨info, hInfo⟩

theorem SameRegistry.registered_eq {m m' : NodeManager} (h : SameRegistry m m')
    (role : NodeRole) : m'.registered role = m.registered role := by
  ext id
  simp only [mem_registered, h.nodes]

theorem card_registered_insert {m m' : NodeManager} {id : String} {info : NodeInfo}
    (hNew : m.nodesInfo.lookup id = none) (hNodes : m'.nodesInfo = m.nodesInfo.insert id info)
    (role : NodeRole) :
    (m'.registered role).card =
      (m.registered role).card + if info.nodeRole = role then 1 else 0 := by
  have hMem (id' : String) : id' ∈ m'.registered role ↔
      if id' = id then info.nodeRole = role else id' ∈ m.registered role := by
    simp only [mem_registered, hNodes, Table.lookup_insert]
    split
    · simp
    · rfl
  have hFresh : id ∉ m.registered role := by
    rw [mem_registered, hNew]
    rintro ⟨info', hInfo', _⟩
    cases hInfo'
  split
  · next hRole =>
    rw [← Finset.card_insert_of_notMem hFresh]
    congr 1
    ext id'
    rw [hMem, Finset.mem_insert]
    split
    · next hId => exact iff_of_true hRole (.inl hId)
    · next hId => exact (or_iff_right hId).symm
  · next hRole =>
    rw [Nat.add_zero]
    congr 1
    ext id'
    rw [hMem]
    split
    · next hId => exact iff_of_false hRole (by rw [hId]; exact hFresh)
    · rfl

theorem card_nodes_eq_add {m : NodeManager}
    (hRoles : ∀ id info, m.nodesInfo.lookup id = some info →
      info.nodeRole = .server ∨ info.nodeRole = .worker) :
    m.nodes.card = (m.registered .server).card + (m.registered .worker).card := by
  have hDisjoint : Disjoint (m.registered .server) (m.registered .worker) := by
    rw [Finset.disjoint_left]
    intro id hServer hWorker
    obtain ⟨info, hInfo, hRole⟩ := mem_registered.mp hServer
    obtain ⟨info', hInfo', hRole'⟩ := mem_registered.mp hWorker
    cases hInfo.symm.trans hInfo'
    cases hRole.symm.trans hRole'
  rw [← Finset.card_union_of_disjoint hDisjoint]
  congr 1
  ext id
  rw [Finset.mem_union, mem_registered, mem_registered, mem_nodes, mem_nodesInfo]
  constructor
  · rintro ⟨info, hInfo⟩
    exact (hRoles id info hInfo).imp (fun h => ⟨info, hInfo, h⟩) (fun h => ⟨info, hInfo, h⟩)
  · rintro (⟨info, hInfo, _⟩ | ⟨info, hInfo, _⟩)
    · exact ⟨info, hInfo⟩
    · exact ⟨info, hInfo⟩

/-- At least the configured numbers of servers and workers are registered. -/
def Configured (config : ClusterConfig) (m : NodeManager) : Prop :=
  config.serverNum.toNat ≤ (m.registered .server).card ∧
    config.workerNum.toNat ≤ (m.registered .worker).card

end NodeManager

structure ReadySession where
  manager : NodeManager
  ticks : List NodeManager

namespace ReadySession

def new (config : ClusterConfig) : ReadySession := ⟨NodeManager.new.initNodeNum config, []⟩

def step (s : ReadySession) (label : ManagerLabel) : Option ReadySession :=
  (s.manager.step label).map fun manager =>
    { manager := manager
      ticks := match label with
        | .updateClusterState _ _ => s.ticks ++ [s.manager]
        | _ => s.ticks }

/-- No finish messages, no timeouts, and heartbeats of registered nodes only. A node that
registers before the cluster is ready finds a free place of its role. -/
def orderly (config : ClusterConfig) (s : ReadySession) : ManagerLabel → Prop
  | .nextRankId message =>
    s.manager.isClusterReady = true ∨ message.nodeId ∈ s.manager.nodesInfo ∨
      (message.role = .server → (s.manager.registered .server).card < config.serverNum.toNat) ∧
      (message.role = .worker → (s.manager.registered .worker).card < config.workerNum.toNat)
  | .updateHeartbeat _ nodeId => nodeId ∈ s.manager.nodesInfo
  | .updateNodeFinishState _ => True
  | .updateClusterState heartbeatTimeout now => s.manager.timedOut heartbeatTimeout now = ∅
  | .addFinishNode _ => False
  | .checkClusterTimeout => False

instance (config : ClusterConfig) (s : ReadySession) :
    (label : ManagerLabel) → Decidable (s.orderly config label)
  | .nextRankId message => inferInstanceAs (Decidable (_ ∨ message.nodeId ∈ _ ∨ (_ ∧ _)))
  | .updateHeartbeat _ nodeId => inferInstanceAs (Decidable (nodeId ∈ s.manager.nodesInfo))
  | .updateNodeFinishState _ => isTrue trivial
  | .updateClusterState _ _ => inferInstanceAs (Decidable (_ = ∅))
  | .addFinishNode _ => isFalse id
  | .checkClusterTimeout => isFalse id

/-- Until the cluster is ready, no role has more nodes than configured. -/
structure Filling (config : ClusterConfig) (s : ReadySession) : Prop where
  total : s.manager.totalNodeNum.toNat = config.serverNum.toNat + config.workerNum.toNat
  current : s.manager.currentNodeNum = -1
  finish : s.manager.finishNodesId = ∅
  heard : ∀ id ∈ s.manager.heartbeats, id ∈ s.manager.nodesInfo
  roles : ∀ id info, s.manager.nodesInfo.lookup id = some info →
    info.nodeRole = .server ∨ info.nodeRole = .worker
  room : s.manager.isClusterReady = false →
    (s.manager.registered .server).card ≤ config.serverNum.toNat ∧
      (s.manager.registered .worker).card ≤ config.workerNum.toNat
  ready : s.manager.isClusterReady = true ↔ ∃ m ∈ s.ticks, m.Configured config

variable {config : ClusterConfig} {s : ReadySession}

theorem Filling.new (hTotal : config.serverNum.toNat + config.workerNum.toNat < 2 ^ 32) :
    Filling config (.new config) where
  total := by
    change (config.serverNum + config.workerNum).toNat = _
    rw [UInt32.toNat_add, Nat.mod_eq_of_lt hTotal]
  current := rfl
  finish := rfl
  heard id hId := absurd hId (AList.notMem_empty id)
  roles id info hInfo := by cases hInfo
  room _ := ⟨Nat.zero_le _, Nat.zero_le _⟩
  ready := by
    constructor
    · intro hReady
      cases hReady
    · rintro ⟨m, hMem, _⟩
      cases hMem

theorem Filling.same (h : Filling config s) {m : NodeManager}
    (hSame : NodeManager.SameRegistry s.manager m)
    (hTotal : m.totalNodeNum = s.manager.totalNodeNum)
    (hCurrent : m.currentNodeNum = s.manager.currentNodeNum)
    (hFinish : m.finishNodesId = s.manager.finishNodesId)
    (hReady : m.isClusterReady = s.manager.isClusterReady) : Filling config ⟨m, s.ticks⟩ where
  total := by rw [hTotal, h.total]
  current := by rw [hCurrent, h.current]
  finish := by rw [hFinish, h.finish]
  heard := hSame.keeps_heard h.heard
  roles id info hInfo := by
    rw [hSame.nodes] at hInfo
    exact h.roles id info hInfo
  room hNot := by
    rw [hReady] at hNot
    rw [hSame.registered_eq, hSame.registered_eq]
    exact h.room hNot
  ready := by
    rw [hReady]
    exact h.ready

theorem Filling.register (h : Filling config s) {message : RegisterMessage}
    (hOk : s.orderly config (.nextRankId message)) :
    Filling config ⟨(s.manager.nextRankId message).2, s.ticks⟩ := by
  rcases NodeManager.nextRankId_cases s.manager message with hSame | ⟨info, hNew⟩
  · rw [hSame]
    exact h
  have hCard := NodeManager.card_registered_insert hNew.fresh hNew.nodesInfo
  refine ⟨?_, ?_, ?_, hNew.keeps_heard h.heard, ?_, ?_, ?_⟩
  · rw [hNew.total, h.total]
  · rw [hNew.current, h.current]
  · rw [hNew.finishNodes, h.finish]
  · intro id info' hInfo'
    rw [hNew.nodesInfo, Table.lookup_insert] at hInfo'
    split at hInfo'
    · cases hInfo'
      exact hNew.kind
    · exact h.roles id info' hInfo'
  · intro hNot
    rw [hNew.ready] at hNot
    obtain ⟨hServers, hWorkers⟩ := h.room hNot
    obtain ⟨hServerPlace, hWorkerPlace⟩ : (message.role = .server →
          (s.manager.registered .server).card < config.serverNum.toNat) ∧
        (message.role = .worker →
          (s.manager.registered .worker).card < config.workerNum.toNat) := by
      rcases hOk with hReady | hKnown | hPlaces
      · rw [hNot] at hReady
        cases hReady
      · exact absurd hKnown hNew.not_mem
      · exact hPlaces
    rw [hCard, hCard, hNew.role]
    constructor
    · split
      · next hServer => exact hServerPlace hServer
      · exact hServers
    · split
      · next hWorker => exact hWorkerPlace hWorker
      · exact hWorkers
  · rw [hNew.ready]
    exact h.ready

/-- At a call of `UpdateClusterState` the two numbers are compared one by one, in effect. -/
theorem Filling.update (h : Filling config s) {heartbeatTimeout : UInt32} {now : Int}
    (hQuiet : s.manager.timedOut heartbeatTimeout now = ∅) :
    Filling config ⟨s.manager.updateClusterState heartbeatTimeout now, s.ticks ++ [s.manager]⟩ := by
  have hUpdate := NodeManager.clusterUpdate s.manager heartbeatTimeout now
  have hSame := NodeManager.SameRegistry.updateClusterState h.heard heartbeatTimeout now
  have hNoFinish : (s.manager.updateClusterState heartbeatTimeout now).finishNodesId = ∅ := by
    rw [hUpdate.finishNodes, h.finish, hQuiet, Finset.empty_union]
  have hTick : (s.manager.updateClusterState heartbeatTimeout now).isClusterReady = true ↔
      s.manager.isClusterReady = true ∨ s.manager.Configured config := by
    rw [hUpdate.ready, hNoFinish, Finset.card_empty, h.current, hSame.nodes_eq,
      NodeManager.card_nodes_eq_add h.roles, h.total]
    cases hReady : s.manager.isClusterReady with
    | true => simp
    | false =>
      obtain ⟨hServers, hWorkers⟩ := h.room hReady
      rw [NodeManager.Configured]
      simp only [Bool.false_eq_true, false_or]
      omega
  refine ⟨?_, ?_, hNoFinish, hSame.keeps_heard h.heard, ?_, ?_, ?_⟩
  · rw [hUpdate.total, h.total]
  · rw [hUpdate.current, h.current]
  · intro id info hInfo
    rw [hSame.nodes] at hInfo
    exact h.roles id info hInfo
  · intro hNot
    rw [hSame.registered_eq, hSame.registered_eq]
    apply h.room
    rw [← Bool.not_eq_true] at hNot ⊢
    exact fun hReady => hNot (hTick.mpr (.inl hReady))
  · rw [hTick, h.ready]
    simp only [List.mem_append, List.mem_singleton, or_and_right, exists_or, exists_eq_left]

theorem Filling.step (h : Filling config s) {label : ManagerLabel} (hOk : s.orderly config label)
    {s' : ReadySession} (hStep : s.step label = some s') : Filling config s' := by
  cases label with
  | nextRankId message =>
    cases hStep
    exact h.register hOk
  | updateHeartbeat now nodeId =>
    cases hStep
    exact h.same (.updateHeartbeat hOk now) rfl rfl rfl rfl
  | updateNodeFinishState nodeId =>
    cases hStep
    exact h.same ⟨fun _ => rfl, rfl, rfl, fun _ => .inl⟩ rfl rfl rfl rfl
  | updateClusterState heartbeatTimeout now =>
    cases hStep
    exact h.update hOk
  | addFinishNode message => exact hOk.elim
  | checkClusterTimeout => exact hOk.elim

end ReadySession

/-- In every run without finish messages and timeouts in which no role gets more nodes than
configured before the cluster is ready, the flag is set exactly when a call of
`UpdateClusterState` has found the configured numbers of servers and workers. -/
theorem ready_iff_configured (config : ClusterConfig)
    (hTotal : config.serverNum.toNat + config.workerNum.toNat < 2 ^ 32)
    (labels : List ManagerLabel) (s : ReadySession)
    (hRun : exec (restrict (ReadySession.orderly config) ReadySession.step) (.new config) labels =
      some s) :
    s.manager.isClusterReady = true ↔ ∃ m ∈ s.ticks, m.Configured config := by
  have hFilling : s.Filling config := by
    refine exec_invariant (P := ReadySession.Filling config) ?_ (.new hTotal) hRun
    intro s l s' h hStep
    obtain ⟨hOk, hStep⟩ := restrict_eq_some.mp hStep
    exact h.step hOk hStep
  exact hFilling.ready

theorem ready_iff_configured_pair :
    ∃ s, exec (restrict (ReadySession.orderly ⟨1, 1⟩) ReadySession.step) (.new ⟨1, 1⟩)
        [.nextRankId ⟨"10.0.0.1", 80, "a", .server⟩, .updateHeartbeat 1 "a",
          .updateClusterState 30 2, .nextRankId ⟨"", 0, "b", .worker⟩,
          .updateClusterState 30 3] = some s ∧
      s.manager.isClusterReady = true ∧ ∃ m ∈ s.ticks, m.Configured ⟨1, 1⟩ := by
  obtain ⟨s, hRun, hReady⟩ : ∃ s,
      exec (restrict (ReadySession.orderly ⟨1, 1⟩) ReadySession.step) (.new ⟨1, 1⟩)
        [.nextRankId ⟨"10.0.0.1", 80, "a", .server⟩, .updateHeartbeat 1 "a",
          .updateClusterState 30 2, .nextRankId ⟨"", 0, "b", .worker⟩,
          .updateClusterState 30 3] = some s ∧
      s.manager.isClusterReady = true := ⟨_, rfl, rfl⟩
  exact ⟨s, hRun, hReady, (ready_iff_configured ⟨1, 1⟩ (by decide) _ s hRun).mp hReady⟩

/-- Two servers register in a cluster of one server and one worker, and the cluster is ready
without a worker. -/
theorem ready_without_worker :
    ∃ s, exec ReadySession.step (.new ⟨1, 1⟩)
        [.nextRankId ⟨"10.0.0.1", 80, "a", .server⟩, .nextRankId ⟨"10.0.0.2", 81, "b", .server⟩,
          .updateClusterState 30 2] = some s ∧
      s.manager.isClusterReady = true ∧ ¬∃ m ∈ s.ticks, m.Configured ⟨1, 1⟩ := by
  refine ⟨_, rfl, rfl, ?_⟩
  rintro ⟨m, hMem, _, hWorkers⟩
  cases List.mem_singleton.mp hMem
  exact absurd hWorkers (by decide)

end PsRpc
