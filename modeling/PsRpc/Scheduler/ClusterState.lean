import PsRpc.Scheduler.RankRegistry

/-! # What registrations and `UpdateClusterState` do to the state of the cluster

A registration adds at most one entry to `nodes_info_`. In `UpdateClusterState` the ids
of the nodes that were silent for too long go into `timeout_nodes_info_`, which is emptied first,
and into `finish_nodes_id_`, which only grows. The flags are then set from the sizes of
`finish_nodes_id_` and `nodes_info_`.
-/

namespace PsRpc

namespace NodeManager

def nodes (m : NodeManager) : Finset String := m.nodesInfo.keys.toFinset

theorem mem_nodes {m : NodeManager} {id : String} : id ∈ m.nodes ↔ id ∈ m.nodesInfo :=
  List.mem_toFinset

theorem card_nodes (m : NodeManager) : m.nodes.card = m.nodesInfo.keys.length :=
  List.toFinset_card_of_nodup m.nodesInfo.keys_nodup

theorem SameRegistry.nodes_eq {m m' : NodeManager} (h : SameRegistry m m') :
    m'.nodes = m.nodes := by
  ext id
  simp only [mem_nodes, mem_nodesInfo, h.nodes]

theorem nodes_insert {m m' : NodeManager} {id : String} {info : NodeInfo}
    (hNodes : m'.nodesInfo = m.nodesInfo.insert id info) : m'.nodes = insert id m.nodes := by
  ext id'
  rw [mem_nodes, hNodes, AList.mem_insert, Finset.mem_insert, mem_nodes]

/-- A new node is in the registry, and nothing else has changed but the counters of ranks. -/
structure Registers (m : NodeManager) (message : RegisterMessage) (info : NodeInfo)
    (m' : NodeManager) : Prop where
  fresh : m.nodesInfo.lookup message.nodeId = none
  kind : info.nodeRole = .server ∨ info.nodeRole = .worker
  role : info.nodeRole = message.role
  nodesInfo : m'.nodesInfo = m.nodesInfo.insert message.nodeId info
  heartbeats : m'.heartbeats = m.heartbeats
  total : m'.totalNodeNum = m.totalNodeNum
  current : m'.currentNodeNum = m.currentNodeNum
  finishNodes : m'.finishNodesId = m.finishNodesId
  ready : m'.isClusterReady = m.isClusterReady
  finish : m'.isClusterFinish = m.isClusterFinish

theorem Registers.not_mem {m m' : NodeManager} {message : RegisterMessage} {info : NodeInfo}
    (h : Registers m message info m') : message.nodeId ∉ m.nodesInfo :=
  AList.lookup_eq_none.mp h.fresh

theorem Registers.keeps_heard {m m' : NodeManager} {message : RegisterMessage} {info : NodeInfo}
    (h : Registers m message info m') (hHeard : ∀ id ∈ m.heartbeats, id ∈ m.nodesInfo) :
    ∀ id ∈ m'.heartbeats, id ∈ m'.nodesInfo := by
  intro id hId
  rw [h.heartbeats] at hId
  rw [h.nodesInfo, AList.mem_insert]
  exact .inr (hHeard id hId)

/-- A registration changes nothing, or it adds an entry for a server or a worker. -/
theorem nextRankId_cases (m : NodeManager) (message : RegisterMessage) :
    (m.nextRankId message).2 = m ∨
      ∃ info, Registers m message info (m.nextRankId message).2 := by
  cases hKnown : m.nodesInfo.lookup message.nodeId with
  | some info =>
    rw [nextRankId_of_known hKnown]
    exact .inl rfl
  | none =>
    by_cases hServer : message.role = .server
    · rw [nextRankId, hKnown]
      simp only [hServer, if_true]
      exact .inr ⟨_, hKnown, .inl rfl, hServer.symm, rfl, rfl, rfl, rfl, rfl, rfl, rfl⟩
    · by_cases hWorker : message.role = .worker
      · rw [nextRankId, hKnown]
        simp only [hWorker, if_true, reduceCtorEq, if_false]
        exact .inr ⟨_, hKnown, .inr rfl, hWorker.symm, rfl, rfl, rfl, rfl, rfl, rfl, rfl⟩
      · rw [nextRankId_of_other hKnown hServer hWorker]
        exact .inl rfl

/-! ## The timeouts -/

def timedOut (m : NodeManager) (heartbeatTimeout : UInt32) (now : Int) : Finset String :=
  ((m.heartbeats.entries.filter fun heartbeat =>
    heartbeat.2 + heartbeatTimeout.toNat < now).map Sigma.fst).toFinset

theorem mem_timedOut {m : NodeManager} {heartbeatTimeout : UInt32} {now : Int} {id : String} :
    id ∈ m.timedOut heartbeatTimeout now ↔ ∃ heartbeat ∈ m.heartbeats.entries,
      heartbeat.2 + heartbeatTimeout.toNat < now ∧ heartbeat.1 = id := by
  simp only [timedOut, List.mem_toFinset, List.mem_map, List.mem_filter, decide_eq_true_eq,
    and_assoc]

theorem mem_heartbeats_of_timedOut {m : NodeManager} {heartbeatTimeout : UInt32} {now : Int}
    {id : String} (h : id ∈ m.timedOut heartbeatTimeout now) : id ∈ m.heartbeats := by
  obtain ⟨heartbeat, hEntry, _, rfl⟩ := mem_timedOut.mp h
  exact List.mem_map_of_mem hEntry

theorem sweep_eq (heartbeatTimeout : UInt32) (now : Int) (heartbeats : List (Σ _ : String, Int))
    (m : NodeManager) :
    ∃ nodesInfo timeoutNodesInfo, heartbeats.foldl (checkHeartbeat heartbeatTimeout now) m =
      { m with nodesInfo := nodesInfo, timeoutNodesInfo := timeoutNodesInfo } := by
  induction heartbeats generalizing m with
  | nil => exact ⟨_, _, rfl⟩
  | cons heartbeat heartbeats ih =>
    obtain ⟨nodesInfo, timeoutNodesInfo, hRest⟩ :=
      ih (checkHeartbeat heartbeatTimeout now m heartbeat)
    refine ⟨nodesInfo, timeoutNodesInfo, hRest.trans ?_⟩
    rw [checkHeartbeat]
    split <;> rfl

theorem mem_timeoutNodesInfo_sweep (heartbeatTimeout : UInt32) (now : Int)
    (heartbeats : List (Σ _ : String, Int)) (m : NodeManager) (id : String) :
    id ∈ (heartbeats.foldl (checkHeartbeat heartbeatTimeout now) m).timeoutNodesInfo ↔
      id ∈ m.timeoutNodesInfo ∨ ∃ heartbeat ∈ heartbeats,
        heartbeat.2 + heartbeatTimeout.toNat < now ∧ heartbeat.1 = id := by
  induction heartbeats generalizing m with
  | nil => simp
  | cons heartbeat heartbeats ih =>
    rw [List.foldl_cons, ih, checkHeartbeat]
    split
    · next hOld =>
      rw [AList.mem_insert, @eq_comm _ id heartbeat.1]
      simp only [List.mem_cons, exists_eq_or_imp, hOld, true_and, or_assoc, or_left_comm]
    · next hNew => simp only [List.mem_cons, exists_eq_or_imp, hNew, false_and, false_or]

/-- The state after one `UpdateClusterState`, in terms of the state before it. -/
structure ClusterUpdate (m : NodeManager) (heartbeatTimeout : UInt32) (now : Int)
    (m' : NodeManager) : Prop where
  timeouts : ∀ id, id ∈ m'.timeoutNodesInfo ↔ id ∈ m.timedOut heartbeatTimeout now
  finishNodes : m'.finishNodesId = m.finishNodesId ∪ m.timedOut heartbeatTimeout now
  total : m'.totalNodeNum = m.totalNodeNum
  current : m'.currentNodeNum = m.currentNodeNum
  heartbeats : m'.heartbeats = m.heartbeats
  finish : m'.isClusterFinish = true ↔ m.isClusterFinish = true ∨
    m'.finishNodesId.card = m.totalNodeNum.toNat ∨
      (m'.finishNodesId.card : Int) = m.currentNodeNum
  ready : m'.isClusterReady = true ↔ m.isClusterReady = true ∨
    (m'.finishNodesId.card = m.totalNodeNum.toNat ∨
      (m'.finishNodesId.card : Int) = m.currentNodeNum) ∨
    m'.nodes.card = m.totalNodeNum.toNat

theorem updateTimeoutState_eq (m : NodeManager) (heartbeatTimeout : UInt32) (now : Int) :
    ∃ nodesInfo timeoutNodesInfo isClusterTimeout,
      m.updateTimeoutState heartbeatTimeout now =
        { m with
          nodesInfo := nodesInfo
          timeoutNodesInfo := timeoutNodesInfo
          isClusterTimeout := isClusterTimeout
          finishNodesId := m.finishNodesId ∪ m.timedOut heartbeatTimeout now } ∧
      ∀ id, id ∈ timeoutNodesInfo ↔ id ∈ m.timedOut heartbeatTimeout now := by
  obtain ⟨nodesInfo, timeoutNodesInfo, hSweep⟩ :=
    sweep_eq heartbeatTimeout now m.heartbeats.entries { m with timeoutNodesInfo := ∅ }
  have hTimeouts (id : String) :
      id ∈ timeoutNodesInfo ↔ id ∈ m.timedOut heartbeatTimeout now := by
    have hMem := mem_timeoutNodesInfo_sweep heartbeatTimeout now m.heartbeats.entries
      { m with timeoutNodesInfo := ∅ } id
    rw [hSweep] at hMem
    rw [hMem, mem_timedOut]
    exact or_iff_right (AList.notMem_empty id)
  have hFinset : timeoutNodesInfo.keys.toFinset = m.timedOut heartbeatTimeout now := by
    ext id
    rw [List.mem_toFinset]
    exact hTimeouts id
  rw [updateTimeoutState, hSweep]
  dsimp only
  split
  · exact ⟨nodesInfo, timeoutNodesInfo, true, by rw [hFinset], hTimeouts⟩
  · next hEmpty =>
    refine ⟨nodesInfo, timeoutNodesInfo, m.isClusterTimeout, ?_, hTimeouts⟩
    rw [← hFinset, not_not.mp hEmpty, List.toFinset_nil, Finset.union_empty]

theorem clusterUpdate (m : NodeManager) (heartbeatTimeout : UInt32) (now : Int) :
    ClusterUpdate m heartbeatTimeout now (m.updateClusterState heartbeatTimeout now) := by
  obtain ⟨nodesInfo, timeoutNodesInfo, isClusterTimeout, hTimeout, hTimeouts⟩ :=
    updateTimeoutState_eq m heartbeatTimeout now
  rw [updateClusterState, hTimeout, updateFinishState, updateReadyState]
  split
  · next hFinish =>
    split
    · exact ⟨hTimeouts, rfl, rfl, rfl, rfl, by simp [hFinish], by simp [hFinish]⟩
    · exact ⟨hTimeouts, rfl, rfl, rfl, rfl, by simp [hFinish], by simp [hFinish]⟩
  · next hFinish =>
    split
    · next hReady =>
      exact ⟨hTimeouts, rfl, rfl, rfl, rfl, by simp [hFinish], by simp [hReady, card_nodes]⟩
    · next hReady =>
      refine ⟨hTimeouts, rfl, rfl, rfl, rfl, by simp [hFinish], ?_⟩
      simp [hFinish, hReady, card_nodes]

end NodeManager

end PsRpc
