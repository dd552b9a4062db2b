import PsRpc.Library.Lanes
import PsRpc.Scheduler.NodeManager

/-! # Ranks are positions in the order of registration

The registry is compared with the history of the first registrations. The rank of a node is its
position among the nodes of its role in this history, which only grows.
-/

namespace PsRpc

open Execution Lanes

inductive ManagerLabel where
  | nextRankId (message : RegisterMessage)
  | updateHeartbeat (now : Int) (nodeId : String)
  | updateNodeFinishState (nodeId : String)
  | addFinishNode (message : FinishMessage)
  | updateClusterState (heartbeatTimeout : UInt32) (now : Int)
  | checkClusterTimeout
deriving DecidableEq, Repr

namespace NodeManager

def step (m : NodeManager) : ManagerLabel → Option NodeManager
  | .nextRankId message => some (m.nextRankId message).2
  | .updateHeartbeat now nodeId => some (m.updateHeartbeat now nodeId)
  | .updateNodeFinishState nodeId => some (m.updateNodeFinishState nodeId)
  | .addFinishNode message => some (m.addFinishNode message)
  | .updateClusterState heartbeatTimeout now => some (m.updateClusterState heartbeatTimeout now)
  | .checkClusterTimeout => some m.checkClusterTimeout

def registeredHeartbeat (m : NodeManager) : ManagerLabel → Prop
  | .updateHeartbeat _ nodeId => nodeId ∈ m.nodesInfo
  | _ => True

instance (m : NodeManager) : (label : ManagerLabel) → Decidable (m.registeredHeartbeat label)
  | .updateHeartbeat _ nodeId => inferInstanceAs (Decidable (nodeId ∈ m.nodesInfo))
  | .nextRankId _ => isTrue trivial
  | .updateNodeFinishState _ => isTrue trivial
  | .addFinishNode _ => isTrue trivial
  | .updateClusterState _ _ => isTrue trivial
  | .checkClusterTimeout => isTrue trivial

def Holds (m : NodeManager) (role : NodeRole) (rank : Nat) (id : String) : Prop :=
  ∃ info, m.nodesInfo.lookup id = some info ∧ info.nodeRole = role ∧ info.rankId = rank

theorem mem_nodesInfo {m : NodeManager} {id : String} :
    id ∈ m.nodesInfo ↔ ∃ info, m.nodesInfo.lookup id = some info := by
  rw [← AList.lookup_isSome, Option.isSome_iff_exists]

theorem holds_insert {m m' : NodeManager} {role : NodeRole} {rank : Nat} {id id' : String}
    {info : NodeInfo} (hNodes : m'.nodesInfo = m.nodesInfo.insert id info) :
    m'.Holds role rank id' ↔
      if id' = id then info.nodeRole = role ∧ info.rankId = rank else m.Holds role rank id' := by
  rw [Holds, hNodes]
  by_cases hId : id' = id
  · subst hId
    rw [if_pos rfl, AList.lookup_insert]
    constructor
    · rintro ⟨info', hInfo', hHeld⟩
      cases hInfo'
      exact hHeld
    · intro hHeld
      exact ⟨info, rfl, hHeld⟩
  · rw [if_neg hId, AList.lookup_insert_ne hId, Holds]

/-! ## Operations that register nobody -/

structure SameRegistry (m m' : NodeManager) : Prop where
  nodes : ∀ id, m'.nodesInfo.lookup id = m.nodesInfo.lookup id
  server : m'.nextServerRankId = m.nextServerRankId
  worker : m'.nextWorkerRankId = m.nextWorkerRankId
  heard : ∀ id ∈ m'.heartbeats, id ∈ m.heartbeats ∨ id ∈ m.nodesInfo

theorem SameRegistry.refl (m : NodeManager) : SameRegistry m m :=
  ⟨fun _ => rfl, rfl, rfl, fun _ => .inl⟩

theorem SameRegistry.keeps_heard {m m' : NodeManager} (h : SameRegistry m m')
    (hHeard : ∀ id ∈ m.heartbeats, id ∈ m.nodesInfo) : ∀ id ∈ m'.heartbeats, id ∈ m'.nodesInfo := by
  intro id hId
  rw [mem_nodesInfo, h.nodes, ← mem_nodesInfo]
  rcases h.heard id hId with hOld | hNode
  · exact hHeard id hOld
  · exact hNode

theorem SameRegistry.updateHeartbeat {m : NodeManager} {nodeId : String}
    (hNode : nodeId ∈ m.nodesInfo) (now : Int) :
    SameRegistry m (m.updateHeartbeat now nodeId) where
  nodes id := by
    obtain ⟨info, hInfo⟩ := mem_nodesInfo.mp hNode
    exact Table.subscript_mem hInfo id
  server := rfl
  worker := rfl
  heard id hId := by
    rcases AList.mem_insert _ |>.mp hId with rfl | hOld
    · exact .inr hNode
    · exact .inl hOld

theorem SameRegistry.sweep {m : NodeManager} (heartbeatTimeout : UInt32) (now : Int)
    (heartbeats : List (Σ _ : String, Int)) {m' : NodeManager} (hSame : SameRegistry m m')
    (hHeard : ∀ heartbeat ∈ heartbeats, heartbeat.1 ∈ m.nodesInfo) :
    SameRegistry m (heartbeats.foldl (checkHeartbeat heartbeatTimeout now) m') := by
  induction heartbeats generalizing m' with
  | nil => exact hSame
  | cons heartbeat heartbeats ih =>
    rw [List.forall_mem_cons] at hHeard
    refine ih ?_ hHeard.2
    rw [checkHeartbeat]
    split
    · obtain ⟨info, hInfo⟩ := mem_nodesInfo.mp hHeard.1
      refine ⟨?_, hSame.server, hSame.worker, hSame.heard⟩
      intro id
      rw [← hSame.nodes] at hInfo
      exact (Table.subscript_mem hInfo id).trans (hSame.nodes id)
    · exact hSame

theorem SameRegistry.updateClusterState {m : NodeManager}
    (hHeard : ∀ id ∈ m.heartbeats, id ∈ m.nodesInfo) (heartbeatTimeout : UInt32) (now : Int) :
    SameRegistry m (m.updateClusterState heartbeatTimeout now) := by
  have hSweep : SameRegistry m (m.heartbeats.entries.foldl (checkHeartbeat heartbeatTimeout now)
      { m with timeoutNodesInfo := ∅ }) := by
    refine .sweep heartbeatTimeout now _ ⟨fun _ => rfl, rfl, rfl, fun _ => .inl⟩ ?_
    intro heartbeat hEntry
    exact hHeard _ (List.mem_map_of_mem hEntry)
  have hTimeout : SameRegistry m (m.updateTimeoutState heartbeatTimeout now) := by
    rw [updateTimeoutState]
    split
    · exact ⟨hSweep.nodes, hSweep.server, hSweep.worker, hSweep.heard⟩
    · exact hSweep
  have hFinish : SameRegistry m (m.updateTimeoutState heartbeatTimeout now).updateFinishState := by
    rw [updateFinishState]
    split
    · exact ⟨hTimeout.nodes, hTimeout.server, hTimeout.worker, hTimeout.heard⟩
    · exact hTimeout
  rw [NodeManager.updateClusterState, updateReadyState]
  split
  · exact ⟨hFinish.nodes, hFinish.server, hFinish.worker, hFinish.heard⟩
  · exact hFinish

theorem SameRegistry.checkClusterTimeout (m : NodeManager) :
    SameRegistry m m.checkClusterTimeout := by
  rw [NodeManager.checkClusterTimeout]
  split
  · exact ⟨fun _ => rfl, rfl, rfl, fun _ => .inl⟩
  · exact .refl m

/-! ## Registrations -/

theorem nextRankId_of_known {m : NodeManager} {message : RegisterMessage} {info : NodeInfo}
    (hKnown : m.nodesInfo.lookup message.nodeId = some info) :
    m.nextRankId message = ((info.rankId : Int), m) := by
  rw [nextRankId, hKnown]

theorem nextRankId_of_other {m : NodeManager} {message : RegisterMessage}
    (hNew : m.nodesInfo.lookup message.nodeId = none) (hServer : message.role ≠ .server)
    (hWorker : message.role ≠ .worker) : m.nextRankId message = (-1, m) := by
  rw [nextRankId, hNew]
  exact (if_neg hServer).trans (if_neg hWorker)

theorem nextRankId_lt {m : NodeManager} {message : RegisterMessage}
    (hNew : m.nodesInfo.lookup message.nodeId = none)
    (hKind : message.role = .server ∨ message.role = .worker)
    (hServers : m.nextServerRankId + 1 < 2 ^ 31) (hWorkers : m.nextWorkerRankId + 1 < 2 ^ 31) :
    (m.nextRankId message).1 < 2 ^ 31 := by
  rw [nextRankId, hNew]
  rcases hKind with hServer | hWorker
  · rw [hServer]
    exact hServers
  · rw [hWorker]
    exact hWorkers

/-- What the history of first registrations says about the registry. -/
structure Records (m : NodeManager) (history : List (NodeRole × String)) : Prop where
  unique : (history.map Prod.snd).Nodup
  roles : ∀ entry ∈ history, entry.1 = .server ∨ entry.1 = .worker
  server : m.nextServerRankId + 1 = (lane Prod.fst Prod.snd .server history).length
  worker : m.nextWorkerRankId + 1 = (lane Prod.fst Prod.snd .worker history).length
  ranks : ∀ role rank id,
    m.Holds role rank id ↔ kth (lane Prod.fst Prod.snd role history) (rank + 1) = some id
  heard : ∀ id ∈ m.heartbeats, id ∈ m.nodesInfo

namespace Records

variable {m m' : NodeManager} {history : List (NodeRole × String)}

theorem new (config : ClusterConfig) : Records (NodeManager.new.initNodeNum config) [] where
  unique := List.nodup_nil
  roles := nofun
  server := rfl
  worker := rfl
  ranks role rank id := by
    constructor
    · rintro ⟨info, hInfo, _⟩
      cases hInfo
    · nofun
  heard _ hId := absurd hId (AList.notMem_empty _)

theorem same (h : Records m history) (hSame : SameRegistry m m') : Records m' history where
  unique := h.unique
  roles := h.roles
  server := by rw [hSame.server, h.server]
  worker := by rw [hSame.worker, h.worker]
  ranks role rank id := by
    rw [← h.ranks]
    simp only [Holds, hSame.nodes]
  heard := hSame.keeps_heard h.heard

theorem lookup_of_mem (h : Records m history) {role : NodeRole} {id : String}
    (hEntry : (role, id) ∈ history) : ∃ info, m.nodesInfo.lookup id = some info := by
  have hLane : id ∈ lane Prod.fst Prod.snd role history := mem_lane.mpr ⟨_, hEntry, rfl, rfl⟩
  obtain ⟨rank, hRank⟩ := List.mem_iff_getElem?.mp hLane
  obtain ⟨info, hInfo, _⟩ := (h.ranks role rank id).mpr hRank
  exact ⟨info, hInfo⟩

theorem add (h : Records m history) {role : NodeRole} {id : String} {info : NodeInfo}
    (hNew : m.nodesInfo.lookup id = none) (hKind : role = .server ∨ role = .worker)
    (hRole : info.nodeRole = role)
    (hRank : info.rankId = (lane Prod.fst Prod.snd role history).length)
    (hNodes : m'.nodesInfo = m.nodesInfo.insert id info) (hHeard : m'.heartbeats = m.heartbeats)
    (hServer : m'.nextServerRankId + 1 =
      (lane Prod.fst Prod.snd .server (history ++ [(role, id)])).length)
    (hWorker : m'.nextWorkerRankId + 1 =
      (lane Prod.fst Prod.snd .worker (history ++ [(role, id)])).length) :
    Records m' (history ++ [(role, id)]) where
  unique := by
    have hFresh : id ∉ history.map Prod.snd := by
      intro hMem
      obtain ⟨⟨role', id'⟩, hEntry, rfl⟩ := List.mem_map.mp hMem
      obtain ⟨info', hInfo'⟩ := h.lookup_of_mem hEntry
      rw [hNew] at hInfo'
      cases hInfo'
    exact nodup_map_snoc h.unique hFresh
  roles entry hEntry := by
    rcases List.mem_append.mp hEntry with hOld | hLast
    · exact h.roles entry hOld
    · rw [List.mem_singleton.mp hLast]
      exact hKind
  server := hServer
  worker := hWorker
  ranks role' rank id' := by
    have hNobody : ¬ m.Holds role' rank id := by
      rintro ⟨info', hInfo', _⟩
      rw [hNew] at hInfo'
      cases hInfo'
    rw [holds_insert hNodes, kth_lane_snoc]
    by_cases hPlace : (role', rank + 1) =
        (role, (lane Prod.fst Prod.snd role history).length + 1)
    · rw [if_pos hPlace, Option.some.injEq]
      obtain ⟨rfl, hSucc⟩ := Prod.mk.inj hPlace
      by_cases hId : id' = id
      · rw [if_pos hId]
        exact ⟨fun _ => hId.symm, fun _ => ⟨hRole, by omega⟩⟩
      · -- nobody held the rank before
        rw [if_neg hId, h.ranks, hSucc, kth_length_succ]
        exact ⟨nofun, fun hEq => absurd hEq.symm hId⟩
    · rw [if_neg hPlace, ← h.ranks]
      by_cases hId : id' = id
      · rw [if_pos hId, hId]
        constructor
        · rintro ⟨hRole', hRank'⟩
          exact absurd (by rw [← hRole', ← hRank', hRole, hRank]) hPlace
        · intro hHolds
          exact absurd hHolds hNobody
      · rw [if_neg hId]
  heard id' hId := by
    rw [hHeard] at hId
    rw [hNodes, AList.mem_insert]
    exact .inr (h.heard id' hId)

theorem register (h : Records m history) {message : RegisterMessage}
    (hNew : m.nodesInfo.lookup message.nodeId = none)
    (hKind : message.role = .server ∨ message.role = .worker) :
    ∃ info : NodeInfo, (m.nextRankId message).1 = info.rankId ∧
      (m.nextRankId message).2.nodesInfo = m.nodesInfo.insert message.nodeId info ∧
      info.nodeRole = message.role ∧
      (message.role = .server → info.ip = message.ip ∧ info.port = UInt16.ofInt message.port) ∧
      Records (m.nextRankId message).2 (history ++ [(message.role, message.nodeId)]) := by
  have hServerLane := h.server
  have hWorkerLane := h.worker
  rw [NodeManager.nextRankId, hNew]
  rcases hKind with hServer | hWorker
  · simp only [hServer, if_true]
    refine ⟨_, ?_, rfl, rfl, fun _ => ⟨rfl, rfl⟩, ?_⟩
    · dsimp only
      omega
    · refine h.add hNew (.inl rfl) rfl ?_ rfl rfl ?_ ?_
      · dsimp only
        omega
      · rw [length_lane_snoc, if_pos rfl, Nat.cast_add, ← h.server]
        rfl
      · rw [length_lane_snoc, if_neg nofun]
        exact h.worker
  · simp only [hWorker, if_true, reduceCtorEq, if_false]
    refine ⟨_, ?_, rfl, rfl, nofun, ?_⟩
    · dsimp only
      omega
    · refine h.add hNew (.inr rfl) rfl ?_ rfl rfl ?_ ?_
      · dsimp only
        omega
      · rw [length_lane_snoc, if_neg nofun]
        exact h.server
      · rw [length_lane_snoc, if_pos rfl, Nat.cast_add, ← h.worker]
        rfl

theorem nextRankId (h : Records m history) (message : RegisterMessage) :
    (∃ history', Records (m.nextRankId message).2 history') ∧
      ∀ id info, m.nodesInfo.lookup id = some info →
        (m.nextRankId message).2.nodesInfo.lookup id = some info := by
  cases hKnown : m.nodesInfo.lookup message.nodeId with
  | some info =>
    rw [nextRankId_of_known hKnown]
    exact ⟨⟨history, h⟩, fun _ _ => id⟩
  | none =>
    by_cases hKind : message.role = .server ∨ message.role = .worker
    · obtain ⟨info, _, hNodes, _, _, hRecords⟩ := h.register hKnown hKind
      refine ⟨⟨_, hRecords⟩, ?_⟩
      intro id info' hInfo'
      rw [hNodes, Table.lookup_insert, if_neg, hInfo']
      rintro rfl
      rw [hKnown] at hInfo'
      cases hInfo'
    · rw [not_or] at hKind
      rw [nextRankId_of_other hKnown hKind.1 hKind.2]
      exact ⟨⟨history, h⟩, fun _ _ => id⟩

theorem step (h : Records m history) {label : ManagerLabel} (hHeard : m.registeredHeartbeat label)
    (hStep : m.step label = some m') :
    (∃ history', Records m' history') ∧
      ∀ id info, m.nodesInfo.lookup id = some info → m'.nodesInfo.lookup id = some info := by
  have hSame : SameRegistry m m' → (∃ history', Records m' history') ∧
      ∀ id info, m.nodesInfo.lookup id = some info → m'.nodesInfo.lookup id = some info := by
    intro hSame
    refine ⟨⟨history, h.same hSame⟩, ?_⟩
    intro id info hInfo
    rw [hSame.nodes, hInfo]
  cases label with
  | nextRankId message =>
    cases hStep
    exact h.nextRankId message
  | updateHeartbeat now nodeId =>
    cases hStep
    exact hSame (.updateHeartbeat hHeard now)
  | updateNodeFinishState nodeId =>
    cases hStep
    exact hSame ⟨fun _ => rfl, rfl, rfl, fun _ => .inl⟩
  | addFinishNode message =>
    cases hStep
    exact hSame ⟨fun _ => rfl, rfl, rfl, fun _ => .inl⟩
  | updateClusterState heartbeatTimeout now =>
    cases hStep
    exact hSame (.updateClusterState h.heard heartbeatTimeout now)
  | checkClusterTimeout =>
    cases hStep
    exact hSame (.checkClusterTimeout m)

theorem run (h : ∃ history, Records m history) {labels : List ManagerLabel}
    (hRun : exec (restrict registeredHeartbeat NodeManager.step) m labels = some m') :
    (∃ history', Records m' history') ∧
      ∀ id info, m.nodesInfo.lookup id = some info → m'.nodesInfo.lookup id = some info := by
  refine exec_invariant (P := fun m' => (∃ history', Records m' history') ∧
    ∀ id info, m.nodesInfo.lookup id = some info → m'.nodesInfo.lookup id = some info) ?_
    ⟨h, fun _ _ => id⟩ hRun
  rintro m₁ label m₂ ⟨⟨history, hRecords⟩, hKept⟩ hStep
  obtain ⟨hHeard, hStep⟩ := restrict_eq_some.mp hStep
  obtain ⟨hNext, hKept'⟩ := hRecords.step hHeard hStep
  exact ⟨hNext, fun id info hInfo => hKept' id info (hKept id info hInfo)⟩

/-- The ranks of a role are the numbers below the number of its nodes, one node for each. -/
theorem contiguous (h : Records m history) (role : NodeRole) :
    ∃ n, (∀ rank id, m.Holds role rank id → rank < n) ∧
      ∀ rank < n, ∃! id, m.Holds role rank id := by
  refine ⟨(lane Prod.fst Prod.snd role history).length, ?_, ?_⟩
  · intro rank id hHolds
    exact (List.getElem?_eq_some_iff.mp ((h.ranks role rank id).mp hHolds)).1
  · intro rank hRank
    obtain ⟨id, hId⟩ : ∃ id, (lane Prod.fst Prod.snd role history)[rank]? = some id :=
      ⟨_, List.getElem?_eq_getElem hRank⟩
    refine ⟨id, (h.ranks role rank id).mpr hId, ?_⟩
    intro id' hHolds
    have hId' := (h.ranks role rank id').mp hHolds
    exact Option.some.inj (hId'.symm.trans hId)

theorem length_lane_le {m' : NodeManager} {history' : List (NodeRole × String)}
    (h : Records m history) (h' : Records m' history')
    (hKept : ∀ id info, m.nodesInfo.lookup id = some info → m'.nodesInfo.lookup id = some info)
    (role : NodeRole) : (lane Prod.fst Prod.snd role history).length ≤
      (lane Prod.fst Prod.snd role history').length := by
  by_contra hMore
  have hRank := Nat.lt_of_not_le hMore
  obtain ⟨info, hInfo, hRole⟩ := (h.ranks role _ _).mpr (List.getElem?_eq_getElem hRank)
  have hHolds := (h'.ranks role _ _).mp ⟨info, hKept _ info hInfo, hRole⟩
  exact absurd (List.getElem?_eq_some_iff.mp hHolds).1 (Nat.lt_irrefl _)

end Records

end NodeManager

/-- After any operations, where heartbeats come from registered nodes only and an `int` holds the
next ranks: the ranks of the servers and those of the workers are `0, …, n - 1`, each held by one
node; a new node gets a rank of its role if it is a server or a worker, and `-1` otherwise; further
operations change no entry, and a repeated registration returns the first rank and changes
nothing. -/
theorem rank_registry (config : ClusterConfig) (labels later : List ManagerLabel)
    (m m' : NodeManager)
    (hRun : exec (restrict NodeManager.registeredHeartbeat NodeManager.step)
      (NodeManager.new.initNodeNum config) labels = some m)
    (hLater : exec (restrict NodeManager.registeredHeartbeat NodeManager.step) m later = some m')
    (hServers : m'.nextServerRankId + 1 < 2 ^ 31) (hWorkers : m'.nextWorkerRankId + 1 < 2 ^ 31) :
    (∀ role, role = .server ∨ role = .worker →
      ∃ n, (∀ rank id, m.Holds role rank id → rank < n) ∧
        ∀ rank < n, ∃! id, m.Holds role rank id) ∧
    (∀ message : RegisterMessage, m.nodesInfo.lookup message.nodeId = none →
      message.role = .server ∨ message.role = .worker →
      ∃ rank : Nat, (m.nextRankId message).1 = rank ∧ rank < 2 ^ 31 ∧
        (m.nextRankId message).2.Holds message.role rank message.nodeId) ∧
    (∀ message : RegisterMessage, m.nodesInfo.lookup message.nodeId = none →
      message.role ≠ .server → message.role ≠ .worker → m.nextRankId message = (-1, m)) ∧
    ∀ id info, m.nodesInfo.lookup id = some info →
      m'.nodesInfo.lookup id = some info ∧
        ∀ message : RegisterMessage, message.nodeId = id →
          m'.nextRankId message = ((info.rankId : Int), m') := by
  obtain ⟨⟨history, hRecords⟩, _⟩ := NodeManager.Records.run ⟨[], .new config⟩ hRun
  obtain ⟨⟨history', hRecords'⟩, hKept⟩ := NodeManager.Records.run ⟨history, hRecords⟩ hLater
  refine ⟨fun role _ => hRecords.contiguous role, ?_, ?_, ?_⟩
  · intro message hNew hKind
    obtain ⟨info, hRank, hNodes, hRole, _⟩ := hRecords.register hNew hKind
    have hServerLane := hRecords.length_lane_le hRecords' hKept .server
    have hWorkerLane := hRecords.length_lane_le hRecords' hKept .worker
    have hServer := hRecords.server
    have hServer' := hRecords'.server
    have hWorker := hRecords.worker
    have hWorker' := hRecords'.worker
    have hLt := NodeManager.nextRankId_lt hNew hKind (by omega) (by omega)
    rw [hRank] at hLt
    refine ⟨info.rankId, hRank, by omega, info, ?_, hRole, rfl⟩
    rw [hNodes, AList.lookup_insert]
  · intro message hNew hServer hWorker
    exact NodeManager.nextRankId_of_other hNew hServer hWorker
  · intro id info hInfo
    refine ⟨hKept id info hInfo, ?_⟩
    rintro message rfl
    exact NodeManager.nextRankId_of_known (hKept _ info hInfo)

/-- Two servers and a worker; the second server registers again, as a worker. -/
theorem rank_registry_three_nodes :
    ∃ m m',
      exec (restrict NodeManager.registeredHeartbeat NodeManager.step)
        (NodeManager.new.initNodeNum ⟨2, 1⟩)
        [.nextRankId ⟨"10.0.0.1", 80, "a", .server⟩, .nextRankId ⟨"10.0.0.2", 81, "b", .worker⟩,
          .nextRankId ⟨"10.0.0.3", 82, "c", .server⟩, .updateHeartbeat 5 "c"] = some m ∧
      exec (restrict NodeManager.registeredHeartbeat NodeManager.step) m
        [.addFinishNode ⟨"b"⟩, .updateClusterState 30 40] = some m' ∧
      m.nodesInfo.lookup "c" = some ⟨"10.0.0.3", 82, "c", .server, 1⟩ ∧
      m'.nextRankId ⟨"10.0.0.3", 82, "c", .worker⟩ = (1, m') := by
  obtain ⟨m, m', hRun, hLater, hInfo, hServers, hWorkers⟩ : ∃ m m',
      exec (restrict NodeManager.registeredHeartbeat NodeManager.step)
        (NodeManager.new.initNodeNum ⟨2, 1⟩)
        [.nextRankId ⟨"10.0.0.1", 80, "a", .server⟩, .nextRankId ⟨"10.0.0.2", 81, "b", .worker⟩,
          .nextRankId ⟨"10.0.0.3", 82, "c", .server⟩, .updateHeartbeat 5 "c"] = some m ∧
      exec (restrict NodeManager.registeredHeartbeat NodeManager.step) m
        [.addFinishNode ⟨"b"⟩, .updateClusterState 30 40] = some m' ∧
      m.nodesInfo.lookup "c" = some ⟨"10.0.0.3", 82, "c", .server, 1⟩ ∧
      m'.nextServerRankId = 1 ∧ m'.nextWorkerRankId = 0 :=
    ⟨_, _, rfl, rfl, rfl, rfl, rfl⟩
  obtain ⟨_, _, _, hKept⟩ :=
    rank_registry _ _ _ m m' hRun hLater (by rw [hServers]; decide) (by rw [hWorkers]; decide)
  exact ⟨m, m', hRun, hLater, hInfo, (hKept "c" _ hInfo).2 _ rfl⟩

end PsRpc
