import PsRpc.Scheduler.ClusterState

/-! # Ranks beyond the configured number of nodes

`NextRankId` counts the registrations of each role and never looks at the configured numbers, while
`ValidateRankId` refuses the ranks from these numbers on.
-/

namespace PsRpc

open Lanes

def ClusterConfig.nodeNum (config : ClusterConfig) : NodeRole → Nat
  | .server => config.serverNum.toNat
  | .worker => config.workerNum.toNat
  | _ => 0

/-- `ValidateRankId` passes, and the rank is in the range that is documented for the role. For a
number of zero the first one does not give the second one. -/
def ValidRank (config : ClusterConfig) (role : NodeRole) (rank : Int) : Prop :=
  validateRankId config role (UInt32.ofInt rank) = true ∧ 0 ≤ rank ∧ rank < config.nodeNum role

def assignRanks : NodeManager → List RegisterMessage → List (NodeRole × Int)
  | _, [] => []
  | m, message :: messages =>
    (message.role, (m.nextRankId message).1) :: assignRanks (m.nextRankId message).2 messages

def registrations (role : NodeRole) (messages : List RegisterMessage) : Nat :=
  messages.countP fun message => message.role = role

theorem registrations_cons (role : NodeRole) (message : RegisterMessage)
    (messages : List RegisterMessage) :
    registrations role (message :: messages) =
      registrations role messages + if message.role = role then 1 else 0 := by
  simp [registrations, List.countP_cons]

namespace NodeManager

def lastRank (m : NodeManager) : NodeRole → Int
  | .server => m.nextServerRankId
  | .worker => m.nextWorkerRankId
  | _ => -1

theorem nextRankId_of_fresh {m : NodeManager} {message : RegisterMessage}
    (hNew : message.nodeId ∉ m.nodesInfo) {role : NodeRole}
    (hKind : role = .server ∨ role = .worker) :
    (message.role = role → (m.nextRankId message).1 = m.lastRank role + 1) ∧
      (m.nextRankId message).2.lastRank role =
        m.lastRank role + (if message.role = role then 1 else 0) ∧
      ∀ id ∈ (m.nextRankId message).2.nodesInfo, id = message.nodeId ∨ id ∈ m.nodesInfo := by
  have hNone := AList.lookup_eq_none.mpr hNew
  cases hRole : message.role with
  | server =>
    rw [nextRankId, hNone]
    simp only [hRole, if_true]
    refine ⟨?_, ?_, fun id hId => (AList.mem_insert _).mp hId⟩
    · rintro rfl
      rfl
    · rcases hKind with rfl | rfl <;> simp [lastRank]
  | worker =>
    rw [nextRankId, hNone]
    simp only [hRole, reduceCtorEq, if_true, if_false]
    refine ⟨?_, ?_, fun id hId => (AList.mem_insert _).mp hId⟩
    · rintro rfl
      rfl
    · rcases hKind with rfl | rfl <;> simp [lastRank]
  | scheduler | unrecognized value =>
    rw [nextRankId_of_other hNone (by simp [hRole]) (by simp [hRole])]
    refine ⟨?_, ?_, fun id hId => .inr hId⟩
    · rintro rfl
      simp at hKind
    · rcases hKind with rfl | rfl <;> simp

theorem lane_assignRanks {role : NodeRole} (hKind : role = .server ∨ role = .worker)
    {messages : List RegisterMessage} {m : NodeManager}
    (hNodup : (messages.map RegisterMessage.nodeId).Nodup)
    (hFresh : ∀ message ∈ messages, message.nodeId ∉ m.nodesInfo) :
    lane Prod.fst Prod.snd role (assignRanks m messages) =
      (List.range (registrations role messages)).map fun k => m.lastRank role + 1 + (k : Nat) := by
  induction messages generalizing m with
  | nil => rfl
  | cons message messages ih =>
    rw [List.map_cons, List.nodup_cons] at hNodup
    rw [List.forall_mem_cons] at hFresh
    obtain ⟨hRank, hLast, hNodes⟩ := nextRankId_of_fresh hFresh.1 hKind
    have hRest : ∀ later ∈ messages, later.nodeId ∉ (m.nextRankId message).2.nodesInfo := by
      intro later hLater hMem
      rcases hNodes later.nodeId hMem with hSame | hOld
      · exact hNodup.1 (hSame ▸ List.mem_map_of_mem hLater)
      · exact hFresh.2 later hLater hOld
    rw [assignRanks, lane_cons, ih hNodup.2 hRest, hLast, registrations_cons]
    by_cases hRole : message.role = role
    · simp only [hRole, if_true, List.range_succ_eq_map, List.map_cons, List.map_map]
      rw [hRank hRole]
      refine congrArg₂ List.cons (by simp) (List.map_congr_left ?_)
      intro k _
      simp only [Function.comp_apply, Nat.cast_succ]
      omega
    · simp [hRole]

end NodeManager

theorem validRank_iff {config : ClusterConfig} {role : NodeRole}
    (hKind : role = .server ∨ role = .worker) (rank : Nat) :
    ValidRank config role rank ↔ rank < config.nodeNum role := by
  constructor
  · rintro ⟨_, _, hLt⟩
    exact_mod_cast hLt
  · intro hLt
    refine ⟨?_, by omega, by exact_mod_cast hLt⟩
    have hNumber {number : UInt32} (hRank : rank < number.toNat) :
        ¬number - 1 < UInt32.ofInt rank := by
      have hMax := number.toNat_lt
      have hOne : (1 : UInt32) ≤ number := by
        rw [UInt32.le_iff_toNat_le]
        exact Nat.lt_of_le_of_lt (Nat.zero_le rank) hRank
      have hOf : (UInt32.ofInt rank).toNat = rank := by
        rw [UInt32.ofInt, UInt32.toNat_ofNat']
        omega
      rw [UInt32.lt_iff_toNat_lt, hOf, UInt32.toNat_sub_of_le _ _ hOne]
      change ¬number.toNat - 1 < rank
      omega
    rcases hKind with rfl | rfl
    · simp [validateRankId, hNumber hLt]
    · simp [validateRankId, hNumber hLt]

/-- The ranks of all new nodes are valid if and only if no role has more registrations than
nodes are configured for it. -/
theorem assigned_ranks_valid_iff (config : ClusterConfig) (messages : List RegisterMessage)
    (hFresh : (messages.map RegisterMessage.nodeId).Nodup) :
    (∀ assigned ∈ assignRanks (NodeManager.new.initNodeNum config) messages,
      assigned.1 = .server ∨ assigned.1 = .worker → ValidRank config assigned.1 assigned.2) ↔
      ∀ role, role = .server ∨ role = .worker →
        registrations role messages ≤ config.nodeNum role := by
  have hLane {role : NodeRole} (hKind : role = .server ∨ role = .worker) :
      lane Prod.fst Prod.snd role (assignRanks (NodeManager.new.initNodeNum config) messages) =
        (List.range (registrations role messages)).map fun k => ((k : Nat) : Int) := by
    rw [NodeManager.lane_assignRanks hKind hFresh fun _ _ => AList.notMem_empty _]
    have hStart : (NodeManager.new.initNodeNum config).lastRank role = -1 := by
      rcases hKind with rfl | rfl <;> rfl
    simp [hStart]
  constructor
  · intro hValid role hKind
    by_contra hMore
    have hMem : ((config.nodeNum role : Nat) : Int) ∈ lane Prod.fst Prod.snd role
        (assignRanks (NodeManager.new.initNodeNum config) messages) := by
      rw [hLane hKind]
      exact List.mem_map.mpr ⟨_, List.mem_range.mpr (Nat.lt_of_not_le hMore), rfl⟩
    obtain ⟨assigned, hAssigned, hRole, hRank⟩ := mem_lane.mp hMem
    have hThis := hValid assigned hAssigned (hRole.symm ▸ hKind)
    rw [hRole, hRank, validRank_iff hKind] at hThis
    exact Nat.lt_irrefl _ hThis
  · rintro hFew ⟨role, rank⟩ hAssigned hKind
    have hMem : rank ∈ lane Prod.fst Prod.snd role
        (assignRanks (NodeManager.new.initNodeNum config) messages) :=
      mem_lane.mpr ⟨_, hAssigned, rfl, rfl⟩
    rw [hLane hKind] at hMem
    obtain ⟨k, hk, rfl⟩ := List.mem_map.mp hMem
    exact (validRank_iff hKind k).mpr ((List.mem_range.mp hk).trans_le (hFew role hKind))

def restartedServer : List RegisterMessage :=
  [⟨"10.0.0.1", 80, "a", .server⟩, ⟨"10.0.0.2", 81, "b", .server⟩,
    ⟨"10.0.0.2", 82, "c", .server⟩]

theorem assigned_ranks_valid_iff_two_servers :
    ((restartedServer.take 2).map RegisterMessage.nodeId).Nodup ∧
    ∀ assigned ∈ assignRanks (NodeManager.new.initNodeNum ⟨2, 0⟩) (restartedServer.take 2),
      assigned.1 = .server ∨ assigned.1 = .worker → ValidRank ⟨2, 0⟩ assigned.1 assigned.2 := by
  have hFresh : ((restartedServer.take 2).map RegisterMessage.nodeId).Nodup := by decide
  refine ⟨hFresh, (assigned_ranks_valid_iff ⟨2, 0⟩ (restartedServer.take 2) hFresh).mpr ?_⟩
  rintro role (rfl | rfl)
  · decide
  · decide

theorem restarted_server_rank_invalid :
    ¬∀ assigned ∈ assignRanks (NodeManager.new.initNodeNum ⟨2, 0⟩) restartedServer,
      assigned.1 = .server ∨ assigned.1 = .worker → ValidRank ⟨2, 0⟩ assigned.1 assigned.2 := by
  intro hValid
  have hThird : (NodeRole.server, (2 : Int)) ∈
      assignRanks (NodeManager.new.initNodeNum ⟨2, 0⟩) restartedServer :=
    .tail _ (.tail _ (.head _))
  exact absurd (hValid _ hThird (.inl rfl)).1 (by decide)

end PsRpc
