import PsRpc.Scheduler.RankRegistry

/-! # What a heartbeat does to the registry -/

namespace PsRpc

open Execution

namespace SchedulerNode

theorem processHeartbeat_lookup (s : SchedulerNode) (now : Int) (message : HeartbeatMessage)
    (id : String) :
    (s.processHeartbeat now message).2.nodeManager.nodesInfo.lookup id =
      if id = message.nodeId then some (s.nodeManager.nodesInfo.getD message.nodeId .new)
      else s.nodeManager.nodesInfo.lookup id := by
  have hNodes : (s.processHeartbeat now message).2.nodeManager.nodesInfo =
      s.nodeManager.nodesInfo.subscript message.nodeId .new := by
    rw [processHeartbeat]
    dsimp only
    split <;> rfl
  rw [hNodes, Table.lookup_subscript]

/-- After the heartbeat of a node that has not registered, its registration gives it the rank 0
whatever its role is, and leaves it in the registry as a scheduler. -/
theorem nextRankId_of_stray (s : SchedulerNode) (now : Int) {message : HeartbeatMessage}
    (hStray : s.nodeManager.nodesInfo.lookup message.nodeId = none) {registration : RegisterMessage}
    (hId : registration.nodeId = message.nodeId) :
    (s.processHeartbeat now message).2.nodeManager.nextRankId registration =
      (0, (s.processHeartbeat now message).2.nodeManager) := by
  have hEntry : (s.processHeartbeat now message).2.nodeManager.nodesInfo.lookup
      registration.nodeId = some .new := by
    rw [processHeartbeat_lookup, if_pos hId, Table.getD, hStray]
    rfl
  exact NodeManager.nextRankId_of_known hEntry

/-- The registry is the same after the heartbeat, and if the node had no entry then its first
registration, after any further operations, gives it a rank of its role that no node holds. -/
structure KeepsMembership (s : SchedulerNode) (now : Int) (message : HeartbeatMessage) : Prop where
  same : ∀ id, (s.processHeartbeat now message).2.nodeManager.nodesInfo.lookup id =
    s.nodeManager.nodesInfo.lookup id
  fresh : message.nodeId ∉ s.nodeManager.nodesInfo → ∀ labels m,
    exec NodeManager.step (s.processHeartbeat now message).2.nodeManager labels = some m →
    (∀ earlier : RegisterMessage, .nextRankId earlier ∈ labels → earlier.nodeId ≠ message.nodeId) →
    ∀ registration : RegisterMessage, registration.nodeId = message.nodeId →
      registration.role = .server ∨ registration.role = .worker →
      ∃ rank : Nat, (m.nextRankId registration).1 = rank ∧
        (m.nextRankId registration).2.Holds registration.role rank registration.nodeId ∧
        ∀ id, ¬m.Holds registration.role rank id

end SchedulerNode

/-- In every state of the scheduler, the heartbeat of a node keeps the membership if and only if
the node has an entry already. -/
theorem heartbeat_keeps_membership_iff (s : SchedulerNode) (now : Int)
    (message : HeartbeatMessage) :
    s.KeepsMembership now message ↔ message.nodeId ∈ s.nodeManager.nodesInfo := by
  constructor
  · rintro ⟨hSame, _⟩
    have hEntry := hSame message.nodeId
    rw [SchedulerNode.processHeartbeat_lookup, if_pos rfl] at hEntry
    exact NodeManager.mem_nodesInfo.mpr ⟨_, hEntry.symm⟩
  · intro hNode
    refine ⟨?_, fun hStray => absurd hNode hStray⟩
    obtain ⟨info, hInfo⟩ := NodeManager.mem_nodesInfo.mp hNode
    intro id
    rw [SchedulerNode.processHeartbeat_lookup, Table.getD, hInfo]
    split
    · next hId => rw [hId, hInfo]; rfl
    · rfl

def oneServer : SchedulerNode :=
  ((SchedulerNode.new ⟨2, 0⟩).processRegister 1 ⟨"10.0.0.1", 80, "a", .server⟩).2

theorem heartbeat_keeps_membership_iff_one_server :
    oneServer.KeepsMembership 2 ⟨"a", false⟩ :=
  (heartbeat_keeps_membership_iff oneServer 2 ⟨"a", false⟩).mpr (by decide)

/-- The heartbeat of `b` comes before its registration: it puts `b` into the registry as a
scheduler with rank 0, and the registration of `b` as a server returns 0, the rank of `a`. -/
theorem stray_heartbeat_shares_rank :
    oneServer.nodeManager.Holds .server 0 "a" ∧
      oneServer.nodeManager.nodesInfo.lookup "b" = none ∧
      (oneServer.processHeartbeat 2 ⟨"b", false⟩).2.nodeManager.nodesInfo.lookup "b" =
        some .new ∧
      ((oneServer.processHeartbeat 2 ⟨"b", false⟩).2.nodeManager.nextRankId
        ⟨"10.0.0.2", 81, "b", .server⟩).1 = 0 := by
  have hStray : oneServer.nodeManager.nodesInfo.lookup "b" = none := rfl
  refine ⟨⟨_, rfl, rfl, rfl⟩, hStray, ?_, ?_⟩
  · rw [SchedulerNode.processHeartbeat_lookup, if_pos rfl, Table.getD, hStray]
    rfl
  · rw [SchedulerNode.nextRankId_of_stray oneServer 2 hStray rfl]

end PsRpc
