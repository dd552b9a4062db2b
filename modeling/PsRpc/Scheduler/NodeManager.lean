import Mathlib.Data.Finset.Card
import PsRpc.Cluster.Meta
import PsRpc.Library.Execution
import PsRpc.Library.Table

/-! # `NodeManager` and the handlers of the scheduler

The registry of the scheduler: who has registered with which rank, when each node was heard of
last, who has finished. `nodes_info_` is read through `operator[]` in two places, and each of
them makes an entry for an id that has none.
-/

namespace PsRpc

open Execution

/-- The rank counters are unbounded here; they are `int` in the source. -/
structure NodeInfo where
  ip : String
  port : UInt16
  nodeId : String
  nodeRole : NodeRole
  rankId : Nat
deriving DecidableEq, Repr

def NodeInfo.new : NodeInfo := ⟨"", 0, "", .scheduler, 0⟩

structure RegisterMessage where
  ip : String
  port : Int
  nodeId : String
  role : NodeRole
deriving DecidableEq, Repr

structure RegisterRespMessage where
  nodeId : String
  rankId : Int
deriving DecidableEq, Repr

structure HeartbeatMessage where
  nodeId : String
  isNodeFinish : Bool
deriving DecidableEq, Repr

/-- The four entries of `node_attribute`. -/
structure HeartbeatRespMessage where
  isClusterReady : Bool
  isClusterFinish : Bool
  isClusterTimeout : Bool
  isNodeTimeout : Bool
deriving DecidableEq, Repr

structure FinishMessage where
  nodeId : String
deriving DecidableEq, Repr

structure ServersMeta where
  rankId : Int
  ip : String
  port : Int
deriving DecidableEq, Repr

/-- `heartbeats` holds the seconds of each `timeval`. -/
structure NodeManager where
  isClusterReady : Bool
  isClusterFinish : Bool
  isClusterTimeout : Bool
  isNodeTimeout : Bool
  totalNodeNum : UInt32
  currentNodeNum : Int
  nextWorkerRankId : Int
  nextServerRankId : Int
  nodesInfo : Table String NodeInfo
  heartbeats : Table String Int
  heartbeatsFinishNodes : Finset String
  timeoutNodesInfo : Table String NodeInfo
  finishNodesId : Finset String

namespace NodeManager

def new : NodeManager :=
  ⟨false, false, false, false, 0, -1, -1, -1, ∅, ∅, ∅, ∅, ∅⟩

def initNodeNum (m : NodeManager) (config : ClusterConfig) : NodeManager :=
  { m with totalNodeNum := config.serverNum + config.workerNum }

def nextRankId (m : NodeManager) (message : RegisterMessage) : Int × NodeManager :=
  match m.nodesInfo.lookup message.nodeId with
  | some info => (info.rankId, m)
  | none =>
    if message.role = .server then
      let rankId := m.nextServerRankId + 1
      (rankId,
        { m with
          nextServerRankId := rankId
          nodesInfo := m.nodesInfo.insert message.nodeId
            { NodeInfo.new with
              nodeRole := .server, nodeId := message.nodeId, rankId := rankId.toNat,
              ip := message.ip, port := UInt16.ofInt message.port } })
    else if message.role = .worker then
      let rankId := m.nextWorkerRankId + 1
      (rankId,
        { m with
          nextWorkerRankId := rankId
          nodesInfo := m.nodesInfo.insert message.nodeId
            { NodeInfo.new with
              nodeRole := .worker, nodeId := message.nodeId, rankId := rankId.toNat } })
    else (-1, m)

def updateHeartbeat (m : NodeManager) (now : Int) (nodeId : String) : NodeManager :=
  { m with
    nodesInfo := m.nodesInfo.subscript nodeId .new
    heartbeats := m.heartbeats.insert nodeId now }

def updateNodeFinishState (m : NodeManager) (nodeId : String) : NodeManager :=
  { m with heartbeatsFinishNodes := insert nodeId m.heartbeatsFinishNodes }

def checkNodesFinishState (m : NodeManager) : Bool :=
  m.heartbeatsFinishNodes.card = m.nodesInfo.keys.length

def fetchServersMeta (m : NodeManager) : List ServersMeta :=
  m.nodesInfo.entries.filterMap fun entry =>
    if entry.2.nodeRole = .server then some ⟨entry.2.rankId, entry.2.ip, entry.2.port.toNat⟩
    else none

def checkHeartbeat (heartbeatTimeout : UInt32) (now : Int) (m : NodeManager)
    (heartbeat : Σ _ : String, Int) : NodeManager :=
  if heartbeat.2 + heartbeatTimeout.toNat < now then
    { m with
      nodesInfo := m.nodesInfo.subscript heartbeat.1 .new
      timeoutNodesInfo :=
        m.timeoutNodesInfo.insert heartbeat.1 (m.nodesInfo.getD heartbeat.1 .new) }
  else m

def updateTimeoutState (m : NodeManager) (heartbeatTimeout : UInt32) (now : Int) : NodeManager :=
  let swept := m.heartbeats.entries.foldl (checkHeartbeat heartbeatTimeout now)
    { m with timeoutNodesInfo := ∅ }
  if swept.timeoutNodesInfo.keys ≠ [] then
    { swept with
      isClusterTimeout := true
      finishNodesId := swept.finishNodesId ∪ swept.timeoutNodesInfo.keys.toFinset }
  else swept

def updateFinishState (m : NodeManager) : NodeManager :=
  if m.finishNodesId.card = m.totalNodeNum.toNat ∨ (m.finishNodesId.card : Int) = m.currentNodeNum
  then { m with isClusterFinish := true, isClusterReady := true }
  else m

def updateReadyState (m : NodeManager) : NodeManager :=
  if m.nodesInfo.keys.length = m.totalNodeNum.toNat then { m with isClusterReady := true } else m

def updateClusterState (m : NodeManager) (heartbeatTimeout : UInt32) (now : Int) : NodeManager :=
  (m.updateTimeoutState heartbeatTimeout now).updateFinishState.updateReadyState

def checkClusterTimeout (m : NodeManager) : NodeManager :=
  if m.totalNodeNum.toNat ≠ m.nodesInfo.keys.length then
    { m with currentNodeNum := m.nodesInfo.keys.length, isClusterTimeout := true }
  else m

def addFinishNode (m : NodeManager) (message : FinishMessage) : NodeManager :=
  { m with finishNodesId := insert message.nodeId m.finishNodesId }

end NodeManager

/-! ## The handlers -/

structure SchedulerNode where
  nodeManager : NodeManager
  isReady : Bool
  isFinish : Bool

namespace SchedulerNode

def new (config : ClusterConfig) : SchedulerNode :=
  ⟨NodeManager.new.initNodeNum config, false, false⟩

def processHeartbeat (s : SchedulerNode) (now : Int) (message : HeartbeatMessage) :
    HeartbeatRespMessage × SchedulerNode :=
  let heard := s.nodeManager.updateHeartbeat now message.nodeId
  let manager := if message.isNodeFinish then heard.updateNodeFinishState message.nodeId else heard
  (⟨manager.isClusterReady, manager.isClusterFinish, manager.isClusterTimeout,
      manager.isNodeTimeout⟩,
    { s with
      nodeManager := manager
      isFinish := s.isFinish || (message.isNodeFinish && manager.checkNodesFinishState) })

def processRegister (s : SchedulerNode) (now : Int) (message : RegisterMessage) :
    Except Fault RegisterRespMessage × SchedulerNode :=
  let next := s.nodeManager.nextRankId message
  if next.1 < 0 then
    (.error (.exception "The rank id is wrong!"), { s with nodeManager := next.2 })
  else
    (.ok ⟨message.nodeId, next.1⟩,
      { s with nodeManager := next.2.updateHeartbeat now message.nodeId })

/-- The response is the message itself. -/
def processFinish (s : SchedulerNode) (message : FinishMessage) : FinishMessage × SchedulerNode :=
  (message, { s with nodeManager := s.nodeManager.addFinishNode message })

def processFetchServers (s : SchedulerNode) : List ServersMeta × SchedulerNode :=
  (s.nodeManager.fetchServersMeta, s)

/-- The part of a turn of the update thread before it sleeps; `elapsed` says that the time for
the cluster to become available is over. -/
def checkAvailable (s : SchedulerNode) (elapsed : Bool) : SchedulerNode :=
  if ¬s.nodeManager.isClusterReady ∧ elapsed then
    { s with nodeManager := s.nodeManager.checkClusterTimeout }
  else s

/-- The part of a turn of the update thread after it has slept. -/
def updateState (s : SchedulerNode) (heartbeatTimeout : UInt32) (now : Int) : SchedulerNode :=
  let manager := s.nodeManager.updateClusterState heartbeatTimeout now
  ⟨manager, s.isReady || manager.isClusterReady, s.isFinish || manager.isClusterFinish⟩

end SchedulerNode

end PsRpc
