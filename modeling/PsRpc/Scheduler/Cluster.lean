import PsRpc.Scheduler.RankRegistry

/-! # The scheduler, its nodes and the messages between them

Servers and workers register, send heartbeats, finish and fetch the addresses of the servers; the
scheduler answers. The messages on their way are taken in any order. A node sends its first
heartbeat after the response to its registration, since `Register` waits for it.
-/

namespace PsRpc

open Execution

/-- `ranked` says that `ProcessRegisterResp` has set the rank. -/
structure ClusterNode where
  nodeInfo : NodeInfo
  ranked : Bool
  nodesAddress : Table (NodeRole × Nat) (String × UInt16)

namespace ClusterNode

/-- `Initialize` of a server, with the address that it is bound to. -/
def newServer (nodeId ip : String) (port : UInt16) : ClusterNode :=
  ⟨{ NodeInfo.new with nodeId := nodeId, nodeRole := .server, ip := ip, port := port }, false, ∅⟩

def newWorker (nodeId : String) : ClusterNode :=
  ⟨{ NodeInfo.new with nodeId := nodeId, nodeRole := .worker }, false, ∅⟩

def registerMessage (node : ClusterNode) : RegisterMessage :=
  ⟨node.nodeInfo.ip, node.nodeInfo.port.toNat, node.nodeInfo.nodeId, node.nodeInfo.nodeRole⟩

def processRegisterResp (node : ClusterNode) (message : RegisterRespMessage) :
    Except Fault ClusterNode :=
  if message.nodeId ≠ node.nodeInfo.nodeId then
    .error (.exception ("The node id received:" ++ message.nodeId ++
      " is not match the current node id:" ++ node.nodeInfo.nodeId))
  else
    .ok { node with
      nodeInfo := { node.nodeInfo with rankId := message.rankId.toNat }
      ranked := true }

def processFetchServersResp (node : ClusterNode) (serversMeta : List ServersMeta) : ClusterNode :=
  { node with
    nodesAddress := serversMeta.foldl
      (fun addresses it =>
        addresses.insert (.server, it.rankId.toNat) (it.ip, UInt16.ofInt it.port))
      node.nodesAddress }

end ClusterNode

/-- A message on its way, with the node at the other end of the connection. The answer to a fetch
has with it the registry that it was made from. -/
inductive Envelope where
  | register (sender : String) (message : RegisterMessage)
  | heartbeat (message : HeartbeatMessage)
  | finish (message : FinishMessage)
  | fetchServers (sender : String)
  | registerResp (receiver : String) (message : RegisterRespMessage)
  | fetchServersResp (receiver : String) (serversMeta : List ServersMeta)
      (answered : Table String NodeInfo)

structure Cluster where
  scheduler : SchedulerNode
  nodes : Table String ClusterNode
  inFlight : List Envelope

/-- `process` is the message at a place, taken by its receiver. -/
inductive ClusterLabel where
  | startServer (nodeId ip : String) (port : UInt16)
  | startWorker (nodeId : String)
  | register (nodeId : String)
  | heartbeat (nodeId : String) (isNodeFinish : Bool)
  | finish (nodeId : String)
  | fetchServers (nodeId : String)
  | process (place : Nat) (now : Int)
  | checkAvailable (elapsed : Bool)
  | updateState (heartbeatTimeout : UInt32) (now : Int)

namespace Cluster

def new (config : ClusterConfig) : Cluster := ⟨.new config, ∅, []⟩

def start (s : Cluster) (nodeId : String) (node : ClusterNode) : Option Cluster :=
  if nodeId ∈ s.nodes then none else some { s with nodes := s.nodes.insert nodeId node }

def post (s : Cluster) (envelope : Envelope) : Cluster :=
  { s with inFlight := s.inFlight ++ [envelope] }

def handle (s : Cluster) (now : Int) : Envelope → Cluster
  | .register sender message =>
    let res := s.scheduler.processRegister now message
    let next := { s with scheduler := res.2 }
    match res.1 with
    | .error _ => next
    | .ok response => next.post (.registerResp sender response)
  | .heartbeat message => { s with scheduler := (s.scheduler.processHeartbeat now message).2 }
  | .finish message => { s with scheduler := (s.scheduler.processFinish message).2 }
  | .fetchServers sender =>
    let res := s.scheduler.processFetchServers
    { s with scheduler := res.2 }.post
      (.fetchServersResp sender res.1 s.scheduler.nodeManager.nodesInfo)
  | .registerResp receiver message =>
    match s.nodes.lookup receiver with
    | none => s
    | some node =>
      match node.processRegisterResp message with
      | .error _ => s
      | .ok node => { s with nodes := s.nodes.insert receiver node }
  | .fetchServersResp receiver serversMeta _ =>
    match s.nodes.lookup receiver with
    | none => s
    | some node =>
      { s with nodes := s.nodes.insert receiver (node.processFetchServersResp serversMeta) }

def step (s : Cluster) : ClusterLabel → Option Cluster
  | .startServer nodeId ip port => s.start nodeId (.newServer nodeId ip port)
  | .startWorker nodeId => s.start nodeId (.newWorker nodeId)
  | .register nodeId =>
    (s.nodes.lookup nodeId).map fun node => s.post (.register nodeId node.registerMessage)
  | .heartbeat nodeId isNodeFinish =>
    (s.nodes.lookup nodeId).bind fun node =>
      if node.ranked then some (s.post (.heartbeat ⟨node.nodeInfo.nodeId, isNodeFinish⟩)) else none
  | .finish nodeId =>
    (s.nodes.lookup nodeId).map fun node => s.post (.finish ⟨node.nodeInfo.nodeId⟩)
  | .fetchServers nodeId => (s.nodes.lookup nodeId).map fun _ => s.post (.fetchServers nodeId)
  | .process place now =>
    s.inFlight[place]?.map fun envelope =>
      { s with inFlight := s.inFlight.eraseIdx place }.handle now envelope
  | .checkAvailable elapsed => some { s with scheduler := s.scheduler.checkAvailable elapsed }
  | .updateState heartbeatTimeout now =>
    some { s with scheduler := s.scheduler.updateState heartbeatTimeout now }

end Cluster

end PsRpc
