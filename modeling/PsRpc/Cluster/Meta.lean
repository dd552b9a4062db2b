import PsRpc.Wire.Message

/-! # Roles, commands and the meta of a message -/

namespace PsRpc

/-- The enumeration of `comm.proto`. It is open: a message can carry a number without a name. -/
inductive NodeRole where
  | server
  | worker
  | scheduler
  | unrecognized (value : Int)
deriving DecidableEq, Repr

inductive NodeCommand where
  | terminate
  | register
  | heartbeat
  | sendData
  | fetchServer
  | finish
  | collectiveSendData
deriving DecidableEq, Repr

/-- `rank_id` is an `int32` on the wire and a `uint32_t` at both ends. -/
structure MessageMeta where
  cmd : NodeCommand
  requestId : Nat
  role : NodeRole
  rankId : UInt32
  userCmd : Int
deriving DecidableEq, Repr

/-- The two numbers of `ClusterConfig` that the nodes use. -/
structure ClusterConfig where
  serverNum : UInt32
  workerNum : UInt32
deriving DecidableEq, Repr

/-- The times of `ClusterConfig` in seconds, with their initial values. -/
structure ClusterTimes where
  heartbeatInterval : UInt32 := 1
  heartbeatTimeout : UInt32 := 30
  schedulerTimeout : UInt32 := 3600 * 5
deriving DecidableEq, Repr

namespace ClusterTimes

def setHeartbeatInterval (times : ClusterTimes) (heartbeatInterval : UInt32) : ClusterTimes :=
  { times with heartbeatInterval := heartbeatInterval }

/-- The source assigns to `heartbeat_interval_` here, too. -/
def setHeartbeatTimeout (times : ClusterTimes) (heartbeatTimeout : UInt32) : ClusterTimes :=
  { times with heartbeatInterval := heartbeatTimeout }

def setSchedulerTimeout (times : ClusterTimes) (schedulerTimeout : UInt32) : ClusterTimes :=
  { times with schedulerTimeout := schedulerTimeout }

end ClusterTimes

/-- `CommUtil::ValidateRankId`. For a number of zero, `server_num() - 1` is the largest
`uint32_t` and every rank id passes. -/
def validateRankId (config : ClusterConfig) (nodeRole : NodeRole) (rankId : UInt32) : Bool :=
  if nodeRole = .server ∧ config.serverNum - 1 < rankId then false
  else if nodeRole = .worker ∧ config.workerNum - 1 < rankId then false
  else true

end PsRpc
