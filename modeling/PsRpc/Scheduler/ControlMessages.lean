import PsRpc.Library.ProtobufMessage
import PsRpc.Node.Server
import PsRpc.Scheduler.NodeManager

/-! # The messages between the nodes and the scheduler, as bytes

The messages of `comm.proto` for registrations, heartbeats, fetches and goodbyes. The protobuf
runtime is a parameter: it is assumed to read back the values that the fields of a message can hold.
-/

namespace PsRpc

open Protobuf

/-- A string that is short enough for a message with two of them. -/
def FitsText (s : String) : Prop := s.utf8ByteSize < 2 ^ 29

instance (s : String) : Decidable (FitsText s) := inferInstanceAs (Decidable (_ < _))

/-- The numbers of an enumeration that have a name are read as that name. -/
def NodeRole.Fits (role : NodeRole) : Prop :=
  FitsInt32 role.number ∧ NodeRole.ofNumber role.number = role

instance NodeRole.decidableFits (role : NodeRole) : Decidable role.Fits :=
  inferInstanceAs (Decidable (_ ∧ _))

structure RegisterMessage.Fits (m : RegisterMessage) : Prop where
  ip : FitsText m.ip
  port : FitsInt32 m.port
  nodeId : FitsText m.nodeId
  role : m.role.Fits

instance RegisterMessage.decidableFits (m : RegisterMessage) : Decidable m.Fits :=
  decidable_of_iff (FitsText m.ip ∧ FitsInt32 m.port ∧ FitsText m.nodeId ∧ m.role.Fits)
    ⟨fun ⟨ip, port, nodeId, role⟩ => ⟨ip, port, nodeId, role⟩,
      fun h => ⟨h.ip, h.port, h.nodeId, h.role⟩⟩

structure RegisterRespMessage.Fits (m : RegisterRespMessage) : Prop where
  nodeId : FitsText m.nodeId
  rankId : FitsInt32 m.rankId

instance RegisterRespMessage.decidableFits (m : RegisterRespMessage) : Decidable m.Fits :=
  decidable_of_iff (FitsText m.nodeId ∧ FitsInt32 m.rankId)
    ⟨fun ⟨nodeId, rankId⟩ => ⟨nodeId, rankId⟩, fun h => ⟨h.nodeId, h.rankId⟩⟩

def HeartbeatMessage.Fits (m : HeartbeatMessage) : Prop := FitsText m.nodeId

structure ServersMeta.Fits (m : ServersMeta) : Prop where
  rankId : FitsInt32 m.rankId
  ip : FitsText m.ip
  port : FitsInt32 m.port

instance ServersMeta.decidableFits (m : ServersMeta) : Decidable m.Fits :=
  decidable_of_iff (FitsInt32 m.rankId ∧ FitsText m.ip ∧ FitsInt32 m.port)
    ⟨fun ⟨rankId, ip, port⟩ => ⟨rankId, ip, port⟩, fun h => ⟨h.rankId, h.ip, h.port⟩⟩

def ServersMeta.FitAll (serversMeta : List ServersMeta) : Prop :=
  (∀ m ∈ serversMeta, m.Fits) ∧ (serversMeta.map fun m => m.ip.utf8ByteSize + 60).sum < 2 ^ 31

instance ServersMeta.decidableFitAll (serversMeta : List ServersMeta) :
    Decidable (ServersMeta.FitAll serversMeta) :=
  inferInstanceAs (Decidable (_ ∧ _))

namespace HeartbeatRespMessage

/-- The map `node_attribute`, under the numbers of `NodeAttribute`. -/
def attributes (m : HeartbeatRespMessage) : Int → Option Bool
  | 0 => some m.isClusterReady
  | 1 => some m.isClusterFinish
  | 2 => some m.isClusterTimeout
  | 3 => some m.isNodeTimeout
  | _ => none

/-- What `ProcessHeartbeatResp` takes from the map; `none` if `at` does not find an attribute. -/
def ofAttributes (node : Int → Option Bool) : Option HeartbeatRespMessage := do
  let isClusterReady ← node 0
  let isClusterFinish ← node 1
  let isClusterTimeout ← node 2
  let isNodeTimeout ← node 3
  some ⟨isClusterReady, isClusterFinish, isClusterTimeout, isNodeTimeout⟩

theorem ofAttributes_attributes (m : HeartbeatRespMessage) :
    ofAttributes m.attributes = some m := rfl

end HeartbeatRespMessage

/-- The protobuf runtime on the messages that a node and the scheduler exchange. -/
structure ControlRuntime extends MetaRuntime where
  register : PayloadCodec RegisterMessage RegisterMessage.Fits
  registerResp : PayloadCodec RegisterRespMessage RegisterRespMessage.Fits
  heartbeat : PayloadCodec HeartbeatMessage HeartbeatMessage.Fits
  heartbeatResp : PayloadCodec (Int → Option Bool) (∃ m : HeartbeatRespMessage, m.attributes = ·)
  fetchServers : PayloadCodec String FitsText
  fetchServersResp : PayloadCodec (List ServersMeta) ServersMeta.FitAll
  finish : PayloadCodec String FitsText

instance : Coe ControlRuntime (MetaCodec WireMeta) := ⟨fun runtime => runtime.toMetaCodec⟩

end PsRpc
