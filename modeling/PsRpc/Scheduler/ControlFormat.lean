import Mathlib.Algebra.Order.BigOperators.Group.List
import Mathlib.Algebra.Order.Group.Nat
import PsRpc.Scheduler.ControlMessages

/-! # The messages of the control protocol in the wire format

The encoding rules of protobuf with the field numbers of `comm.proto` meet the assumptions about the
runtime. A field with a number or a wire type that the type does not have is set aside.
-/

namespace PsRpc

open Protobuf

theorem length_stringBytes_lt {s : String} (h : FitsText s) : (stringBytes s).length < 2 ^ 31 := by
  rw [length_stringBytes]
  exact Nat.lt_trans h (by decide)

def registerMessageType : MessageType RegisterMessage where
  empty := ⟨"", 0, "", .server⟩
  fields m :=
    text 1 (stringBytes m.ip) ++ (scalar 2 (int32Number m.port) ++
      (text 3 (stringBytes m.nodeId) ++ (scalar 4 (int32Number m.role.number) ++ [])))
  merge m
    | ⟨1, .len bytes⟩ => (readString bytes).map fun ip => { m with ip := ip }
    | ⟨2, .varint number⟩ => some { m with port := readInt32 number }
    | ⟨3, .len bytes⟩ => (readString bytes).map fun nodeId => { m with nodeId := nodeId }
    | ⟨4, .varint number⟩ => some { m with role := .ofNumber (readInt32 number) }
    | _ => some m
  Fits := RegisterMessage.Fits
  writable m h := by
    simp only [List.forall_mem_append]
    exact ⟨writable_text (by decide) (length_stringBytes_lt h.ip),
      writable_scalar (by decide) (int32Number_lt _),
      writable_text (by decide) (length_stringBytes_lt h.nodeId),
      writable_scalar (by decide) (int32Number_lt _), by simp⟩
  merge_fields m h := by
    rw [foldlM_text (fun hEmpty => by rw [eq_empty_of_stringBytes hEmpty])
        (congrArg (Option.map _) (readString_stringBytes m.ip)),
      foldlM_scalar (fun hZero => by rw [hZero]; rfl) rfl,
      foldlM_text (fun hEmpty => by rw [eq_empty_of_stringBytes hEmpty])
        (congrArg (Option.map _) (readString_stringBytes m.nodeId)),
      foldlM_scalar (fun hZero => by rw [hZero]; rfl) rfl, List.foldlM_nil,
      readInt32_int32Number h.port, readInt32_int32Number h.role.1, h.role.2]
    rfl

def registerRespMessageType : MessageType RegisterRespMessage where
  empty := ⟨"", 0⟩
  fields m := text 1 (stringBytes m.nodeId) ++ (scalar 2 (int32Number m.rankId) ++ [])
  merge m
    | ⟨1, .len bytes⟩ => (readString bytes).map fun nodeId => { m with nodeId := nodeId }
    | ⟨2, .varint number⟩ => some { m with rankId := readInt32 number }
    | _ => some m
  Fits := RegisterRespMessage.Fits
  writable m h := by
    simp only [List.forall_mem_append]
    exact ⟨writable_text (by decide) (length_stringBytes_lt h.nodeId),
      writable_scalar (by decide) (int32Number_lt _), by simp⟩
  merge_fields m h := by
    rw [foldlM_text (fun hEmpty => by rw [eq_empty_of_stringBytes hEmpty])
        (congrArg (Option.map _) (readString_stringBytes m.nodeId)),
      foldlM_scalar (fun hZero => by rw [hZero]; rfl) rfl, List.foldlM_nil,
      readInt32_int32Number h.rankId]
    rfl

theorem toNat_lt (value : Bool) : value.toNat < 2 ^ 64 := by
  cases value <;> decide

def heartbeatMessageType : MessageType HeartbeatMessage where
  empty := ⟨"", false⟩
  fields m := text 1 (stringBytes m.nodeId) ++ (scalar 2 m.isNodeFinish.toNat ++ [])
  merge m
    | ⟨1, .len bytes⟩ => (readString bytes).map fun nodeId => { m with nodeId := nodeId }
    | ⟨2, .varint number⟩ => some { m with isNodeFinish := number != 0 }
    | _ => some m
  Fits := HeartbeatMessage.Fits
  writable m h := by
    simp only [List.forall_mem_append]
    exact ⟨writable_text (by decide) (length_stringBytes_lt h),
      writable_scalar (by decide) (toNat_lt m.isNodeFinish), by simp⟩
  merge_fields m h := by
    rw [foldlM_text (fun hEmpty => by rw [eq_empty_of_stringBytes hEmpty])
        (congrArg (Option.map _) (readString_stringBytes m.nodeId)),
      foldlM_scalar (fun hZero => by rw [hZero]; rfl) rfl, List.foldlM_nil]
    obtain ⟨nodeId, isNodeFinish⟩ := m
    cases isNodeFinish <;> rfl

/-- `FetchServersMessage` and `FinishMessage`, which have a `node_id` and nothing else. -/
def nodeIdType : MessageType String where
  empty := ""
  fields nodeId := text 1 (stringBytes nodeId) ++ []
  merge
    | _, ⟨1, .len bytes⟩ => readString bytes
    | nodeId, _ => some nodeId
  Fits := FitsText
  writable nodeId h := by
    simp only [List.forall_mem_append]
    exact ⟨writable_text (by decide) (length_stringBytes_lt h), by simp⟩
  merge_fields nodeId h := by
    rw [foldlM_text eq_empty_of_stringBytes (readString_stringBytes nodeId), List.foldlM_nil]
    rfl

def serversMetaType : MessageType ServersMeta where
  empty := ⟨0, "", 0⟩
  fields m :=
    scalar 1 (int32Number m.rankId) ++ (text 2 (stringBytes m.ip) ++
      (scalar 3 (int32Number m.port) ++ []))
  merge m
    | ⟨1, .varint number⟩ => some { m with rankId := readInt32 number }
    | ⟨2, .len bytes⟩ => (readString bytes).map fun ip => { m with ip := ip }
    | ⟨3, .varint number⟩ => some { m with port := readInt32 number }
    | _ => some m
  Fits := ServersMeta.Fits
  writable m h := by
    simp only [List.forall_mem_append]
    exact ⟨writable_scalar (by decide) (int32Number_lt _),
      writable_text (by decide) (length_stringBytes_lt h.ip),
      writable_scalar (by decide) (int32Number_lt _), by simp⟩
  merge_fields m h := by
    rw [foldlM_scalar (fun hZero => by rw [hZero]; rfl) rfl,
      foldlM_text (fun hEmpty => by rw [eq_empty_of_stringBytes hEmpty])
        (congrArg (Option.map _) (readString_stringBytes m.ip)),
      foldlM_scalar (fun hZero => by rw [hZero]; rfl) rfl, List.foldlM_nil,
      readInt32_int32Number h.rankId, readInt32_int32Number h.port]
    rfl

def fetchServersRespMessageType : MessageType (List ServersMeta) :=
  serversMetaType.repeated 1 (by decide)

/-- An entry of `map<int32, bool>`; both of its fields are always written. -/
def attributeType : MessageType (Int × Bool) where
  empty := (0, false)
  fields e := [⟨1, .varint (int32Number e.1)⟩, ⟨2, .varint e.2.toNat⟩]
  merge e
    | ⟨1, .varint number⟩ => some (readInt32 number, e.2)
    | ⟨2, .varint number⟩ => some (e.1, number != 0)
    | _ => some e
  Fits e := FitsInt32 e.1
  writable e h := by
    rw [List.forall_mem_cons, List.forall_mem_singleton]
    exact ⟨writable_varint (by decide) (int32Number_lt e.1),
      writable_varint (by decide) (toNat_lt e.2)⟩
  merge_fields e h := by
    obtain ⟨key, value⟩ := e
    change some (readInt32 (int32Number key), value.toNat != 0) = _
    rw [readInt32_int32Number h]
    cases value <;> rfl

theorem length_serialize_attribute_le (e : Int × Bool) :
    (attributeType.serialize e).length ≤ 30 := by
  have hKey : (Field.bytes ⟨1, .varint (int32Number e.1)⟩).length ≤ 15 :=
    length_bytes_varint_le (by decide) (int32Number_lt e.1)
  have hValue : (Field.bytes ⟨2, .varint e.2.toNat⟩).length ≤ 15 :=
    length_bytes_varint_le (by decide) (toNat_lt e.2)
  change (Field.bytes _ ++ (Field.bytes _ ++ [])).length ≤ 30
  rw [List.append_nil, List.length_append]
  omega

/-- `HeartbeatRespMessage`: the entries of `node_attribute` in the order in which they are written.
-/
def heartbeatRespMessageType : MessageType (List (Int × Bool)) :=
  attributeType.repeated 1 (by decide)

/-- `node_attribute().at(key)`; a later entry with the same key replaces an earlier one. -/
def attributeAt (entries : List (Int × Bool)) (key : Int) : Option Bool :=
  (entries.filter (·.1 = key)).getLast?.map Prod.snd

def attributeEntries (node : Int → Option Bool) : List (Int × Bool) :=
  [0, 1, 2, 3].filterMap fun key => (node key).map (key, ·)

theorem attributeEntries_attributes (m : HeartbeatRespMessage) :
    attributeEntries m.attributes = [(0, m.isClusterReady), (1, m.isClusterFinish),
      (2, m.isClusterTimeout), (3, m.isNodeTimeout)] := rfl

theorem attributeAt_attributes (m : HeartbeatRespMessage) :
    attributeAt (attributeEntries m.attributes) = m.attributes := by
  funext key
  rw [attributeEntries_attributes]
  unfold HeartbeatRespMessage.attributes
  split
  · rfl
  · rfl
  · rfl
  · rfl
  · next h0 h1 h2 h3 =>
    simp [attributeAt, Ne.symm h0, Ne.symm h1, Ne.symm h2, Ne.symm h3]

theorem fits_attributeEntries (m : HeartbeatRespMessage) :
    heartbeatRespMessageType.Fits (attributeEntries m.attributes) := by
  intro e hMem
  refine ⟨?_, Nat.lt_of_le_of_lt (length_serialize_attribute_le e) (by decide)⟩
  rw [attributeEntries_attributes] at hMem
  simp only [List.mem_cons, List.not_mem_nil, or_false] at hMem
  rcases hMem with rfl | rfl | rfl | rfl
  exacts [(by decide : FitsInt32 0), (by decide : FitsInt32 1), (by decide : FitsInt32 2),
    (by decide : FitsInt32 3)]

/-! ## The runtime -/

theorem length_registerMessage {m : RegisterMessage} (h : m.Fits) :
    (registerMessageType.serialize m).length < 2 ^ 31 := by
  have hIp := length_text_le (show 1 < 2 ^ 29 by decide) (length_stringBytes_lt h.ip)
  have hPort := length_scalar_le (show 2 < 2 ^ 29 by decide) (int32Number_lt m.port)
  have hNodeId := length_text_le (show 3 < 2 ^ 29 by decide) (length_stringBytes_lt h.nodeId)
  have hRole := length_scalar_le (show 4 < 2 ^ 29 by decide) (int32Number_lt m.role.number)
  have hIpText : m.ip.utf8ByteSize < 2 ^ 29 := h.ip
  have hNodeIdText : m.nodeId.utf8ByteSize < 2 ^ 29 := h.nodeId
  rw [length_stringBytes] at hIp hNodeId
  simp only [MessageType.serialize, registerMessageType, List.flatMap_append, List.flatMap_nil,
    List.length_append, List.length_nil]
  omega

theorem length_registerRespMessage {m : RegisterRespMessage} (h : m.Fits) :
    (registerRespMessageType.serialize m).length < 2 ^ 31 := by
  have hNodeId := length_text_le (show 1 < 2 ^ 29 by decide) (length_stringBytes_lt h.nodeId)
  have hRankId := length_scalar_le (show 2 < 2 ^ 29 by decide) (int32Number_lt m.rankId)
  have hText : m.nodeId.utf8ByteSize < 2 ^ 29 := h.nodeId
  rw [length_stringBytes] at hNodeId
  simp only [MessageType.serialize, registerRespMessageType, List.flatMap_append, List.flatMap_nil,
    List.length_append, List.length_nil]
  omega

theorem length_heartbeatMessage {m : HeartbeatMessage} (h : m.Fits) :
    (heartbeatMessageType.serialize m).length < 2 ^ 31 := by
  have hNodeId := length_text_le (show 1 < 2 ^ 29 by decide) (length_stringBytes_lt h)
  have hFinish := length_scalar_le (show 2 < 2 ^ 29 by decide) (toNat_lt m.isNodeFinish)
  have hText : m.nodeId.utf8ByteSize < 2 ^ 29 := h
  rw [length_stringBytes] at hNodeId
  simp only [MessageType.serialize, heartbeatMessageType, List.flatMap_append, List.flatMap_nil,
    List.length_append, List.length_nil]
  omega

theorem length_nodeId {nodeId : String} (h : FitsText nodeId) :
    (nodeIdType.serialize nodeId).length < 2 ^ 31 := by
  have hNodeId := length_text_le (show 1 < 2 ^ 29 by decide) (length_stringBytes_lt h)
  have hText : nodeId.utf8ByteSize < 2 ^ 29 := h
  rw [length_stringBytes] at hNodeId
  simp only [MessageType.serialize, nodeIdType, List.flatMap_append, List.flatMap_nil,
    List.length_append, List.length_nil]
  omega

theorem length_serversMeta {m : ServersMeta} (h : m.Fits) :
    (serversMetaType.serialize m).length ≤ m.ip.utf8ByteSize + 45 := by
  have hRankId := length_scalar_le (show 1 < 2 ^ 29 by decide) (int32Number_lt m.rankId)
  have hIp := length_text_le (show 2 < 2 ^ 29 by decide) (length_stringBytes_lt h.ip)
  have hPort := length_scalar_le (show 3 < 2 ^ 29 by decide) (int32Number_lt m.port)
  rw [length_stringBytes] at hIp
  simp only [MessageType.serialize, serversMetaType, List.flatMap_append, List.flatMap_nil,
    List.length_append, List.length_nil]
  omega

theorem fits_serversMeta {serversMeta : List ServersMeta} (h : ServersMeta.FitAll serversMeta) :
    fetchServersRespMessageType.Fits serversMeta := by
  intro m hMem
  have hFits := h.1 m hMem
  have hText : m.ip.utf8ByteSize < 2 ^ 29 := hFits.ip
  have hLength := length_serversMeta hFits
  exact ⟨hFits, by omega⟩

theorem length_fetchServersResp {serversMeta : List ServersMeta}
    (h : ServersMeta.FitAll serversMeta) :
    (fetchServersRespMessageType.serialize serversMeta).length < 2 ^ 31 := by
  refine Nat.lt_of_le_of_lt (MessageType.length_serialize_repeated_le (fits_serversMeta h)) ?_
  refine Nat.lt_of_le_of_lt (List.sum_le_sum fun m hMem => ?_) h.2
  have hLength := length_serversMeta (h.1 m hMem)
  omega

theorem length_heartbeatResp (m : HeartbeatRespMessage) :
    (heartbeatRespMessageType.serialize (attributeEntries m.attributes)).length < 2 ^ 31 := by
  have hLength := MessageType.length_serialize_repeated_le (fits_attributeEntries m)
  have hEntry (e : Int × Bool) := length_serialize_attribute_le e
  have h0 := hEntry (0, m.isClusterReady)
  have h1 := hEntry (1, m.isClusterFinish)
  have h2 := hEntry (2, m.isClusterTimeout)
  have h3 := hEntry (3, m.isNodeTimeout)
  refine Nat.lt_of_le_of_lt hLength ?_
  rw [attributeEntries_attributes]
  simp only [List.map_cons, List.map_nil, List.sum_cons, List.sum_nil]
  omega

def heartbeatRespCodec :
    PayloadCodec (Int → Option Bool) (∃ m : HeartbeatRespMessage, m.attributes = ·) where
  serializeAsString node := heartbeatRespMessageType.serialize (attributeEntries node)
  parseFromArray bytes := attributeAt ((heartbeatRespMessageType.parse bytes).getD [])
  parse_serialize := by
    rintro _ ⟨m, rfl⟩
    rw [MessageType.parse_serialize (fits_attributeEntries m), Option.getD_some,
      attributeAt_attributes]
  length_lt := by
    rintro _ ⟨m, rfl⟩
    exact length_heartbeatResp m

def wireRuntime : ControlRuntime where
  toMetaRuntime := wireCodec
  register := payloadCodec registerMessageType (fun _ h => h) fun _ => length_registerMessage
  registerResp :=
    payloadCodec registerRespMessageType (fun _ h => h) fun _ => length_registerRespMessage
  heartbeat := payloadCodec heartbeatMessageType (fun _ h => h) fun _ => length_heartbeatMessage
  heartbeatResp := heartbeatRespCodec
  fetchServers := payloadCodec nodeIdType (fun _ h => h) fun _ => length_nodeId
  fetchServersResp :=
    payloadCodec fetchServersRespMessageType
      (fun _ => fits_serversMeta) fun _ => length_fetchServersResp
  finish := payloadCodec nodeIdType (fun _ h => h) fun _ => length_nodeId

end PsRpc
