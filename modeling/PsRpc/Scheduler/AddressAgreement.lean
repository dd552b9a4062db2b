import PsRpc.Scheduler.Cluster

/-! # All nodes agree on the addresses of the servers

Whatever a node has been told comes from an entry of the registry, and the entries of the registry
stay as they are. So every fact about the registry that was true when a message was sent is true
when it is taken.
-/

namespace PsRpc

open Execution

structure NodeInfo.Matches (info : NodeInfo) (message : RegisterMessage) : Prop where
  role : info.nodeRole = message.role
  address : message.role = .server →
    info.ip = message.ip ∧ info.port = UInt16.ofInt message.port

theorem uint16_ofInt_toNat (port : UInt16) : UInt16.ofInt port.toNat = port := by
  have hPort := port.toNat_lt
  have hSmall : ((port.toNat : Int) % 2 ^ 16).toNat = port.toNat := by omega
  rw [UInt16.ofInt, hSmall, UInt16.ofNat_toNat]

namespace NodeManager

theorem mem_fetchServersMeta {m : NodeManager} {it : ServersMeta} :
    it ∈ m.fetchServersMeta ↔ ∃ id info, m.nodesInfo.lookup id = some info ∧
      info.nodeRole = .server ∧ it = ⟨info.rankId, info.ip, info.port.toNat⟩ := by
  rw [fetchServersMeta, List.mem_filterMap]
  constructor
  · rintro ⟨⟨id, info⟩, hEntry, hMeta⟩
    split at hMeta
    · next hServer =>
      cases hMeta
      exact ⟨id, info, AList.mem_lookup_iff.mpr hEntry, hServer, rfl⟩
    · cases hMeta
  · rintro ⟨id, info, hInfo, hServer, rfl⟩
    exact ⟨⟨id, info⟩, AList.mem_lookup_iff.mp hInfo, if_pos hServer⟩

theorem Records.server_unique {m : NodeManager} {history : List (NodeRole × String)}
    (h : m.Records history) {role : NodeRole} {rank : Nat} {id id' : String}
    (hHolds : m.Holds role rank id) (hHolds' : m.Holds role rank id') : id = id' := by
  have hKth := (h.ranks role rank id).mp hHolds
  rw [(h.ranks role rank id').mp hHolds'] at hKth
  exact (Option.some.inj hKth).symm

end NodeManager

/-- The registration of a server or a worker gives the response with the rank of its entry, which
is new or has been there before. -/
theorem SchedulerNode.processRegister_spec {s : SchedulerNode}
    {history : List (NodeRole × String)} (h : s.nodeManager.Records history)
    {message : RegisterMessage} (hKind : message.role = .server ∨ message.role = .worker)
    (now : Int) :
    ∃ info : NodeInfo,
      (s.processRegister now message).1 = .ok ⟨message.nodeId, info.rankId⟩ ∧
      (∃ history', (s.processRegister now message).2.nodeManager.Records history') ∧
      (∀ id, (s.processRegister now message).2.nodeManager.nodesInfo.lookup id =
        if id = message.nodeId then some info else s.nodeManager.nodesInfo.lookup id) ∧
      (s.nodeManager.nodesInfo.lookup message.nodeId = some info ∨
        s.nodeManager.nodesInfo.lookup message.nodeId = none ∧ info.Matches message) := by
  obtain ⟨info, m', hNext, hRecords, hLookup, hCase⟩ : ∃ (info : NodeInfo) (m' : NodeManager),
      s.nodeManager.nextRankId message = ((info.rankId : Int), m') ∧
      (∃ history', m'.Records history') ∧
      (∀ id, m'.nodesInfo.lookup id =
        if id = message.nodeId then some info else s.nodeManager.nodesInfo.lookup id) ∧
      (s.nodeManager.nodesInfo.lookup message.nodeId = some info ∨
        s.nodeManager.nodesInfo.lookup message.nodeId = none ∧ info.Matches message) := by
    cases hKnown : s.nodeManager.nodesInfo.lookup message.nodeId with
    | some info =>
      refine ⟨info, s.nodeManager, NodeManager.nextRankId_of_known hKnown, ⟨history, h⟩, ?_,
        .inl rfl⟩
      intro id
      split
      · next hId => rw [hId, hKnown]
      · rfl
    | none =>
      obtain ⟨info, hRank, hNodes, hRole, hAddress, hRecords⟩ := h.register hKnown hKind
      refine ⟨info, _, Prod.ext hRank rfl, ⟨_, hRecords⟩, ?_, .inr ⟨rfl, hRole, hAddress⟩⟩
      intro id
      rw [hNodes, Table.lookup_insert]
  have hRank : ¬(info.rankId : Int) < 0 := by omega
  have hHeard : NodeManager.SameRegistry m' (m'.updateHeartbeat now message.nodeId) :=
    .updateHeartbeat (NodeManager.mem_nodesInfo.mpr ⟨info, by rw [hLookup, if_pos rfl]⟩) now
  obtain ⟨history', hRecords⟩ := hRecords
  simp only [processRegister, hNext, if_neg hRank]
  refine ⟨info, rfl, ⟨history', hRecords.same hHeard⟩, ?_, hCase⟩
  intro id
  rw [hHeard.nodes, hLookup]

namespace Cluster

def registry (s : Cluster) : Table String NodeInfo := s.scheduler.nodeManager.nodesInfo

def Serves (s : Cluster) (rank : Nat) (address : String × UInt16) : Prop :=
  ∃ id info, s.registry.lookup id = some info ∧ info.nodeRole = .server ∧ info.rankId = rank ∧
    (info.ip, info.port) = address

def Truthful (s : Cluster) : Envelope → Prop
  | .register sender message =>
    ∃ node, s.nodes.lookup sender = some node ∧ message = node.registerMessage
  | .heartbeat message => ∃ info, s.registry.lookup message.nodeId = some info
  | .finish _ => True
  | .fetchServers _ => True
  | .registerResp receiver message =>
    ∃ info, s.registry.lookup receiver = some info ∧ message.rankId = info.rankId
  | .fetchServersResp _ serversMeta answered =>
    (∀ id info, answered.lookup id = some info → s.registry.lookup id = some info) ∧
    ∀ it, it ∈ serversMeta ↔ ∃ id info, answered.lookup id = some info ∧
      info.nodeRole = .server ∧ it = ⟨info.rankId, info.ip, info.port.toNat⟩

structure Agreed (s : Cluster) : Prop where
  records : ∃ history, s.scheduler.nodeManager.Records history
  named : ∀ id node, s.nodes.lookup id = some node → node.registerMessage.nodeId = id
  kinds : ∀ id node, s.nodes.lookup id = some node →
    node.registerMessage.role = .server ∨ node.registerMessage.role = .worker
  known : ∀ id info, s.registry.lookup id = some info →
    ∃ node, s.nodes.lookup id = some node ∧ info.Matches node.registerMessage
  ranked : ∀ id node, s.nodes.lookup id = some node → node.ranked = true →
    ∃ info, s.registry.lookup id = some info ∧ info.rankId = node.nodeInfo.rankId
  addresses : ∀ id node, s.nodes.lookup id = some node → ∀ rank address,
    node.nodesAddress.lookup (.server, rank) = some address → s.Serves rank address
  truthful : ∀ envelope ∈ s.inFlight, s.Truthful envelope

structure Grows (s s' : Cluster) : Prop where
  registry : ∀ id info, s.registry.lookup id = some info → s'.registry.lookup id = some info
  nodes : ∀ id node, s.nodes.lookup id = some node →
    ∃ node', s'.nodes.lookup id = some node' ∧ node'.registerMessage = node.registerMessage

variable {s s' : Cluster}

theorem Serves.grows {rank : Nat} {address : String × UInt16} (h : s.Serves rank address)
    (hGrows : Grows s s') : s'.Serves rank address := by
  obtain ⟨id, info, hInfo, hRest⟩ := h
  exact ⟨id, info, hGrows.registry id info hInfo, hRest⟩

theorem Truthful.grows {envelope : Envelope} (h : s.Truthful envelope) (hGrows : Grows s s') :
    s'.Truthful envelope := by
  cases envelope with
  | register sender message =>
    obtain ⟨node, hNode, rfl⟩ := h
    obtain ⟨node', hNode', hMessage⟩ := hGrows.nodes sender node hNode
    exact ⟨node', hNode', hMessage.symm⟩
  | heartbeat message =>
    obtain ⟨info, hInfo⟩ := h
    exact ⟨info, hGrows.registry _ info hInfo⟩
  | finish message => trivial
  | fetchServers sender => trivial
  | registerResp receiver message =>
    obtain ⟨info, hInfo, hRank⟩ := h
    exact ⟨info, hGrows.registry _ info hInfo, hRank⟩
  | fetchServersResp receiver serversMeta answered =>
    exact ⟨fun id info hInfo => hGrows.registry id info (h.1 id info hInfo), h.2⟩

theorem Serves.unique (h : Agreed s) {rank : Nat} {address : String × UInt16}
    (hServes : s.Serves rank address) {id : String} {info : NodeInfo}
    (hInfo : s.registry.lookup id = some info) (hServer : info.nodeRole = .server)
    (hRank : info.rankId = rank) : (info.ip, info.port) = address := by
  obtain ⟨history, hRecords⟩ := h.records
  obtain ⟨id', info', hInfo', hServer', hRank', rfl⟩ := hServes
  obtain rfl := hRecords.server_unique ⟨info, hInfo, hServer, hRank⟩
    ⟨info', hInfo', hServer', hRank'⟩
  rw [hInfo] at hInfo'
  cases hInfo'
  rfl

namespace Agreed

theorem new (config : ClusterConfig) : Agreed (.new config) where
  records := ⟨[], .new config⟩
  named := nofun
  kinds := nofun
  known := nofun
  ranked := nofun
  addresses := nofun
  truthful := nofun

theorem post (h : Agreed s) {envelope : Envelope} (hTruthful : s.Truthful envelope) :
    Agreed (s.post envelope) where
  records := h.records
  named := h.named
  kinds := h.kinds
  known := h.known
  ranked := h.ranked
  addresses := h.addresses
  truthful := by
    intro envelope' hEnvelope
    rcases List.mem_append.mp hEnvelope with hOld | hLast
    · exact h.truthful envelope' hOld
    · rw [List.mem_singleton.mp hLast]
      exact hTruthful

theorem take (h : Agreed s) (place : Nat) :
    Agreed { s with inFlight := s.inFlight.eraseIdx place } where
  records := h.records
  named := h.named
  kinds := h.kinds
  known := h.known
  ranked := h.ranked
  addresses := h.addresses
  truthful envelope hEnvelope := h.truthful envelope (List.mem_of_mem_eraseIdx hEnvelope)

theorem schedule (h : Agreed s) {scheduler : SchedulerNode}
    (hRecords : ∃ history, scheduler.nodeManager.Records history)
    (hKept : ∀ id info, s.registry.lookup id = some info →
      scheduler.nodeManager.nodesInfo.lookup id = some info)
    (hKnown : ∀ id info, scheduler.nodeManager.nodesInfo.lookup id = some info →
      ∃ node, s.nodes.lookup id = some node ∧ info.Matches node.registerMessage) :
    Agreed { s with scheduler := scheduler } := by
  have hGrows : Grows s { s with scheduler := scheduler } :=
    ⟨hKept, fun _ node hNode => ⟨node, hNode, rfl⟩⟩
  refine ⟨hRecords, h.named, h.kinds, hKnown, ?_, ?_, ?_⟩
  · intro id node hNode hRanked
    obtain ⟨info, hInfo, hRank⟩ := h.ranked id node hNode hRanked
    exact ⟨info, hKept id info hInfo, hRank⟩
  · intro id node hNode rank address hAddress
    exact (h.addresses id node hNode rank address hAddress).grows hGrows
  · intro envelope hEnvelope
    exact (h.truthful envelope hEnvelope).grows hGrows

theorem schedule_same (h : Agreed s) {scheduler : SchedulerNode}
    (hSame : NodeManager.SameRegistry s.scheduler.nodeManager scheduler.nodeManager) :
    Agreed { s with scheduler := scheduler } := by
  obtain ⟨history, hRecords⟩ := h.records
  refine h.schedule ⟨history, hRecords.same hSame⟩ ?_ ?_
  · intro id info hInfo
    rw [hSame.nodes]
    exact hInfo
  · intro id info hInfo
    rw [hSame.nodes] at hInfo
    exact h.known id info hInfo

theorem insertNode (h : Agreed s) {id : String} {node : ClusterNode}
    (hNamed : node.registerMessage.nodeId = id)
    (hKind : node.registerMessage.role = .server ∨ node.registerMessage.role = .worker)
    (hSame : ∀ old, s.nodes.lookup id = some old → node.registerMessage = old.registerMessage)
    (hRanked : node.ranked = true →
      ∃ info, s.registry.lookup id = some info ∧ info.rankId = node.nodeInfo.rankId)
    (hAddresses : ∀ rank address,
      node.nodesAddress.lookup (.server, rank) = some address → s.Serves rank address) :
    Agreed { s with nodes := s.nodes.insert id node } := by
  have hGrows : Grows s { s with nodes := s.nodes.insert id node } := by
    refine ⟨fun _ _ hInfo => hInfo, ?_⟩
    intro id' old hOld
    by_cases hId : id' = id
    · subst hId
      exact ⟨node, AList.lookup_insert _, hSame old hOld⟩
    · exact ⟨old, (AList.lookup_insert_ne hId).trans hOld, rfl⟩
  have hEach : ∀ {P : String → ClusterNode → Prop}, P id node →
      (∀ id' node', s.nodes.lookup id' = some node' → P id' node') →
      ∀ id' node', AList.lookup id' (s.nodes.insert id node) = some node' → P id' node' := by
    intro P hNew hOld id' node' hNode
    rw [Table.lookup_insert] at hNode
    split at hNode
    · next hId =>
      cases hNode
      rw [hId]
      exact hNew
    · exact hOld id' node' hNode
  refine ⟨h.records, hEach hNamed h.named, hEach hKind h.kinds, ?_, hEach hRanked h.ranked,
    hEach hAddresses h.addresses, ?_⟩
  · intro id' info hInfo
    obtain ⟨old, hOld, hMatches⟩ := h.known id' info hInfo
    obtain ⟨node', hNode', hMessage⟩ := hGrows.nodes id' old hOld
    exact ⟨node', hNode', hMessage ▸ hMatches⟩
  · intro envelope hEnvelope
    exact (h.truthful envelope hEnvelope).grows hGrows

theorem start (h : Agreed s) {nodeId : String} {node : ClusterNode}
    (hStart : s.start nodeId node = some s') (hNamed : node.registerMessage.nodeId = nodeId)
    (hKind : node.registerMessage.role = .server ∨ node.registerMessage.role = .worker)
    (hRanked : node.ranked = false) (hAddresses : node.nodesAddress = ∅) : Agreed s' := by
  rw [Cluster.start] at hStart
  split at hStart
  · cases hStart
  · next hNew =>
    cases hStart
    refine h.insertNode hNamed hKind ?_ ?_ ?_
    · intro old hOld
      exact absurd (AList.lookup_isSome.mp (Option.isSome_of_eq_some hOld)) hNew
    · intro hTrue
      rw [hRanked] at hTrue
      cases hTrue
    · intro rank address hAddress
      rw [hAddresses] at hAddress
      cases hAddress

/-! ## The handlers -/

theorem handleRegister (h : Agreed s) (now : Int) {sender : String} {message : RegisterMessage}
    (hTruthful : s.Truthful (.register sender message)) :
    Agreed (s.handle now (.register sender message)) := by
  obtain ⟨node, hNode, rfl⟩ := hTruthful
  have hNamed := h.named sender node hNode
  obtain ⟨history, hRecords⟩ := h.records
  obtain ⟨info, hResponse, hNext, hLookup, hCase⟩ :=
    SchedulerNode.processRegister_spec hRecords (h.kinds sender node hNode) now
  simp only [handle, hResponse]
  rw [hNamed] at hLookup hCase
  refine Agreed.post (h.schedule hNext ?_ ?_) ⟨info, (hLookup sender).trans (if_pos rfl), rfl⟩
  · intro id info' hInfo'
    rw [hLookup]
    split
    · next hId =>
      subst hId
      rcases hCase with hOld | ⟨hNew, _⟩
      · rw [← hInfo']
        exact hOld.symm
      · rw [registry, hNew] at hInfo'
        cases hInfo'
    · exact hInfo'
  · intro id info' hInfo'
    rw [hLookup] at hInfo'
    split at hInfo'
    · next hId =>
      cases hInfo'
      subst hId
      rcases hCase with hOld | ⟨_, hMatches⟩
      · exact h.known id info hOld
      · exact ⟨node, hNode, hMatches⟩
    · exact h.known id info' hInfo'

theorem handleHeartbeat (h : Agreed s) (now : Int) {message : HeartbeatMessage}
    (hTruthful : s.Truthful (.heartbeat message)) :
    Agreed (s.handle now (.heartbeat message)) := by
  refine h.schedule_same ?_
  have hSame := NodeManager.SameRegistry.updateHeartbeat
    (NodeManager.mem_nodesInfo.mpr hTruthful) now
  rw [SchedulerNode.processHeartbeat]
  dsimp only
  split
  · exact ⟨hSame.nodes, hSame.server, hSame.worker, hSame.heard⟩
  · exact hSame

theorem handleRegisterResp (h : Agreed s) (now : Int) {receiver : String}
    {message : RegisterRespMessage} (hTruthful : s.Truthful (.registerResp receiver message)) :
    Agreed (s.handle now (.registerResp receiver message)) := by
  obtain ⟨info, hInfo, hRank⟩ := hTruthful
  rw [handle]
  split
  · exact h
  · next node hNode =>
    split
    · exact h
    · next node' hResp =>
      rw [ClusterNode.processRegisterResp] at hResp
      split at hResp
      · cases hResp
      · cases hResp
        refine h.insertNode (h.named receiver node hNode) (h.kinds receiver node hNode) ?_ ?_ ?_
        · intro old hOld
          rw [hNode] at hOld
          cases hOld
          rfl
        · intro _
          refine ⟨info, hInfo, ?_⟩
          rw [hRank]
          rfl
        · exact h.addresses receiver node hNode

theorem handleFetchServersResp (h : Agreed s) (now : Int) {receiver : String}
    {serversMeta : List ServersMeta} {answered : Table String NodeInfo}
    (hTruthful : s.Truthful (.fetchServersResp receiver serversMeta answered)) :
    Agreed (s.handle now (.fetchServersResp receiver serversMeta answered)) := by
  rw [handle]
  split
  · exact h
  · next node hNode =>
    refine h.insertNode (h.named receiver node hNode) (h.kinds receiver node hNode) ?_
      (h.ranked receiver node hNode) ?_
    · intro old hOld
      rw [hNode] at hOld
      cases hOld
      rfl
    · intro rank address hAddress
      rcases Table.of_lookup_foldl_insert hAddress with hOld | ⟨it, hIt, hKey, rfl⟩
      · exact h.addresses receiver node hNode rank address hOld
      · obtain ⟨id, info, hInfo, hServer, rfl⟩ := (hTruthful.2 it).mp hIt
        cases hKey
        exact ⟨id, info, hTruthful.1 id info hInfo, hServer, rfl,
          Prod.ext rfl (uint16_ofInt_toNat info.port).symm⟩

theorem handle (h : Agreed s) (now : Int) {envelope : Envelope}
    (hTruthful : s.Truthful envelope) : Agreed (s.handle now envelope) := by
  cases envelope with
  | register sender message => exact h.handleRegister now hTruthful
  | heartbeat message => exact h.handleHeartbeat now hTruthful
  | finish message => exact h.schedule_same ⟨fun _ => rfl, rfl, rfl, fun _ => .inl⟩
  | fetchServers sender =>
    exact h.post ⟨fun _ _ hInfo => hInfo, fun _ => NodeManager.mem_fetchServersMeta⟩
  | registerResp receiver message => exact h.handleRegisterResp now hTruthful
  | fetchServersResp receiver serversMeta answered =>
    exact h.handleFetchServersResp now hTruthful

theorem step (h : Agreed s) {label : ClusterLabel} (hStep : s.step label = some s') :
    Agreed s' := by
  cases label with
  | startServer nodeId ip port =>
    change s.start nodeId (.newServer nodeId ip port) = some s' at hStep
    exact h.start hStep rfl (.inl rfl) rfl rfl
  | startWorker nodeId =>
    change s.start nodeId (.newWorker nodeId) = some s' at hStep
    exact h.start hStep rfl (.inr rfl) rfl rfl
  | register nodeId =>
    obtain ⟨node, hNode, rfl⟩ := Option.map_eq_some_iff.mp hStep
    exact h.post ⟨node, hNode, rfl⟩
  | heartbeat nodeId isNodeFinish =>
    obtain ⟨node, hNode, hSend⟩ := Option.bind_eq_some_iff.mp hStep
    split at hSend
    · next hRanked =>
      cases hSend
      obtain ⟨info, hInfo, _⟩ := h.ranked nodeId node hNode hRanked
      have hNamed : node.nodeInfo.nodeId = nodeId := h.named nodeId node hNode
      refine h.post ⟨info, ?_⟩
      rw [hNamed]
      exact hInfo
    · cases hSend
  | finish nodeId =>
    obtain ⟨node, _, rfl⟩ := Option.map_eq_some_iff.mp hStep
    exact h.post trivial
  | fetchServers nodeId =>
    obtain ⟨node, _, rfl⟩ := Option.map_eq_some_iff.mp hStep
    exact h.post trivial
  | process place now =>
    obtain ⟨envelope, hEnvelope, rfl⟩ := Option.map_eq_some_iff.mp hStep
    exact (h.take place).handle now (h.truthful envelope (List.mem_of_getElem? hEnvelope))
  | checkAvailable elapsed =>
    cases hStep
    refine h.schedule_same ?_
    rw [SchedulerNode.checkAvailable]
    split
    · exact .checkClusterTimeout _
    · exact .refl _
  | updateState heartbeatTimeout now =>
    cases hStep
    obtain ⟨history, hRecords⟩ := h.records
    exact h.schedule_same (.updateClusterState hRecords.heard heartbeatTimeout now)

theorem entry_of_ranked (h : Agreed s) {id : String} {node : ClusterNode}
    (hNode : s.nodes.lookup id = some node) (hServer : node.nodeInfo.nodeRole = .server)
    (hRanked : node.ranked = true) :
    ∃ info, s.registry.lookup id = some info ∧ info.nodeRole = .server ∧
      info.rankId = node.nodeInfo.rankId ∧
      (info.ip, info.port) = (node.nodeInfo.ip, node.nodeInfo.port) := by
  obtain ⟨info, hInfo, hRank⟩ := h.ranked id node hNode hRanked
  obtain ⟨node', hNode', hMatches⟩ := h.known id info hInfo
  rw [hNode] at hNode'
  cases hNode'
  obtain ⟨hIp, hPort⟩ := hMatches.address hServer
  refine ⟨info, hInfo, hMatches.role.trans hServer, hRank, Prod.ext hIp ?_⟩
  exact hPort.trans (uint16_ofInt_toNat node.nodeInfo.port)

end Agreed

theorem step_fetchServersResp {place : Nat} {now : Int} {receiver : String}
    {serversMeta : List ServersMeta} {answered : Table String NodeInfo} {node : ClusterNode}
    (hEnvelope : s.inFlight[place]? = some (.fetchServersResp receiver serversMeta answered))
    (hStep : s.step (.process place now) = some s')
    (hNode : s'.nodes.lookup receiver = some node) :
    s'.registry = s.registry ∧
      ∃ old, node = ClusterNode.processFetchServersResp old serversMeta := by
  obtain ⟨envelope, hTaken, rfl⟩ := Option.map_eq_some_iff.mp hStep
  rw [hEnvelope] at hTaken
  cases hTaken
  simp only [handle] at hNode ⊢
  split at hNode
  · next hNone =>
    rw [hNone] at hNode
    cases hNode
  · next old hOld =>
    refine ⟨rfl, old, ?_⟩
    rw [AList.lookup_insert] at hNode
    exact (Option.some.inj hNode).symm

end Cluster

/-- In every state of every run, for a server whose rank `ProcessRegisterResp` has set: the address
that any node has for this rank is the one with which the server is registered, and its own; no
other server has its rank. When a node takes the response to a fetch, it has afterwards the
address of every server that was registered when the scheduler answered. -/
theorem address_agreement (config : ClusterConfig) (labels : List ClusterLabel) (s : Cluster)
    (hRun : exec Cluster.step (.new config) labels = some s) :
    (∀ id node, s.nodes.lookup id = some node → node.nodeInfo.nodeRole = .server →
      node.ranked = true →
      (∃ info, s.registry.lookup id = some info ∧ info.rankId = node.nodeInfo.rankId ∧
        (info.ip, info.port) = (node.nodeInfo.ip, node.nodeInfo.port)) ∧
      (∀ id' node' address, s.nodes.lookup id' = some node' →
        node'.nodesAddress.lookup (.server, node.nodeInfo.rankId) = some address →
        address = (node.nodeInfo.ip, node.nodeInfo.port)) ∧
      ∀ id' node', s.nodes.lookup id' = some node' → node'.nodeInfo.nodeRole = .server →
        node'.ranked = true → node'.nodeInfo.rankId = node.nodeInfo.rankId → id' = id) ∧
    ∀ place now receiver serversMeta answered s' node,
      s.inFlight[place]? = some (.fetchServersResp receiver serversMeta answered) →
      s.step (.process place now) = some s' → s'.nodes.lookup receiver = some node →
      ∀ id info, answered.lookup id = some info → info.nodeRole = .server →
        node.nodesAddress.lookup (.server, info.rankId) = some (info.ip, info.port) := by
  have hAgreed : s.Agreed := exec_invariant (fun _ _ _ h hStep => h.step hStep) (.new config) hRun
  refine ⟨?_, ?_⟩
  · intro id node hNode hServer hRanked
    obtain ⟨info, hInfo, hRole, hRank, hAddress⟩ := hAgreed.entry_of_ranked hNode hServer hRanked
    refine ⟨⟨info, hInfo, hRank, hAddress⟩, ?_, ?_⟩
    · intro id' node' address hNode' hLookup
      rw [← hAddress]
      exact ((hAgreed.addresses id' node' hNode' _ address hLookup).unique hAgreed hInfo hRole
        hRank).symm
    · intro id' node' hNode' hServer' hRanked' hSame
      obtain ⟨info', hInfo', hRole', hRank', _⟩ :=
        hAgreed.entry_of_ranked hNode' hServer' hRanked'
      obtain ⟨history, hRecords⟩ := hAgreed.records
      exact hRecords.server_unique ⟨info', hInfo', hRole', hRank'.trans hSame⟩
        ⟨info, hInfo, hRole, hRank⟩
  · intro place now receiver serversMeta answered s' node hEnvelope hStep hNode id info hInfo
      hServer
    have hAgreed' := hAgreed.step hStep
    obtain ⟨hKept, hMeta⟩ := hAgreed.truthful _ (List.mem_of_getElem? hEnvelope)
    obtain ⟨hRegistry, old, rfl⟩ := Cluster.step_fetchServersResp hEnvelope hStep hNode
    obtain ⟨address, hAddress⟩ : ∃ address,
        (old.processFetchServersResp serversMeta).nodesAddress.lookup (.server, info.rankId) =
          some address := by
      rw [← Option.isSome_iff_exists, AList.lookup_isSome]
      exact Table.mem_foldl_insert
        (.inr ⟨_, (hMeta _).mpr ⟨id, info, hInfo, hServer, rfl⟩, rfl⟩)
    rw [hAddress, ← (hAgreed'.addresses receiver _ hNode _ address hAddress).unique hAgreed'
      (by rw [hRegistry]; exact hKept id info hInfo) hServer rfl]

/-- Two servers register in the order other than that of their messages, and a worker fetches
their addresses before they know their ranks. -/
def fetchEarly : List ClusterLabel :=
  [.startServer "a" "10.0.0.1" 80, .startServer "b" "10.0.0.2" 81, .startWorker "w",
    .register "b", .register "a", .fetchServers "w", .process 1 1, .process 0 2, .process 0 3,
    .process 2 4, .process 1 5, .process 0 6]

theorem address_agreement_fetch_early :
    ∃ s b w address, exec Cluster.step (.new ⟨2, 1⟩) fetchEarly = some s ∧
      s.nodes.lookup "b" = some b ∧ b.nodeInfo.rankId = 1 ∧ s.nodes.lookup "w" = some w ∧
      w.nodesAddress.lookup (.server, 1) = some address ∧
      address = (b.nodeInfo.ip, b.nodeInfo.port) := by
  obtain ⟨s, b, w, address, hRun, hB, hServer, hRanked, hRank, hW, hAddress⟩ :
      ∃ s b w address, exec Cluster.step (.new ⟨2, 1⟩) fetchEarly = some s ∧
        s.nodes.lookup "b" = some b ∧ b.nodeInfo.nodeRole = .server ∧ b.ranked = true ∧
        b.nodeInfo.rankId = 1 ∧ s.nodes.lookup "w" = some w ∧
        w.nodesAddress.lookup (.server, 1) = some address :=
    ⟨_, _, _, _, rfl, rfl, rfl, rfl, rfl, rfl, rfl⟩
  obtain ⟨_, hSame, _⟩ := (address_agreement _ _ s hRun).1 "b" b hB hServer hRanked
  exact ⟨s, b, w, address, hRun, hB, hRank, hW, hAddress,
    hSame "w" w address hW (by rw [hRank]; exact hAddress)⟩

end PsRpc
