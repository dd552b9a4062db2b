import PsRpc.Collective.Fifo

/-! # Roles in collective receives

`CollectiveReceiveAsync` gets a role and a rank id, and a message carries both of its sender, but
the keys of `receive_callbacks_` and `received_data_` and the counters are made from the rank id
alone. A receive gets a message of the right node only as long as each rank id is used with one
role.
-/

namespace PsRpc

open Execution Lanes

/-- An exchange and the receives posted in it, with the role and the rank id that they name. -/
structure RoleExchange where
  exchange : Exchange
  posts : List ((NodeRole × UInt32) × Output)

def ExchangeLabel.node : ExchangeLabel → Option (NodeRole × UInt32)
  | .deliver sender => some sender
  | .receive nodeRole rankId _ => some (nodeRole, rankId)
  | _ => none

namespace Exchange

/-- Every variable that was written holds the payload of a message with the rank id and the number
of the receive that it belongs to. -/
def Given (s : Exchange) : Prop :=
  ∀ output value, s.tables.outputs.lookup output = some value →
    ∃ rankId k data, kth (s.postsFor rankId) k = some output ∧
      kth (s.arrivals rankId) k = some data ∧ value = some data

def Written (s : Exchange) : Prop :=
  ∀ output value, s.tables.outputs.lookup output = some value →
    ∃ key : RankRequest, kth (s.postsFor key.1) key.2 = some output ∧
      s.tables.receiveMessagesDone.getD key false = true

def received (s : Exchange) : Exchange := { s with sent := s.arrived }

/-- What holds of the exchange whatever the sizes of the payloads: a payload that `memcpy_s`
refuses ends the event loop with the mutex locked, and nothing is given out any more. -/
structure Settles (s : Exchange) : Prop where
  given : s.Given
  distinct : (s.posts.map Prod.snd).Nodup
  running : s.loop.holdsMutex = false → s.received.Matched ∧ s.Written

variable {s s' : Exchange} {l : ExchangeLabel}

theorem Settles.of_running (hMatched : s.received.Matched) (hWritten : s.Written) :
    s.Settles := by
  refine ⟨?_, hMatched.outputs, fun _ => ⟨hMatched, hWritten⟩⟩
  intro output value hValue
  obtain ⟨key, hPost, hDone⟩ := hWritten output value hValue
  obtain ⟨data, output', hMessage, hPost', hGiven⟩ := (hMatched.meetings key).of_done hDone
  refine ⟨key.1, key.2, data, hPost, hMessage, ?_⟩
  change (kth (s.postsFor key.1) key.2).bind _ = _ at hGiven
  rw [hPost] at hGiven
  exact Option.some.inj (hValue.symm.trans hGiven)

theorem Settles.new (receiver : NodeView) : Settles (.new receiver) :=
  .of_running (.new receiver) (fun _ _ hValue => absurd hValue (Option.some_ne_none _).symm)

/-! ## One step -/

theorem takePacket_received (s : Exchange) (packet : Packet) :
    (s.takePacket packet).received =
      { s with sent := s.arrived ++ [packet] }.takePacket packet := by
  rw [takePacket, takePacket]
  dsimp only
  split <;> rfl

theorem nextPacket_snoc (s : Exchange) (packet : Packet) :
    { s with sent := s.arrived ++ [packet] }.nextPacket packet.sender = some packet := by
  rw [nextPacket, lane_snoc, if_pos rfl, List.getElem?_append_right (le_refl _), Nat.sub_self]
  rfl

theorem takePacket_tables (s : Exchange) (packet : Packet) :
    (s.takePacket packet).tables.outputs = s.tables.outputs ∧
      (s.takePacket packet).tables.receiveMessagesDone = s.tables.receiveMessagesDone ∧
      (s.takePacket packet).posts = s.posts ∧
      (s.takePacket packet).arrived = s.arrived ++ [packet] := by
  rw [takePacket, CollectiveTables.runReceiveCallback]
  dsimp only
  split <;> split <;> exact ⟨rfl, rfl, rfl, rfl⟩

theorem takePacket_holdsMutex {packet : Packet}
    (hSize : memcpyS packet.data.length packet.data.length ≠ .eok) :
    (s.takePacket packet).loop.holdsMutex = true := by
  have hRun : (s.tables.runReceiveCallback packet).1 =
      .error (memcpyError (memcpyS packet.data.length packet.data.length)) := by
    rw [CollectiveTables.runReceiveCallback]
    dsimp only
    rw [if_pos hSize]
  rw [takePacket, hRun]
  rfl

theorem Settles.deliver (h : s.Settles) (hIdle : s.loop = .idle) (packet : Packet) :
    (s.takePacket packet).Settles := by
  obtain ⟨hMatched, hWritten⟩ := h.running (by rw [hIdle]; rfl)
  obtain ⟨hOutputs, hDone, hPosts, hArrived⟩ := takePacket_tables s packet
  by_cases hSize : memcpyS packet.data.length packet.data.length = .eok
  · refine .of_running ?_ ?_
    · rw [takePacket_received]
      exact (hMatched.send hSize).deliver hIdle (nextPacket_snoc s packet)
    · rw [Written, hOutputs, hDone]
      simp only [postsFor, hPosts]
      exact hWritten
  · refine ⟨?_, by rw [hPosts]; exact h.distinct, fun hFree => ?_⟩
    · intro output value hValue
      rw [hOutputs] at hValue
      obtain ⟨rankId, k, data, hPost, hMessage, hData⟩ := h.given output value hValue
      refine ⟨rankId, k, data, ?_, ?_, hData⟩
      · rw [postsFor, hPosts]
        exact hPost
      · rw [arrivals, hArrived]
        refine kth_of_isPrefix ?_ hMessage
        rw [lane_snoc]
        split
        · exact List.prefix_append _ _
        · exact List.prefix_rfl
    · rw [takePacket_holdsMutex hSize] at hFree
      cases hFree

theorem Written.takeData {tables : CollectiveTables} {posts : List (UInt32 × Output)}
    {key : RankRequest} {output : Output}
    (hPost : kth (lane Prod.fst Prod.snd key.1 posts) key.2 = some output)
    (h : ∀ other value, other ≠ output → tables.outputs.lookup other = some value →
      ∃ key' : RankRequest, key' ≠ key ∧
        kth (lane Prod.fst Prod.snd key'.1 posts) key'.2 = some other ∧
        tables.receiveMessagesDone.getD key' false = true)
    (s : Exchange) (loop : ReceiveLoop) :
    Written { s with tables := tables.takeData key output, posts := posts, loop := loop } := by
  intro other value hValue
  change (tables.outputs.insert output _).lookup other = _ at hValue
  by_cases hOther : other = output
  · refine ⟨key, by rw [hOther]; exact hPost, ?_⟩
    exact (Table.getD_insert _ _ _ _ _).trans (if_pos rfl)
  · rw [Table.lookup_insert, if_neg hOther] at hValue
    obtain ⟨key', hKey, hPost', hDone⟩ := h other value hOther hValue
    exact ⟨key', hPost', (Table.getD_insert _ _ _ _ _).trans ((if_neg hKey).trans hDone)⟩

theorem Settles.runCallback (h : s.Settles) {key : RankRequest} {output : Output}
    (hLoop : s.loop = .found key) (hOutput : s.tables.receiveCallbacks.lookup key = some output) :
    Settles { s with tables := s.tables.takeData key output, loop := .ran key } := by
  obtain ⟨hMatched, hWritten⟩ := h.running (by rw [hLoop]; rfl)
  have hPhase : (s.received.meeting key).phase = .found := by
    change s.loop.phase key = .found
    rw [hLoop]
    exact if_pos rfl
  have hPost : kth (s.postsFor key.1) key.2 = some output :=
    ((hMatched.meetings key).callback_of_found hPhase).symm.trans hOutput
  refine .of_running (hMatched.runCallback hLoop hOutput) (.takeData hPost ?_ s _)
  intro other value hOther hValue
  obtain ⟨key', hPost', hDone⟩ := hWritten other value hValue
  refine ⟨key', ?_, hPost', hDone⟩
  rintro rfl
  exact hOther (Option.some.inj (hPost'.symm.trans hPost))

theorem Written.post (h : s.Written) (rankId : UInt32) (output : Output) :
    ∀ other value, s.tables.outputs.lookup other = some value →
      ∃ key : RankRequest, key ≠ Matched.postKey s rankId ∧
        kth (lane Prod.fst Prod.snd key.1 (s.posts ++ [(rankId, output)])) key.2 = some other ∧
        Table.getD (s.tables.receiveMessagesDone.insert (Matched.postKey s rankId) false) key
          false = true := by
  intro other value hValue
  obtain ⟨key, hPost, hDone⟩ := h other value hValue
  have hKey : key ≠ Matched.postKey s rankId := by
    rintro rfl
    rw [Matched.postKey, kth_length_succ] at hPost
    cases hPost
  refine ⟨key, hKey, ?_, ?_⟩
  · exact (kth_lane_snoc _ _).trans ((if_neg hKey).trans hPost)
  · rw [Table.getD_insert, if_neg hKey]
    exact hDone

theorem Settles.receive (h : s.Settles) (hFree : s.loop.holdsMutex = false) (rankId : UInt32)
    {output : Output} (hFresh : output ∉ s.posts.map Prod.snd) :
    Settles { s with
      tables := (s.tables.postReceive rankId output).2
      posts := s.posts ++ [(rankId, output)] } := by
  obtain ⟨hMatched, hWritten⟩ := h.running hFree
  have hTables : (s.tables.postReceive rankId output).2 = _ :=
    Matched.posted_tables hMatched rankId output
  refine .of_running (hMatched.receive rankId hFresh) ?_
  have hOld := hWritten.post rankId output
  rw [hTables]
  dsimp only
  split
  · refine .takeData ?_ (fun other value _ => hOld other value) s s.loop
    exact (Matched.posted_post rankId output _).trans (if_pos rfl)
  · intro other value hValue
    obtain ⟨key, _, hPost, hDone⟩ := hOld other value hValue
    exact ⟨key, hPost, hDone⟩

theorem Settles.waitTurn (h : s.Settles) (hFree : s.loop.holdsMutex = false)
    (requestId : RankRequest) (timedOut : Bool) :
    Settles { s with tables := (s.tables.collectiveWaitTurn requestId timedOut).2 } := by
  obtain ⟨hMatched, hWritten⟩ := h.running hFree
  refine .of_running (hMatched.waitTurn requestId timedOut) ?_
  intro output value hValue
  have hTables : (s.tables.collectiveWaitTurn requestId timedOut).2.outputs = s.tables.outputs ∧
      ∀ key, (s.tables.collectiveWaitTurn requestId timedOut).2.receiveMessagesDone.getD key false =
        s.tables.receiveMessagesDone.getD key false := by
    have hDone (key : RankRequest) :
        (s.tables.receiveMessagesDone.subscript requestId false).getD key false =
          s.tables.receiveMessagesDone.getD key false := by
      rw [Table.subscript, Table.getD_insert]
      split
      · next hKey => rw [hKey]
      · rfl
    rw [CollectiveTables.collectiveWaitTurn]
    split <;> exact ⟨rfl, hDone⟩
  rw [hTables.1] at hValue
  obtain ⟨key, hPost, hDone⟩ := hWritten output value hValue
  exact ⟨key, hPost, (hTables.2 key).trans hDone⟩

theorem step_of_holdsMutex (hLocked : s.loop.holdsMutex = true) (hStep : s.step l = some s') :
    ∃ sent, s' = { s with sent := sent } := by
  obtain ⟨fault, hLoop⟩ : ∃ fault, s.loop = .raised fault := by
    cases hLoop : s.loop with
    | raised fault => exact ⟨fault, rfl⟩
    | idle | found | ran =>
      rw [hLoop] at hLocked
      cases hLocked
  cases l with
  | receive nodeRole rankId output =>
    simp only [step, hLocked, if_true] at hStep
    split at hStep
    · cases hStep
    · cases hStep
      exact ⟨s.sent, rfl⟩
  | waitTurn requestId timedOut =>
    simp only [step, hLocked, if_true] at hStep
    cases hStep
  | send sender tracker nodeRole rankId data size =>
    cases moves_of_step hStep with
    | nothing => exact ⟨s.sent, rfl⟩
    | send => exact ⟨_, rfl⟩
  | deliver sender =>
    simp only [step, hLoop, reduceCtorEq, if_false] at hStep
  | runCallback =>
    simp only [step, hLoop] at hStep
    cases hStep
  | eraseCallback =>
    simp only [step, hLoop] at hStep
    cases hStep

/-- Every receive has an output of its own; otherwise a later receive overwrites what an earlier
one was given. -/
def freshOutput (s : Exchange) : ExchangeLabel → Bool
  | .receive _ _ (some output) => output ∉ s.posts.map Prod.snd
  | _ => true

theorem Settles.step (h : s.Settles) (hFresh : s.freshOutput l = true)
    (hStep : s.step l = some s') : s'.Settles := by
  cases hLocked : s.loop.holdsMutex with
  | true =>
    obtain ⟨sent, rfl⟩ := step_of_holdsMutex hLocked hStep
    exact ⟨h.given, h.distinct, h.running⟩
  | false =>
    cases moves_of_step hStep with
    | nothing => exact h
    | send => exact ⟨h.given, h.distinct, h.running⟩
    | deliver hIdle => exact h.deliver hIdle _
    | runCallback hLoop hOutput => exact h.runCallback hLoop hOutput
    | eraseCallback hLoop =>
      obtain ⟨hMatched, hWritten⟩ := h.running hLocked
      exact .of_running (hMatched.eraseCallback hLoop) hWritten
    | receive => exact h.receive hLocked _ (of_decide_eq_true hFresh)
    | waitTurn requestId timedOut => exact h.waitTurn hLocked requestId timedOut

/-! ## The posts with their roles -/

def rolePosts (s : Exchange) : ExchangeLabel → List ((NodeRole × UInt32) × Output)
  | .receive nodeRole rankId output =>
    match s.tables.collectiveReceiveAsync s.receiver.config nodeRole rankId output, output with
    | .ok _, some output => [((nodeRole, rankId), output)]
    | _, _ => []
  | _ => []

theorem posts_step (hStep : s.step l = some s') :
    s'.posts = s.posts ++ (s.rolePosts l).map fun post => (post.1.2, post.2) := by
  cases l with
  | receive nodeRole rankId output =>
    simp only [step] at hStep
    simp only [rolePosts]
    split at hStep
    · next hReceive =>
      rw [hReceive]
      split at hStep
      · cases hStep
      · cases hStep
        rfl
    · next hRaises =>
      cases hStep
      split
      · next hReceive => exact (hRaises _ _ _ hReceive rfl).elim
      · exact (List.append_nil _).symm
  | deliver =>
    refine Eq.trans ?_ (List.append_nil _).symm
    cases moves_of_step hStep with
    | nothing => rfl
    | deliver => exact (takePacket_tables s _).2.2.1
  | send | runCallback | eraseCallback | waitTurn =>
    refine Eq.trans ?_ (List.append_nil _).symm
    cases moves_of_step hStep <;> rfl

theorem mem_rolePosts {post : (NodeRole × UInt32) × Output} (h : post ∈ s.rolePosts l) :
    post.1 ∈ l.node := by
  cases l with
  | receive nodeRole rankId output =>
    simp only [rolePosts] at h
    split at h
    · rw [List.mem_singleton.mp h]
      rfl
    · cases h
  | send | deliver | runCallback | eraseCallback | waitTurn => cases h

theorem mem_arrived_step (hStep : s.step l = some s') {packet : Packet}
    (hPacket : packet ∈ s'.arrived) : packet ∈ s.arrived ∨ packet.sender ∈ l.node := by
  cases moves_of_step hStep with
  | deliver _ hNext =>
    rw [(takePacket_tables s _).2.2.2] at hPacket
    rcases List.mem_append.mp hPacket with hOld | hNew
    · exact .inl hOld
    · obtain ⟨next, _, hSender, hNext⟩ := mem_lane.mp (List.mem_of_getElem? hNext)
      rw [List.mem_singleton.mp hNew, ← hNext, id, hSender]
      exact .inr rfl
  | nothing | send | runCallback | eraseCallback | receive | waitTurn => exact .inl hPacket

end Exchange

namespace RoleExchange

def new (receiver : NodeView) : RoleExchange := ⟨.new receiver, []⟩

def step (s : RoleExchange) (l : ExchangeLabel) : Option RoleExchange :=
  (s.exchange.step l).map fun exchange => ⟨exchange, s.posts ++ s.exchange.rolePosts l⟩

def postsFor (s : RoleExchange) (node : NodeRole × UInt32) : List Output :=
  lane Prod.fst Prod.snd node s.posts

def arrivalsFrom (s : RoleExchange) (node : NodeRole × UInt32) : List Bytes :=
  lane Packet.sender Packet.data node s.exchange.arrived

/-- No message and no receive so far has this rank id with another role. -/
def UsesRole (s : RoleExchange) (node : NodeRole × UInt32) : Prop :=
  (∀ packet ∈ s.exchange.arrived, packet.rankId = node.2 → packet.sender = node) ∧
    ∀ post ∈ s.posts, post.1.2 = node.2 → post.1 = node

instance (s : RoleExchange) (node : NodeRole × UInt32) : Decidable (s.UsesRole node) :=
  inferInstanceAs (Decidable (_ ∧ _))

/-- Each rank id is used with one role, by the messages that come and by the receives. -/
def oneRole (s : RoleExchange) (l : ExchangeLabel) : Prop :=
  s.exchange.freshOutput l = true ∧ ∀ node ∈ l.node, s.UsesRole node

instance (s : RoleExchange) (l : ExchangeLabel) : Decidable (s.oneRole l) :=
  inferInstanceAs (Decidable (_ ∧ _))

structure Unmixed (s : RoleExchange) : Prop where
  settles : s.exchange.Settles
  posts : s.exchange.posts = s.posts.map fun post => (post.1.2, post.2)
  roles : ∀ rankId, ∃ role, s.UsesRole (role, rankId)

variable {s s' : RoleExchange} {l : ExchangeLabel} {node : NodeRole × UInt32}

theorem UsesRole.step (h : s.UsesRole node)
    (hLabel : ∀ named ∈ l.node, named.2 = node.2 → named = node) (hStep : s.step l = some s') :
    s'.UsesRole node := by
  obtain ⟨exchange, hExchange, rfl⟩ := Option.map_eq_some_iff.mp hStep
  constructor
  · intro packet hPacket hRank
    rcases Exchange.mem_arrived_step hExchange hPacket with hOld | hNew
    · exact h.1 packet hOld hRank
    · exact hLabel _ hNew hRank
  · intro post hPost hRank
    rcases List.mem_append.mp hPost with hOld | hNew
    · exact h.2 post hOld hRank
    · exact hLabel _ (Exchange.mem_rolePosts hNew) hRank

/-- A step about a rank id fixes its role, and every other step leaves it. -/
theorem exists_usesRole_step (h : ∀ node ∈ l.node, s.UsesRole node) {rankId : UInt32}
    (hRoles : ∃ role, s.UsesRole (role, rankId)) (hStep : s.step l = some s') :
    ∃ role, s'.UsesRole (role, rankId) := by
  by_cases hNamed : ∃ node ∈ l.node, node.2 = rankId
  · obtain ⟨node, hNode, rfl⟩ := hNamed
    refine ⟨node.1, (h node hNode).step ?_ hStep⟩
    intro named hSame _
    exact Option.mem_unique hSame hNode
  · obtain ⟨role, hRole⟩ := hRoles
    refine ⟨role, hRole.step ?_ hStep⟩
    intro named hNode hRank
    exact absurd ⟨named, hNode, hRank⟩ hNamed

theorem Unmixed.step (h : s.Unmixed) (hOk : s.oneRole l) (hStep : s.step l = some s') :
    s'.Unmixed := by
  obtain ⟨exchange, hExchange, hNext⟩ := Option.map_eq_some_iff.mp hStep
  refine ⟨?_, ?_, fun rankId => exists_usesRole_step hOk.2 (h.roles rankId) hStep⟩
  · rw [← hNext]
    exact h.settles.step hOk.1 hExchange
  · rw [← hNext, Exchange.posts_step hExchange, h.posts, List.map_append]

theorem Unmixed.new (receiver : NodeView) : Unmixed (.new receiver) where
  settles := .new receiver
  posts := rfl
  roles rankId := by
    refine ⟨.server, ?_, ?_⟩
    · intro packet hPacket
      cases hPacket
    · intro post hPost
      cases hPost

theorem UsesRole.postsFor_eq (h : s.UsesRole node)
    (hPosts : s.exchange.posts = s.posts.map fun post => (post.1.2, post.2)) :
    s.exchange.postsFor node.2 = s.postsFor node := by
  rw [Exchange.postsFor, hPosts, lane, List.filterMap_map]
  apply List.filterMap_congr
  intro post hPost
  exact if_congr ⟨h.2 post hPost, fun hNode => hNode ▸ rfl⟩ rfl rfl

theorem UsesRole.arrivalsFrom_eq (h : s.UsesRole node) :
    s.exchange.arrivals node.2 = s.arrivalsFrom node := by
  apply List.filterMap_congr
  intro packet hPacket
  exact if_congr ⟨h.1 packet hPacket, fun hNode => hNode ▸ rfl⟩ rfl rfl

end RoleExchange

/-- In every run in which each rank id is used with one role, what a receive was given is the
message of its number from the node that it names. -/
theorem receives_keep_roles (receiver : NodeView) (labels : List ExchangeLabel) (s : RoleExchange)
    (hRun : exec (restrict RoleExchange.oneRole RoleExchange.step) (.new receiver) labels = some s)
    (node : NodeRole × UInt32) (k : Nat) (output : Output) (value : VectorPtr)
    (hPost : kth (s.postsFor node) k = some output)
    (hValue : s.exchange.tables.outputs.lookup output = some value) :
    ∃ data, value = some data ∧ kth (s.arrivalsFrom node) k = some data := by
  have hUnmixed : s.Unmixed := by
    refine exec_invariant (P := RoleExchange.Unmixed) ?_ (.new receiver) hRun
    intro s l s' h hStep
    obtain ⟨hOk, hStep⟩ := restrict_eq_some.mp hStep
    exact h.step hOk hStep
  have hUses : s.UsesRole node := by
    obtain ⟨role, hRole⟩ := hUnmixed.roles node.2
    obtain ⟨post, hMem, hNode, _⟩ := mem_lane.mp (kth_mem hPost)
    have hSame : post.1 = (role, node.2) := hRole.2 post hMem (by rw [hNode])
    rwa [← hSame, hNode] at hRole
  rw [← hUses.postsFor_eq hUnmixed.posts] at hPost
  rw [← hUses.arrivalsFrom_eq]
  obtain ⟨rankId, k', data, hPost', hMessage, hData⟩ := hUnmixed.settles.given output value hValue
  obtain ⟨rfl, rfl⟩ := Prod.mk.inj (kth_lane_inj hUnmixed.settles.distinct hPost' hPost)
  exact ⟨data, hData, hMessage⟩

theorem receives_keep_roles_two_roles :
    ∃ s, exec (restrict RoleExchange.oneRole RoleExchange.step) (.new (serverAt 1))
        [.receive .server 1 (some 7), .send twoServers .new .server 1 (some [9]) 1,
          .send (serverAt 1) .new .server 1 (some [4]) 1, .deliver (.worker, 0),
          .deliver (.server, 1), .runCallback, .eraseCallback, .receive .worker 0 (some 8)] =
        some s ∧
      kth (s.postsFor (.worker, 0)) 1 = some 8 ∧
      s.exchange.tables.outputs.lookup 8 = some (some [9]) ∧
      ∃ data, some [9] = some data ∧ kth (s.arrivalsFrom (.worker, 0)) 1 = some data := by
  obtain ⟨s, hRun, hPost, hValue⟩ : ∃ s,
      exec (restrict RoleExchange.oneRole RoleExchange.step) (.new (serverAt 1))
        [.receive .server 1 (some 7), .send twoServers .new .server 1 (some [9]) 1,
          .send (serverAt 1) .new .server 1 (some [4]) 1, .deliver (.worker, 0),
          .deliver (.server, 1), .runCallback, .eraseCallback, .receive .worker 0 (some 8)] =
        some s ∧
      kth (s.postsFor (.worker, 0)) 1 = some 8 ∧
      s.exchange.tables.outputs.lookup 8 = some (some [9]) := ⟨_, rfl, rfl, rfl⟩
  exact ⟨s, hRun, hPost, hValue, receives_keep_roles _ _ s hRun (.worker, 0) 1 8 _ hPost hValue⟩

/-- The receive for server 0 is given the message of worker 0, and nothing has come from
server 0. -/
theorem receive_given_other_role :
    ∃ s, exec RoleExchange.step (.new (serverAt 1))
        [.receive .server 0 (some 7), .send twoServers .new .server 1 (some [9]) 1,
          .deliver (.worker, 0), .runCallback, .eraseCallback] = some s ∧
      kth (s.postsFor (.server, 0)) 1 = some 7 ∧
      s.exchange.tables.outputs.lookup 7 = some (some [9]) ∧
      s.arrivalsFrom (.server, 0) = [] :=
  ⟨_, rfl, rfl, rfl, rfl⟩

end PsRpc
