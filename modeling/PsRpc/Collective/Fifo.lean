import PsRpc.Collective.Meeting

/-! # Collective messages come in order, once, and to the receive of their number -/

namespace PsRpc

open Execution Lanes

theorem collectiveSendAsync_ok {view : NodeView} {tracker tracker' : MessageTracker}
    {nodeRole : NodeRole} {rankId : UInt32} {data : DataPtr} {size id : Nat} {packet : Packet}
    (h : collectiveSendAsync view tracker nodeRole rankId data size = .ok (id, packet, tracker')) :
    ∃ bytes, data = some bytes ∧ packet.data = bytes.take size ∧
      packet.sender = (view.role, view.rankId) := by
  cases data with
  | none => cases h
  | some bytes =>
    obtain ⟨_, _, h⟩ := bind_eq_ok h
    split at h
    · obtain ⟨_, _, h⟩ := bind_eq_ok h
      cases h
      exact ⟨bytes, rfl, rfl, rfl⟩
    · cases h

theorem collectiveReceiveAsync_ok {t t' : CollectiveTables} {config : ClusterConfig}
    {nodeRole : NodeRole} {rankId : UInt32} {output : Output} {key : RankRequest}
    (h : t.collectiveReceiveAsync config nodeRole rankId (some output) = .ok (key, t')) :
    t' = (t.postReceive rankId output).2 := by
  obtain ⟨_, hOutput, h⟩ := bind_eq_ok h
  cases hOutput
  split at h
  · rw [Except.ok.inj h]
  · cases h

namespace Exchange

variable {s s' : Exchange} {l : ExchangeLabel}

inductive Moves (s : Exchange) : ExchangeLabel → Exchange → Prop
  | nothing (label : ExchangeLabel) : Moves s label s
  | send {sender tracker nodeRole rankId bytes size packet}
      (hData : packet.data = bytes.take size)
      (hSender : packet.sender = (sender.role, sender.rankId)) :
      Moves s (.send sender tracker nodeRole rankId (some bytes) size)
        { s with sent := s.sent ++ [packet] }
  | deliver {sender packet} (hIdle : s.loop = .idle) (hNext : s.nextPacket sender = some packet) :
      Moves s (.deliver sender) (s.takePacket packet)
  | runCallback {key output} (hLoop : s.loop = .found key)
      (hOutput : s.tables.receiveCallbacks.lookup key = some output) :
      Moves s .runCallback { s with tables := s.tables.takeData key output, loop := .ran key }
  | eraseCallback {key} (hLoop : s.loop = .ran key) :
      Moves s .eraseCallback
        { s with
          tables := { s.tables with receiveCallbacks := s.tables.receiveCallbacks.erase key }
          loop := .idle }
  | receive {nodeRole rankId output} :
      Moves s (.receive nodeRole rankId (some output))
        { s with
          tables := (s.tables.postReceive rankId output).2
          posts := s.posts ++ [(rankId, output)] }
  | waitTurn (requestId timedOut) :
      Moves s (.waitTurn requestId timedOut)
        { s with tables := (s.tables.collectiveWaitTurn requestId timedOut).2 }

theorem moves_of_step (hStep : s.step l = some s') : Moves s l s' := by
  cases l with
  | send sender tracker nodeRole rankId data size =>
    simp only [step] at hStep
    split at hStep
    · cases hStep
      exact .nothing _
    · next hSend =>
      obtain ⟨bytes, rfl, hData, hSender⟩ := collectiveSendAsync_ok hSend
      split at hStep
      · cases hStep
        exact .send hData hSender
      · cases hStep
        exact .nothing _
  | deliver sender =>
    simp only [step] at hStep
    split at hStep
    · next hIdle =>
      obtain ⟨packet, hNext, rfl⟩ := Option.map_eq_some_iff.mp hStep
      exact .deliver hIdle hNext
    · cases hStep
  | runCallback =>
    simp only [step] at hStep
    split at hStep
    · next key hLoop =>
      obtain ⟨output, hOutput, rfl⟩ := Option.map_eq_some_iff.mp hStep
      exact .runCallback hLoop hOutput
    · cases hStep
  | eraseCallback =>
    simp only [step] at hStep
    split at hStep
    · next key hLoop =>
      cases hStep
      exact .eraseCallback hLoop
    · cases hStep
  | receive nodeRole rankId output =>
    simp only [step] at hStep
    split at hStep
    · next hReceive =>
      split at hStep
      · cases hStep
      · cases hStep
        rw [collectiveReceiveAsync_ok hReceive]
        exact .receive
    · cases hStep
      exact .nothing _
  | waitTurn requestId timedOut =>
    simp only [step] at hStep
    split at hStep
    · cases hStep
    · cases hStep
      exact .waitTurn requestId timedOut

theorem Matched.step (h : Matched s) (hRegular : s.regular l = true)
    (hStep : s.step l = some s') : Matched s' := by
  cases moves_of_step hStep with
  | nothing => exact h
  | send hData =>
    rw [regular, Bool.and_eq_true, decide_eq_true_iff, decide_eq_true_iff, ← hData] at hRegular
    exact h.send ((memcpyS_self_eq_eok_iff _).mpr hRegular)
  | deliver hIdle hNext => exact h.deliver hIdle hNext
  | runCallback hLoop hOutput => exact h.runCallback hLoop hOutput
  | eraseCallback hLoop => exact h.eraseCallback hLoop
  | receive => exact h.receive _ (of_decide_eq_true hRegular)
  | waitTurn requestId timedOut => exact h.waitTurn requestId timedOut

def serversOnly : ExchangeLabel → Bool
  | .send sender _ _ _ _ _ => sender.role = .server
  | _ => true

def FromServers (s : Exchange) : Prop := ∀ packet ∈ s.sent, packet.sender.1 = .server

theorem takePacket_sent (s : Exchange) (packet : Packet) :
    (s.takePacket packet).sent = s.sent := by
  rw [takePacket]
  dsimp only
  split <;> rfl

theorem FromServers.step (h : FromServers s) (hServer : serversOnly l = true)
    (hStep : s.step l = some s') : FromServers s' := by
  cases moves_of_step hStep with
  | send _ hSender =>
    intro packet hPacket
    rcases List.mem_append.mp hPacket with hOld | hNew
    · exact h packet hOld
    · rw [List.mem_singleton.mp hNew, hSender]
      exact of_decide_eq_true hServer
  | deliver =>
    rw [FromServers, takePacket_sent]
    exact h
  | nothing | runCallback | eraseCallback | receive | waitTurn => exact h

/-- The messages that have arrived from a rank are the first of those that the server of this rank
has sent. -/
theorem arrivals_isPrefix (h : Matched s) (hServers : FromServers s) (rankId : UInt32) :
    s.arrivals rankId <+: s.sentBy (.server, rankId) := by
  have hSame : s.arrivals rankId = lane Packet.sender Packet.data (.server, rankId) s.arrived := by
    apply List.filterMap_congr
    intro packet hArrived
    have hSent : packet ∈ s.sent := by
      have hLane : packet ∈ lane Packet.sender id packet.sender s.arrived :=
        mem_lane.mpr ⟨packet, hArrived, rfl, rfl⟩
      obtain ⟨packet', hPacket, _, rfl⟩ := mem_lane.mp ((h.fifo packet.sender).subset hLane)
      exact hPacket
    have hRole : packet.messageMeta.role = .server := hServers packet hSent
    refine if_congr ?_ rfl rfl
    rw [Packet.sender, Packet.rankId, hRole, Prod.mk.injEq]
    exact (and_iff_right rfl).symm
  have hMap := (h.fifo (.server, rankId)).map Packet.data
  rw [← lane_eq_map, ← lane_eq_map] at hMap
  rw [hSame]
  exact hMap

def collective (s : Exchange) (l : ExchangeLabel) : Prop :=
  s.regular l = true ∧ serversOnly l = true

instance (s : Exchange) (l : ExchangeLabel) : Decidable (s.collective l) :=
  inferInstanceAs (Decidable (_ ∧ _))

end Exchange

/-- `receive_messages_done_` of the `k`-th key of a rank is set only when the output of the `k`-th
receive for the rank holds the payload of the `k`-th message that the server of this rank has
sent. While the event loop is not inside of `RunReceiveCallback`, it is set exactly when both are
there, `received_data_` holds exactly the messages without a receive, and `receive_callbacks_`
exactly the receives without a message. -/
theorem collective_exchange_fifo (receiver : NodeView) (labels : List ExchangeLabel) (s : Exchange)
    (hRun : exec (restrict Exchange.collective Exchange.step) (.new receiver) labels = some s)
    (rankId : UInt32) (k : Nat) :
    s.arrivals rankId <+: s.sentBy (.server, rankId) ∧
    (s.tables.receiveMessagesDone.getD (rankId, k) false = true →
      ∃ output data, kth (s.postsFor rankId) k = some output ∧
        kth (s.sentBy (.server, rankId)) k = some data ∧
        s.tables.outputs.lookup output = some (some data)) ∧
    (s.loop = .idle →
      (s.tables.receiveMessagesDone.getD (rankId, k) false = true ↔
        (kth (s.postsFor rankId) k).isSome ∧ (kth (s.arrivals rankId) k).isSome) ∧
      (∀ data, s.tables.receivedData.lookup (rankId, k) = some data ↔
        ∃ bytes, data = some bytes ∧ kth (s.arrivals rankId) k = some bytes ∧
          kth (s.postsFor rankId) k = none) ∧
      ∀ output, s.tables.receiveCallbacks.lookup (rankId, k) = some output ↔
        kth (s.postsFor rankId) k = some output ∧ kth (s.arrivals rankId) k = none) := by
  obtain ⟨hMatched, hServers⟩ : s.Matched ∧ s.FromServers := by
    refine exec_invariant (P := fun s => s.Matched ∧ s.FromServers) ?_ ⟨.new receiver, nofun⟩ hRun
    rintro s l s' ⟨hMatched, hServers⟩ hStep
    obtain ⟨⟨hRegular, hServer⟩, hStep⟩ := restrict_eq_some.mp hStep
    exact ⟨hMatched.step hRegular hStep, hServers.step hServer hStep⟩
  have hPrefix := Exchange.arrivals_isPrefix hMatched hServers rankId
  have hMeeting := hMatched.meetings (rankId, k)
  refine ⟨hPrefix, ?_, ?_⟩
  · intro hDone
    obtain ⟨data, output, hMessage, hPost, hValue⟩ := hMeeting.of_done hDone
    refine ⟨output, data, hPost, kth_of_isPrefix hPrefix hMessage, ?_⟩
    change (kth (s.postsFor rankId) k).bind _ = _ at hValue
    rw [show kth (s.postsFor rankId) k = some output from hPost] at hValue
    exact hValue
  · intro hIdle
    have hAway : (s.meeting (rankId, k)).phase = .away := by
      change s.loop.phase _ = .away
      rw [hIdle]
      rfl
    obtain ⟨hDone, hDatum, hCallback⟩ := hMeeting.of_away hAway
    change s.tables.receivedData.lookup (rankId, k) =
      if (kth (s.postsFor rankId) k).isSome then none
      else (kth (s.arrivals rankId) k).map some at hDatum
    change s.tables.receiveCallbacks.lookup (rankId, k) =
      if (kth (s.arrivals rankId) k).isSome then none else kth (s.postsFor rankId) k at hCallback
    refine ⟨hDone, ?_, ?_⟩
    · intro data
      rw [hDatum]
      cases kth (s.postsFor rankId) k with
      | none => cases kth (s.arrivals rankId) k <;> simp [eq_comm]
      | some output => simp
    · intro output
      rw [hCallback]
      cases kth (s.arrivals rankId) k with
      | none => simp
      | some data => simp

def serverAt (rankId : UInt32) : NodeView :=
  { twoServers with role := .server, rankId := rankId }

theorem collective_exchange_fifo_two_messages :
    ∃ s, exec (restrict Exchange.collective Exchange.step) (.new (serverAt 0))
        [.receive .server 1 (some 7), .send (serverAt 1) .new .server 0 (some [5]) 1,
          .send (serverAt 1) .new .server 0 (some [6, 6]) 2, .deliver (.server, 1), .runCallback,
          .eraseCallback, .deliver (.server, 1), .receive .server 1 (some 8)] = some s ∧
      s.tables.receiveMessagesDone.getD (1, 2) false = true ∧
      ∃ output data, kth (s.postsFor 1) 2 = some output ∧
        kth (s.sentBy (.server, 1)) 2 = some data ∧
        s.tables.outputs.lookup output = some (some data) := by
  obtain ⟨s, hRun, hDone⟩ : ∃ s,
      exec (restrict Exchange.collective Exchange.step) (.new (serverAt 0))
        [.receive .server 1 (some 7), .send (serverAt 1) .new .server 0 (some [5]) 1,
          .send (serverAt 1) .new .server 0 (some [6, 6]) 2, .deliver (.server, 1), .runCallback,
          .eraseCallback, .deliver (.server, 1), .receive .server 1 (some 8)] = some s ∧
      s.tables.receiveMessagesDone.getD (1, 2) false = true := ⟨_, rfl, rfl⟩
  exact ⟨s, hRun, hDone, (collective_exchange_fifo _ _ s hRun 1 2).2.1 hDone⟩

end PsRpc
