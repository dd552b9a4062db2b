import PsRpc.Collective.Exchange

/-! # The meeting of a message and a receive

The `k`-th message of a rank and the `k`-th receive for it share one key, and nothing else uses
this key. `Meeting` is what the exchange holds under a key; the two sides come in either order,
and each step of the exchange moves at most one meeting.
-/

namespace PsRpc

open Execution Lanes

inductive MeetingPhase where
  | away
  | found
  | ran
deriving DecidableEq, Repr

/-- `datum` and `callback` are the entries of `received_data_` and `receive_callbacks_`, and `value`
is the output variable of the post. -/
@[ext] structure Meeting where
  message : Option Bytes
  post : Option Output
  datum : Option VectorPtr
  callback : Option Output
  done : Bool
  value : Option VectorPtr
  phase : MeetingPhase

inductive Meeting.Regular : Meeting → Prop
  | empty (value) : Regular ⟨none, none, none, none, false, value, .away⟩
  | message (data value) : Regular ⟨some data, none, some (some data), none, false, value, .away⟩
  | post (output value) : Regular ⟨none, some output, none, some output, false, value, .away⟩
  | found (data output value) :
      Regular ⟨some data, some output, some (some data), some output, false, value, .found⟩
  | ran (data output) :
      Regular ⟨some data, some output, none, some output, true, some (some data), .ran⟩
  | settled (data output) :
      Regular ⟨some data, some output, none, none, true, some (some data), .away⟩

namespace Meeting.Regular

variable {m : Meeting}

theorem arrive (h : m.Regular) (hMessage : m.message = none) (data : Bytes) :
    Regular { m with
      message := some data
      datum := some (some data)
      phase := if m.callback.isSome then .found else .away } := by
  cases h with
  | empty value => exact .message data value
  | post output value => exact .found data output value
  | message | found | ran | settled => cases hMessage

theorem wait (h : m.Regular) (hPost : m.post = none) (hDatum : m.datum = none) (output : Output)
    (value : Option VectorPtr) :
    Regular { m with
      post := some output, callback := some output, done := false, value := value } := by
  cases h with
  | empty => exact .post output value
  | message => cases hDatum
  | post | found | ran | settled => cases hPost

theorem take (h : m.Regular) (hPost : m.post = none) (hDatum : m.datum.isSome) (output : Output) :
    Regular { m with
      post := some output, datum := none, done := true, value := some m.datum.join } := by
  cases h with
  | empty => cases hDatum
  | message data => exact .settled data output
  | post | found | ran | settled => cases hPost

theorem run (h : m.Regular) (hPhase : m.phase = .found) :
    Regular { m with
      datum := none, done := true, value := some m.datum.join, phase := .ran } := by
  cases h with
  | found data output => exact .ran data output
  | empty | message | post | ran | settled => cases hPhase

theorem erase (h : m.Regular) (hPhase : m.phase = .ran) :
    Regular { m with callback := none, phase := .away } := by
  cases h with
  | ran data output => exact .settled data output
  | empty | message | post | found | settled => cases hPhase

theorem callback_of_found (h : m.Regular) (hPhase : m.phase = .found) : m.callback = m.post := by
  cases h with
  | found => rfl
  | empty | message | post | ran | settled => cases hPhase

theorem of_done (h : m.Regular) (hDone : m.done = true) :
    ∃ data output, m.message = some data ∧ m.post = some output ∧ m.value = some (some data) := by
  cases h with
  | ran data output => exact ⟨data, output, rfl, rfl, rfl⟩
  | settled data output => exact ⟨data, output, rfl, rfl, rfl⟩
  | empty | message | post | found => cases hDone

theorem of_away (h : m.Regular) (hPhase : m.phase = .away) :
    (m.done = true ↔ m.post.isSome ∧ m.message.isSome) ∧
      m.datum = (if m.post.isSome then none else m.message.map some) ∧
      m.callback = if m.message.isSome then none else m.post := by
  cases h with
  | empty => simp
  | message => simp
  | post => simp
  | settled => simp
  | found | ran => cases hPhase

end Meeting.Regular

def ReceiveLoop.phase : ReceiveLoop → RankRequest → MeetingPhase
  | .found at_, key => if key = at_ then .found else .away
  | .ran at_, key => if key = at_ then .ran else .away
  | _, _ => .away

namespace Exchange

def meeting (s : Exchange) (key : RankRequest) : Meeting where
  message := kth (s.arrivals key.1) key.2
  post := kth (s.postsFor key.1) key.2
  datum := s.tables.receivedData.lookup key
  callback := s.tables.receiveCallbacks.lookup key
  done := s.tables.receiveMessagesDone.getD key false
  value := (kth (s.postsFor key.1) key.2).bind fun output => s.tables.outputs.lookup output
  phase := s.loop.phase key

structure Matched (s : Exchange) : Prop where
  sizes : ∀ packet ∈ s.sent, memcpyS packet.data.length packet.data.length = .eok
  fifo : ∀ sender, lane Packet.sender id sender s.arrived <+: lane Packet.sender id sender s.sent
  actual : ∀ rankId, s.tables.actualRankRequestIds.getD rankId 0 = (s.arrivals rankId).length
  expected : ∀ rankId, s.tables.expectedRankRequestIds.getD rankId 0 = (s.postsFor rankId).length
  outputs : (s.posts.map Prod.snd).Nodup
  meetings : ∀ key, (s.meeting key).Regular
  loop : s.loop.holdsMutex = false

end Exchange

theorem nextRankRequestId_fst (ids : Table UInt32 Nat) (rankId : UInt32) :
    (nextRankRequestId ids rankId).1 = ids.getD rankId 0 + 1 := by
  rw [nextRankRequestId, Table.getD]
  split
  · next h => rw [h]; rfl
  · next h => rw [h]; rfl

theorem nextRankRequestId_getD (ids : Table UInt32 Nat) (rankId rankId' : UInt32) :
    (nextRankRequestId ids rankId).2.getD rankId' 0 =
      ids.getD rankId' 0 + if rankId = rankId' then 1 else 0 := by
  have hSnd : (nextRankRequestId ids rankId).2 =
      ids.insert rankId (nextRankRequestId ids rankId).1 := by
    rw [nextRankRequestId]
    split <;> rfl
  rw [hSnd, nextRankRequestId_fst, Table.getD, Table.lookup_insert]
  by_cases hRank : rankId' = rankId
  · rw [if_pos hRank, if_pos hRank.symm, hRank]
    rfl
  · rw [if_neg hRank, if_neg (Ne.symm hRank)]
    rfl

theorem CollectiveTables.runReceiveCallback_eq {t : CollectiveTables} {packet : Packet} {n : Nat}
    (hNext : (nextRankRequestId t.actualRankRequestIds packet.rankId).1 = n)
    (hSize : memcpyS packet.data.length packet.data.length = .eok) :
    t.runReceiveCallback packet =
      (.ok (if (t.receiveCallbacks.lookup (packet.rankId, n)).isSome then some (packet.rankId, n)
        else none),
      { t with
        actualRankRequestIds := (nextRankRequestId t.actualRankRequestIds packet.rankId).2
        receivedData := t.receivedData.insert (packet.rankId, n) (some packet.data) }) := by
  subst hNext
  exact if_neg (not_not.mpr hSize)

theorem CollectiveTables.postReceive_snd {t : CollectiveTables} {rankId : UInt32} {n : Nat}
    (hNext : (nextRankRequestId t.expectedRankRequestIds rankId).1 = n) (output : Output) :
    (t.postReceive rankId output).2 =
      let marked := { t with
        expectedRankRequestIds := (nextRankRequestId t.expectedRankRequestIds rankId).2
        receiveMessagesDone := t.receiveMessagesDone.insert (rankId, n) false }
      if (t.receivedData.lookup (rankId, n)).isSome then marked.takeData (rankId, n) output
      else { marked with receiveCallbacks := t.receiveCallbacks.insert (rankId, n) output } := by
  subst hNext
  exact apply_ite Prod.snd _ _ _

namespace Exchange.Matched

variable {s : Exchange}

theorem new (receiver : NodeView) : Matched (.new receiver) where
  sizes := nofun
  fifo _ := List.nil_prefix
  actual _ := rfl
  expected _ := rfl
  outputs := List.nodup_nil
  meetings key := by
    have hEmpty : (Exchange.new receiver).meeting key =
        ⟨none, none, none, none, false, none, .away⟩ := by
      simp only [meeting, arrivals, postsFor, Exchange.new, lane, List.filterMap_nil, kth_nil]
      rfl
    rw [hEmpty]
    exact .empty none
  loop := rfl

theorem send (h : Matched s) {packet : Packet}
    (hSize : memcpyS packet.data.length packet.data.length = .eok) :
    Matched { s with sent := s.sent ++ [packet] } where
  sizes := by
    intro packet' hPacket
    rcases List.mem_append.mp hPacket with hOld | hNew
    · exact h.sizes packet' hOld
    · rw [List.mem_singleton.mp hNew]
      exact hSize
  fifo sender := by
    refine (h.fifo sender).trans ?_
    rw [lane_snoc]
    split
    · exact List.prefix_append _ _
    · exact List.prefix_rfl
  actual := h.actual
  expected := h.expected
  outputs := h.outputs
  meetings := h.meetings
  loop := h.loop

theorem nextPacket_mem {sender : NodeRole × UInt32} {packet : Packet}
    (hNext : s.nextPacket sender = some packet) : packet ∈ s.sent ∧ packet.sender = sender := by
  obtain ⟨packet', hPacket, hSender, rfl⟩ := mem_lane.mp (List.mem_of_getElem? hNext)
  exact ⟨hPacket, hSender⟩

def arrivalKey (s : Exchange) (rankId : UInt32) : RankRequest :=
  (rankId, (s.arrivals rankId).length + 1)

theorem takePacket_eq (h : Matched s) (hIdle : s.loop = .idle) {packet : Packet}
    (hSize : memcpyS packet.data.length packet.data.length = .eok) :
    s.takePacket packet =
      { s with
        tables := { s.tables with
          actualRankRequestIds :=
            (nextRankRequestId s.tables.actualRankRequestIds packet.rankId).2
          receivedData :=
            s.tables.receivedData.insert (arrivalKey s packet.rankId) (some packet.data) }
        arrived := s.arrived ++ [packet]
        loop := if (s.tables.receiveCallbacks.lookup (arrivalKey s packet.rankId)).isSome then
            .found (arrivalKey s packet.rankId)
          else .idle } := by
  have hNext : (nextRankRequestId s.tables.actualRankRequestIds packet.rankId).1 =
      (s.arrivals packet.rankId).length + 1 := by
    rw [nextRankRequestId_fst, h.actual]
  rw [takePacket, CollectiveTables.runReceiveCallback_eq hNext hSize, ← arrivalKey]
  by_cases hFound : (s.tables.receiveCallbacks.lookup (arrivalKey s packet.rankId)).isSome
  · rw [if_pos hFound, if_pos hFound]
  · rw [if_neg hFound, if_neg hFound, ← hIdle]

theorem takePacket_meeting (h : Matched s) (hIdle : s.loop = .idle) {packet : Packet}
    (hSize : memcpyS packet.data.length packet.data.length = .eok) (key : RankRequest) :
    (s.takePacket packet).meeting key =
      if key = arrivalKey s packet.rankId then
        { s.meeting key with
          message := some packet.data
          datum := some (some packet.data)
          phase := if (s.meeting key).callback.isSome then .found else .away }
      else s.meeting key := by
  rw [takePacket_eq h hIdle hSize]
  by_cases hKey : key = arrivalKey s packet.rankId
  · rw [if_pos hKey]
    subst hKey
    refine Meeting.ext ?_ rfl ?_ rfl rfl rfl ?_
    · exact (kth_lane_snoc packet _).trans (if_pos rfl)
    · exact AList.lookup_insert _
    · change ReceiveLoop.phase (if _ then _ else _) _ = if _ then _ else _
      by_cases hFound : (s.tables.receiveCallbacks.lookup (arrivalKey s packet.rankId)).isSome
      · rw [if_pos hFound]
        exact (if_pos rfl).trans (if_pos hFound).symm
      · rw [if_neg hFound]
        exact (if_neg hFound).symm
  · rw [if_neg hKey]
    refine Meeting.ext ?_ rfl ?_ rfl rfl rfl ?_
    · exact (kth_lane_snoc packet _).trans (if_neg hKey)
    · exact AList.lookup_insert_ne hKey
    · change ReceiveLoop.phase (if _ then _ else _) key = s.loop.phase key
      rw [hIdle]
      split
      · exact if_neg hKey
      · rfl

theorem deliver (h : Matched s) (hIdle : s.loop = .idle) {sender : NodeRole × UInt32}
    {packet : Packet} (hNext : s.nextPacket sender = some packet) :
    Matched (s.takePacket packet) := by
  obtain ⟨hPacket, hSender⟩ := nextPacket_mem hNext
  have hSize := h.sizes packet hPacket
  have hMeeting := takePacket_meeting h hIdle hSize
  have hEq := takePacket_eq h hIdle hSize
  refine ⟨?_, ?_, ?_, ?_, ?_, ?_, ?_⟩
  · rw [hEq]
    exact h.sizes
  · intro sender'
    rw [hEq, lane_snoc]
    split
    · next hSame =>
      rw [← hSame, hSender]
      exact snoc_isPrefix (h.fifo sender) hNext
    · exact h.fifo sender'
  · intro rankId
    rw [hEq]
    change (nextRankRequestId s.tables.actualRankRequestIds packet.rankId).2.getD rankId 0 =
      (lane Packet.rankId Packet.data rankId (s.arrived ++ [packet])).length
    rw [nextRankRequestId_getD, h.actual, length_lane_snoc]
    rfl
  · rw [hEq]
    exact h.expected
  · rw [hEq]
    exact h.outputs
  · intro key
    rw [hMeeting]
    split
    · next hKey =>
      subst hKey
      exact (h.meetings (arrivalKey s packet.rankId)).arrive (kth_length_succ _) packet.data
    · exact h.meetings key
  · rw [hEq]
    change ReceiveLoop.holdsMutex (if _ then _ else _) = false
    split <;> rfl

theorem value_insert_ne {post : Option Output} {output : Output} (hPost : post ≠ some output)
    (outputs : Table Output VectorPtr) (data : VectorPtr) :
    (post.bind fun out => (outputs.insert output data).lookup out) =
      post.bind fun out => outputs.lookup out := by
  cases post with
  | none => rfl
  | some out => exact AList.lookup_insert_ne fun hSame => hPost (congrArg some hSame)

theorem lookup_takeData (t : CollectiveTables) (key key' : RankRequest) (output : Output) :
    (t.takeData key output).receivedData.lookup key' =
      if key' = key then none else t.receivedData.lookup key' := by
  rw [CollectiveTables.takeData, Table.lookup_erase]
  split
  · rfl
  · next hKey => rw [Table.lookup_subscript, if_neg hKey]

theorem runCallback (h : Matched s) {key : RankRequest} {output : Output}
    (hLoop : s.loop = .found key) (hOutput : s.tables.receiveCallbacks.lookup key = some output) :
    Matched { s with tables := s.tables.takeData key output, loop := .ran key } where
  sizes := h.sizes
  fifo := h.fifo
  actual := h.actual
  expected := h.expected
  outputs := h.outputs
  meetings key' := by
    have hPhase : (s.meeting key).phase = .found := by
      change s.loop.phase key = .found
      rw [hLoop]
      exact if_pos rfl
    have hPost : kth (s.postsFor key.1) key.2 = some output :=
      ((h.meetings key).callback_of_found hPhase).symm.trans hOutput
    by_cases hKey : key' = key
    · subst hKey
      convert (h.meetings key').run hPhase using 1
      refine Meeting.ext rfl rfl ?_ rfl ?_ ?_ (if_pos rfl)
      · exact (lookup_takeData _ _ _ _).trans (if_pos rfl)
      · exact (Table.getD_insert _ _ _ _ _).trans (if_pos rfl)
      · change (kth (s.postsFor key'.1) key'.2).bind _ = _
        rw [hPost]
        exact (AList.lookup_insert _).trans (congrArg some (Table.getD_none _ _))
    · convert h.meetings key' using 1
      refine Meeting.ext rfl rfl ?_ rfl ?_ ?_ ?_
      · exact (lookup_takeData _ _ _ _).trans (if_neg hKey)
      · exact (Table.getD_insert _ _ _ _ _).trans (if_neg hKey)
      · -- the output belongs to the receive of `key` alone
        refine value_insert_ne ?_ _ _
        intro hSame
        exact hKey (kth_lane_inj h.outputs hSame hPost)
      · change (if key' = key then _ else _) = s.loop.phase key'
        rw [hLoop, if_neg hKey]
        exact (if_neg hKey).symm
  loop := rfl

theorem eraseCallback (h : Matched s) {key : RankRequest} (hLoop : s.loop = .ran key) :
    Matched { s with
      tables := { s.tables with receiveCallbacks := s.tables.receiveCallbacks.erase key }
      loop := .idle } where
  sizes := h.sizes
  fifo := h.fifo
  actual := h.actual
  expected := h.expected
  outputs := h.outputs
  meetings key' := by
    by_cases hKey : key' = key
    · subst hKey
      have hPhase : (s.meeting key').phase = .ran := by
        change s.loop.phase key' = .ran
        rw [hLoop]
        exact if_pos rfl
      convert (h.meetings key').erase hPhase using 1
      exact Meeting.ext rfl rfl rfl (AList.lookup_erase _ _) rfl rfl rfl
    · convert h.meetings key' using 1
      refine Meeting.ext rfl rfl rfl (AList.lookup_erase_ne hKey) rfl rfl ?_
      change _ = s.loop.phase key'
      rw [hLoop]
      exact (if_neg hKey).symm
  loop := rfl

theorem waitTurn (h : Matched s) (requestId : RankRequest) (timedOut : Bool) :
    Matched { s with tables := (s.tables.collectiveWaitTurn requestId timedOut).2 } := by
  have hTables : (s.tables.collectiveWaitTurn requestId timedOut).2 =
      { s.tables with
        receiveMessagesDone := s.tables.receiveMessagesDone.subscript requestId false } := by
    rw [CollectiveTables.collectiveWaitTurn]
    split <;> rfl
  rw [hTables]
  refine ⟨h.sizes, h.fifo, h.actual, h.expected, h.outputs, ?_, h.loop⟩
  intro key
  convert h.meetings key using 1
  refine Meeting.ext rfl rfl rfl rfl ?_ rfl rfl
  change (s.tables.receiveMessagesDone.subscript requestId false).getD key false = _
  rw [Table.subscript, Table.getD_insert]
  split
  · next hKey => rw [hKey]; rfl
  · rfl

def postKey (s : Exchange) (rankId : UInt32) : RankRequest :=
  (rankId, (s.postsFor rankId).length + 1)

def posted (s : Exchange) (rankId : UInt32) (output : Output) : Exchange :=
  { s with
    tables := (s.tables.postReceive rankId output).2
    posts := s.posts ++ [(rankId, output)] }

theorem posted_tables (h : Matched s) (rankId : UInt32) (output : Output) :
    (posted s rankId output).tables =
      let marked := { s.tables with
        expectedRankRequestIds := (nextRankRequestId s.tables.expectedRankRequestIds rankId).2
        receiveMessagesDone := s.tables.receiveMessagesDone.insert (postKey s rankId) false }
      if (s.tables.receivedData.lookup (postKey s rankId)).isSome then
        marked.takeData (postKey s rankId) output
      else
        { marked with
          receiveCallbacks := s.tables.receiveCallbacks.insert (postKey s rankId) output } := by
  refine CollectiveTables.postReceive_snd ?_ output
  rw [nextRankRequestId_fst, h.expected]

theorem posted_post (rankId : UInt32) (output : Output) (key : RankRequest) :
    kth ((posted s rankId output).postsFor key.1) key.2 =
      if key = postKey s rankId then some output else kth (s.postsFor key.1) key.2 :=
  kth_lane_snoc _ _

theorem posted_meeting_self (h : Matched s) (rankId : UInt32) (output : Output) :
    ((posted s rankId output).meeting (postKey s rankId)).Regular := by
  have hTables := posted_tables h rankId output
  have hKth := posted_post (s := s) rankId output (postKey s rankId)
  rw [if_pos rfl] at hKth
  have hPost : (s.meeting (postKey s rankId)).post = none := kth_length_succ _
  by_cases hDatum : (s.tables.receivedData.lookup (postKey s rankId)).isSome
  · rw [if_pos hDatum] at hTables
    convert (h.meetings (postKey s rankId)).take hPost hDatum output using 1
    refine Meeting.ext rfl hKth ?_ ?_ ?_ ?_ rfl
    · simp only [meeting, hTables, lookup_takeData, if_true]
    · simp only [meeting, hTables, CollectiveTables.takeData]
    · simp only [meeting, hTables, CollectiveTables.takeData, Table.getD_insert, if_true]
    · simp only [meeting, hKth, hTables, CollectiveTables.takeData, Option.bind_some,
        AList.lookup_insert, Table.getD_none]
  · rw [if_neg hDatum] at hTables
    rw [Bool.not_eq_true, Option.isSome_eq_false_iff, Option.isNone_iff_eq_none] at hDatum
    convert (h.meetings (postKey s rankId)).wait hPost hDatum output
      (s.tables.outputs.lookup output) using 1
    refine Meeting.ext rfl hKth ?_ ?_ ?_ ?_ rfl
    · simp only [meeting, hTables]
    · simp only [meeting, hTables, AList.lookup_insert]
    · simp only [meeting, hTables, Table.getD_insert, if_true]
    · simp only [meeting, hKth, hTables, Option.bind_some]

theorem posted_meeting_ne (h : Matched s) {rankId : UInt32} {output : Output}
    (hFresh : output ∉ s.posts.map Prod.snd) {key : RankRequest} (hKey : key ≠ postKey s rankId) :
    (posted s rankId output).meeting key = s.meeting key := by
  have hTables := posted_tables h rankId output
  have hKth := posted_post (s := s) rankId output key
  rw [if_neg hKey] at hKth
  have hPost : kth (s.postsFor key.1) key.2 ≠ some output := by
    intro hSame
    exact hFresh (lane_sublist.subset (kth_mem hSame))
  by_cases hDatum : (s.tables.receivedData.lookup (postKey s rankId)).isSome
  · rw [if_pos hDatum] at hTables
    refine Meeting.ext rfl hKth ?_ ?_ ?_ ?_ rfl
    · simp only [meeting, hTables, lookup_takeData, if_neg hKey]
    · simp only [meeting, hTables, CollectiveTables.takeData]
    · simp only [meeting, hTables, CollectiveTables.takeData, Table.getD_insert, if_neg hKey]
    · simp only [meeting, hKth, hTables, CollectiveTables.takeData, value_insert_ne hPost]
  · rw [if_neg hDatum] at hTables
    refine Meeting.ext rfl hKth ?_ ?_ ?_ ?_ rfl
    · simp only [meeting, hTables]
    · simp only [meeting, hTables, AList.lookup_insert_ne hKey]
    · simp only [meeting, hTables, Table.getD_insert, if_neg hKey]
    · simp only [meeting, hKth, hTables]

theorem receive (h : Matched s) (rankId : UInt32) {output : Output}
    (hFresh : output ∉ s.posts.map Prod.snd) : Matched (posted s rankId output) := by
  have hCounters : (posted s rankId output).tables.actualRankRequestIds =
      s.tables.actualRankRequestIds ∧
      (posted s rankId output).tables.expectedRankRequestIds =
        (nextRankRequestId s.tables.expectedRankRequestIds rankId).2 := by
    rw [posted_tables h]
    split <;> exact ⟨rfl, rfl⟩
  refine ⟨h.sizes, h.fifo, ?_, ?_, nodup_map_snoc h.outputs hFresh, ?_, h.loop⟩
  · intro rankId'
    rw [hCounters.1]
    exact h.actual rankId'
  · intro rankId'
    change _ = (lane Prod.fst Prod.snd rankId' (s.posts ++ [(rankId, output)])).length
    rw [hCounters.2, nextRankRequestId_getD, h.expected, length_lane_snoc]
    rfl
  · intro key
    by_cases hKey : key = postKey s rankId
    · rw [hKey]
      exact posted_meeting_self h rankId output
    · rw [posted_meeting_ne h hFresh hKey]
      exact h.meetings key

end Exchange.Matched

end PsRpc
