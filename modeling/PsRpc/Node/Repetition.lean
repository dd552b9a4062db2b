import PsRpc.Node.Matching

/-! # A `Send` that names a rank id more than once

Responses are counted for each message, but they are stored under the rank id of the server, so of
several responses of one server the last one stays. `Slot.Gathers` follows the stored responses
and the output of a call without asking for distinct rank ids: the output has, for each rank id
in the list, some answer of that server, and always the same one.
-/

namespace PsRpc

open Execution

namespace Call

/-- A message to the rank id was answered with the data, and the event loop has taken it. -/
def Answered (call : Call) (rankId : UInt32) (data : Bytes) : Prop :=
  ∃ message ∈ call.sent, message.rankId = rankId ∧ message.reply = .handled data

/-- The entries appended to the output are answers, one for each rank id in the list. -/
def Filled (call : Call) : Prop :=
  ∃ f : UInt32 → VectorPtr, call.output = call.request.initial ++ call.request.rankIds.map f ∧
    ∀ rankId ∈ call.request.rankIds, ∃ data, f rankId = some data ∧ call.Answered rankId data

theorem answered_send {call : Call} {rankId other : UInt32} {data sentData : Bytes}
    {todo : List Action} :
    { call with
      sent := call.sent ++ [Message.mk other sentData .pending], todo := todo }.Answered
        rankId data ↔ call.Answered rankId data := by
  simp [Answered]

theorem answered_answer {call call' : Call} {rankId : UInt32} {data other : Bytes} {k : Nat}
    (hAnswer : call.answer k other = some call') :
    call'.Answered rankId data ↔ call.Answered rankId data := by
  obtain ⟨before, _, _, after, hSent, rfl⟩ := answer_eq_some hAnswer
  simp [Answered, hSent, or_and_right, exists_or]

theorem answered_respond {call : Call} {rankId other : UInt32} {data otherData : Bytes} {k : Nat}
    (hResponse : call.response k = some (other, otherData)) :
    (call.setReply k (.handled otherData)).Answered rankId data ↔
      call.Answered rankId data ∨ other = rankId ∧ otherData = data := by
  obtain ⟨before, _, after, hSent, hNew⟩ := response_eq_some hResponse
  rw [hNew]
  simp only [Answered, hSent, List.mem_append, List.mem_cons, or_and_right, exists_or,
    exists_eq_left, Reply.handled.injEq, reduceCtorEq, and_false, false_or]
  exact (or_congr_right or_comm).trans or_assoc.symm

theorem Filled.mono {call call' : Call} (h : call.Filled) (hOutput : call'.output = call.output)
    (hRequest : call'.request = call.request)
    (hAnswered : ∀ rankId data, call.Answered rankId data → call'.Answered rankId data) :
    call'.Filled := by
  obtain ⟨f, hEntries, hAnswers⟩ := h
  rw [Filled, hOutput, hRequest]
  refine ⟨f, hEntries, ?_⟩
  intro rankId hRankId
  obtain ⟨data, hData, hAnswer⟩ := hAnswers rankId hRankId
  exact ⟨data, hData, hAnswered rankId data hAnswer⟩

end Call

/-- The stored responses: one for each rank id that has answered, and every one is an answer. -/
structure Slot.Gathered (slot : Slot) (call : Call) : Prop where
  complete : ∀ rankId data, call.Answered rankId data →
    ∃ stored, AList.lookup rankId (slot.received.getD ∅) = some stored
  sound : ∀ rankId data, AList.lookup rankId (slot.received.getD ∅) = some data →
    call.Answered rankId data

def Slot.Waiting (slot : Slot) : Prop := slot.callback = true ∧ slot.phase ≠ .ran

structure Request.Extending (request : Request) : Prop where
  closure : request.closure = some .extend
  small : request.expected < 2 ^ 32

theorem Request.Extending.closure_ne_none {request : Request} (h : request.Extending) :
    request.closure ≠ none := by
  rw [h.closure]
  exact Option.some_ne_none _

structure Slot.Gathers (slot : Slot) (call : Call) : Prop where
  initial : call.handled = 0 → call.output = call.request.initial
  waiting : call.committed = true → slot.Waiting →
    call.output = call.request.initial ∧ slot.Gathered call
  filled : call.committed = true → ¬ slot.Waiting → call.Filled
  succeeded : call.Succeeded → call.Filled ∧ call.counted = call.request.expected ∧
    call.handled = call.request.expected

namespace Slot

theorem Gathered.respond {slot : Slot} {call : Call} (h : slot.Gathered call) {k : Nat}
    {rankId : UInt32} {data : Bytes} (hResponse : call.response k = some (rankId, data))
    (next : Option Call) (phase : Phase) :
    Gathered
      { slot with
        received := some ((slot.received.getD ∅).insert rankId data), call := next, phase := phase }
      (call.setReply k (.handled data)) := by
  have hLookup (other : UInt32) : AList.lookup other ((slot.received.getD ∅).insert rankId data) =
      if other = rankId then some data else AList.lookup other (slot.received.getD ∅) :=
    Table.lookup_insert ..
  constructor
  · intro other otherData hAnswered
    change ∃ stored, AList.lookup other ((slot.received.getD ∅).insert rankId data) = some stored
    rw [hLookup]
    split
    · exact ⟨data, rfl⟩
    · next hNe =>
      rcases (Call.answered_respond hResponse).mp hAnswered with hOld | ⟨rfl, _⟩
      · exact h.complete other otherData hOld
      · exact absurd rfl hNe
  · intro other otherData hStored
    change AList.lookup other ((slot.received.getD ∅).insert rankId data) = _ at hStored
    rw [hLookup] at hStored
    rw [Call.answered_respond hResponse]
    split at hStored
    · next hEq => exact .inr ⟨hEq.symm, Option.some.inj hStored⟩
    · exact .inl (h.sound other otherData hStored)

theorem Gathered.of_nil {slot : Slot} {call : Call} (hSent : call.sent = [])
    (hReceived : slot.received = none) : slot.Gathered call := by
  constructor
  · rintro rankId data ⟨message, hMem, _⟩
    rw [hSent] at hMem
    cases hMem
  · intro rankId data hLookup
    rw [hReceived] at hLookup
    cases hLookup

theorem Gathered.filled {slot : Slot} {call : Call} (h : slot.Gathered call)
    (hClosure : call.request.closure = some .extend) (hOutput : call.output = call.request.initial)
    (hAll : call.handled = call.sent.length)
    (hRankIds : call.sent.map (·.rankId) = call.request.rankIds) :
    (call.runClosure (slot.received.getD ∅)).Filled := by
  have hRun : call.runClosure (slot.received.getD ∅) = { call with
      output := call.output ++ call.request.rankIds.map (slot.received.getD ∅).lookup } := by
    rw [Call.runClosure, hClosure]
  rw [hRun]
  refine ⟨(slot.received.getD ∅).lookup, by rw [hOutput], ?_⟩
  intro rankId hRankId
  rw [← hRankIds] at hRankId
  obtain ⟨message, hMem, rfl⟩ := List.mem_map.mp hRankId
  have hHandled := Call.all_handled hAll message hMem
  rw [Message.isHandled] at hHandled
  split at hHandled
  · next data hReply =>
    obtain ⟨stored, hStored⟩ := h.complete message.rankId data ⟨message, hMem, rfl, hReply⟩
    exact ⟨stored, hStored, h.sound _ _ hStored⟩
  · cases hHandled

end Slot

namespace Slot.Gathers

theorem congr {slot slot' : Slot} {call call' : Call} (h : slot.Gathers call)
    (hReceived : slot'.received = slot.received) (hWaiting : slot'.Waiting ↔ slot.Waiting)
    (hRequest : call'.request = call.request) (hOutput : call'.output = call.output)
    (hAnswered : ∀ rankId data, call'.Answered rankId data ↔ call.Answered rankId data)
    (hHandled : call'.handled = call.handled)
    (hCommitted : call'.committed = true → call.committed = true)
    (hSucceeded : call'.Succeeded → call.Succeeded ∧ call'.counted = call.counted) :
    slot'.Gathers call' := by
  have hFilled (hOld : call.Filled) : call'.Filled :=
    hOld.mono hOutput hRequest fun rankId data => (hAnswered rankId data).mpr
  constructor
  · rw [hHandled, hOutput, hRequest]
    exact h.initial
  · intro hNext hWait
    obtain ⟨hInitial, hGathered⟩ := h.waiting (hCommitted hNext) (hWaiting.mp hWait)
    rw [hOutput, hRequest]
    refine ⟨hInitial, ?_, ?_⟩
    · intro rankId data hData
      rw [hReceived]
      exact hGathered.complete rankId data ((hAnswered rankId data).mp hData)
    · intro rankId data hLookup
      rw [hReceived] at hLookup
      exact (hAnswered rankId data).mpr (hGathered.sound rankId data hLookup)
  · intro hNext hNot
    exact hFilled (h.filled (hCommitted hNext) fun hWait => hNot (hWaiting.mpr hWait))
  · intro hDone
    obtain ⟨hOld, hCounted⟩ := hSucceeded hDone
    rw [hCounted, hHandled, hRequest]
    exact (h.succeeded hOld).imp_left hFilled

theorem idle_of_succeeded {slot : Slot} {call : Call} (h : slot.Gathers call)
    (hTracked : slot.Tracked call) (hDone : call.Succeeded) : slot.phase = .idle := by
  obtain ⟨_, hCounted, hHandled⟩ := h.succeeded hDone
  exact hTracked.idle_of_complete hDone.ended hCounted hHandled

section Steps

variable {slot : Slot} {call : Call}

theorem setMessageCallback (h : slot.Gathers call) (hKept : slot.Kept)
    (hCall : slot.call = some call) {rest : List Action}
    (hTodo : call.todo = .setMessageCallback :: rest) :
    Gathers { slot with callback := true, call := some { call with todo := rest } }
      { call with todo := rest } := by
  obtain ⟨hStatus, _, hSent, hHandled, _, hIdle⟩ := hKept.regular.of_registering hCall hTodo
  have hReceived := (hKept.stored call hCall).unanswered hHandled
  refine ⟨h.initial, fun _ _ => ⟨h.initial hHandled, .of_nil hSent hReceived⟩, ?_,
    fun hDone => absurd hDone (Call.not_succeeded hStatus)⟩
  intro _ hNot
  refine absurd ⟨rfl, ?_⟩ hNot
  change slot.phase ≠ .ran
  rw [hIdle]
  exact Phase.noConfusion

theorem respond (h : slot.Gathers call) (hRegular : slot.Regular)
    (hCall : slot.call = some call) (hIdle : slot.phase = .idle) {k : Nat} {rankId : UInt32}
    {data : Bytes} (hResponse : call.response k = some (rankId, data)) (next : Option Call) :
    Gathers
      { slot with
        received := some ((slot.received.getD ∅).insert rankId data), call := next
        phase := .stored }
      (call.setReply k (.handled data)) := by
  have hLt := hRegular.handled_lt_of_response hCall hResponse
  constructor
  · intro hZero
    rw [Call.handled_respond hResponse] at hZero
    cases hZero
  · rintro hNext ⟨hCallback, _⟩
    obtain ⟨hInitial, hGathered⟩ :=
      h.waiting hNext ⟨hCallback, by rw [hIdle]; exact Phase.noConfusion⟩
    exact ⟨hInitial, hGathered.respond hResponse next .stored⟩
  · intro hNext hNot
    refine (h.filled hNext fun hWait => hNot ⟨hWait.1, Phase.noConfusion⟩).mono rfl rfl ?_
    intro other otherData hAnswered
    exact (Call.answered_respond hResponse).mpr (.inl hAnswered)
  · intro hDone
    exact absurd (h.succeeded hDone).2.2 (ne_of_lt hLt)

theorem runClosure (h : slot.Gathers call) (hKept : slot.Kept) (hCall : slot.call = some call)
    (hExtending : call.request.Extending) (hPhase : slot.phase = .found) (next : Option Call) :
    Gathers { slot with received := none, call := next, phase := .ran }
      (call.runClosure (slot.received.getD ∅)) := by
  have hClosure := hExtending.closure_ne_none
  constructor
  · intro hZero
    have hPos := hKept.regular.handled_pos hCall (by rw [hPhase]; rfl)
    rw [Call.runClosure_handled] at hZero
    omega
  · intro _ hWait
    exact absurd rfl hWait.2
  · intro hNext _
    rw [Call.runClosure_committed] at hNext
    obtain ⟨_, hAll, hRankIds⟩ := Slot.Matched.complete_of_found hKept hCall hClosure
      hExtending.small hNext hPhase
    have hArmed := (hKept.stored call hCall).armed hClosure hNext
    rw [Slot.Armed, hPhase] at hArmed
    obtain ⟨hInitial, hGathered⟩ :=
      h.waiting hNext ⟨hArmed.1, by rw [hPhase]; exact Phase.noConfusion⟩
    exact hGathered.filled hExtending.closure hInitial hAll hRankIds
  · intro hDone
    rw [Call.runClosure_succeeded] at hDone
    have hIdle := h.idle_of_succeeded (hKept.regular.tracked call hCall) hDone
    rw [hPhase] at hIdle
    cases hIdle

theorem waited (h : slot.Gathers call) (hKept : slot.Kept) (hCall : slot.call = some call)
    (hExtending : call.request.Extending) (hTodo : call.todo = [.wait])
    (hEq : slot.entry.1 = slot.entry.2) :
    call.Filled ∧ call.counted = call.request.expected ∧
      call.handled = call.request.expected := by
  have hProgress := hKept.regular.progress call hCall
  have hNext : call.committed = true := by rw [Call.committed, hTodo]
  have hClosure := hExtending.closure_ne_none
  obtain ⟨hCounted, hHandled, hIdle⟩ := hKept.regular.counted_of_wait hCall hExtending.small
    (hProgress.not_ended hTodo) hEq
  refine ⟨?_, hCounted, hHandled⟩
  by_cases hWaiting : slot.Waiting
  · -- the closure has not run, so there is no rank id at all
    have hArmed := (hKept.stored call hCall).armed hClosure hNext
    rw [Slot.Armed, hIdle] at hArmed
    have hLt := hArmed.1.mp hWaiting.1
    have hZero : call.request.expected = 0 := by
      by_contra hPos
      have hNeeded := needed_eq_self (Nat.pos_of_ne_zero hPos) hExtending.small
      omega
    obtain ⟨_, _, _, hExpected⟩ := hProgress.of_committed hNext
    have hNil : call.request.rankIds = [] :=
      List.length_eq_zero_iff.mp (hExpected.symm.trans hZero)
    refine ⟨fun _ => none, ?_, ?_⟩
    · rw [(h.waiting hNext hWaiting).1, hNil, List.map_nil, List.append_nil]
    · rw [hNil]
      intro rankId hRankId
      cases hRankId
  · exact h.filled hNext hWaiting

end Steps

theorem step {slot slot' : Slot} {event : SlotEvent} {call' : Call} (hKept : slot.Kept)
    (h : ∀ call, slot.call = some call → call.request.Extending → slot.Gathers call)
    (hStep : slot.Step event slot') (hCall' : slot'.call = some call')
    (hExtending : call'.request.Extending) : slot'.Gathers call' := by
  have hRegular := hKept.regular
  have hSame (call : Call) : ∀ rankId data, call.Answered rankId data ↔ call.Answered rankId data :=
    fun _ _ => Iff.rfl
  cases hStep with
  | begin request hCall =>
    cases hCall'
    have hNot : (Call.new request).committed = false :=
      Call.not_committed_new hExtending.closure_ne_none
    refine ⟨fun _ => rfl, ?_, ?_, fun hDone => absurd hDone (Call.not_succeeded rfl)⟩
    · intro hNext
      exact absurd hNext (Bool.eq_false_iff.mp hNot)
    · intro hNext
      exact absurd hNext (Bool.eq_false_iff.mp hNot)
  | setMessageCallback hCall hTodo =>
    cases hCall'
    exact (h _ hCall hExtending).setMessageCallback hKept hCall hTodo
  | sendMessage hCall hTodo =>
    cases hCall'
    exact (h _ hCall hExtending).congr rfl Iff.rfl rfl rfl (fun _ _ => Call.answered_send)
      (Call.handled_send ..) (fun _ => by rw [Call.committed, hTodo]) fun hDone => ⟨hDone, rfl⟩
  | raise hCall hTodo =>
    cases hCall'
    refine (h _ hCall hExtending).congr rfl Iff.rfl rfl rfl (hSame _) rfl ?_ ?_
    · intro hNext
      cases hNext
    · rintro (hStatus | hStatus) <;> cases hStatus
  | waited hCall hTodo hRes =>
    cases hCall'
    have hGathers := h _ hCall hExtending
    refine ⟨hGathers.initial, ?_, ?_, ?_⟩
    · intro hNext
      cases hNext
    · intro hNext
      cases hNext
    · rintro (hStatus | hStatus) <;> cases hStatus
      obtain ⟨hFilled, hComplete⟩ := hGathers.waited hKept hCall hExtending hTodo (hRes.mp rfl)
      exact ⟨hFilled.mono rfl rfl fun _ _ => id, hComplete⟩
  | poll hCall hTodo =>
    exact (h call' hCall' hExtending).congr rfl Iff.rfl rfl rfl (hSame _) rfl id
      fun hDone => ⟨hDone, rfl⟩
  | finish hCall hFinish =>
    cases hCall'
    obtain ⟨res, hStatus, rfl⟩ := Call.finish_eq_some hFinish
    refine (h _ hCall hExtending).congr rfl Iff.rfl rfl rfl (hSame _) rfl id ?_
    rintro (hDone | hDone) <;> cases hDone
    exact ⟨.inl hStatus, rfl⟩
  | answer hCall hAnswer =>
    cases hCall'
    have hHandled := Call.handled_answer hAnswer
    have hAnswered (rankId : UInt32) (data : Bytes) :=
      @Call.answered_answer _ _ rankId data _ _ hAnswer
    obtain ⟨_, _, _, _, _, rfl⟩ := Call.answer_eq_some hAnswer
    exact (h _ hCall hExtending).congr rfl Iff.rfl rfl rfl hAnswered hHandled id
      fun hDone => ⟨hDone, rfl⟩
  | respond hCall hPhase hResponse =>
    cases hCall'
    exact (h _ hCall hExtending).respond hRegular hCall hPhase hResponse _
  | checkFound hPhase hCheck hCallback =>
    have hWaiting :
        (Slot.mk (some slot.entry) slot.callback slot.received slot.call .found).Waiting ↔
        slot.Waiting := by simp [Waiting, hPhase]
    exact (h call' hCall' hExtending).congr rfl hWaiting rfl rfl (hSame _) rfl id
      fun hDone => ⟨hDone, rfl⟩
  | checkMissed hPhase hCheck =>
    have hWaiting :
        (Slot.mk (some slot.entry) slot.callback slot.received slot.call .checked).Waiting ↔
        slot.Waiting := by simp [Waiting, hPhase]
    exact (h call' hCall' hExtending).congr rfl hWaiting rfl rfl (hSame _) rfl id
      fun hDone => ⟨hDone, rfl⟩
  | @run call hPhase hCall =>
    cases hCall'
    rw [Call.runClosure_request] at hExtending
    exact (h call hCall hExtending).runClosure hKept hCall hExtending hPhase _
  | erase hPhase =>
    have hWaiting : (Slot.mk slot.track false slot.received slot.call .checked).Waiting ↔
        slot.Waiting := by simp [Waiting, hPhase]
    exact (h call' hCall' hExtending).congr rfl hWaiting rfl rfl (hSame _) rfl id
      fun hDone => ⟨hDone, rfl⟩
  | @notify call hPhase hCall =>
    cases hCall'
    rw [Call.count_request] at hExtending
    have hGathers := h call hCall hExtending
    obtain ⟨counted, hCount⟩ := call.count_eq
    have hWaiting : (Slot.mk (some (slot.entry.1, slot.entry.2 + 1)) slot.callback slot.received
        (some call.count) .idle).Waiting ↔ slot.Waiting := by simp [Waiting, hPhase]
    refine hGathers.congr rfl hWaiting (by rw [hCount]) (by rw [hCount]) ?_ (by rw [hCount]; rfl)
      ?_ ?_
    · rw [hCount]
      exact hSame call
    · rw [hCount]
      exact id
    · intro hDone
      have hOld : call.Succeeded := by
        rw [hCount] at hDone
        exact hDone
      exact ⟨hOld, by rw [Call.count_of_ended hOld.ended]⟩

end Slot.Gathers

/-- The entries that a function gives for a list of keys are the given values, up to the order
under each key, if and only if equal keys have equal values. -/
theorem zip_map_perm_iff {κ β : Type} {keys : List κ} {values : List β} {f : κ → Option β}
    (hLength : keys.length = values.length)
    (hf : ∀ key ∈ keys, ∃ value, f key = some value ∧ (key, value) ∈ keys.zip values) :
    (keys.zip (keys.map f)).Perm (keys.zip (values.map some)) ↔
      ∀ p ∈ keys.zip values, ∀ q ∈ keys.zip values, p.1 = q.1 → p.2 = q.2 := by
  have hEntries : keys.zip (keys.map f) = keys.map fun key => (key, f key) := by
    have hZip : (keys.map id).zip (keys.map f) = _ := List.zip_map'
    rwa [List.map_id] at hZip
  have hValues : keys.zip (values.map some) =
      (keys.zip values).map fun p => (p.1, some p.2) := by
    rw [List.zip_map_right]
    rfl
  rw [hEntries, hValues]
  constructor
  · intro hPerm
    have hGiven : ∀ p ∈ keys.zip values, f p.1 = some p.2 := by
      intro p hp
      have hMem := hPerm.mem_iff.mpr (List.mem_map_of_mem hp)
      obtain ⟨key, _, hEq⟩ := List.mem_map.mp hMem
      obtain ⟨rfl, hData⟩ := Prod.mk.inj hEq
      exact hData
    intro p hp q hq hKey
    have hData := hGiven p hp
    rw [hKey, hGiven q hq] at hData
    exact (Option.some.inj hData).symm
  · intro hSame
    have hKeys : (keys.zip values).map Prod.fst = keys := List.map_fst_zip hLength.le
    refine .of_eq ?_
    nth_rewrite 1 [← hKeys]
    rw [List.map_map]
    apply List.map_congr_left
    intro p hp
    obtain ⟨value, hValue, hMem⟩ := hf p.1 (List.of_mem_zip hp).1
    have hEq : value = p.2 := hSame _ hMem p hp rfl
    change (p.1, f p.1) = _
    rw [hValue, hEq]

theorem Call.Answered.mem_zip {call : Call} {rankId : UInt32} {data : Bytes} {answers : List Bytes}
    (h : call.Answered rankId data) (hReplies : call.sent.map (·.reply) = answers.map .handled) :
    (rankId, data) ∈ (call.sent.map (·.rankId)).zip answers := by
  obtain ⟨message, hMem, rfl, hReply⟩ := h
  have hPair : (message.rankId, message.reply) ∈
      (call.sent.map (·.rankId)).zip (call.sent.map (·.reply)) := by
    rw [List.zip_map']
    exact List.mem_map.mpr ⟨message, hMem, rfl⟩
  rw [hReplies, List.zip_map_right, hReply] at hPair
  obtain ⟨⟨other, otherData⟩, hOther, hEq⟩ := List.mem_map.mp hPair
  obtain ⟨rfl, hData⟩ := Prod.mk.inj hEq
  obtain rfl := Reply.handled.inj hData
  exact hOther

/-- In every run, when a `Send` that extends its output has returned true, the entries that it has
appended are the answers to its messages, those of one rank id in some order, if and only if
messages to the same rank id had the same answer. -/
theorem repeated_ranks_answered_iff (labels : List Label) (s : NodeState)
    (hRun : exec NodeState.step .new labels = some s) (id : Nat) (call : Call)
    (hCall : s.calls.lookup id = some call) (hClosure : call.request.closure = some .extend)
    (hSmall : call.request.rankIds.length < 2 ^ 32)
    (hTrue : call.status = .waited true ∨ call.status = .returned true) :
    ∃ (answers : List Bytes) (entries : List VectorPtr),
      call.sent.map (·.rankId) = call.request.rankIds ∧
      call.sent.map (·.reply) = answers.map .handled ∧
      call.output = call.request.initial ++ entries ∧
      entries.length = call.request.rankIds.length ∧
      ((call.request.rankIds.zip entries).Perm (call.request.rankIds.zip (answers.map some)) ↔
        ∀ p ∈ call.request.rankIds.zip answers, ∀ q ∈ call.request.rankIds.zip answers,
          p.1 = q.1 → p.2 = q.2) := by
  have hSlot : (s.view id).Kept ∧ ∀ call, (s.view id).call = some call →
      call.request.Extending → (s.view id).Gathers call :=
    NodeState.exec_kept Slot.Gathers.step hRun id
  have hDone : call.Succeeded := hTrue
  obtain ⟨hRankIds, hExpected, _⟩ := (hSlot.1.regular.progress call hCall).of_ended hDone.ended
  obtain ⟨⟨f, hOutput, hAnswers⟩, _, hHandled⟩ :=
    (hSlot.2 call hCall ⟨hClosure, by rw [hExpected]; exact hSmall⟩).succeeded hDone
  have hAll : call.handled = call.sent.length := by
    rw [hHandled, hExpected, ← hRankIds, List.length_map]
  obtain ⟨answers, hReplies, _⟩ := Call.exists_answers (Call.all_handled hAll)
  have hLength : call.request.rankIds.length = answers.length := by
    have hReplyLength := congrArg List.length hReplies
    rw [List.length_map, List.length_map] at hReplyLength
    rw [← hRankIds, List.length_map, hReplyLength]
  refine ⟨answers, call.request.rankIds.map f, hRankIds, hReplies, hOutput, List.length_map .., ?_⟩
  refine zip_map_perm_iff hLength ?_
  intro rankId hRankId
  obtain ⟨data, hData, hAnswered⟩ := hAnswers rankId hRankId
  have hMem := hAnswered.mem_zip hReplies
  rw [hRankIds] at hMem
  exact ⟨data, hData, hMem⟩

def twiceToOne (first second : Bytes) : List Label :=
  [.call twoServers (.sendManyForOutput .server [0, 0] [some [1], some [2]] [1, 1] 5 (some [])),
    .act 1, .act 1, .act 1, .answer 1 0 first, .answer 1 1 second, .respond 1 0, .loop, .loop,
    .respond 1 1, .loop, .loop, .loop, .loop, .waitTurn 1 false, .returns 1]

theorem repeated_ranks_answered_iff_twice :
    ∃ (s : NodeState) (call : Call) (answers : List Bytes) (entries : List VectorPtr),
      exec NodeState.step .new (twiceToOne [7] [7]) = some s ∧ s.calls.lookup 1 = some call ∧
      call.status = .returned true ∧ call.sent.map (·.reply) = answers.map .handled ∧
      call.output = entries ∧
      (([(0 : UInt32), 0].zip entries).Perm ([0, 0].zip (answers.map some)) ↔
        ∀ p ∈ [(0 : UInt32), 0].zip answers, ∀ q ∈ [0, 0].zip answers, p.1 = q.1 → p.2 = q.2) := by
  obtain ⟨s, call, hRun, hCall, hStatus, hClosure, hRankIds, hInitial⟩ : ∃ s call,
      exec NodeState.step .new (twiceToOne [7] [7]) = some s ∧ s.calls.lookup 1 = some call ∧
      call.status = .returned true ∧ call.request.closure = some .extend ∧
      call.request.rankIds = [0, 0] ∧ call.request.initial = [] :=
    ⟨_, _, rfl, rfl, rfl, rfl, rfl, rfl⟩
  obtain ⟨answers, entries, _, hReplies, hOutput, _, hIff⟩ :=
    repeated_ranks_answered_iff (twiceToOne [7] [7]) s hRun 1 call hCall hClosure
      (by rw [hRankIds]; decide) (.inr hStatus)
  rw [hRankIds] at hIff
  rw [hInitial] at hOutput
  exact ⟨s, call, answers, entries, hRun, hCall, hStatus, hReplies, hOutput, hIff⟩

/-- Of two different answers of the server 0 the second one is appended twice. -/
theorem repeated_ranks_lose_an_answer :
    ∃ (s : NodeState) (call : Call),
      exec NodeState.step .new (twiceToOne [10] [20]) = some s ∧ s.calls.lookup 1 = some call ∧
      call.status = .returned true ∧ call.sent.map (·.rankId) = [0, 0] ∧
      call.sent.map (·.reply) = [.handled [10], .handled [20]] ∧
      call.output = [some [20], some [20]] ∧
      ¬ ([(0 : UInt32), 0].zip call.output).Perm ([0, 0].zip [some [10], some [20]]) := by
  refine ⟨_, _, rfl, rfl, rfl, rfl, rfl, rfl, ?_⟩
  change ¬ ([(0 : UInt32), 0].zip [some [20], some [20]]).Perm ([0, 0].zip [some [10], some [20]])
  decide

end PsRpc
