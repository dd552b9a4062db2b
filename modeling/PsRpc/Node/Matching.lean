import PsRpc.Node.SlotInvariant

/-! # The output of a `Send` holds the answers to its own request

`Slot.Matched` follows the stored responses and the output of a call. The closure runs once, when
the responses of all servers are stored, and before the last of them is counted; so the output is
complete when `Wait` returns true.
-/

namespace PsRpc

open Execution

def Message.answerData (message : Message) : VectorPtr :=
  match message.reply with
  | .handled data => some data
  | _ => none

def Closure.outcome : Closure → List VectorPtr → List VectorPtr → List VectorPtr
  | .set, _, answers => answers
  | .extend, initial, answers => initial ++ answers

namespace Call

def answers (call : Call) : List VectorPtr := call.sent.map Message.answerData

def result (call : Call) : List VectorPtr :=
  match call.request.closure with
  | none => call.output
  | some closure => closure.outcome call.request.initial call.answers

def Succeeded (call : Call) : Prop := call.status = .waited true ∨ call.status = .returned true

theorem answers_answer {call call' : Call} {k : Nat} {data : Bytes}
    (h : call.answer k data = some call') : call'.answers = call.answers := by
  obtain ⟨before, rankId, sentData, after, hSent, rfl⟩ := answer_eq_some h
  rw [answers, answers, hSent, List.map_append, List.map_append, List.map_cons, List.map_cons]
  rfl

theorem result_answer {call call' : Call} {k : Nat} {data : Bytes}
    (h : call.answer k data = some call') : call'.result = call.result := by
  have hAnswers := answers_answer h
  obtain ⟨before, rankId, sentData, after, hSent, rfl⟩ := answer_eq_some h
  rw [result, result, hAnswers]

theorem not_succeeded {call : Call} (h : call.status = .running) : ¬call.Succeeded := by
  rintro (hStatus | hStatus) <;> (rw [h] at hStatus; cases hStatus)

theorem Succeeded.ended {call : Call} (h : call.Succeeded) : call.ended = true := by
  rcases h with hStatus | hStatus <;> rw [Call.ended, hStatus]

theorem runClosure_succeeded (call : Call) (res : Table UInt32 Bytes) :
    (call.runClosure res).Succeeded ↔ call.Succeeded := by
  rw [Succeeded, Succeeded, runClosure_status]

theorem all_handled {call : Call} (h : call.handled = call.sent.length) :
    ∀ message ∈ call.sent, message.isHandled = true :=
  List.countP_eq_length.mp h

theorem exists_answers {sent : List Message} (h : ∀ message ∈ sent, message.isHandled = true) :
    ∃ answers : List Bytes, sent.map (·.reply) = answers.map .handled ∧
      sent.map Message.answerData = answers.map some := by
  induction sent with
  | nil => exact ⟨[], rfl, rfl⟩
  | cons message sent ih =>
    obtain ⟨answers, hReplies, hData⟩ := ih fun m hm => h m (List.mem_cons_of_mem _ hm)
    have hFirst := h message List.mem_cons_self
    rw [Message.isHandled] at hFirst
    split at hFirst
    · next data hReply =>
      refine ⟨data :: answers, ?_, ?_⟩
      · rw [List.map_cons, List.map_cons, hReplies, hReply]
      · rw [List.map_cons, List.map_cons, hData, Message.answerData, hReply]
    · cases hFirst

theorem handled_lt_of_response {call : Call} {k : Nat} {rankId : UInt32} {data : Bytes}
    (h : call.response k = some (rankId, data)) : call.handled < call.sent.length := by
  obtain ⟨before, sentData, after, hSent, _⟩ := response_eq_some h
  refine lt_of_le_of_ne call.handled_le_sent ?_
  intro hAll
  have hHandled := all_handled hAll ⟨rankId, sentData, .answered data⟩ (by rw [hSent]; simp)
  cases hHandled

end Call

theorem Slot.Regular.handled_lt_of_response {slot : Slot} {call : Call} (h : slot.Regular)
    (hCall : slot.call = some call) {k : Nat} {rankId : UInt32} {data : Bytes}
    (hResponse : call.response k = some (rankId, data)) :
    call.handled < call.request.expected :=
  lt_of_lt_of_le (Call.handled_lt_of_response hResponse) (h.progress call hCall).sent_le

/-- When every response has been counted, the event loop has none of them in hand. -/
theorem Slot.Tracked.idle_of_complete {slot : Slot} {call : Call} (h : slot.Tracked call)
    (hEnded : call.ended = true) (hCounted : call.counted = call.request.expected)
    (hHandled : call.handled = call.request.expected) : slot.phase = .idle := by
  obtain ⟨late, hLate, _⟩ := h.closed hEnded
  exact Phase.idle_of_busy (by omega)

def Slot.Collected (slot : Slot) (call : Call) : Prop :=
  ∀ message ∈ call.sent, ∀ data, message.reply = .handled data →
    AList.lookup message.rankId (slot.received.getD ∅) = some data

/-- A call with an output between its registration and the return of its `Wait`: either the
closure has not run, and it will before the last response is counted, or it has run with all
responses. -/
inductive Slot.Filling (slot : Slot) (call : Call) : Prop where
  | before (output : call.output = call.request.initial) (collected : slot.Collected call)
      (phase : slot.phase ≠ .ran)
      (pending : call.handled = call.request.expected →
        call.request.expected = 0 ∨ slot.phase = .stored ∨ slot.phase = .found)
  | after (output : call.output = call.result) (handled : call.handled = call.request.expected)
      (phase : slot.phase = .ran ∨ slot.phase = .checked ∨ slot.phase = .idle)

structure Slot.Matched (slot : Slot) (call : Call) : Prop where
  initial : call.handled = 0 → call.output = call.request.initial
  filling : call.committed = true → slot.Filling call
  succeeded : call.Succeeded → call.output = call.result ∧
    call.counted = call.request.expected ∧ call.handled = call.request.expected

namespace Slot

theorem Collected.send {slot : Slot} {call : Call} (h : slot.Collected call) (rankId : UInt32)
    (data : Bytes) (todo : List Action) :
    slot.Collected
      { call with sent := call.sent ++ [Message.mk rankId data .pending], todo := todo } := by
  intro message hMessage
  rcases List.mem_append.mp hMessage with hOld | hNew
  · exact h message hOld
  · rw [List.mem_singleton.mp hNew]
    nofun

theorem Collected.answer {slot : Slot} {call call' : Call} (h : slot.Collected call) {k : Nat}
    {data : Bytes} (hAnswer : call.answer k data = some call') : slot.Collected call' := by
  obtain ⟨before, rankId, sentData, after, hSent, rfl⟩ := Call.answer_eq_some hAnswer
  intro message hMessage
  rcases List.mem_append.mp hMessage with hBefore | hRest
  · exact h message (by rw [hSent]; exact List.mem_append_left _ hBefore)
  · rcases List.mem_cons.mp hRest with rfl | hAfter
    · nofun
    · exact h message (by rw [hSent]; exact List.mem_append_right _ (List.mem_cons_of_mem _ hAfter))

theorem Collected.respond {slot : Slot} {call : Call} (h : slot.Collected call)
    (hNodup : (call.sent.map (·.rankId)).Nodup) {k : Nat} {rankId : UInt32} {data : Bytes}
    (hResponse : call.response k = some (rankId, data)) (call' : Option Call) (phase : Phase) :
    Collected
      { slot with
        received := some ((slot.received.getD ∅).insert rankId data), call := call',
        phase := phase }
      (call.setReply k (.handled data)) := by
  obtain ⟨before, sentData, after, hSent, hNew⟩ := Call.response_eq_some hResponse
  rw [hSent, List.map_append, List.map_cons, List.nodup_middle, List.nodup_cons, List.mem_append]
    at hNodup
  have hOther : ∀ message ∈ before ++ after, message.rankId ≠ rankId := by
    intro message hMessage hEq
    apply hNodup.1
    rcases List.mem_append.mp hMessage with hBefore | hAfter
    · exact .inl (List.mem_map.mpr ⟨message, hBefore, hEq⟩)
    · exact .inr (List.mem_map.mpr ⟨message, hAfter, hEq⟩)
  rw [hNew]
  intro message hMessage data' hReply
  change AList.lookup message.rankId ((slot.received.getD ∅).insert rankId data) = some data'
  rw [Table.lookup_insert]
  have hMem : message ∈ before ++ ⟨rankId, sentData, .handled data⟩ :: after := hMessage
  rcases List.mem_append.mp hMem with hBefore | hRest
  · rw [if_neg (hOther message (List.mem_append_left _ hBefore))]
    exact h message (by rw [hSent]; exact List.mem_append_left _ hBefore) data' hReply
  · rcases List.mem_cons.mp hRest with rfl | hAfter
    · cases hReply
      rw [if_pos rfl]
    · rw [if_neg (hOther message (List.mem_append_right _ hAfter))]
      exact h message (by rw [hSent]; exact List.mem_append_right _ (List.mem_cons_of_mem _ hAfter))
        data' hReply

theorem Collected.map_lookup {slot : Slot} {call : Call} (h : slot.Collected call)
    (hAll : call.handled = call.sent.length)
    (hRankIds : call.sent.map (·.rankId) = call.request.rankIds) :
    (call.request.rankIds.map fun rankId => AList.lookup rankId (slot.received.getD ∅)) =
      call.answers := by
  rw [← hRankIds, List.map_map, Call.answers]
  apply List.map_congr_left
  intro message hMessage
  have hHandled := Call.all_handled hAll message hMessage
  rw [Message.isHandled] at hHandled
  split at hHandled
  · next data hReply =>
    rw [Message.answerData, hReply]
    exact h message hMessage data hReply
  · cases hHandled

end Slot

/-- A request with an output and distinct rank ids, fewer than the tracker can count. -/
structure Request.Distinct (request : Request) : Prop where
  closure : request.closure ≠ none
  small : request.expected < 2 ^ 32
  nodup : request.rankIds.Nodup

namespace Slot.Matched

theorem waited {slot : Slot} {call : Call} (hRegular : slot.Regular)
    (hCall : slot.call = some call) (hDistinct : call.request.Distinct) (h : slot.Matched call)
    (hTodo : call.todo = [.wait]) (hEq : slot.entry.1 = slot.entry.2) :
    call.output = call.result ∧ call.counted = call.request.expected ∧
      call.handled = call.request.expected := by
  have hProgress := hRegular.progress call hCall
  obtain ⟨hCounted, hHandled, hIdle⟩ :=
    hRegular.counted_of_wait hCall hDistinct.small (hProgress.not_ended hTodo) hEq
  refine ⟨?_, hCounted, hHandled⟩
  cases h.filling (by rw [Call.committed, hTodo]) with
  | before output collected phase pending =>
    have hZero : call.request.expected = 0 := by
      rcases pending hHandled with hZero | hStored | hFound
      · exact hZero
      · rw [hIdle] at hStored
        cases hStored
      · rw [hIdle] at hFound
        cases hFound
    have hNone : call.sent = [] := by
      have hLe := hProgress.sent_le
      exact List.length_eq_zero_iff.mp (by omega)
    rw [Call.result, output]
    split
    · rfl
    · next closure hClosure =>
      cases closure with
      | set =>
        have hOne := call.request.shaped.expected_of_set hClosure
        omega
      | extend => rw [Call.answers, hNone, List.map_nil, Closure.outcome, List.append_nil]
  | after output _ _ => exact output

theorem missed_of_all {slot : Slot} {call : Call} (hKept : slot.Kept)
    (hCall : slot.call = some call) (hDistinct : call.request.Distinct)
    (hNext : call.committed = true) (hPhase : slot.phase = .stored)
    (hCheck : slot.entry.1 = slot.entry.2 + 1 → slot.callback = false)
    (hAll : call.handled = call.request.expected) : call.request.expected = 0 := by
  obtain ⟨hOpen, _⟩ := (hKept.regular.progress call hCall).of_committed hNext
  obtain ⟨hTrack, hHandled⟩ := (hKept.regular.tracked call hCall).opened hOpen
  have hArmed := (hKept.stored call hCall).armed hDistinct.closure hNext
  rw [Slot.Armed, hPhase] at hArmed
  rw [hPhase] at hHandled
  change call.handled = call.counted + 1 at hHandled
  by_contra hPos
  have hNeeded := needed_eq_self (Nat.pos_of_ne_zero hPos) hDistinct.small
  have hLt : call.counted < needed call.request.expected := by omega
  rw [entry, hTrack] at hCheck
  have hFalse := hCheck ((check_iff_needed hLt).mpr (by omega))
  rw [hArmed.1.mpr hLt] at hFalse
  cases hFalse

/-- When the event loop has found the closure, all messages are sent and all responses stored. -/
theorem complete_of_found {slot : Slot} {call : Call} (hKept : slot.Kept)
    (hCall : slot.call = some call) (hClosure : call.request.closure ≠ none)
    (hSmall : call.request.expected < 2 ^ 32) (hNext : call.committed = true)
    (hPhase : slot.phase = .found) :
    call.handled = call.request.expected ∧ call.handled = call.sent.length ∧
      call.sent.map (·.rankId) = call.request.rankIds := by
  have hProgress := hKept.regular.progress call hCall
  obtain ⟨hOpen, rest, hSent, hExpected⟩ := hProgress.of_committed hNext
  have hHandled := ((hKept.regular.tracked call hCall).opened hOpen).2
  have hArmed := (hKept.stored call hCall).armed hClosure hNext
  rw [Slot.Armed, hPhase] at hArmed
  rw [hPhase] at hHandled
  change call.handled = call.counted + 1 at hHandled
  have hLe := call.handled_le_sent
  have hSentLe := hProgress.sent_le
  have hNeeded := needed_eq_self (by omega) hSmall
  have hRest : rest = [] := by
    have hLength := congrArg List.length hSent
    rw [List.length_append, List.length_map] at hLength
    exact List.length_eq_zero_iff.mp (by omega)
  rw [hRest, List.append_nil] at hSent
  exact ⟨by omega, by omega, hSent⟩

theorem output_run {slot : Slot} {call : Call} (hClosure : call.request.closure ≠ none)
    (hOutput : call.output = call.request.initial) (hCollected : slot.Collected call)
    (hAll : call.handled = call.sent.length)
    (hRankIds : call.sent.map (·.rankId) = call.request.rankIds) :
    (call.runClosure (slot.received.getD ∅)).output =
      (call.runClosure (slot.received.getD ∅)).result := by
  have hLookup := hCollected.map_lookup hAll hRankIds
  rw [Call.runClosure]
  split
  · next hNone => exact absurd hNone hClosure
  · next hSet =>
    rw [Call.result]
    simp only [hSet]
    exact hLookup
  · next hExtend =>
    rw [Call.result]
    simp only [hExtend, hOutput]
    exact congrArg _ hLookup

theorem idle_of_succeeded {slot : Slot} {call : Call} (h : slot.Matched call)
    (hTracked : slot.Tracked call) (hDone : call.Succeeded) : slot.phase = .idle := by
  obtain ⟨_, hCounted, hHandled⟩ := h.succeeded hDone
  exact hTracked.idle_of_complete hDone.ended hCounted hHandled

theorem congr {slot slot' : Slot} {call call' : Call} (h : slot.Matched call)
    (hReceived : slot'.received = slot.received) (hPhase : slot'.phase = slot.phase)
    (hRequest : call'.request = call.request) (hOutput : call'.output = call.output)
    (hSent : call'.sent = call.sent) (hCounted : call'.counted = call.counted)
    (hCommitted : call'.committed = true → call.committed = true)
    (hSucceeded : call'.Succeeded → call.Succeeded) : slot'.Matched call' := by
  have hHandled : call'.handled = call.handled := by rw [Call.handled, Call.handled, hSent]
  have hResult : call'.result = call.result := by
    rw [Call.result, Call.result, hRequest, hOutput, Call.answers, Call.answers, hSent]
  constructor
  · rw [hHandled, hOutput, hRequest]
    exact h.initial
  · intro hNext
    cases h.filling (hCommitted hNext) with
    | before output collected phase pending =>
      refine .before ?_ ?_ ?_ ?_
      · rw [hOutput, hRequest, output]
      · rw [Collected, hSent, hReceived]
        exact collected
      · rw [hPhase]
        exact phase
      · rw [hHandled, hRequest, hPhase]
        exact pending
    | after output handled phase =>
      rw [← hPhase] at phase
      exact .after (by rw [hOutput, hResult, output]) (by rw [hHandled, hRequest, handled]) phase
  · intro hDone
    rw [hOutput, hResult, hCounted, hHandled, hRequest]
    exact h.succeeded (hSucceeded hDone)

section Steps

variable {slot : Slot} {call : Call}

theorem setMessageCallback (h : slot.Matched call) (hRegular : slot.Regular)
    (hCall : slot.call = some call) {rest : List Action}
    (hTodo : call.todo = .setMessageCallback :: rest) :
    Matched { slot with callback := true, call := some { call with todo := rest } }
      { call with todo := rest } := by
  obtain ⟨hStatus, _, hSent, hHandled, _, hIdle⟩ := hRegular.of_registering hCall hTodo
  refine ⟨h.initial, ?_, fun hDone => absurd hDone (Call.not_succeeded hStatus)⟩
  intro _
  refine .before (h.initial hHandled) ?_ ?_ fun hEq => .inl (hEq.symm.trans hHandled)
  · intro message hMessage
    rw [hSent] at hMessage
    cases hMessage
  · change slot.phase ≠ .ran
    rw [hIdle]
    nofun

theorem sendMessage (h : slot.Matched call) (hRegular : slot.Regular)
    (hCall : slot.call = some call) {rankId : UInt32} {data : Bytes} {rest : List Action}
    (hTodo : call.todo = .sendMessage rankId data :: rest) (next : Option Call) :
    Matched { slot with call := next }
      { call with sent := call.sent ++ [Message.mk rankId data .pending], todo := rest } := by
  have hProgress := hRegular.progress call hCall
  have hHandled := call.handled_send rankId data rest
  have hLt : call.handled < call.request.expected := by
    have hSent := (hProgress.send hTodo).sent_le
    rw [List.length_append] at hSent
    exact lt_of_le_of_lt call.handled_le_sent hSent
  refine ⟨?_, ?_, fun hDone => absurd hDone (Call.not_succeeded (hProgress.next hTodo).1)⟩
  · rw [hHandled]
    exact h.initial
  · intro _
    cases h.filling (by rw [Call.committed, hTodo]) with
    | before output collected phase _ =>
      refine .before output (collected.send rankId data rest) phase ?_
      intro hEq
      rw [hHandled] at hEq
      exact absurd hEq (ne_of_lt hLt)
    | after _ handled _ => exact absurd handled (ne_of_lt hLt)

theorem answer (h : slot.Matched call) {call' : Call} {k : Nat} {data : Bytes}
    (hAnswer : call.answer k data = some call') (next : Option Call) :
    Matched { slot with call := next } call' := by
  have hHandled := Call.handled_answer hAnswer
  have hResult := Call.result_answer hAnswer
  have hCollected : slot.Collected call → slot.Collected _ := fun hOld => hOld.answer hAnswer
  obtain ⟨before, rankId, sentData, after, hSent, rfl⟩ := Call.answer_eq_some hAnswer
  refine ⟨?_, ?_, ?_⟩
  · rw [hHandled]
    exact h.initial
  · intro hNext
    cases h.filling hNext with
    | before output collected phase pending =>
      refine .before output (hCollected collected) phase ?_
      rw [hHandled]
      exact pending
    | after output handled phase =>
      exact .after (output.trans hResult.symm) (hHandled.trans handled) phase
  · intro hDone
    rw [hHandled, hResult]
    exact h.succeeded hDone

theorem respond (h : slot.Matched call) (hRegular : slot.Regular)
    (hCall : slot.call = some call) (hDistinct : call.request.Distinct) {k : Nat} {rankId : UInt32}
    {data : Bytes} (hResponse : call.response k = some (rankId, data)) (next : Option Call) :
    Matched
      { slot with
        received := some ((slot.received.getD ∅).insert rankId data), call := next
        phase := .stored }
      (call.setReply k (.handled data)) := by
  have hHandled := Call.handled_respond hResponse
  have hProgress := hRegular.progress call hCall
  have hLt := hRegular.handled_lt_of_response hCall hResponse
  refine ⟨?_, ?_, ?_⟩
  · intro hZero
    omega
  · intro hNext
    obtain ⟨_, rest, hSent, _⟩ := hProgress.of_committed hNext
    have hNodup : (call.sent.map (·.rankId)).Nodup := by
      have hAll : call.request.rankIds.Nodup := hDistinct.nodup
      rw [← hSent] at hAll
      exact hAll.of_append_left
    cases h.filling hNext with
    | before output collected phase pending =>
      exact .before output (collected.respond hNodup hResponse _ _) nofun fun _ => .inr (.inl rfl)
    | after _ handled _ => exact absurd handled (ne_of_lt hLt)
  · intro hDone
    exact absurd (h.succeeded hDone).2.2 (ne_of_lt hLt)

theorem not_after {P : Prop} (hPhase : slot.phase = .stored ∨ slot.phase = .found)
    (h : slot.phase = .ran ∨ slot.phase = .checked ∨ slot.phase = .idle) : P := by
  rcases hPhase with hEq | hEq <;> rw [hEq] at h <;> rcases h with h | h | h <;> cases h

theorem runClosure (h : slot.Matched call) (hKept : slot.Kept) (hCall : slot.call = some call)
    (hDistinct : call.request.Distinct) (hPhase : slot.phase = .found) (next : Option Call) :
    Matched { slot with received := none, call := next, phase := .ran }
      (call.runClosure (slot.received.getD ∅)) := by
  refine ⟨?_, ?_, ?_⟩
  · intro hZero
    have hPos := hKept.regular.handled_pos hCall (by rw [hPhase]; rfl)
    rw [Call.runClosure_handled] at hZero
    omega
  · intro hNext
    rw [Call.runClosure_committed] at hNext
    obtain ⟨hExpected, hAll, hRankIds⟩ :=
      complete_of_found hKept hCall hDistinct.closure hDistinct.small hNext hPhase
    cases h.filling hNext with
    | before output collected _ _ =>
      refine .after (output_run hDistinct.closure output collected hAll hRankIds) ?_ (.inl rfl)
      rw [Call.runClosure_handled, Call.runClosure_request, hExpected]
    | after _ _ phase => exact not_after (.inr hPhase) phase
  · intro hDone
    rw [Call.runClosure_succeeded] at hDone
    have hIdle := h.idle_of_succeeded (hKept.regular.tracked call hCall) hDone
    rw [hPhase] at hIdle
    cases hIdle

theorem notify (h : slot.Matched call) (hRegular : slot.Regular) (hCall : slot.call = some call)
    (hPhase : slot.phase = .checked) (track : Option (UInt32 × UInt32)) (next : Option Call) :
    Matched { slot with track := track, call := next, phase := .idle } call.count := by
  obtain ⟨counted, hCount⟩ := call.count_eq
  rw [hCount]
  refine ⟨h.initial, ?_, ?_⟩
  · intro hNext
    cases h.filling hNext with
    | before output collected _ pending =>
      refine .before output collected nofun ?_
      intro hAll
      rcases pending hAll with hZero | hEq | hEq
      · exact .inl hZero
      · rw [hPhase] at hEq
        cases hEq
      · rw [hPhase] at hEq
        cases hEq
    | after output handled _ => exact .after output handled (.inr (.inr rfl))
  · intro hDone
    have hIdle := h.idle_of_succeeded (hRegular.tracked call hCall) hDone
    rw [hPhase] at hIdle
    cases hIdle

end Steps

theorem step {slot slot' : Slot} {event : SlotEvent} {call' : Call} (hKept : slot.Kept)
    (h : ∀ call, slot.call = some call → call.request.Distinct → slot.Matched call)
    (hStep : slot.Step event slot') (hCall' : slot'.call = some call')
    (hDistinct : call'.request.Distinct) : slot'.Matched call' := by
  have hRegular := hKept.regular
  cases hStep with
  | begin request hCall =>
    cases hCall'
    refine ⟨fun _ => rfl, ?_, ?_⟩
    · intro hNext
      exact absurd hNext (Bool.eq_false_iff.mp (Call.not_committed_new hDistinct.closure))
    · rintro (hStatus | hStatus) <;> cases hStatus
  | setMessageCallback hCall hTodo =>
    cases hCall'
    exact (h _ hCall hDistinct).setMessageCallback hRegular hCall hTodo
  | sendMessage hCall hTodo =>
    cases hCall'
    exact (h _ hCall hDistinct).sendMessage hRegular hCall hTodo _
  | raise hCall hTodo =>
    cases hCall'
    refine (h _ hCall hDistinct).congr rfl rfl rfl rfl rfl rfl nofun ?_
    rintro (hStatus | hStatus) <;> cases hStatus
  | waited hCall hTodo hRes =>
    cases hCall'
    have hMatched := h _ hCall hDistinct
    refine ⟨hMatched.initial, nofun, ?_⟩
    rintro (hStatus | hStatus) <;> cases hStatus
    have hComplete := hMatched.waited hRegular hCall hDistinct hTodo (hRes.mp rfl)
    exact hComplete
  | poll hCall hTodo => exact (h call' hCall' hDistinct).congr rfl rfl rfl rfl rfl rfl id id
  | finish hCall hFinish =>
    cases hCall'
    obtain ⟨res, hStatus, rfl⟩ := Call.finish_eq_some hFinish
    refine (h _ hCall hDistinct).congr rfl rfl rfl rfl rfl rfl id ?_
    rintro (hDone | hDone) <;> cases hDone
    exact .inl hStatus
  | answer hCall hAnswer =>
    cases hCall'
    obtain ⟨_, _, _, _, _, hEq⟩ := Call.answer_eq_some hAnswer
    rw [hEq] at hDistinct
    exact (h _ hCall hDistinct).answer hAnswer _
  | respond hCall hPhase hResponse =>
    cases hCall'
    exact (h _ hCall hDistinct).respond hRegular hCall hDistinct hResponse _
  | checkFound hPhase hCheck hCallback =>
    have hMatched := h call' hCall' hDistinct
    refine ⟨hMatched.initial, ?_, hMatched.succeeded⟩
    intro hNext
    cases hMatched.filling hNext with
    | before output collected _ _ =>
      exact .before output collected nofun fun _ => .inr (.inr rfl)
    | after _ _ phase => exact not_after (.inl hPhase) phase
  | checkMissed hPhase hCheck =>
    have hMatched := h call' hCall' hDistinct
    refine ⟨hMatched.initial, ?_, hMatched.succeeded⟩
    intro hNext
    cases hMatched.filling hNext with
    | before output collected _ _ =>
      refine .before output collected nofun ?_
      intro hAll
      exact .inl (missed_of_all hKept hCall' hDistinct hNext hPhase hCheck hAll)
    | after _ _ phase => exact not_after (.inl hPhase) phase
  | @run call hPhase hCall =>
    cases hCall'
    rw [Call.runClosure_request] at hDistinct
    exact (h call hCall hDistinct).runClosure hKept hCall hDistinct hPhase _
  | erase hPhase =>
    have hMatched := h call' hCall' hDistinct
    refine ⟨hMatched.initial, ?_, hMatched.succeeded⟩
    intro hNext
    cases hMatched.filling hNext with
    | before _ _ phase _ => exact absurd hPhase phase
    | after output handled _ => exact .after output handled (.inr (.inl rfl))
  | @notify call hPhase hCall =>
    cases hCall'
    rw [Call.count_request] at hDistinct
    exact (h call hCall hDistinct).notify hRegular hCall hPhase _ _

end Slot.Matched

theorem length_lt_of_known {rankIds : List UInt32} (hNodup : rankIds.Nodup)
    (hKnown : ∀ rankId ∈ rankIds, rankId.toNat < 2 ^ 31) : rankIds.length < 2 ^ 32 := by
  have hMap : (rankIds.map UInt32.toNat).Nodup :=
    hNodup.map fun _ _ => UInt32.toNat_inj.mp
  have hSubset : rankIds.map UInt32.toNat ⊆ List.range (2 ^ 31) := by
    intro n hn
    obtain ⟨rankId, hRankId, rfl⟩ := List.mem_map.mp hn
    exact List.mem_range.mpr (hKnown rankId hRankId)
  have hLe := (List.subperm_of_subset hMap hSubset).length_le
  rw [List.length_map, List.length_range] at hLe
  omega

/-- When `Wait` of a `Send` with an output and distinct rank ids has returned true, the message to
the `i`-th rank id has been answered, for each `i`, and its answer is the `i`-th entry of the
output, after what the output held before in the form that extends it. -/
theorem NodeState.output_of_waited {labels : List Label} {s : NodeState}
    (hRun : exec NodeState.step .new labels = some s) {id : Nat} {call : Call}
    (hCall : s.calls.lookup id = some call) {closure : Closure}
    (hClosure : call.request.closure = some closure) (hNodup : call.request.rankIds.Nodup)
    (hDone : call.Succeeded) :
    ∃ answers : List Bytes, call.sent.map (·.rankId) = call.request.rankIds ∧
      call.sent.map (·.reply) = answers.map .handled ∧
      call.output = closure.outcome call.request.initial (answers.map some) := by
  have hSlot : (s.view id).Kept ∧ ∀ call, (s.view id).call = some call →
      call.request.Distinct → (s.view id).Matched call :=
    NodeState.exec_kept Slot.Matched.step hRun id
  obtain ⟨hRankIds, hExpected, hKnown⟩ :=
    (hSlot.1.regular.progress call hCall).of_ended hDone.ended
  have hSmall : call.request.expected < 2 ^ 32 := by
    rw [hRankIds] at hKnown
    rw [hExpected]
    exact length_lt_of_known hNodup hKnown
  obtain ⟨hOutput, _, hHandled⟩ :=
    (hSlot.2 call hCall ⟨by rw [hClosure]; nofun, hSmall, hNodup⟩).succeeded hDone
  have hAll : call.handled = call.sent.length := by
    rw [hHandled, hExpected, ← hRankIds, List.length_map]
  obtain ⟨answers, hReplies, hData⟩ := Call.exists_answers (Call.all_handled hAll)
  refine ⟨answers, hRankIds, hReplies, ?_⟩
  rw [hOutput, Call.result, hClosure, Call.answers, hData]

end PsRpc
