import PsRpc.Node.SlotInvariant

/-! # What finished requests leave in the maps of the node

`Wait` erases the entry of the tracker, the run of the closure takes the stored responses, and the
event loop erases the closure. A request leaves nothing only if all three happen and no response
comes later; a request without an output has no closure, so its responses stay.
-/

namespace PsRpc

open Execution

/-- Every call has returned, successfully or by a timeout, and every response that a server has
given has been processed. -/
def NodeState.Quiescent (s : NodeState) : Prop :=
  s.loop = .idle ∧ ∀ id call, s.calls.lookup id = some call →
    (∃ res, call.status = .returned res) ∧
      ∀ message ∈ call.sent, ∀ data, message.reply ≠ .answered data

def NodeState.CleanAt (s : NodeState) (id : Nat) : Prop :=
  s.tracker.entries.lookup id = none ∧ s.messageCallbacks.lookup id = none ∧
    s.receiveMessages.lookup id = none

/-- A call with an output got the responses that it needed, at least one, before its `Wait` ended,
and none after that; a call without an output got no response. -/
def Call.LeavesNothing (call : Call) : Prop :=
  if call.request.closure = none then call.handled = 0
  else call.counted = needed call.request.expected ∧ call.handled = call.counted

theorem NodeState.cleanAt_iff {labels : List Label} {s : NodeState}
    (hRun : exec NodeState.step .new labels = some s) (hIdle : s.loop = .idle) {id : Nat}
    {call : Call} (hCall : s.calls.lookup id = some call) (hEnded : call.ended = true) :
    s.CleanAt id ↔ call.LeavesNothing := by
  have hKept : (s.view id).Kept :=
    NodeState.exec_slots_all .new (fun _ _ _ h hStep => h.step hStep) hRun id
  have hPhase : (s.view id).phase = .idle := by simp only [view, hIdle, Loop.phase]
  have hStored := hKept.stored call hCall
  obtain ⟨late, hLate, _, hNone, hFresh⟩ := (hKept.regular.tracked call hCall).closed hEnded
  rw [hPhase] at hLate
  change call.handled = call.counted + late at hLate
  have hTrack : s.tracker.entries.lookup id = none ↔ late = 0 := ⟨hNone, hFresh hPhase⟩
  have hCallback : s.messageCallbacks.lookup id = none ↔ (s.view id).callback ≠ true := by
    change _ ↔ ¬(s.messageCallbacks.lookup id).isSome = true
    rw [Option.not_isSome_iff_eq_none]
  have hReceived : s.receiveMessages.lookup id = none ↔ (s.view id).received = none := Iff.rfl
  rw [CleanAt, Call.LeavesNothing, hTrack, hCallback, hReceived]
  split
  · next hClosure =>
    obtain ⟨hFalse, _, _, hPlain⟩ := hStored.plain hClosure
    constructor
    · rintro ⟨_, _, hEmpty⟩
      exact hPlain hEmpty
    · intro hZero
      exact ⟨by omega, by rw [hFalse]; exact Bool.false_ne_true, hStored.unanswered hZero⟩
  · next hClosure =>
    have hPos := needed_pos call.request.expected
    constructor
    · rintro ⟨rfl, hGone, hEmpty⟩
      obtain ⟨hArmed, hTaken⟩ := hStored.closed hClosure hEnded hPhase hLate
      rw [Ne, hArmed] at hGone
      rcases hTaken.mp hEmpty with hZero | hNeeded
      · omega
      · exact ⟨hNeeded, hLate⟩
    · rintro ⟨hNeeded, hSame⟩
      obtain ⟨hArmed, hTaken⟩ := hStored.closed hClosure hEnded hPhase hSame
      refine ⟨by omega, ?_, hTaken.mpr (.inr hNeeded)⟩
      rw [Ne, hArmed]
      omega

/-- In a quiescent state of any run, the maps are clean for all request ids in use if and only if
each call leaves nothing. -/
theorem quiescent_clean_iff (labels : List Label) (s : NodeState)
    (hRun : exec NodeState.step .new labels = some s) (hQuiescent : s.Quiescent) :
    (∀ id call, s.calls.lookup id = some call → s.CleanAt id) ↔
      ∀ id call, s.calls.lookup id = some call → call.LeavesNothing := by
  have hEach : ∀ id call, s.calls.lookup id = some call →
      (s.CleanAt id ↔ call.LeavesNothing) := by
    intro id call hCall
    obtain ⟨⟨res, hStatus⟩, _⟩ := hQuiescent.2 id call hCall
    exact NodeState.cleanAt_iff hRun hQuiescent.1 hCall (by rw [Call.ended, hStatus])
  constructor
  · intro h id call hCall
    exact (hEach id call hCall).mp (h id call hCall)
  · intro h id call hCall
    exact (hEach id call hCall).mpr (h id call hCall)

theorem NodeState.quiescent_of_one {s : NodeState} {call : Call} {res : Bool}
    (hLoop : s.loop = .idle)
    (hCalls : s.calls = AList.insert 1 call ∅) (hStatus : call.status = .returned res)
    (hSent : ∀ message ∈ call.sent, message.isHandled = true) : s.Quiescent := by
  refine ⟨hLoop, ?_⟩
  intro id call' hCall
  rw [hCalls, Table.lookup_insert] at hCall
  split at hCall
  · cases hCall
    refine ⟨⟨res, hStatus⟩, ?_⟩
    intro message hMessage data hReply
    have hHandled := hSent message hMessage
    rw [Message.isHandled, hReply] at hHandled
    cases hHandled
  · cases hCall

theorem quiescent_clean_iff_one_send :
    ∃ s, exec NodeState.step .new
        [.call twoServers (.sendForOutput .server 1 (some [3]) 1 6 (some none)), .act 1, .act 1,
          .answer 1 0 [30], .respond 1 0, .loop, .loop, .loop, .loop, .waitTurn 1 false,
          .returns 1] = some s ∧
      s.Quiescent ∧ ∀ id call, s.calls.lookup id = some call → s.CleanAt id := by
  obtain ⟨s, call, hRun, hLoop, hCalls, hStatus, hSent, hClosure, hCounted, hHandled⟩ : ∃ s call,
      exec NodeState.step .new
        [.call twoServers (.sendForOutput .server 1 (some [3]) 1 6 (some none)), .act 1, .act 1,
          .answer 1 0 [30], .respond 1 0, .loop, .loop, .loop, .loop, .waitTurn 1 false,
          .returns 1] = some s ∧
      s.loop = .idle ∧ s.calls = AList.insert 1 call ∅ ∧ call.status = .returned true ∧
      call.sent = [⟨1, [3], .handled [30]⟩] ∧ call.request.closure = some .set ∧
      call.counted = needed call.request.expected ∧ call.handled = call.counted :=
    ⟨_, _, rfl, rfl, rfl, rfl, rfl, rfl, rfl, rfl⟩
  have hQuiescent := NodeState.quiescent_of_one hLoop hCalls hStatus (by rw [hSent]; decide)
  refine ⟨s, hRun, hQuiescent, (quiescent_clean_iff _ s hRun hQuiescent).mpr ?_⟩
  intro id call' hCall
  rw [hCalls, Table.lookup_insert] at hCall
  split at hCall
  · cases hCall
    rw [Call.LeavesNothing, if_neg (by rw [hClosure]; nofun)]
    exact ⟨hCounted, hHandled⟩
  · cases hCall

/-- A `Send` without an output succeeds, and the response stays in `receive_messages_`. -/
theorem response_left_behind :
    ∃ s, exec NodeState.step .new
        [.call twoServers (.send .server 1 (some [3]) 1 6), .act 1, .answer 1 0 [30], .respond 1 0,
          .loop, .loop, .waitTurn 1 false, .returns 1] = some s ∧
      s.Quiescent ∧ (s.calls.lookup 1).map (·.status) = some (.returned true) ∧
      ∃ res : Table UInt32 Bytes, s.receiveMessages.lookup 1 = some res ∧
        res.lookup 1 = some [30] := by
  obtain ⟨s, call, hRun, hLoop, hCalls, hStatus, hSent, hReceived⟩ : ∃ s call,
      exec NodeState.step .new
        [.call twoServers (.send .server 1 (some [3]) 1 6), .act 1, .answer 1 0 [30], .respond 1 0,
          .loop, .loop, .waitTurn 1 false, .returns 1] = some s ∧
      s.loop = .idle ∧ s.calls = AList.insert 1 call ∅ ∧ call.status = .returned true ∧
      call.sent = [⟨1, [3], .handled [30]⟩] ∧
      ∃ res : Table UInt32 Bytes, s.receiveMessages.lookup 1 = some res ∧
        res.lookup 1 = some [30] :=
    ⟨_, _, rfl, rfl, rfl, rfl, rfl, _, rfl, rfl⟩
  have hQuiescent := NodeState.quiescent_of_one hLoop hCalls hStatus (by rw [hSent]; decide)
  refine ⟨s, hRun, hQuiescent, ?_, hReceived⟩
  rw [hCalls, Table.lookup_insert, if_pos rfl, Option.map_some, hStatus]

end PsRpc
