import PsRpc.Node.SlotInvariant

/-! # When a stored closure runs

The closure of a `Send` with an output refers to the variables of the call. `CheckMessageTrack`
and the run of the closure are two sections of the event loop, and `Wait` can time out between
them: then the closure runs after `Send` has returned to its caller. This is the only way, as long
as no call has more messages than the tracker can count.
-/

namespace PsRpc

open Execution

/-- No call tracks 2^32 messages or more, and no `Wait` gives up while the event loop is between
a successful `CheckMessageTrack` of the request and the run of its closure. -/
def NodeState.timely (s : NodeState) : Label → Bool
  | .call view invocation =>
    match invocation.request view with
    | .ok request => request.expected < 2 ^ 32
    | .error _ => true
  | .waitTurn id true => s.loop.phase id ≠ .found
  | _ => true

structure Slot.Alive (slot : Slot) (call : Call) : Prop where
  small : call.request.expected < 2 ^ 32
  found : slot.phase = .found →
    call.status = .running ∧ call.counted + 1 = call.request.expected

namespace Slot.Alive

theorem of_phase {slot : Slot} {call : Call} (hSmall : call.request.expected < 2 ^ 32)
    (hPhase : slot.phase ≠ .found) : slot.Alive call :=
  ⟨hSmall, fun hFound => absurd hFound hPhase⟩

/-- The responses that come after `Wait` do not make the test of `CheckMessageTrack` true. -/
theorem not_ended_of_check {slot : Slot} {call : Call} (hRegular : slot.Regular)
    (hCall : slot.call = some call) (hSmall : call.request.expected < 2 ^ 32)
    (hPhase : slot.phase = .stored) (hCheck : slot.entry.1 = slot.entry.2 + 1) :
    call.ended = false := by
  by_contra hEnded
  obtain ⟨late, hLate, hEntry, _⟩ :=
    (hRegular.tracked call hCall).closed (Bool.eq_true_of_not_eq_false hEnded)
  rw [hEntry] at hCheck
  change UInt32.ofNat 0 = UInt32.ofNat late + 1 at hCheck
  rw [uint32_ofNat_succ, uint32_ofNat_eq_iff] at hCheck
  rw [hPhase] at hLate
  change call.handled = call.counted + late + 1 at hLate
  have hHandled := call.handled_le_sent
  have hSent := (hRegular.progress call hCall).sent_le
  omega

theorem checkFound {slot : Slot} {call : Call} (hRegular : slot.Regular)
    (hCall : slot.call = some call) (hSmall : call.request.expected < 2 ^ 32)
    (hPhase : slot.phase = .stored) (hCheck : slot.entry.1 = slot.entry.2 + 1) :
    call.status = .running ∧ call.counted + 1 = call.request.expected := by
  have hOpen := not_ended_of_check hRegular hCall hSmall hPhase hCheck
  have hProgress := hRegular.progress call hCall
  obtain ⟨hTrack, hCount⟩ := (hRegular.tracked call hCall).opened hOpen
  rw [entry, hTrack] at hCheck
  change UInt32.ofNat _ = UInt32.ofNat _ + 1 at hCheck
  rw [uint32_ofNat_succ, uint32_ofNat_eq_iff] at hCheck
  rw [hPhase] at hCount
  change call.handled = call.counted + 1 at hCount
  have hHandled := call.handled_le_sent
  have hSent := hProgress.sent_le
  have hCounted : call.counted + 1 = call.request.expected := by omega
  refine ⟨?_, hCounted⟩
  cases hProgress with
  | raising _ _ _ status => exact status
  | registering _ _ _ status => exact status
  | sending _ _ _ status => exact status
  | waited _ ended => rw [hOpen] at ended; cases ended
  | raised _ _ _ sent =>
    rcases sent with hNil | hLt
    · rw [hNil] at hHandled
      change call.handled ≤ 0 at hHandled
      omega
    · omega

theorem sent_eq {slot : Slot} {call : Call} (h : slot.Alive call) (hRegular : slot.Regular)
    (hCall : slot.call = some call) (hPhase : slot.phase = .found) :
    0 < call.sent.length ∧ call.sent.length = call.request.expected := by
  obtain ⟨hStatus, hCounted⟩ := h.found hPhase
  have hOpen : call.ended = false := by rw [Call.ended, hStatus]
  have hCount := ((hRegular.tracked call hCall).opened hOpen).2
  rw [hPhase] at hCount
  change call.handled = call.counted + 1 at hCount
  have hHandled := call.handled_le_sent
  have hSent := (hRegular.progress call hCall).sent_le
  omega

theorem step {slot slot' : Slot} {event : SlotEvent} {call' : Call} (hRegular : slot.Regular)
    (h : ∀ call, slot.call = some call → slot.Alive call) (hStep : slot.Step event slot')
    (hBegan : ∀ request, event = .began request → request.expected < 2 ^ 32)
    (hWaited : event = .waited false → slot.phase ≠ .found) (hCall' : slot'.call = some call') :
    slot'.Alive call' := by
  cases hStep with
  | begin request hCall =>
    obtain rfl := hRegular.empty hCall
    cases hCall'
    exact of_phase (hBegan request rfl) nofun
  | @setMessageCallback call rest hCall hTodo =>
    cases hCall'
    exact ⟨(h call hCall).small, (h call hCall).found⟩
  | @sendMessage call rankId data rest hCall hTodo =>
    cases hCall'
    exact ⟨(h call hCall).small, (h call hCall).found⟩
  | @raise call fault rest hCall hTodo =>
    cases hCall'
    refine of_phase (h call hCall).small ?_
    intro hPhase
    obtain ⟨hPos, hSent⟩ := (h call hCall).sent_eq hRegular hCall hPhase
    rcases (hRegular.progress call hCall).raise hTodo with hNil | hLt
    · rw [hNil] at hPos
      cases hPos
    · omega
  | @waited call res hCall hTodo hRes =>
    cases hCall'
    refine of_phase (h call hCall).small ?_
    intro hPhase
    cases res with
    | false => exact hWaited rfl hPhase
    | true =>
      have hOpen := (hRegular.progress call hCall).not_ended hTodo
      obtain ⟨_, _, hIdle⟩ :=
        hRegular.counted_of_wait hCall (h call hCall).small hOpen (hRes.mp rfl)
      rw [show slot.phase = .found from hPhase] at hIdle
      cases hIdle
  | @poll call hCall hTodo => exact ⟨(h call' hCall').small, (h call' hCall').found⟩
  | @finish call call' hCall hFinish =>
    cases hCall'
    obtain ⟨res, hStatus, rfl⟩ := Call.finish_eq_some hFinish
    refine of_phase (h call hCall).small ?_
    intro hPhase
    obtain ⟨hRunning, _⟩ := (h call hCall).found hPhase
    rw [hStatus] at hRunning
    cases hRunning
  | @answer call call' k data hCall hAnswer =>
    cases hCall'
    obtain ⟨before, rankId, sentData, after, hSent, rfl⟩ := Call.answer_eq_some hAnswer
    exact ⟨(h call hCall).small, (h call hCall).found⟩
  | @respond call k rankId data hCall hPhase hResponse =>
    cases hCall'
    exact of_phase (h call hCall).small nofun
  | checkFound hPhase hCheck hCallback =>
    have hSmall := (h call' hCall').small
    exact ⟨hSmall, fun _ => checkFound hRegular hCall' hSmall hPhase hCheck⟩
  | checkMissed hPhase hCheck => exact of_phase (h call' hCall').small nofun
  | @run call hPhase hCall =>
    cases hCall'
    obtain ⟨output, hRun⟩ := call.runClosure_eq (slot.received.getD ∅)
    rw [hRun]
    exact of_phase (h call hCall).small nofun
  | erase hPhase => exact of_phase (h call' hCall').small nofun
  | @notify call hPhase hCall =>
    cases hCall'
    obtain ⟨counted, hCount⟩ := call.count_eq
    rw [hCount]
    exact of_phase (h call hCall).small nofun

end Slot.Alive

theorem NodeState.running_of_found {labels : List Label} {s : NodeState}
    (hRun : exec (restrict (fun s l => s.timely l = true) NodeState.step) .new labels = some s)
    {id frame : Nat} (hFound : s.loop = .found id frame) :
    ∃ call, s.calls.lookup frame = some call ∧ call.status = .running := by
  have hLinked := NodeState.exec_linked (exec_of_exec_restrict hRun)
  obtain rfl := hLinked.found id frame hFound
  have hSlot : (s.view frame).Regular ∧ ∀ call, (s.view frame).call = some call →
      (s.view frame).Alive call := by
    refine NodeState.exec_slots (P := fun slot => slot.Regular ∧ ∀ call,
      slot.call = some call → slot.Alive call) ?_ ?_ hRun frame
    · refine ⟨.new, ?_⟩
      intro call hCall
      cases hCall
    · rintro s l id event slot hTimely hExplains ⟨hRegular, h⟩ hStep
      refine ⟨hRegular.step hStep, fun call' => Slot.Alive.step hRegular h hStep ?_ ?_⟩
      · rintro request rfl
        obtain ⟨view, invocation, rfl, hRequest⟩ := hExplains
        rw [NodeState.timely, hRequest] at hTimely
        exact of_decide_eq_true hTimely
      · rintro rfl
        cases hExplains rfl
        exact of_decide_eq_true hTimely
  have hPhase : (s.view frame).phase = .found := by
    simp only [NodeState.view, hFound, Loop.phase, if_true]
  obtain ⟨call, hCall⟩ := hSlot.1.exists_call (by simp [hPhase])
  exact ⟨call, hCall, ((hSlot.2 call hCall).found hPhase).1⟩

/-- In every run whose steps are timely, the event loop runs a closure only while the call that
registered it, and whose variables it refers to, is running. -/
theorem callback_runs_in_running_call (labels : List Label) (s : NodeState)
    (hRun : exec (restrict (fun s l => s.timely l = true) NodeState.step) .new labels = some s)
    (id frame : Nat) (hFound : s.loop = .found id frame) :
    ∃ call, s.calls.lookup frame = some call ∧ call.status = .running :=
  NodeState.running_of_found hRun hFound

theorem callback_runs_in_running_call_one_send :
    ∃ s call, exec (restrict (fun s l => s.timely l = true) NodeState.step) .new
        [.call twoServers (.sendForOutput .server 1 (some [3]) 1 6 (some none)), .act 1, .act 1,
          .answer 1 0 [30], .waitTurn 1 false, .respond 1 0, .loop] = some s ∧
      s.loop = .found 1 1 ∧ s.calls.lookup 1 = some call ∧ call.status = .running := by
  obtain ⟨s, hRun, hFound⟩ : ∃ s,
      exec (restrict (fun s l => s.timely l = true) NodeState.step) .new
        [.call twoServers (.sendForOutput .server 1 (some [3]) 1 6 (some none)), .act 1, .act 1,
          .answer 1 0 [30], .waitTurn 1 false, .respond 1 0, .loop] = some s ∧
      s.loop = .found 1 1 := ⟨_, rfl, rfl⟩
  obtain ⟨call, hCall, hStatus⟩ := callback_runs_in_running_call _ s hRun 1 1 hFound
  exact ⟨s, call, hRun, hFound, hCall, hStatus⟩

/-- `CheckMessageTrack` succeeds, `Wait` times out, `Send` returns false, and then the closure
writes to the output of the call that has returned. -/
theorem callback_outlives_call :
    ∃ s s' call call', exec NodeState.step .new
        [.call twoServers (.sendForOutput .server 1 (some [3]) 1 6 (some none)), .act 1, .act 1,
          .answer 1 0 [30], .respond 1 0, .loop, .waitTurn 1 true, .returns 1] = some s ∧
      s.loop = .found 1 1 ∧ s.calls.lookup 1 = some call ∧ call.status = .returned false ∧
      call.output = [none] ∧ s.step .loop = some s' ∧ s'.calls.lookup 1 = some call' ∧
      call'.output = [some [30]] :=
  ⟨_, _, _, _, rfl, rfl, rfl, rfl, rfl, rfl, rfl, rfl⟩

end PsRpc
