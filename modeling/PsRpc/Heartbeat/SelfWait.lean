import PsRpc.Heartbeat.Client

/-! # The event loop waits for itself

The response to a heartbeat that carries `IS_CLUSTER_FINISH` puts the event loop into `Wait` for the
heartbeat that its handler has sent. Nobody else counts responses, so that it stays there until the
time of `Wait` is over.
-/

namespace PsRpc

open Execution

namespace Client

variable {times : ClusterTimes} {c c' : Client}

theorem selfWait_of_waiting {requestId answered : Nat} {message : HeartbeatRespMessage}
    (hLoop : c.loop = .waiting requestId answered message)
    (hOpen : (c.tracker.entry requestId).1 ≠ (c.tracker.entry requestId).2) :
    c.SelfWait times := by
  refine ⟨requestId, answered, message, hLoop, hOpen, ?_⟩
  intro response
  rw [step, hLoop]
  rfl

theorem selfWait_of_step_finish {l : ClientLabel} (hLabel : l.takesFinish = true)
    (hStep : c.step times l = some c') : c'.SelfWait times := by
  obtain ⟨_, hTracker, _, answered, message, hLoop⟩ := step_finish hLabel hStep
  apply selfWait_of_waiting hLoop
  rw [hTracker, MessageTracker.entry_addMessageTrack, if_pos rfl]
  decide

theorem not_isWaiting_of_step_other {l : ClientLabel} (hLabel : l.takesFinish = false)
    (hLoop : c.loop.isWaiting = false) (hStep : c.step times l = some c') :
    c'.loop.isWaiting = false := by
  cases (step_other hLabel hStep).2 with
  | request _ _ loop _ => rw [loop, hLoop]
  | waitTurn _ _ _ loop _ _ => rw [loop, hLoop]
  | loopTurn _ _ _ _ _ _ loop _ _ => rw [loop, hLoop]
  | loopReturn _ _ _ _ _ _ _ loop _ _ => rw [loop]; rfl
  | take _ loop _ _ => exact loop
  | internal _ loop _ => rw [loop, hLoop]

theorem SelfWait.isWaiting (h : c.SelfWait times) : c.loop.isWaiting = true := by
  obtain ⟨requestId, answered, message, hLoop, _, _⟩ := h
  rw [hLoop]
  rfl

/-! ## How long it waits -/

def TimerKnown (c : Client) : Prop :=
  ∀ requestId, c.timer = .waiting requestId → requestId ≤ c.tracker.nextRequestId

theorem timerKnown_new (node : ClusterNode) (status : NodeStatus) :
    (Client.new node status).TimerKnown := by
  intro requestId hWaiting
  cases hWaiting

theorem TimerKnown.step {l : ClientLabel} (h : c.TimerKnown) (hStep : c.step times l = some c') :
    c'.TimerKnown := by
  intro requestId hWaiting
  cases hLabel : l.takesFinish with
  | true =>
    obtain ⟨_, hTracker, hTimer, _⟩ := step_finish hLabel hStep
    rw [hTimer] at hWaiting
    rw [hTracker]
    exact Nat.le_succ_of_le (h requestId hWaiting)
  | false =>
    have hMove := (step_other hLabel hStep).2
    rcases hMove.timer_waiting hWaiting with hSame | ⟨_, hLe⟩
    · exact (h requestId hSame).trans hMove.nextRequestId_le
    · exact hLe

structure WaitsFor (requestId : Nat) (c : Client) : Prop where
  loop : ∃ answered message, c.loop = .waiting requestId answered message
  unanswered : (c.tracker.entry requestId).1 ≠ (c.tracker.entry requestId).2
  known : requestId ≤ c.tracker.nextRequestId
  timer : c.timer ≠ .waiting requestId

theorem WaitsFor.of_step_finish {l : ClientLabel} (hLabel : l.takesFinish = true)
    (hTimer : c.TimerKnown) (hStep : c.step times l = some c') :
    WaitsFor (c.tracker.nextRequestId + 1) c' := by
  obtain ⟨_, hTracker, hSame, hLoop⟩ := step_finish hLabel hStep
  refine ⟨hLoop, ?_, ?_, ?_⟩
  · rw [hTracker, MessageTracker.entry_addMessageTrack, if_pos rfl]
    decide
  · rw [hTracker]
    exact le_refl _
  · rw [hSame]
    intro hWaiting
    have hLe := hTimer _ hWaiting
    omega

/-- The labels that do not end the `Wait` of the event loop: its time is not over, and no thread of
the application calls `Wait` with the same id. -/
def KeepsWaiting (requestId : Nat) (l : ClientLabel) : Prop :=
  l ≠ .loopWait true ∧ ∀ timedOut, l ≠ .waitTurn requestId timedOut

theorem WaitsFor.step {requestId : Nat} {l : ClientLabel} (h : WaitsFor requestId c)
    (hLabel : KeepsWaiting requestId l) (hStep : c.step times l = some c') :
    WaitsFor requestId c' := by
  obtain ⟨answered, message, hLoop⟩ := h.loop
  have hOther : l.takesFinish = false := by
    cases l with
    | take other response =>
      have hIdle := (take_eq_some hStep).1
      rw [hLoop] at hIdle
      cases hIdle
    | _ => rfl
  have hMove := (step_other hOther hStep).2
  have hKnown : requestId ≤ c'.tracker.nextRequestId := h.known.trans hMove.nextRequestId_le
  have hTimer : c'.timer ≠ .waiting requestId := by
    intro hWaiting
    rcases hMove.timer_waiting hWaiting with hSame | ⟨hNew, _⟩
    · exact h.timer hSame
    · have hOld := h.known
      omega
  cases hMove with
  | request expected tracker loop _ =>
    refine ⟨loop ▸ h.loop, ?_, hKnown, hTimer⟩
    have hNe : requestId ≠ c.tracker.nextRequestId + 1 := by
      have hOld := h.known
      omega
    rw [tracker, MessageTracker.entry_addMessageTrack, if_neg hNe]
    exact h.unanswered
  | waitTurn other timedOut tracker loop caller _ =>
    refine ⟨loop ▸ h.loop, ?_, hKnown, hTimer⟩
    have hNe : requestId ≠ other := by
      rintro rfl
      rcases caller with hCall | hCalls
      · exact hLabel.2 timedOut hCall
      · exact h.timer hCalls
    rw [tracker, MessageTracker.entry_waitTurn_of_ne _ hNe]
    exact h.unanswered
  | loopTurn other _ _ timedOut waiting tracker loop turn _ =>
    obtain ⟨rfl, _, _⟩ := LoopPhase.waiting.inj (hLoop.symm.trans waiting)
    refine ⟨loop ▸ h.loop, ?_, hKnown, hTimer⟩
    cases timedOut with
    | true =>
      rw [MessageTracker.waitTurn, if_neg h.unanswered] at turn
      cases turn
    | false =>
      rw [tracker, (MessageTracker.waitTurn_of_open h.unanswered).2]
      exact h.unanswered
  | loopReturn other _ _ timedOut label waiting turn _ _ _ =>
    obtain ⟨rfl, _, _⟩ := LoopPhase.waiting.inj (hLoop.symm.trans waiting)
    cases timedOut with
    | true => exact absurd label hLabel.1
    | false => exact absurd (MessageTracker.waitTurn_of_open h.unanswered).1 turn
  | take idle _ _ _ =>
    rw [hLoop] at idle
    cases idle
  | internal tracker loop _ => exact ⟨loop ▸ h.loop, tracker ▸ h.unanswered, hKnown, hTimer⟩

theorem WaitsFor.selfWait {requestId : Nat} (h : WaitsFor requestId c) : c.SelfWait times := by
  obtain ⟨answered, message, hLoop⟩ := h.loop
  exact selfWait_of_waiting hLoop h.unanswered

/-- Once the event loop has taken a response with `IS_CLUSTER_FINISH`, it waits for itself until the
time of its `Wait` is over. -/
theorem selfWait_until_timeout {node : ClusterNode} {status : NodeStatus}
    {before after : List ClientLabel} {l : ClientLabel} {mid : Client}
    (hLabel : l.takesFinish = true)
    (hBefore : exec (step times) (.new node status) before = some mid)
    (hAfter : ∀ l ∈ after, KeepsWaiting (mid.tracker.nextRequestId + 1) l)
    (hRun : exec (step times) mid (l :: after) = some c) : c.SelfWait times := by
  have hKnown : mid.TimerKnown :=
    exec_invariant (fun _ _ _ hKnown hStep => hKnown.step hStep) (timerKnown_new node status)
      hBefore
  obtain ⟨next, hStep, hRest⟩ := Option.bind_eq_some_iff.mp hRun
  have hWaits : WaitsFor (mid.tracker.nextRequestId + 1) next :=
    .of_step_finish hLabel hKnown hStep
  exact (exec_invariant_of_labels (fun _ _ _ hOk hWaits hStep => hWaits.step hOk hStep) hAfter
    hWaits hRest).selfWait

end Client

/-- The event loop never waits for itself in a run if and only if it takes no response to a
heartbeat that carries `IS_CLUSTER_FINISH`. -/
theorem never_selfWait_iff (times : ClusterTimes) (node : ClusterNode) (status : NodeStatus)
    (labels : List ClientLabel) (last : Client)
    (hRun : exec (Client.step times) (.new node status) labels = some last) :
    (∀ before after c, labels = before ++ after →
      exec (Client.step times) (.new node status) before = some c → ¬c.SelfWait times) ↔
    ∀ requestId message, .take requestId (.heartbeat message) ∈ labels →
      message.isClusterFinish = false := by
  constructor
  · intro hNever requestId message hTaken
    by_contra hFinish
    obtain ⟨before, after, rfl⟩ := List.append_of_mem hTaken
    obtain ⟨mid, next, hBefore, hStep, _⟩ := exec_middle hRun
    refine hNever _ after next (List.append_cons ..) (exec_snoc.mpr ⟨mid, hBefore, hStep⟩)
      (Client.selfWait_of_step_finish ?_ hStep)
    exact Bool.eq_true_of_not_eq_false hFinish
  · rintro hNone before after c rfl hBefore hWait
    have hOther : ∀ l ∈ before, l.takesFinish = false := by
      intro l hl
      cases l with
      | take requestId response =>
        cases response with
        | heartbeat message => exact hNone requestId message (List.mem_append_left after hl)
        | _ => rfl
      | _ => rfl
    have hLoop : c.loop.isWaiting = false :=
      exec_invariant_of_labels
        (fun _ _ _ hLabel hLoop hStep => Client.not_isWaiting_of_step_other hLabel hLoop hStep)
        hOther rfl hBefore
    rw [hWait.isWaiting] at hLoop
    cases hLoop

def firstHeartbeat (response : HeartbeatRespMessage) : List ClientLabel :=
  [.register, .take 1 (.register ⟨"w", 0⟩), .waitTurn 1 false, .timerCheck, .timerSend,
    .take 2 (.heartbeat response)]

theorem never_selfWait_iff_ordinary_heartbeat :
    ∃ last, exec (Client.step {}) (.new (.newWorker "w") (.new 0 true))
        (firstHeartbeat ⟨true, false, false, false⟩) = some last ∧
      ∀ before after c, firstHeartbeat ⟨true, false, false, false⟩ = before ++ after →
        exec (Client.step {}) (.new (.newWorker "w") (.new 0 true)) before = some c →
        ¬c.SelfWait {} := by
  obtain ⟨last, hRun⟩ : ∃ last, exec (Client.step {}) (.new (.newWorker "w") (.new 0 true))
      (firstHeartbeat ⟨true, false, false, false⟩) = some last := ⟨_, rfl⟩
  refine ⟨last, hRun, ?_⟩
  apply (never_selfWait_iff {} (.newWorker "w") (.new 0 true) _ last hRun).mpr
  simp [firstHeartbeat]

/-- The first heartbeat after the end of the cluster. -/
theorem cluster_finish_blocks_loop :
    ∃ c, exec (Client.step {}) (.new (.newWorker "w") (.new 0 true))
        (firstHeartbeat ⟨true, true, false, false⟩) = some c ∧ c.SelfWait {} := by
  refine ⟨_, rfl, 3, 2, ⟨true, true, false, false⟩, rfl, by decide, ?_⟩
  intro response
  rfl

end PsRpc
