import PsRpc.Cluster.Meta

/-! # The loop of `StartHeartbeatTimer`

The heartbeat thread sends one heartbeat after the other until `is_finish_` is set. It is meant to
raise `SCHEDULER_TIMEOUT` when a heartbeat fails and the last one that was acknowledged is too old.
`Heartbeat` returns true whatever becomes of its message, so that this branch is never taken.
-/

namespace PsRpc

inductive NodeEvent where
  | clusterTimeout
  | nodeTimeout
  | schedulerTimeout
deriving DecidableEq, Repr

/-- The members of a node that its heartbeat thread and its event loop write. `events` are the calls
of `on_node_event_message_`, which `eventCallback` says to be set; `schedulerTime` is in seconds. -/
structure NodeStatus where
  isReady : Bool
  isFinish : Bool
  isTimeout : Bool
  schedulerTime : Int
  eventCallback : Bool
  events : List NodeEvent
deriving DecidableEq, Repr

namespace NodeStatus

/-- The constructor; `scheduler_time_` is not initialised. -/
def new (junk : Int) (eventCallback : Bool) : NodeStatus :=
  ⟨false, false, false, junk, eventCallback, []⟩

def raiseEvent (s : NodeStatus) (event : NodeEvent) : NodeStatus :=
  { s with events := s.events ++ [event] }

def updateSchedulerTime (s : NodeStatus) (now : Int) : NodeStatus := { s with schedulerTime := now }

def checkSchedulerTimeout (s : NodeStatus) (times : ClusterTimes) (now : Int) : Bool :=
  s.schedulerTime + times.schedulerTimeout.toNat < now

/-- What `Heartbeat` returns: a failure of `SendMessageSync` is logged and not passed on. -/
def heartbeatResult (_sent : Bool) : Bool := true

/-- The body of the loop, from the return of `SendMessageSync` in `Heartbeat` on. -/
def timerTurn (times : ClusterTimes) (s : NodeStatus) (sent : Bool) (now : Int) : NodeStatus :=
  if !heartbeatResult sent then
    if !s.checkSchedulerTimeout times now && s.eventCallback then
      { s with isFinish := true }.raiseEvent .schedulerTimeout
    else s
  else s.updateSchedulerTime now

end NodeStatus

structure Attempt where
  acknowledged : Bool
  now : Int
deriving DecidableEq, Repr

def timerLoop (times : ClusterTimes) : NodeStatus → List Attempt → NodeStatus
  | s, [] => s
  | s, attempt :: attempts =>
    if s.isFinish then s
    else timerLoop times (s.timerTurn times attempt.acknowledged attempt.now) attempts

def lastAcknowledged (attempts : List Attempt) : Option Int :=
  ((attempts.filter (·.acknowledged)).map (·.now)).getLast?

/-- The attempt `i` is not acknowledged and comes too long after the last one that was. -/
def LossAt (times : ClusterTimes) (attempts : List Attempt) (i : Nat) : Prop :=
  ∃ attempt, attempts[i]? = some attempt ∧ attempt.acknowledged = false ∧
    ∃ last, lastAcknowledged (attempts.take i) = some last ∧
      last + times.schedulerTimeout.toNat < attempt.now

/-- At the attempt `i`, and not before, the loop sets `is_finish_` and raises the event. -/
def RaisesAt (times : ClusterTimes) (s : NodeStatus) (attempts : List Attempt) (i : Nat) : Prop :=
  (∀ j ≤ i, (timerLoop times s (attempts.take j)).isFinish = false ∧
    .schedulerTimeout ∉ (timerLoop times s (attempts.take j)).events) ∧
  (timerLoop times s (attempts.take (i + 1))).isFinish = true ∧
  .schedulerTimeout ∈ (timerLoop times s (attempts.take (i + 1))).events

def DetectsLoss (times : ClusterTimes) (s : NodeStatus) (attempts : List Attempt) : Prop :=
  ∀ i, RaisesAt times s attempts i ↔
    LossAt times attempts i ∧ ∀ j < i, ¬LossAt times attempts j

theorem NodeStatus.timerTurn_eq (times : ClusterTimes) (s : NodeStatus) (sent : Bool) (now : Int) :
    s.timerTurn times sent now = s.updateSchedulerTime now := rfl

theorem timerLoop_isFinish (times : ClusterTimes) (s : NodeStatus) (attempts : List Attempt) :
    (timerLoop times s attempts).isFinish = s.isFinish := by
  induction attempts generalizing s with
  | nil => rfl
  | cons attempt attempts ih =>
    rw [timerLoop]
    split
    · rfl
    · rw [ih, NodeStatus.timerTurn_eq]
      rfl

theorem not_raisesAt (times : ClusterTimes) (s : NodeStatus) (attempts : List Attempt) (i : Nat) :
    ¬RaisesAt times s attempts i := by
  rintro ⟨hBefore, hFinish, _⟩
  have hStart : s.isFinish = false := by
    have hFirst := (hBefore 0 (Nat.zero_le i)).1
    rwa [timerLoop_isFinish] at hFirst
  rw [timerLoop_isFinish, hStart] at hFinish
  cases hFinish

/-- The loss of the scheduler is detected exactly in those histories in which there is none. -/
theorem scheduler_loss_detected_iff (times : ClusterTimes) (junk : Int) (attempts : List Attempt) :
    DetectsLoss times (.new junk true) attempts ↔ ∀ i, ¬LossAt times attempts i := by
  constructor
  · intro hDetects i
    induction i using Nat.strongRecOn with
    | ind i ih =>
      intro hLoss
      exact not_raisesAt _ _ _ i ((hDetects i).mpr ⟨hLoss, ih⟩)
  · intro hNone i
    constructor
    · intro hRaises
      exact absurd hRaises (not_raisesAt _ _ _ i)
    · rintro ⟨hLoss, _⟩
      exact absurd hLoss (hNone i)

/-- The scheduler is silent for one second more than the five hours that are allowed. -/
theorem silent_scheduler_undetected :
    LossAt {} [⟨true, 100⟩, ⟨false, 18101⟩] 1 ∧
      ¬DetectsLoss {} (.new 0 true) [⟨true, 100⟩, ⟨false, 18101⟩] := by
  have hLoss : LossAt {} [⟨true, 100⟩, ⟨false, 18101⟩] 1 :=
    ⟨⟨false, 18101⟩, rfl, rfl, 100, rfl, by decide⟩
  refine ⟨hLoss, fun hDetects => not_raisesAt _ _ _ 1 ((hDetects 1).mpr ⟨hLoss, ?_⟩)⟩
  rintro j hj ⟨attempt, _, _, last, hLast, _⟩
  obtain rfl : j = 0 := by omega
  cases hLast

end PsRpc
