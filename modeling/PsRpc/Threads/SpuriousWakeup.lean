import Mathlib.Data.List.Induction
import Mathlib.Data.List.Infix
import PsRpc.Threads.PoolAccounting

/-! # Spurious wake-ups of the workers

A worker that returns from `cv_.wait` without a notification takes the task of another one, or ends
if there is none. While no worker has ended, spurious wake-ups and lost notifications make up for
each other: a task is never left behind without a worker on the way to it.
-/

namespace PsRpc

open Execution

namespace PoolLabel

variable {τ : Type}

def isReturn : PoolLabel τ → Bool
  | .resume _ => true
  | _ => false

def isPush : PoolLabel τ → Bool
  | .push _ => true
  | _ => false

end PoolLabel

namespace ThreadPool

variable {τ : Type} {s s' : ThreadPool τ} {l : PoolLabel τ}

/-- A task is in the queue, but it is not counted any more, all notifications have been sent, and no
worker has been woken. -/
def Stranded (s : ThreadPool τ) : Prop :=
  s.taskQueue ≠ [] ∧ s.taskNum = 0 ∧ s.unsent = 0 ∧ s.woken = 0

/-- No worker has ended, and no task is left behind. -/
def Intact (s : ThreadPool τ) : Prop := s.ended = 0 ∧ ¬s.Stranded

theorem Ledger.intact (h : Ledger s) (hEnded : s.ended = 0) : s.Intact := by
  refine ⟨hEnded, ?_⟩
  rintro ⟨hTask, hCounted, hUnsent, hWoken⟩
  obtain ⟨_, _, hQueue, hLost⟩ := h
  have hPos := List.length_pos_iff.mpr hTask
  omega

/-- A step pushes a task or not, and a worker that returns takes a task or ends. -/
theorem Move.tally (hMove : Move s l s') :
    s'.submitted.length = s.submitted.length + l.isPush.toNat ∧
      s'.taken.length + s'.ended = s.taken.length + s.ended + l.isReturn.toNat := by
  cases hMove with
  | full | pass | rest | decide | lose => exact ⟨rfl, rfl⟩
  | push i task => exact ⟨List.length_append .., rfl⟩
  | enter i hWorker | rouse i hWorker =>
    exact ⟨rfl, congrArg (s.taken.length + ·) (ended_set hWorker rfl rfl)⟩
  | finish i _ hWorker | wake i _ hWorker =>
    exact ⟨rfl, congrArg (s.taken.length + ·) (ended_set hWorker rfl rfl)⟩
  | take i task rest hWorker =>
    refine ⟨rfl, ?_⟩
    change (s.taken ++ [task]).length + (s.setWorker i (.busy task)).ended =
      s.taken.length + s.ended + 1
    rw [List.length_append, ended_set hWorker rfl rfl]
    exact Nat.add_right_comm _ _ _
  | starve i hWorker =>
    exact ⟨rfl, congrArg (s.taken.length + ·) (counts_set hWorker .ended).2.2⟩

variable {threadNum maxTaskNum submitters : Nat} {labels : List (PoolLabel τ)}

theorem running_of_exec (hRun : exec step s labels = some s') (hRunning : s'.running = true) :
    s.running = true := by
  induction labels generalizing s with
  | nil =>
    cases hRun
    exact hRunning
  | cons l labels ih =>
    obtain ⟨next, hStep, hRest⟩ := Option.bind_eq_some_iff.mp hRun
    exact (move_of_step hStep (ih hRest)).1

theorem tally_of_exec (hRun : exec step s labels = some s') (hRunning : s'.running = true) :
    s'.submitted.length = s.submitted.length + labels.countP PoolLabel.isPush ∧
      s'.taken.length + s'.ended =
        s.taken.length + s.ended + labels.countP PoolLabel.isReturn := by
  induction labels generalizing s with
  | nil =>
    cases hRun
    exact ⟨rfl, rfl⟩
  | cons l labels ih =>
    obtain ⟨next, hStep, hRest⟩ := Option.bind_eq_some_iff.mp hRun
    obtain ⟨_, hMove⟩ := move_of_step hStep (running_of_exec hRest hRunning)
    obtain ⟨hPushed, hReturned⟩ := hMove.tally
    obtain ⟨hPushedRest, hReturnedRest⟩ := ih hRest
    rw [Roster.countP_cons, Roster.countP_cons]
    omega

/-- At every point of the run, at least as many tasks have been submitted as workers have returned
from `cv_.wait`. -/
def Supplied (labels : List (PoolLabel τ)) : Prop :=
  ∀ before, before <+: labels →
    before.countP PoolLabel.isReturn ≤ before.countP PoolLabel.isPush

theorem tally_of_new (hRun : exec step (.new threadNum maxTaskNum submitters) labels = some s)
    (hRunning : s.running = true) :
    s.taken.length + s.taskQueue.length = labels.countP PoolLabel.isPush ∧
      s.taken.length + s.ended = labels.countP PoolLabel.isReturn := by
  obtain ⟨hPushed, hReturned⟩ := tally_of_exec hRun hRunning
  rw [← (ledger_of_exec hRun hRunning).tasks, List.length_append] at hPushed
  rw [new_ended] at hReturned
  change _ = 0 + _ at hPushed
  change _ = 0 + 0 + _ at hReturned
  omega

theorem ended_of_supplied
    (hRun : exec step (.new threadNum maxTaskNum submitters) labels = some s)
    (hRunning : s.running = true) (hSupplied : Supplied labels) : s.ended = 0 := by
  induction labels using List.reverseRecOn generalizing s with
  | nil =>
    cases hRun
    exact new_ended
  | append_singleton labels l ih =>
    obtain ⟨mid, hBefore, hStep⟩ := exec_snoc.mp hRun
    obtain ⟨hMidRunning, hMove⟩ := move_of_step hStep hRunning
    have hMid := ih hBefore hMidRunning fun before hPrefix =>
      hSupplied before (hPrefix.trans (List.prefix_append _ _))
    obtain hEnded | ⟨hEmpty, _⟩ := hMove.ended_cases
    · exact hEnded.trans hMid
    · have hCount := hSupplied _ (List.prefix_refl _)
      obtain ⟨hPushed, hReturned⟩ := tally_of_new hRun hRunning
      rw [hEmpty] at hPushed
      change _ + 0 = _ at hPushed
      omega

end ThreadPool

/-- The pool survives the spurious wake-ups of a run, i.e. no worker ends and no task is left behind
in any of its states, if and only if at every point of the run no more workers have returned from
`cv_.wait` than tasks have been submitted. -/
theorem pool_survives_iff {τ : Type} (threadNum maxTaskNum submitters : Nat)
    (labels : List (PoolLabel τ)) (s : ThreadPool τ)
    (hRun : exec ThreadPool.step (.new threadNum maxTaskNum submitters) labels = some s)
    (hRunning : s.running = true) :
    (∀ before mid, before <+: labels →
      exec ThreadPool.step (.new threadNum maxTaskNum submitters) before = some mid →
        mid.Intact) ↔ ThreadPool.Supplied labels := by
  have hPrefix {before : List (PoolLabel τ)} (hBefore : before <+: labels) :
      ∃ mid, exec ThreadPool.step (.new threadNum maxTaskNum submitters) before = some mid ∧
        mid.running = true := by
    obtain ⟨rest, rfl⟩ := hBefore
    obtain ⟨mid, hMid, hRest⟩ := exec_append.mp hRun
    exact ⟨mid, hMid, ThreadPool.running_of_exec hRest hRunning⟩
  constructor
  · intro hIntact before hBefore
    obtain ⟨mid, hMid, hMidRunning⟩ := hPrefix hBefore
    obtain ⟨hPushed, hReturned⟩ := ThreadPool.tally_of_new hMid hMidRunning
    have hEnded := (hIntact before mid hBefore hMid).1
    omega
  · intro hSupplied before mid hBefore hMid
    obtain ⟨mid', hMid', hMidRunning⟩ := hPrefix hBefore
    rw [hMid] at hMid'
    cases hMid'
    apply (ThreadPool.ledger_of_exec hMid hMidRunning).intact
    exact ThreadPool.ended_of_supplied hMid hMidRunning fun early hEarly =>
      hSupplied early (hEarly.trans hBefore)

/-- A spurious wake-up that does no harm: the task is there already, and the notification for it is
lost, as the only worker is busy. -/
def harmlessWakeup : List (PoolLabel Nat) :=
  [.enter 0, .test 0 7, .push 0, .rouse 0, .resume 0, .poll, .notifyOne none]

theorem pool_survives_iff_harmless_wakeup :
    ∃ s : ThreadPool Nat, exec ThreadPool.step (.new 1 2 1) harmlessWakeup = some s ∧
      s.spurious = 1 ∧ s.lost = 1 ∧
      ∀ before mid, before <+: harmlessWakeup →
        exec ThreadPool.step (.new 1 2 1) before = some mid → mid.Intact := by
  obtain ⟨s, hRun, hSpurious, hLost, hRunning⟩ :
      ∃ s : ThreadPool Nat, exec ThreadPool.step (.new 1 2 1) harmlessWakeup = some s ∧
        s.spurious = 1 ∧ s.lost = 1 ∧ s.running = true := ⟨_, rfl, rfl, rfl, rfl⟩
  have hSupplied : ThreadPool.Supplied harmlessWakeup := by
    intro before hBefore
    have hAll : ∀ before ∈ harmlessWakeup.inits,
        before.countP PoolLabel.isReturn ≤ before.countP PoolLabel.isPush := by decide
    exact hAll before ((List.mem_inits before _).mpr hBefore)
  exact ⟨s, hRun, hSpurious, hLost,
    (pool_survives_iff 1 2 1 harmlessWakeup s hRun hRunning).mpr hSupplied⟩

/-- The only worker is woken before there is a task, and ends. A task that is submitted later is
never taken. -/
theorem spurious_wakeup_ends_worker :
    ∃ s : ThreadPool Nat,
      exec ThreadPool.step (.new 1 2 1) [.enter 0, .rouse 0, .resume 0, .test 0 7, .push 0, .poll,
        .notifyOne none] = some s ∧ s.running = true ∧
      s.workers = [.ended] ∧ s.taskQueue = [7] ∧ s.taskNum = 0 ∧ s.Stranded ∧ ¬s.Intact := by
  refine ⟨_, rfl, rfl, rfl, rfl, rfl, ⟨by decide, rfl, rfl, rfl⟩, ?_⟩
  rintro ⟨hEnded, _⟩
  cases hEnded

end PsRpc
