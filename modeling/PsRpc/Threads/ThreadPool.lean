import PsRpc.Library.Execution
import PsRpc.Library.Roster

/-! # The thread pool

Threads call `Submit`, a thread of its own decides which tasks are started, and the worker threads
run them. A step is what one of the threads does while it holds `mtx_`, or what it does between two
such sections. `cv_.wait` has no predicate, so a worker that returns from it goes on with whatever
it finds.
-/

namespace PsRpc

open Execution

/-- Where a worker thread is: in front of the lock at the top of its loop, in `cv_.wait`, or woken
without the mutex. -/
inductive WorkerPhase (τ : Type) where
  | starting
  | blocked
  | woken
  | busy (task : τ)
  | ended
deriving DecidableEq, Repr

namespace WorkerPhase

variable {τ : Type}

def isBlocked : WorkerPhase τ → Bool
  | .blocked => true
  | _ => false

def isWoken : WorkerPhase τ → Bool
  | .woken => true
  | _ => false

def isEnded : WorkerPhase τ → Bool
  | .ended => true
  | _ => false

end WorkerPhase

/-- Where `notify_thread_` is: in its loop, or between `lock.unlock()` and `cv_.notify_one()`. -/
inductive NotifierPhase where
  | polling
  | notifying
deriving DecidableEq, Repr

/-- The members of the pool and its threads. Of a thread that calls `Submit` the task is kept from
the test of `task_num_` to the push. The tasks that were pushed and those that were popped, in their
order, and the numbers of spurious wake-ups and of notifications without a blocked worker are
histories. -/
structure ThreadPool (τ : Type) where
  running : Bool
  maxTaskNum : Nat
  taskNum : Nat
  idleThreadNum : Nat
  taskQueue : List τ
  workers : List (WorkerPhase τ)
  notifier : NotifierPhase
  submitters : List (Option τ)
  submitted : List τ
  taken : List τ
  spurious : Nat
  lost : Nat
deriving DecidableEq, Repr

/-- `test` is a turn of the loop in `Submit`; `rouse` wakes a worker without a notification and
`resume` returns it from `cv_.wait`; `stop` and `notifyAll` are the parts of the destructor. -/
inductive PoolLabel (τ : Type) where
  | test (submitter : Nat) (task : τ)
  | push (submitter : Nat)
  | enter (worker : Nat)
  | rouse (worker : Nat)
  | resume (worker : Nat)
  | finish (worker : Nat)
  | poll
  | notifyOne (worker : Option Nat)
  | stop
  | notifyAll
deriving DecidableEq, Repr

def PoolLabel.isSpurious {τ : Type} : PoolLabel τ → Bool
  | .rouse _ => true
  | _ => false

namespace ThreadPool

variable {τ : Type}

def new (threadNum maxTaskNum submitters : Nat) : ThreadPool τ where
  running := true
  maxTaskNum := maxTaskNum
  taskNum := 0
  idleThreadNum := 0
  taskQueue := []
  workers := List.replicate threadNum .starting
  notifier := .polling
  submitters := List.replicate submitters none
  submitted := []
  taken := []
  spurious := 0
  lost := 0

def setWorker (s : ThreadPool τ) (i : Nat) (phase : WorkerPhase τ) : ThreadPool τ :=
  { s with workers := s.workers.set i phase }

/-- The section of `Submit` that is repeated; the thread sleeps if the pool is full. -/
def submitTest (s : ThreadPool τ) (i : Nat) (task : τ) : ThreadPool τ :=
  if s.maxTaskNum ≤ s.taskNum then s else { s with submitters := s.submitters.set i (some task) }

def submitPush (s : ThreadPool τ) (i : Nat) (task : τ) : ThreadPool τ :=
  { s with
    taskNum := s.taskNum + 1
    taskQueue := s.taskQueue ++ [task]
    submitters := s.submitters.set i none
    submitted := s.submitted ++ [task] }

/-- From the lock to `cv_.wait`, which gives the mutex back. -/
def workerEnter (s : ThreadPool τ) (i : Nat) : ThreadPool τ :=
  { s with
    idleThreadNum := s.idleThreadNum + 1
    workers := s.workers.set i (if s.running then .blocked else .ended) }

/-- From the return of `cv_.wait` to the end of the section. -/
def workerResume (s : ThreadPool τ) (i : Nat) : ThreadPool τ :=
  match s.running, s.taskQueue with
  | true, task :: rest =>
    { s with
      taskQueue := rest
      workers := s.workers.set i (.busy task)
      taken := s.taken ++ [task] }
  | _, _ => s.setWorker i .ended

def notifierPoll (s : ThreadPool τ) : ThreadPool τ :=
  if 0 < s.idleThreadNum ∧ 0 < s.taskNum then
    { s with
      idleThreadNum := s.idleThreadNum - 1
      taskNum := s.taskNum - 1
      notifier := .notifying }
  else s

def wake : WorkerPhase τ → WorkerPhase τ
  | .blocked => .woken
  | phase => phase

def step (s : ThreadPool τ) : PoolLabel τ → Option (ThreadPool τ)
  | .test i task =>
    match s.submitters[i]? with
    | some none => some (s.submitTest i task)
    | _ => none
  | .push i =>
    match s.submitters[i]? with
    | some (some task) => some (s.submitPush i task)
    | _ => none
  | .enter i =>
    match s.workers[i]? with
    | some .starting => some (s.workerEnter i)
    | _ => none
  | .rouse i =>
    match s.workers[i]? with
    | some .blocked => some { s.setWorker i .woken with spurious := s.spurious + 1 }
    | _ => none
  | .resume i =>
    match s.workers[i]? with
    | some .woken => some (s.workerResume i)
    | _ => none
  | .finish i =>
    match s.workers[i]? with
    | some (.busy _) => some (s.setWorker i .starting)
    | _ => none
  | .poll =>
    match s.notifier with
    | .polling => some s.notifierPoll
    | .notifying => none
  | .notifyOne (some i) =>
    match s.notifier, s.workers[i]? with
    | .notifying, some .blocked => some { s.setWorker i .woken with notifier := .polling }
    | _, _ => none
  | .notifyOne none =>
    if s.notifier = .notifying ∧ s.workers.countP WorkerPhase.isBlocked = 0 then
      some { s with notifier := .polling, lost := s.lost + 1 }
    else none
  | .stop => some { s with running := false }
  | .notifyAll =>
    if s.running then none else some { s with workers := s.workers.map wake }

/-! ## What a step does while the pool is running -/

/-- The steps of a pool that is running before and after them. -/
inductive Move (s : ThreadPool τ) : PoolLabel τ → ThreadPool τ → Prop
  | full (i : Nat) (task : τ) (hFull : s.maxTaskNum ≤ s.taskNum) : Move s (.test i task) s
  | pass (i : Nat) (task : τ) (hThread : s.submitters[i]? = some none)
      (hRoom : s.taskNum < s.maxTaskNum) :
      Move s (.test i task) { s with submitters := s.submitters.set i (some task) }
  | push (i : Nat) (task : τ) (hThread : s.submitters[i]? = some (some task)) :
      Move s (.push i) (s.submitPush i task)
  | enter (i : Nat) (hWorker : s.workers[i]? = some .starting) :
      Move s (.enter i)
        { s with
          idleThreadNum := s.idleThreadNum + 1
          workers := s.workers.set i .blocked }
  | rouse (i : Nat) (hWorker : s.workers[i]? = some .blocked) :
      Move s (.rouse i) { s.setWorker i .woken with spurious := s.spurious + 1 }
  | take (i : Nat) (task : τ) (rest : List τ) (hWorker : s.workers[i]? = some .woken)
      (hQueue : s.taskQueue = task :: rest) :
      Move s (.resume i)
        { s with
          taskQueue := rest
          workers := s.workers.set i (.busy task)
          taken := s.taken ++ [task] }
  | starve (i : Nat) (hWorker : s.workers[i]? = some .woken) (hQueue : s.taskQueue = []) :
      Move s (.resume i) (s.setWorker i .ended)
  | finish (i : Nat) (task : τ) (hWorker : s.workers[i]? = some (.busy task)) :
      Move s (.finish i) (s.setWorker i .starting)
  | rest (hIdle : ¬(0 < s.idleThreadNum ∧ 0 < s.taskNum)) : Move s .poll s
  | decide (hNotifier : s.notifier = .polling) (hIdle : 0 < s.idleThreadNum)
      (hTask : 0 < s.taskNum) :
      Move s .poll
        { s with
          idleThreadNum := s.idleThreadNum - 1
          taskNum := s.taskNum - 1
          notifier := .notifying }
  | wake (i : Nat) (hNotifier : s.notifier = .notifying)
      (hWorker : s.workers[i]? = some .blocked) :
      Move s (.notifyOne (some i)) { s.setWorker i .woken with notifier := .polling }
  | lose (hNotifier : s.notifier = .notifying)
      (hNobody : s.workers.countP WorkerPhase.isBlocked = 0) :
      Move s (.notifyOne none) { s with notifier := .polling, lost := s.lost + 1 }

variable {s s' : ThreadPool τ} {l : PoolLabel τ}

@[simp] theorem submitTest_running (i : Nat) (task : τ) :
    (s.submitTest i task).running = s.running := by
  rw [submitTest]
  split <;> rfl

@[simp] theorem workerResume_running (i : Nat) : (s.workerResume i).running = s.running := by
  rw [workerResume]
  split <;> rfl

@[simp] theorem notifierPoll_running : s.notifierPoll.running = s.running := by
  rw [notifierPoll]
  split <;> rfl

theorem move_submitTest {i : Nat} (task : τ) (hThread : s.submitters[i]? = some none) :
    Move s (.test i task) (s.submitTest i task) := by
  rw [submitTest]
  split
  · next hFull => exact .full i task hFull
  · next hRoom => exact .pass i task hThread (Nat.lt_of_not_le hRoom)

theorem move_workerResume {i : Nat} (hWorker : s.workers[i]? = some .woken)
    (hRunning : s.running = true) : Move s (.resume i) (s.workerResume i) := by
  rw [workerResume]
  split
  · next hQueue => exact .take i _ _ hWorker hQueue
  · next hQueue =>
    apply Move.starve i hWorker
    cases hTasks : s.taskQueue with
    | nil => rfl
    | cons task rest => exact absurd hTasks (hQueue task rest hRunning)

theorem move_notifierPoll (hNotifier : s.notifier = .polling) : Move s .poll s.notifierPoll := by
  rw [notifierPoll]
  split
  · next hIdle => exact .decide hNotifier hIdle.1 hIdle.2
  · next hIdle => exact .rest hIdle

theorem move_of_step (hStep : s.step l = some s') (hRunning : s'.running = true) :
    s.running = true ∧ Move s l s' := by
  cases l with
  | test i task =>
    simp only [step] at hStep
    split at hStep
    · next hThread =>
      cases hStep
      exact ⟨by simpa using hRunning, move_submitTest task hThread⟩
    · cases hStep
  | push i =>
    simp only [step] at hStep
    split at hStep
    · next task hThread =>
      cases hStep
      exact ⟨hRunning, .push i task hThread⟩
    · cases hStep
  | enter i =>
    simp only [step] at hStep
    split at hStep
    · next hWorker =>
      cases hStep
      have hOld : s.running = true := hRunning
      refine ⟨hOld, ?_⟩
      rw [workerEnter, if_pos hOld]
      exact .enter i hWorker
    · cases hStep
  | rouse i =>
    simp only [step] at hStep
    split at hStep
    · next hWorker =>
      cases hStep
      exact ⟨hRunning, .rouse i hWorker⟩
    · cases hStep
  | resume i =>
    simp only [step] at hStep
    split at hStep
    · next hWorker =>
      cases hStep
      rw [workerResume_running] at hRunning
      exact ⟨hRunning, move_workerResume hWorker hRunning⟩
    · cases hStep
  | finish i =>
    simp only [step] at hStep
    split at hStep
    · next task hWorker =>
      cases hStep
      exact ⟨hRunning, .finish i task hWorker⟩
    · cases hStep
  | poll =>
    simp only [step] at hStep
    split at hStep
    · next hNotifier =>
      cases hStep
      exact ⟨by simpa using hRunning, move_notifierPoll hNotifier⟩
    · cases hStep
  | notifyOne worker =>
    cases worker with
    | some i =>
      simp only [step] at hStep
      split at hStep
      · next hNotifier hWorker =>
        cases hStep
        exact ⟨hRunning, .wake i hNotifier hWorker⟩
      · cases hStep
    | none =>
      simp only [step] at hStep
      split at hStep
      · next hLost =>
        cases hStep
        exact ⟨hRunning, .lose hLost.1 hLost.2⟩
      · cases hStep
  | stop =>
    cases hStep
    cases hRunning
  | notifyAll =>
    simp only [step] at hStep
    split at hStep
    · cases hStep
    · next hStopped =>
      cases hStep
      exact absurd hRunning hStopped

end ThreadPool

end PsRpc
