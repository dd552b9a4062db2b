import PsRpc.Threads.ThreadPool

/-! # The accounts of the thread pool

A task is in the queue for every task that is counted in `task_num_` and for every notification that
is on its way, and a blocked worker is there for every worker that is counted in `idle_thread_num_`
and for the notification that is not sent yet. A spurious wake-up takes a blocked worker away
without a notification, and a notification that finds no blocked worker is lost; the second happens
no more often than the first.
-/

namespace PsRpc

open Execution

namespace ThreadPool

variable {τ : Type} {s s' : ThreadPool τ} {l : PoolLabel τ}

def blocked (s : ThreadPool τ) : Nat := s.workers.countP WorkerPhase.isBlocked

def woken (s : ThreadPool τ) : Nat := s.workers.countP WorkerPhase.isWoken

def ended (s : ThreadPool τ) : Nat := s.workers.countP WorkerPhase.isEnded

def unsent (s : ThreadPool τ) : Nat :=
  match s.notifier with
  | .polling => 0
  | .notifying => 1

structure Ledger (s : ThreadPool τ) : Prop where
  tasks : s.taken ++ s.taskQueue = s.submitted
  idle : s.blocked + s.spurious = s.idleThreadNum + s.unsent + s.lost
  queue : s.taskQueue.length + s.spurious =
    s.taskNum + s.unsent + s.lost + s.woken + s.ended
  lost : s.lost ≤ s.spurious

theorem Ledger.new (threadNum maxTaskNum submitters : Nat) :
    Ledger (.new threadNum maxTaskNum submitters : ThreadPool τ) where
  tasks := rfl
  idle := by simp [blocked, unsent, ThreadPool.new, List.countP_replicate, WorkerPhase.isBlocked]
  queue := by
    simp [woken, ended, unsent, ThreadPool.new, List.countP_replicate, WorkerPhase.isWoken,
      WorkerPhase.isEnded]
  lost := Nat.le_refl _

theorem unsent_polling (h : s.notifier = .polling) : s.unsent = 0 := by rw [unsent, h]

theorem unsent_notifying (h : s.notifier = .notifying) : s.unsent = 1 := by rw [unsent, h]

theorem counts_set {i : Nat} {old : WorkerPhase τ} (hWorker : s.workers[i]? = some old)
    (new : WorkerPhase τ) :
    (s.setWorker i new).blocked + old.isBlocked.toNat = s.blocked + new.isBlocked.toNat ∧
      (s.setWorker i new).woken + old.isWoken.toNat = s.woken + new.isWoken.toNat ∧
      (s.setWorker i new).ended + old.isEnded.toNat = s.ended + new.isEnded.toNat :=
  ⟨Roster.countP_set hWorker new _, Roster.countP_set hWorker new _,
    Roster.countP_set hWorker new _⟩

/-- The accounts after a step that moves one worker, in terms of the accounts before it. -/
theorem Ledger.of_setWorker {i : Nat} {old : WorkerPhase τ} (new : WorkerPhase τ)
    (hWorker : s.workers[i]? = some old) (hSet : s'.workers = (s.setWorker i new).workers)
    (hTasks : s'.taken ++ s'.taskQueue = s'.submitted)
    (hIdle : s.blocked + new.isBlocked.toNat + s'.spurious =
      s'.idleThreadNum + s'.unsent + s'.lost + old.isBlocked.toNat)
    (hQueue : s'.taskQueue.length + s'.spurious + old.isWoken.toNat + old.isEnded.toNat =
      s'.taskNum + s'.unsent + s'.lost + (s.woken + new.isWoken.toNat) +
        (s.ended + new.isEnded.toNat))
    (hLost : s'.lost ≤ s'.spurious) : Ledger s' := by
  obtain ⟨hBlocked, hWoken, hEnded⟩ := counts_set hWorker new
  have hBlocked' : s'.blocked = (s.setWorker i new).blocked := by rw [blocked, hSet, blocked]
  have hWoken' : s'.woken = (s.setWorker i new).woken := by rw [woken, hSet, woken]
  have hEnded' : s'.ended = (s.setWorker i new).ended := by rw [ended, hSet, ended]
  exact ⟨hTasks, by omega, by omega, hLost⟩

theorem Ledger.move (h : Ledger s) (hMove : Move s l s') : Ledger s' := by
  obtain ⟨hTasks, hIdle, hQueue, hLost⟩ := h
  cases hMove with
  | full | rest => exact ⟨hTasks, hIdle, hQueue, hLost⟩
  | pass => exact ⟨hTasks, hIdle, hQueue, hLost⟩
  | push i task hThread =>
    refine ⟨?_, hIdle, ?_, hLost⟩
    · rw [submitPush, ← hTasks, List.append_assoc]
    · change (s.taskQueue ++ [task]).length + s.spurious =
        s.taskNum + 1 + s.unsent + s.lost + s.woken + s.ended
      rw [List.length_append, List.length_singleton]
      omega
  | enter i hWorker =>
    refine .of_setWorker .blocked hWorker rfl hTasks ?_ ?_ hLost
    · change s.blocked + 1 + s.spurious = s.idleThreadNum + 1 + s.unsent + s.lost + 0
      omega
    · exact hQueue
  | rouse i hWorker =>
    refine .of_setWorker .woken hWorker rfl hTasks ?_ ?_ (Nat.le_succ_of_le hLost)
    · change s.blocked + 0 + (s.spurious + 1) = s.idleThreadNum + s.unsent + s.lost + 1
      omega
    · change s.taskQueue.length + (s.spurious + 1) + 0 + 0 =
        s.taskNum + s.unsent + s.lost + (s.woken + 1) + s.ended
      omega
  | take i task rest hWorker hTask =>
    rw [hTask] at hTasks hQueue
    refine .of_setWorker (.busy task) hWorker rfl ?_ hIdle ?_ hLost
    · rw [← hTasks, List.append_assoc]
      rfl
    · rw [List.length_cons] at hQueue
      change rest.length + s.spurious + 1 + 0 =
        s.taskNum + s.unsent + s.lost + s.woken + s.ended
      omega
  | starve i hWorker hEmpty =>
    refine .of_setWorker .ended hWorker rfl hTasks hIdle ?_ hLost
    change s.taskQueue.length + s.spurious + 1 + 0 =
      s.taskNum + s.unsent + s.lost + s.woken + (s.ended + 1)
    omega
  | finish i task hWorker =>
    exact .of_setWorker .starting hWorker rfl hTasks hIdle hQueue hLost
  | decide hNotifier hSome hTask =>
    have hUnsent := unsent_polling hNotifier
    refine ⟨hTasks, ?_, ?_, hLost⟩
    · change s.blocked + s.spurious = s.idleThreadNum - 1 + 1 + s.lost
      omega
    · change s.taskQueue.length + s.spurious =
        s.taskNum - 1 + 1 + s.lost + s.woken + s.ended
      omega
  | wake i hNotifier hWorker =>
    have hUnsent := unsent_notifying hNotifier
    refine .of_setWorker .woken hWorker rfl hTasks ?_ ?_ hLost
    · change s.blocked + 0 + s.spurious = s.idleThreadNum + 0 + s.lost + 1
      omega
    · change s.taskQueue.length + s.spurious + 0 + 0 =
        s.taskNum + 0 + s.lost + (s.woken + 1) + s.ended
      omega
  | lose hNotifier hNobody =>
    have hUnsent := unsent_notifying hNotifier
    have hBlocked : s.blocked = 0 := hNobody
    refine ⟨hTasks, ?_, ?_, ?_⟩
    · change s.blocked + s.spurious = s.idleThreadNum + 0 + (s.lost + 1)
      omega
    · change s.taskQueue.length + s.spurious =
        s.taskNum + 0 + (s.lost + 1) + s.woken + s.ended
      omega
    · change s.lost + 1 ≤ s.spurious
      omega

variable {threadNum maxTaskNum submitters : Nat} {labels : List (PoolLabel τ)}

theorem ledger_of_exec (hRun : exec step (.new threadNum maxTaskNum submitters) labels = some s)
    (hRunning : s.running = true) : Ledger s := by
  refine exec_invariant (P := fun s : ThreadPool τ => s.running = true → Ledger s) ?_
    (fun _ => .new threadNum maxTaskNum submitters) hRun hRunning
  intro s l s' h hStep hRunning
  obtain ⟨hOld, hMove⟩ := move_of_step hStep hRunning
  exact (h hOld).move hMove

/-! ## Without spurious wake-ups -/

theorem woken_pos {i : Nat} (hWorker : s.workers[i]? = some .woken) : 0 < s.woken :=
  Roster.countP_pos_iff.mpr ⟨i, .woken, hWorker, rfl⟩

theorem ended_pos {i : Nat} (hWorker : s.workers[i]? = some .ended) : 0 < s.ended :=
  Roster.countP_pos_iff.mpr ⟨i, .ended, hWorker, rfl⟩

theorem Ledger.supplied (h : Ledger s) (hSpurious : s.spurious = 0) {i : Nat}
    (hWorker : s.workers[i]? = some .woken) : s.taskQueue ≠ [] := by
  have hWoken := woken_pos hWorker
  have hQueue := h.queue
  apply List.ne_nil_of_length_pos
  omega

theorem ended_set {i : Nat} {old new : WorkerPhase τ} (hWorker : s.workers[i]? = some old)
    (hOld : old.isEnded = false) (hNew : new.isEnded = false) :
    (s.setWorker i new).ended = s.ended := by
  have hEnded := (counts_set hWorker new).2.2
  rwa [hOld, hNew] at hEnded

theorem Move.ended_cases (hMove : Move s l s') :
    s'.ended = s.ended ∨
      s'.taskQueue = [] ∧ s.taskQueue = [] ∧ ∃ i : Nat, s.workers[i]? = some .woken := by
  cases hMove with
  | full | pass | push | rest | decide | lose => exact .inl rfl
  | enter i hWorker | rouse i hWorker => exact .inl (ended_set hWorker rfl rfl)
  | finish i _ hWorker | wake i _ hWorker => exact .inl (ended_set hWorker rfl rfl)
  | take i task rest hWorker => exact .inl (ended_set hWorker rfl rfl)
  | starve i hWorker hQueue => exact .inr ⟨hQueue, hQueue, i, hWorker⟩

theorem Move.spurious_eq (hMove : Move s l s') (hLabel : l.isSpurious = false) :
    s'.spurious = s.spurious := by
  cases hMove with
  | rouse => cases hLabel
  | _ => rfl

/-- There was no spurious wake-up, and no worker has ended. -/
theorem quiet_move (h : Ledger s) (hQuiet : s.spurious = 0 ∧ s.ended = 0)
    (hLabel : l.isSpurious = false) (hMove : Move s l s') : s'.spurious = 0 ∧ s'.ended = 0 := by
  refine ⟨(hMove.spurious_eq hLabel).trans hQuiet.1, ?_⟩
  obtain hEnded | ⟨_, hEmpty, i, hWorker⟩ := hMove.ended_cases
  · exact hEnded.trans hQuiet.2
  · exact absurd hEmpty (h.supplied hQuiet.1 hWorker)

theorem new_ended : (ThreadPool.new threadNum maxTaskNum submitters : ThreadPool τ).ended = 0 := by
  simp [ended, ThreadPool.new, List.countP_replicate, WorkerPhase.isEnded]

theorem quiet_of_exec (hLabels : ∀ l ∈ labels, l.isSpurious = false)
    (hRun : exec step (.new threadNum maxTaskNum submitters) labels = some s)
    (hRunning : s.running = true) : s.spurious = 0 ∧ s.ended = 0 := by
  refine (exec_invariant_of_labels (P := fun s : ThreadPool τ => s.running = true →
    Ledger s ∧ s.spurious = 0 ∧ s.ended = 0) ?_ hLabels
    (fun _ => ⟨.new threadNum maxTaskNum submitters, rfl, new_ended⟩) hRun hRunning).2
  intro s l s' hLabel h hStep hRunning
  obtain ⟨hOld, hMove⟩ := move_of_step hStep hRunning
  obtain ⟨hLedger, hQuiet⟩ := h hOld
  exact ⟨hLedger.move hMove, quiet_move hLedger hQuiet hLabel hMove⟩

end ThreadPool

/-- In every run of a pool without spurious wake-ups, as long as the pool is running: the queue
holds a task for every task that is counted and every notification that has not come to its pop, a
blocked worker is there for every idle thread that is counted and the notification that is not sent,
a woken worker finds a task, no worker terminates, and the tasks are taken in the order of their
submission. -/
theorem pool_accounting {τ : Type} (threadNum maxTaskNum submitters : Nat)
    (labels : List (PoolLabel τ)) (hLabels : ∀ l ∈ labels, l.isSpurious = false)
    (s : ThreadPool τ)
    (hRun : exec ThreadPool.step (.new threadNum maxTaskNum submitters) labels = some s)
    (hRunning : s.running = true) :
    s.taskQueue.length = s.taskNum + (s.unsent + s.woken) ∧
      s.blocked = s.idleThreadNum + s.unsent ∧
      (∀ i : Nat, s.workers[i]? = some .woken → s.taskQueue ≠ []) ∧
      (∀ i : Nat, s.workers[i]? ≠ some .ended) ∧
      s.taken ++ s.taskQueue = s.submitted := by
  have hLedger := ThreadPool.ledger_of_exec hRun hRunning
  obtain ⟨hSpurious, hEnded⟩ := ThreadPool.quiet_of_exec hLabels hRun hRunning
  obtain ⟨hTasks, hIdle, hQueue, hLost⟩ := hLedger
  refine ⟨by omega, by omega, ?_, ?_, hTasks⟩
  · intro i hWorker
    exact ThreadPool.Ledger.supplied ⟨hTasks, hIdle, hQueue, hLost⟩ hSpurious hWorker
  · intro i hWorker
    have hPos := ThreadPool.ended_pos hWorker
    omega

/-- One task, from its submission to the worker that runs it, while a second one is submitted. -/
def twoTasks : List (PoolLabel Nat) :=
  [.enter 0, .test 0 7, .push 0, .poll, .test 0 8, .push 0, .notifyOne (some 0), .resume 0]

theorem pool_accounting_two_tasks :
    ∃ s : ThreadPool Nat, exec ThreadPool.step (.new 1 2 1) twoTasks = some s ∧
      s.workers = [.busy 7] ∧ s.taskQueue.length = s.taskNum + (s.unsent + s.woken) ∧
      s.blocked = s.idleThreadNum + s.unsent ∧ s.taken ++ s.taskQueue = s.submitted := by
  obtain ⟨s, hRun, hWorkers, hRunning⟩ :
      ∃ s : ThreadPool Nat, exec ThreadPool.step (.new 1 2 1) twoTasks = some s ∧
        s.workers = [.busy 7] ∧ s.running = true := ⟨_, rfl, rfl, rfl⟩
  obtain ⟨hQueue, hIdle, _, _, hTasks⟩ :=
    pool_accounting 1 2 1 twoTasks (by decide) s hRun hRunning
  exact ⟨s, hRun, hWorkers, hQueue, hIdle, hTasks⟩

end PsRpc
