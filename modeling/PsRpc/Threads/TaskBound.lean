import PsRpc.Threads.ThreadPool

/-! # The bound on the tasks

`Submit` tests `task_num_` and increments it in two sections, so every thread that has passed the
test may push its task. The tasks and these threads together are at most
`max_task_num_ - 1` and the number of threads that call `Submit`.
-/

namespace PsRpc

open Execution

namespace ThreadPool

variable {τ : Type} {s s' : ThreadPool τ} {l : PoolLabel τ}

def pending (s : ThreadPool τ) : Nat := s.submitters.countP Option.isSome

inductive Submission (s s' : ThreadPool τ) : Prop
  | other (hMax : s'.maxTaskNum = s.maxTaskNum) (hTasks : s'.taskNum ≤ s.taskNum)
      (hSubmitters : s'.submitters = s.submitters)
  | pass (i : Nat) (task : τ) (hThread : s.submitters[i]? = some none)
      (hRoom : s.taskNum < s.maxTaskNum) (hMax : s'.maxTaskNum = s.maxTaskNum)
      (hTasks : s'.taskNum = s.taskNum)
      (hSubmitters : s'.submitters = s.submitters.set i (some task))
  | push (i : Nat) (task : τ) (hThread : s.submitters[i]? = some (some task))
      (hMax : s'.maxTaskNum = s.maxTaskNum) (hTasks : s'.taskNum = s.taskNum + 1)
      (hSubmitters : s'.submitters = s.submitters.set i none)

theorem submission_submitTest {i : Nat} (task : τ) (hThread : s.submitters[i]? = some none) :
    Submission s (s.submitTest i task) := by
  rw [submitTest]
  split
  · exact .other rfl (Nat.le_refl _) rfl
  · next hRoom => exact .pass i task hThread (Nat.lt_of_not_le hRoom) rfl rfl rfl

theorem submission_workerResume (i : Nat) : Submission s (s.workerResume i) := by
  rw [workerResume]
  split <;> exact .other rfl (Nat.le_refl _) rfl

theorem submission_notifierPoll : Submission s s.notifierPoll := by
  rw [notifierPoll]
  split
  · exact .other rfl (Nat.sub_le _ _) rfl
  · exact .other rfl (Nat.le_refl _) rfl

theorem submission_of_step (hStep : s.step l = some s') : Submission s s' := by
  cases l with
  | test i task =>
    simp only [step] at hStep
    split at hStep
    · next hThread =>
      cases hStep
      exact submission_submitTest task hThread
    · cases hStep
  | push i =>
    simp only [step] at hStep
    split at hStep
    · next task hThread =>
      cases hStep
      exact .push i task hThread rfl rfl rfl
    · cases hStep
  | resume i =>
    simp only [step] at hStep
    split at hStep
    · cases hStep
      exact submission_workerResume i
    · cases hStep
  | poll =>
    simp only [step] at hStep
    split at hStep
    · cases hStep
      exact submission_notifierPoll
    · cases hStep
  | stop =>
    cases hStep
    exact .other rfl (Nat.le_refl _) rfl
  | enter i | rouse i | finish i | notifyAll =>
    simp only [step] at hStep
    split at hStep <;> cases hStep
    exact .other rfl (Nat.le_refl _) rfl
  | notifyOne worker =>
    cases worker <;> simp only [step] at hStep <;> split at hStep <;> cases hStep <;>
      exact .other rfl (Nat.le_refl _) rfl

/-- The tasks and the threads that have passed the test, of `submitters` threads that call
`Submit`. -/
structure Bounded (maxTaskNum submitters : Nat) (s : ThreadPool τ) : Prop where
  max : s.maxTaskNum = maxTaskNum
  threads : s.submitters.length = submitters
  tasks : s.taskNum + s.pending < maxTaskNum + submitters

variable {threadNum maxTaskNum submitters : Nat} {labels : List (PoolLabel τ)}

theorem bounded_new (hMax : 1 ≤ maxTaskNum) :
    Bounded maxTaskNum submitters (.new threadNum maxTaskNum submitters : ThreadPool τ) := by
  refine ⟨rfl, List.length_replicate, ?_⟩
  have hPending : (List.replicate submitters (none : Option τ)).countP Option.isSome = 0 := by
    simp [List.countP_replicate]
  change 0 + (List.replicate submitters (none : Option τ)).countP Option.isSome < _
  omega

theorem Bounded.submission (h : Bounded maxTaskNum submitters s) (hSubmission : Submission s s') :
    Bounded maxTaskNum submitters s' := by
  obtain ⟨rfl, rfl, hTasks⟩ := h
  rw [pending] at hTasks
  cases hSubmission with
  | other hMax hCounted hSubmitters =>
    refine ⟨hMax, by rw [hSubmitters], ?_⟩
    rw [pending, hSubmitters]
    omega
  | pass i task hThread hRoom hMax hCounted hSubmitters =>
    refine ⟨hMax, by rw [hSubmitters, List.length_set], ?_⟩
    have hPending := List.countP_le_length (p := Option.isSome) (l := s'.submitters)
    rw [pending, hCounted]
    rw [hSubmitters, List.length_set] at hPending
    rw [hSubmitters]
    omega
  | push i task hThread hMax hCounted hSubmitters =>
    refine ⟨hMax, by rw [hSubmitters, List.length_set], ?_⟩
    have hPending := Roster.countP_set hThread none Option.isSome
    change _ + 1 = _ + 0 at hPending
    rw [pending, hCounted, hSubmitters]
    omega

theorem bounded_of_exec (hMax : 1 ≤ maxTaskNum)
    (hRun : exec step (.new threadNum maxTaskNum submitters) labels = some s) :
    Bounded maxTaskNum submitters s :=
  exec_invariant (fun _ _ _ h hStep => h.submission (submission_of_step hStep)) (bounded_new hMax)
    hRun

/-! ## A run that passes the bound -/

def passed (s : ThreadPool τ) (i : Nat) (task : τ) : ThreadPool τ :=
  { s with submitters := s.submitters.set i (some task) }

theorem step_test {i : Nat} (task : τ) (hThread : s.submitters[i]? = some none)
    (hRoom : s.taskNum < s.maxTaskNum) : s.step (.test i task) = some (s.passed i task) := by
  simp only [step, hThread, submitTest, if_neg (Nat.not_le.mpr hRoom), passed]

theorem step_push {i : Nat} {task : τ} (hThread : s.submitters[i]? = some (some task)) :
    s.step (.push i) = some (s.submitPush i task) := by
  simp only [step, hThread]

theorem passed_self {i : Nat} (task : τ) (hThread : s.submitters[i]? = some none) :
    (s.passed i task).submitters[i]? = some (some task) := by
  rw [passed, Roster.getElem?_set hThread, if_pos rfl]

theorem exec_submit {i : Nat} (task : τ) (hThread : s.submitters[i]? = some none)
    (hRoom : s.taskNum < s.maxTaskNum) :
    exec step s [.test i task, .push i] = some (s.submitPush i task) := by
  simp only [exec, step_test task hThread hRoom, step_push (passed_self task hThread),
    Option.bind_some]
  rw [submitPush, submitPush, passed, List.set_set]

theorem exec_race (task : τ) (hFirst : s.submitters[0]? = some none)
    (hSecond : s.submitters[1]? = some none) (hRoom : s.taskNum < s.maxTaskNum) :
    ∃ s', exec step s [.test 0 task, .test 1 task, .push 0, .push 1] = some s' ∧
      s'.taskNum = s.taskNum + 2 := by
  have hSecond' : (s.passed 0 task).submitters[1]? = some none := by
    rw [passed, Roster.getElem?_set hFirst, if_neg Nat.zero_ne_one]
    exact hSecond
  have hFirst' : ((s.passed 0 task).passed 1 task).submitters[0]? = some (some task) := by
    rw [passed, Roster.getElem?_set hSecond', if_neg Nat.one_ne_zero]
    exact passed_self task hFirst
  have hBoth : (((s.passed 0 task).passed 1 task).submitPush 0 task).submitters[1]? =
      some (some task) := by
    rw [submitPush, Roster.getElem?_set hFirst', if_neg Nat.zero_ne_one]
    exact passed_self task hSecond'
  refine ⟨(((s.passed 0 task).passed 1 task).submitPush 0 task).submitPush 1 task, ?_, rfl⟩
  have hRoom' : (s.passed 0 task).taskNum < (s.passed 0 task).maxTaskNum := hRoom
  simp only [exec, step_test task hFirst hRoom, step_test task hSecond' hRoom', step_push hFirst',
    step_push hBoth, Option.bind_some]

def Filled (maxTaskNum submitters n : Nat) (s : ThreadPool τ) : Prop :=
  s.maxTaskNum = maxTaskNum ∧ s.submitters = List.replicate submitters none ∧ s.taskNum = n

theorem exists_filled (task : τ) (threadNum : Nat) (hSubmitters : 0 < submitters) {n : Nat}
    (hRoom : n ≤ maxTaskNum) :
    ∃ (labels : List (PoolLabel τ)) (s : ThreadPool τ),
      exec step (.new threadNum maxTaskNum submitters) labels = some s ∧
        Filled maxTaskNum submitters n s := by
  induction n with
  | zero => exact ⟨[], _, rfl, rfl, rfl, rfl⟩
  | succ n ih =>
    obtain ⟨labels, s, hRun, rfl, hThreads, rfl⟩ := ih (Nat.le_of_succ_le hRoom)
    have hThread : s.submitters[0]? = some none := by
      rw [hThreads, List.getElem?_replicate, if_pos hSubmitters]
    refine ⟨labels ++ [.test 0 task, .push 0], s.submitPush 0 task,
      exec_append.mpr ⟨s, hRun, exec_submit task hThread hRoom⟩, rfl, ?_, rfl⟩
    rw [submitPush, hThreads, List.set_replicate_self]

end ThreadPool

/-- `task_num_` stays at or below `max_task_num_` in every run if and only if at most one thread
calls `Submit`. -/
theorem task_bound_iff {τ : Type} (task : τ) (threadNum maxTaskNum submitters : Nat)
    (hMax : 1 ≤ maxTaskNum) :
    (∀ (labels : List (PoolLabel τ)) (s : ThreadPool τ),
      exec ThreadPool.step (.new threadNum maxTaskNum submitters) labels = some s →
        s.taskNum ≤ maxTaskNum) ↔ submitters ≤ 1 := by
  constructor
  · intro hBound
    apply Nat.le_of_not_lt
    intro hSubmitters
    obtain ⟨labels, s, hRun, hLimit, hThreads, hTasks⟩ :=
      ThreadPool.exists_filled task threadNum (Nat.zero_lt_of_lt hSubmitters)
        (Nat.sub_le maxTaskNum 1)
    have hThread {i : Nat} (hLt : i < submitters) : s.submitters[i]? = some none := by
      rw [hThreads, List.getElem?_replicate, if_pos hLt]
    obtain ⟨s', hRace, hOver⟩ := ThreadPool.exec_race task
      (hThread (Nat.zero_lt_of_lt hSubmitters)) (hThread hSubmitters) (by omega)
    have hLe := hBound _ s' (exec_append.mpr ⟨s, hRun, hRace⟩)
    omega
  · intro hSubmitters labels s hRun
    have hTasks := (ThreadPool.bounded_of_exec hMax hRun).tasks
    omega

/-- With a bound of five tasks, one thread never exceeds it, and two threads can. -/
theorem task_bound_iff_five_tasks :
    (∀ (labels : List (PoolLabel Nat)) (s : ThreadPool Nat),
      exec ThreadPool.step (.new 2 5 1) labels = some s → s.taskNum ≤ 5) ∧
    ¬(∀ (labels : List (PoolLabel Nat)) (s : ThreadPool Nat),
      exec ThreadPool.step (.new 2 5 2) labels = some s → s.taskNum ≤ 5) :=
  ⟨(task_bound_iff 7 2 5 1 (by decide)).mpr (by decide), fun hBound =>
    absurd ((task_bound_iff 7 2 5 2 (by decide)).mp hBound) (by decide)⟩

/-- Two threads submit to a pool with room for one task. -/
theorem task_bound_exceeded :
    ∃ s : ThreadPool Nat,
      exec ThreadPool.step (.new 1 1 2) [.test 0 7, .test 1 8, .push 0, .push 1] = some s ∧
        s.maxTaskNum = 1 ∧ s.taskNum = 2 ∧ s.taskQueue = [7, 8] :=
  ⟨_, rfl, rfl, rfl, rfl⟩

end PsRpc
