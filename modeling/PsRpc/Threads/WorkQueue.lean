import PsRpc.Library.Execution
import PsRpc.Library.IntrusiveList

/-! # The work queue of the threaded echo server

The jobs are linked through their own members. A worker takes a job in one section of `jobs_mutex`,
which it enters at the top of its loop or on its way out of `pthread_cond_wait`, and it may leave
that wait at any time. A worker that is to terminate leaves its loop inside the section: its thread
ends, and the mutex stays locked. The log of a run is the sequence of its additions, removals and
shutdowns, and `replay` is a stack that follows it. `free(worker)` and the walk of
`workqueue_shutdown` over workers that may have been freed are not modelled.
-/

namespace PsRpc

open Execution IntrusiveList

inductive JobPhase where
  | idle
  | waiting
  | busy (job : Nat)
  | exited
deriving DecidableEq, Repr

structure QueueWorker where
  terminate : Bool
  phase : JobPhase
deriving DecidableEq, Repr

inductive JobEvent where
  | added (job : Nat)
  | taken (worker job : Nat)
  | cleared
deriving DecidableEq, Repr

/-- `abandoned` is whether a thread has ended that holds `jobs_mutex`. -/
structure WorkQueue where
  links : Nat → Links Nat
  waitingJobs : Option Nat
  workers : List QueueWorker
  abandoned : Bool
  log : List JobEvent

/-- `terminate` is a turn of the loop of `workqueue_shutdown`, and `shutdown` its section. -/
inductive WorkQueueLabel where
  | addJob (job : Nat)
  | enter (worker : Nat)
  | finish (worker : Nat)
  | terminate (worker : Nat)
  | shutdown
deriving DecidableEq, Repr

namespace WorkQueue

/-- `workqueue_init`; the memory of the jobs can hold anything. -/
def init (links : Nat → Links Nat) (numWorkers : Int) : WorkQueue where
  links := links
  waitingJobs := none
  workers := List.replicate (if numWorkers < 1 then 1 else numWorkers.toNat) ⟨false, .idle⟩
  abandoned := false
  log := []

def setPhase (q : WorkQueue) (i : Nat) (phase : JobPhase) : WorkQueue :=
  { q with workers := q.workers.modify i fun worker => { worker with phase := phase } }

def addJob (q : WorkQueue) (job : Nat) : WorkQueue :=
  { q with
    links := addLinks q.links q.waitingJobs job
    waitingJobs := some job
    log := q.log ++ [.added job] }

def enter (q : WorkQueue) (i : Nat) (worker : QueueWorker) : WorkQueue :=
  if worker.terminate then { q.setPhase i .exited with abandoned := true }
  else
    match q.waitingJobs with
    | none => q.setPhase i .waiting
    | some job =>
      { q.setPhase i (.busy job) with
        links := removeLinks q.links job
        waitingJobs := removeFirst q.links q.waitingJobs job
        log := q.log ++ [.taken i job] }

def shutdown (q : WorkQueue) : WorkQueue :=
  { q with waitingJobs := none, log := q.log ++ [.cleared] }

def step (q : WorkQueue) : WorkQueueLabel → Option WorkQueue
  | .addJob job => if q.abandoned then none else some (q.addJob job)
  | .enter i =>
    (q.workers[i]?).bind fun worker =>
      if q.abandoned = false ∧ (worker.phase = .idle ∨ worker.phase = .waiting) then
        some (q.enter i worker)
      else none
  | .finish i =>
    (q.workers[i]?).bind fun worker =>
      match worker.phase with
      | .busy _ => some (q.setPhase i .idle)
      | _ => none
  | .terminate i =>
    if i < q.workers.length then
      some { q with workers := q.workers.modify i fun worker => { worker with terminate := true } }
    else none
  | .shutdown =>
    if q.abandoned = false ∧ ∀ worker ∈ q.workers, worker.terminate then some q.shutdown else none

end WorkQueue

/-! ## The stack behind the log -/

/-- Only the job on top can be taken. -/
def JobEvent.apply (stack : List Nat) : JobEvent → Option (List Nat)
  | .added job => some (job :: stack)
  | .taken _ job => if stack.head? = some job then some stack.tail else none
  | .cleared => some []

def replay (log : List JobEvent) : Option (List Nat) := log.foldlM JobEvent.apply []

def timesAdded (job : Nat) (log : List JobEvent) : Nat := log.count (.added job)

def JobEvent.takes (job : Nat) : JobEvent → Bool
  | .taken _ job' => job' = job
  | _ => false

def timesTaken (job : Nat) (log : List JobEvent) : Nat := log.countP (JobEvent.takes job)

theorem replay_snoc {log : List JobEvent} {event : JobEvent} {stack : List Nat}
    (h : replay log = some stack) : replay (log ++ [event]) = event.apply stack := by
  rw [replay, List.foldlM_append, ← replay, h]
  change (event.apply stack >>= fun s => pure s) = _
  rw [bind_pure]

theorem JobEvent.count_le {event : JobEvent} {stack stack' : List Nat}
    (h : event.apply stack = some stack') (job : Nat) :
    (if event.takes job then 1 else 0) + stack'.count job ≤
      (if event = .added job then 1 else 0) + stack.count job := by
  cases event with
  | added job' =>
    cases h
    simp only [takes, Bool.false_eq_true, if_false, JobEvent.added.injEq, List.count_cons,
      beq_iff_eq]
    omega
  | taken worker job' =>
    obtain ⟨hTop, hRest⟩ := Option.ite_none_right_eq_some.mp h
    cases hRest
    cases stack with
    | nil => cases hTop
    | cons top rest =>
      cases hTop
      simp [takes, List.count_cons]
      omega
  | cleared =>
    cases h
    simp [takes]

theorem timesTaken_le {log : List JobEvent} {start stack : List Nat}
    (h : log.foldlM JobEvent.apply start = some stack) (job : Nat) :
    timesTaken job log + stack.count job ≤ timesAdded job log + start.count job := by
  induction log generalizing start with
  | nil =>
    cases h
    exact Nat.le_refl _
  | cons event log ih =>
    rw [List.foldlM_cons] at h
    obtain ⟨next, hNext, hRest⟩ := Option.bind_eq_some_iff.mp h
    have hEvent := JobEvent.count_le hNext job
    have hLog := ih hRest
    rw [timesTaken, timesAdded] at hLog ⊢
    rw [List.countP_cons, List.count_cons]
    simp only [beq_iff_eq]
    omega

namespace WorkQueue

variable {q q' : WorkQueue} {label : WorkQueueLabel} {stack : List Nat}

/-- The jobs that have been added and neither taken nor dropped. -/
def waiting (q : WorkQueue) : List Nat := (replay q.log).getD []

/-- A job that is in the queue is not added to it. -/
def Fresh (q : WorkQueue) : WorkQueueLabel → Prop
  | .addJob job => job ∉ q.waiting
  | _ => True

instance decidableFresh (q : WorkQueue) (label : WorkQueueLabel) : Decidable (q.Fresh label) :=
  match label with
  | .addJob job => inferInstanceAs (Decidable (job ∉ q.waiting))
  | .enter _ => .isTrue trivial
  | .finish _ => .isTrue trivial
  | .terminate _ => .isTrue trivial
  | .shutdown => .isTrue trivial

structure Stacked (q : WorkQueue) (stack : List Nat) : Prop where
  replay : PsRpc.replay q.log = some stack
  nodup : stack.Nodup
  chain : Chain q.links q.waitingJobs stack

theorem Stacked.waiting_eq (h : q.Stacked stack) : q.waiting = stack := by
  rw [waiting, h.replay, Option.getD_some]

theorem Stacked.addJob (h : q.Stacked stack) {job : Nat} (hFresh : job ∉ stack) :
    (q.addJob job).Stacked (job :: stack) where
  replay := replay_snoc h.replay
  nodup := List.nodup_cons.mpr ⟨hFresh, h.nodup⟩
  chain := chain_addLinks h.chain hFresh

theorem Stacked.enter (h : q.Stacked stack) (i : Nat) (worker : QueueWorker) :
    ∃ stack', (q.enter i worker).Stacked stack' := by
  unfold WorkQueue.enter
  split
  · exact ⟨stack, h.replay, h.nodup, h.chain⟩
  · have hFirst := h.chain.first_eq
    split
    · exact ⟨stack, h.replay, h.nodup, h.chain⟩
    · next job hJob =>
      rw [hJob] at hFirst
      cases stack with
      | nil => cases hFirst
      | cons top rest =>
        cases hFirst
        refine ⟨rest, ?_, (List.nodup_cons.mp h.nodup).2, chain_remove h.chain h.nodup⟩
        change PsRpc.replay (q.log ++ [.taken i job]) = some rest
        rw [replay_snoc h.replay]
        exact if_pos rfl

theorem Stacked.shutdown (h : q.Stacked stack) : q.shutdown.Stacked [] where
  replay := replay_snoc h.replay
  nodup := List.nodup_nil
  chain := rfl

theorem Stacked.step (h : q.Stacked stack) (hFresh : q.Fresh label)
    (hStep : q.step label = some q') : ∃ stack', q'.Stacked stack' := by
  cases label with
  | addJob job =>
    obtain ⟨_, hNext⟩ := Option.ite_none_left_eq_some.mp hStep
    cases hNext
    rw [Fresh, h.waiting_eq] at hFresh
    exact ⟨job :: stack, h.addJob hFresh⟩
  | enter i =>
    obtain ⟨worker, _, hNext⟩ := Option.bind_eq_some_iff.mp hStep
    obtain ⟨_, hNext⟩ := Option.ite_none_right_eq_some.mp hNext
    cases hNext
    exact h.enter i worker
  | finish i =>
    obtain ⟨worker, _, hNext⟩ := Option.bind_eq_some_iff.mp hStep
    split at hNext
    · cases hNext
      exact ⟨stack, h.replay, h.nodup, h.chain⟩
    · cases hNext
  | terminate i =>
    obtain ⟨_, hNext⟩ := Option.ite_none_right_eq_some.mp hStep
    cases hNext
    exact ⟨stack, h.replay, h.nodup, h.chain⟩
  | shutdown =>
    obtain ⟨_, hNext⟩ := Option.ite_none_right_eq_some.mp hStep
    cases hNext
    exact ⟨[], h.shutdown⟩

/-! ## The thread that ends -/

def Exited (q : WorkQueue) (i : Nat) : Prop :=
  ∃ worker, q.workers[i]? = some worker ∧ worker.phase = .exited

theorem exited_modify {f : QueueWorker → QueueWorker} {i : Nat} {worker : QueueWorker}
    (hAt : q.workers[i]? = some worker) (hWorkers : q'.workers = q.workers.modify i f) (j : Nat) :
    q'.Exited j ↔ if j = i then (f worker).phase = .exited else q.Exited j := by
  rw [Exited, hWorkers, List.getElem?_modify]
  split
  · next hSame =>
    rw [← hSame, hAt, if_pos rfl]
    simp
  · next hOther =>
    rw [Exited, if_neg (Ne.symm hOther)]
    simp

theorem exited_modify_iff {f : QueueWorker → QueueWorker} {i : Nat} {worker : QueueWorker}
    (hAt : q.workers[i]? = some worker) (hWorkers : q'.workers = q.workers.modify i f)
    (hPhase : (f worker).phase = .exited ↔ worker.phase = .exited) (j : Nat) :
    q'.Exited j ↔ q.Exited j := by
  rw [exited_modify hAt hWorkers]
  split
  · next hSame =>
    rw [hSame, hPhase, Exited, hAt]
    simp
  · exact Iff.rfl

/-- A worker that enters its section goes on, or its thread ends and leaves the mutex locked. -/
theorem enter_cases {i : Nat} {worker : QueueWorker} (hAt : q.workers[i]? = some worker)
    (hPhase : worker.phase = .idle ∨ worker.phase = .waiting) :
    (q.enter i worker).abandoned = true ∧
        (∀ j, (q.enter i worker).Exited j ↔ if j = i then True else q.Exited j) ∨
      (q.enter i worker).abandoned = q.abandoned ∧
        ∀ j, (q.enter i worker).Exited j ↔ q.Exited j := by
  have hNot : worker.phase ≠ .exited := by
    intro hExited
    rw [hExited] at hPhase
    simp at hPhase
  unfold enter
  split
  · left
    refine ⟨rfl, fun j => ?_⟩
    rw [exited_modify hAt rfl]
    simp
  · right
    split
    · refine ⟨rfl, fun j => exited_modify_iff hAt rfl ?_ j⟩
      simp [hNot]
    · refine ⟨rfl, fun j => exited_modify_iff hAt rfl ?_ j⟩
      simp [hNot]

theorem not_exited_init (links : Nat → Links Nat) (numWorkers : Int) (i : Nat) :
    ¬ (init links numWorkers).Exited i := by
  rintro ⟨worker, hAt, hExited⟩
  rw [List.eq_of_mem_replicate (List.mem_of_getElem? hAt)] at hExited
  cases hExited

theorem step_exits (hStep : q.step label = some q') :
    (q'.abandoned = q.abandoned ∧ ∀ j, q'.Exited j ↔ q.Exited j) ∨
      q.abandoned = false ∧ q'.abandoned = true ∧
        ∃ i, ∀ j, q'.Exited j ↔ if j = i then True else q.Exited j := by
  cases label with
  | addJob job =>
    obtain ⟨_, hNext⟩ := Option.ite_none_left_eq_some.mp hStep
    cases hNext
    exact .inl ⟨rfl, fun _ => Iff.rfl⟩
  | enter i =>
    obtain ⟨worker, hAt, hNext⟩ := Option.bind_eq_some_iff.mp hStep
    obtain ⟨⟨hFree, hPhase⟩, hNext⟩ := Option.ite_none_right_eq_some.mp hNext
    cases hNext
    rcases enter_cases hAt hPhase with ⟨hAbandoned, hExited⟩ | hSame
    · exact .inr ⟨hFree, hAbandoned, i, hExited⟩
    · exact .inl hSame
  | finish i =>
    obtain ⟨worker, hAt, hNext⟩ := Option.bind_eq_some_iff.mp hStep
    split at hNext
    · next job hBusy =>
      cases hNext
      refine .inl ⟨rfl, fun j => exited_modify_iff hAt rfl ?_ j⟩
      simp [hBusy]
    · cases hNext
  | terminate i =>
    obtain ⟨hLt, hNext⟩ := Option.ite_none_right_eq_some.mp hStep
    cases hNext
    exact .inl ⟨rfl, fun j => exited_modify_iff (List.getElem?_eq_getElem hLt) rfl Iff.rfl j⟩
  | shutdown =>
    obtain ⟨_, hNext⟩ := Option.ite_none_right_eq_some.mp hStep
    cases hNext
    exact .inl ⟨rfl, fun _ => Iff.rfl⟩

/-- Every change of the queue needs the mutex. -/
theorem step_log (hAbandoned : q.abandoned = true) (hStep : q.step label = some q') :
    q'.log = q.log := by
  cases label with
  | addJob job =>
    obtain ⟨hFree, _⟩ := Option.ite_none_left_eq_some.mp hStep
    exact absurd hAbandoned hFree
  | enter i =>
    obtain ⟨worker, _, hNext⟩ := Option.bind_eq_some_iff.mp hStep
    obtain ⟨⟨hFree, _⟩, _⟩ := Option.ite_none_right_eq_some.mp hNext
    rw [hAbandoned] at hFree
    cases hFree
  | finish i =>
    obtain ⟨worker, _, hNext⟩ := Option.bind_eq_some_iff.mp hStep
    split at hNext
    · cases hNext
      rfl
    · cases hNext
  | terminate i =>
    obtain ⟨_, hNext⟩ := Option.ite_none_right_eq_some.mp hStep
    cases hNext
    rfl
  | shutdown =>
    obtain ⟨⟨hFree, _⟩, _⟩ := Option.ite_none_right_eq_some.mp hStep
    rw [hAbandoned] at hFree
    cases hFree

/-- The mutex is left locked by the one thread that has ended. -/
structure Abandoned (q : WorkQueue) : Prop where
  free : q.abandoned = false → ∀ i, ¬ q.Exited i
  unique : ∀ i j, q.Exited i → q.Exited j → i = j

theorem Abandoned.step (h : q.Abandoned) (hStep : q.step label = some q') : q'.Abandoned := by
  rcases step_exits hStep with ⟨hSame, hExited⟩ | ⟨hFree, hAbandoned, i, hExited⟩
  · constructor
    · intro hFree j
      rw [hExited]
      rw [hSame] at hFree
      exact h.free hFree j
    · intro i j
      rw [hExited, hExited]
      exact h.unique i j
  · have hOnly (j : Nat) (hj : q'.Exited j) : j = i := by
      rw [hExited] at hj
      split at hj
      · assumption
      · exact absurd hj (h.free hFree j)
    refine ⟨?_, fun j k hj hk => (hOnly j hj).trans (hOnly k hk).symm⟩
    intro hNot
    rw [hAbandoned] at hNot
    cases hNot

/-- Once the mutex is abandoned, no run changes the queue or ends another thread. -/
theorem exec_of_abandoned {labels : List WorkQueueLabel} (hAbandoned : q.abandoned = true)
    (hRun : exec step q labels = some q') :
    q'.log = q.log ∧ ∀ j, q'.Exited j ↔ q.Exited j := by
  refine (exec_invariant
    (P := fun q' : WorkQueue =>
      q'.abandoned = true ∧ q'.log = q.log ∧ ∀ j, q'.Exited j ↔ q.Exited j)
    ?_ ⟨hAbandoned, rfl, fun _ => Iff.rfl⟩ hRun).2
  rintro mid label next ⟨hMid, hLog, hExited⟩ hStep
  rcases step_exits hStep with ⟨hSame, hNext⟩ | ⟨hFree, _⟩
  · exact ⟨hSame.trans hMid, (step_log hMid hStep).trans hLog, fun j => (hNext j).trans (hExited j)⟩
  · rw [hMid] at hFree
    cases hFree

end WorkQueue

/-- In every run of the work queue, in which no job is added that is in the queue: the log is one of
a stack, a worker always gets the job that was added last among those that wait, the links through
the jobs lead along the jobs that wait, and a job is taken at most as often as it has been added. -/
theorem workqueue_last_in_first_out {links : Nat → Links Nat} {numWorkers : Int}
    {labels : List WorkQueueLabel} {q : WorkQueue}
    (hRun : exec (restrict WorkQueue.Fresh WorkQueue.step) (.init links numWorkers) labels =
      some q) :
    replay q.log = some q.waiting ∧ Chain q.links q.waitingJobs q.waiting ∧
      ∀ job, timesTaken job q.log + q.waiting.count job ≤ timesAdded job q.log := by
  have hStacked : ∃ stack, q.Stacked stack := by
    refine exec_invariant (P := fun q : WorkQueue => ∃ stack, q.Stacked stack) ?_ ?_ hRun
    · rintro q label q' ⟨stack, hStack⟩ hStep
      obtain ⟨hFresh, hStep⟩ := restrict_eq_some.mp hStep
      exact hStack.step hFresh hStep
    · exact ⟨[], rfl, List.nodup_nil, rfl⟩
  obtain ⟨stack, hStack⟩ := hStacked
  rw [hStack.waiting_eq]
  refine ⟨hStack.replay, hStack.chain, ?_⟩
  intro job
  exact timesTaken_le hStack.replay job

/-- Of three jobs the last one is taken first. -/
theorem workqueue_last_in_first_out_three_jobs :
    ∃ q, exec (restrict WorkQueue.Fresh WorkQueue.step) (.init (fun _ => ⟨none, none⟩) 2)
        [.enter 0, .addJob 5, .addJob 6, .addJob 7, .enter 1, .enter 0] = some q ∧
      q.log = [.added 5, .added 6, .added 7, .taken 1 7, .taken 0 6] ∧
      timesTaken 7 q.log + q.waiting.count 7 ≤ timesAdded 7 q.log := by
  obtain ⟨q, hRun, hLog⟩ :
      ∃ q, exec (restrict WorkQueue.Fresh WorkQueue.step) (.init (fun _ => ⟨none, none⟩) 2)
          [.enter 0, .addJob 5, .addJob 6, .addJob 7, .enter 1, .enter 0] = some q ∧
        q.log = [.added 5, .added 6, .added 7, .taken 1 7, .taken 0 6] := ⟨_, rfl, rfl⟩
  exact ⟨q, hRun, hLog, (workqueue_last_in_first_out hRun).2.2 7⟩

/-- At most one of the threads of a work queue ever ends. From then on nothing more is added, taken
or dropped, and no other thread ends, whatever is called. -/
theorem workqueue_one_thread_ends {links : Nat → Links Nat} {numWorkers : Int}
    {labels : List WorkQueueLabel} {q : WorkQueue}
    (hRun : exec WorkQueue.step (.init links numWorkers) labels = some q) {i : Nat}
    (hExited : q.Exited i) {labels' : List WorkQueueLabel} {q' : WorkQueue}
    (hRun' : exec WorkQueue.step q labels' = some q') :
    q'.log = q.log ∧ ∀ j, q'.Exited j ↔ j = i := by
  have hAbandoned : q.Abandoned := by
    refine exec_invariant (fun _ _ _ h hStep => h.step hStep) ⟨fun _ j => ?_, fun j k hj => ?_⟩ hRun
    · exact WorkQueue.not_exited_init links numWorkers j
    · exact absurd hj (WorkQueue.not_exited_init links numWorkers j)
  have hLocked : q.abandoned = true := by
    by_contra hFree
    exact hAbandoned.free (Bool.eq_false_iff.mpr hFree) i hExited
  obtain ⟨hLog, hSame⟩ := WorkQueue.exec_of_abandoned hLocked hRun'
  refine ⟨hLog, fun j => (hSame j).trans ⟨fun hj => hAbandoned.unique j i hj hExited, ?_⟩⟩
  rintro rfl
  exact hExited

/-- Two workers that are to terminate: the second of them never gets the mutex. -/
theorem workqueue_one_thread_ends_two_workers :
    ∃ q, exec WorkQueue.step (.init (fun _ => ⟨none, none⟩) 2)
        [.terminate 0, .terminate 1, .shutdown, .enter 0] = some q ∧
      ∀ labels' q', exec WorkQueue.step q labels' = some q' → ¬ q'.Exited 1 := by
  obtain ⟨q, hRun, hExited⟩ :
      ∃ q, exec WorkQueue.step (.init (fun _ => ⟨none, none⟩) 2)
        [.terminate 0, .terminate 1, .shutdown, .enter 0] = some q ∧ q.Exited 0 :=
    ⟨_, rfl, _, rfl, rfl⟩
  refine ⟨q, hRun, fun labels' q' hRun' hOne => ?_⟩
  have hZero := ((workqueue_one_thread_ends hRun hExited hRun').2 1).mp hOne
  cases hZero

end PsRpc
