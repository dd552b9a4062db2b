import Mathlib.Algebra.Group.Int.Defs
import PsRpc.Library.Execution
import PsRpc.Library.Roster

/-! # The count-down latch

`Wait` and `WaitFor` block a thread while `count_` is positive, but a blocked thread goes on only if
`count_` is zero when it has the mutex again. A step is what a thread does while it holds `mutex_`.
-/

namespace PsRpc

open Execution

/-- What a call has returned. The end of `WaitFor` is reached without a value if the latch is open
already. -/
inductive WaitResult where
  | done
  | condition (value : Bool)
  | missing
deriving DecidableEq, Repr

/-- Where a thread is: outside, with the result of its last call, blocked in `condition_.wait` or
`condition_.wait_for`, or woken, but without the mutex. -/
inductive WaiterPhase where
  | outside (result : Option WaitResult)
  | blocked (timed : Bool)
  | woken (timed : Bool)
deriving DecidableEq, Repr

namespace WaiterPhase

def isInside : WaiterPhase → Bool
  | .outside _ => false
  | _ => true

def isWoken : WaiterPhase → Bool
  | .woken _ => true
  | _ => false

def isUntimed : WaiterPhase → Bool
  | .blocked timed => !timed
  | .woken timed => !timed
  | .outside _ => false

def wake : WaiterPhase → WaiterPhase
  | .blocked timed => .woken timed
  | phase => phase

end WaiterPhase

structure CountDownLatch where
  count : Int
  threads : List WaiterPhase
deriving DecidableEq, Repr

/-- `rouse` wakes a thread without a notification, and `recheck` evaluates its condition. -/
inductive LatchLabel where
  | wait (thread : Nat)
  | waitFor (thread : Nat)
  | countDown
  | rouse (thread : Nat)
  | recheck (thread : Nat)
  | timeout (thread : Nat)
deriving DecidableEq, Repr

def LatchLabel.isCountDown : LatchLabel → Bool
  | .countDown => true
  | _ => false

namespace CountDownLatch

def new (count threads : Nat) : CountDownLatch where
  count := count
  threads := List.replicate threads (.outside none)

def setThread (s : CountDownLatch) (i : Nat) (phase : WaiterPhase) : CountDownLatch :=
  { s with threads := s.threads.set i phase }

def wait (s : CountDownLatch) (i : Nat) : CountDownLatch :=
  s.setThread i (if 0 < s.count then .blocked false else .outside (some .done))

def waitFor (s : CountDownLatch) (i : Nat) : CountDownLatch :=
  s.setThread i (if 0 < s.count then .blocked true else .outside (some .missing))

/-- Below the least `int` the decrement is undefined. -/
def countDown (s : CountDownLatch) : Option CountDownLatch :=
  if s.count = -2 ^ 31 then none
  else if s.count - 1 = 0 then
    some { count := s.count - 1, threads := s.threads.map WaiterPhase.wake }
  else some { s with count := s.count - 1 }

def result (timed : Bool) : WaitResult := if timed then .condition true else .done

def recheck (s : CountDownLatch) (i : Nat) (timed : Bool) : CountDownLatch :=
  s.setThread i (if s.count = 0 then .outside (some (result timed)) else .blocked timed)

def timeout (s : CountDownLatch) (i : Nat) : CountDownLatch :=
  s.setThread i (.outside (some (.condition (s.count = 0))))

def step (s : CountDownLatch) : LatchLabel → Option CountDownLatch
  | .wait i =>
    match s.threads[i]? with
    | some (.outside _) => some (s.wait i)
    | _ => none
  | .waitFor i =>
    match s.threads[i]? with
    | some (.outside _) => some (s.waitFor i)
    | _ => none
  | .countDown => s.countDown
  | .rouse i =>
    match s.threads[i]? with
    | some (.blocked timed) => some (s.setThread i (.woken timed))
    | _ => none
  | .recheck i =>
    match s.threads[i]? with
    | some (.woken timed) => some (s.recheck i timed)
    | _ => none
  | .timeout i =>
    match s.threads[i]? with
    | some (.blocked true) => some (s.timeout i)
    | _ => none

variable {s s' : CountDownLatch} {l : LatchLabel}

/-! ## What a step does -/

inductive Moves (count : Int) : WaiterPhase → WaiterPhase → Prop
  | enter (last : Option WaitResult) (timed : Bool) (hCount : 0 < count) :
      Moves count (.outside last) (.blocked timed)
  | pass (last result : Option WaitResult) (hCount : ¬0 < count) :
      Moves count (.outside last) (.outside result)
  | rouse (timed : Bool) : Moves count (.blocked timed) (.woken timed)
  | leave (timed : Bool) (hCount : count = 0) :
      Moves count (.woken timed) (.outside (some (result timed)))
  | again (timed : Bool) (hCount : count ≠ 0) : Moves count (.woken timed) (.blocked timed)
  | timeout (value : Bool) :
      Moves count (.blocked true) (.outside (some (.condition value)))

inductive Move (s : CountDownLatch) : LatchLabel → CountDownLatch → Prop
  | thread (l : LatchLabel) (i : Nat) (old new : WaiterPhase) (hLabel : l.isCountDown = false)
      (hThread : s.threads[i]? = some old) (hMoves : Moves s.count old new) :
      Move s l (s.setThread i new)
  | count (hCount : s.count ≠ 1) : Move s .countDown { s with count := s.count - 1 }
  | opens (hCount : s.count = 1) :
      Move s .countDown { count := s.count - 1, threads := s.threads.map WaiterPhase.wake }

theorem moves_entry (last result : Option WaitResult) (timed : Bool) (count : Int) :
    Moves count (.outside last) (if 0 < count then .blocked timed else .outside result) := by
  split
  · next hCount => exact .enter last timed hCount
  · next hCount => exact .pass last result hCount

theorem moves_recheck (timed : Bool) (count : Int) :
    Moves count (.woken timed)
      (if count = 0 then .outside (some (result timed)) else .blocked timed) := by
  split
  · next hCount => exact .leave timed hCount
  · next hCount => exact .again timed hCount

theorem move_of_step (hStep : s.step l = some s') : Move s l s' := by
  cases l with
  | wait i | waitFor i =>
    simp only [step] at hStep
    split at hStep
    · next last hThread =>
      cases hStep
      exact .thread _ i _ _ rfl hThread (moves_entry last _ _ s.count)
    · cases hStep
  | countDown =>
    simp only [step, countDown] at hStep
    split at hStep
    · cases hStep
    · split at hStep
      · next hCount =>
        cases hStep
        exact .opens (by omega)
      · next hCount =>
        cases hStep
        exact .count (by omega)
  | rouse i =>
    simp only [step] at hStep
    split at hStep
    · next timed hThread =>
      cases hStep
      exact .thread _ i _ _ rfl hThread (.rouse timed)
    · cases hStep
  | recheck i =>
    simp only [step] at hStep
    split at hStep
    · next timed hThread =>
      cases hStep
      exact .thread _ i _ _ rfl hThread (moves_recheck timed s.count)
    · cases hStep
  | timeout i =>
    simp only [step] at hStep
    split at hStep
    · next hThread =>
      cases hStep
      exact .thread _ i _ _ rfl hThread (.timeout _)
    · cases hStep

theorem Move.count_eq (hMove : Move s l s') : s'.count = s.count - l.isCountDown.toNat := by
  cases hMove with
  | thread _ i old new hLabel =>
    rw [hLabel]
    exact (Int.sub_zero s.count).symm
  | count | opens => rfl

variable {count threads : Nat} {labels : List LatchLabel}

theorem count_of_exec (hRun : exec step s labels = some s') :
    s'.count = s.count - labels.countP LatchLabel.isCountDown := by
  induction labels generalizing s with
  | nil =>
    cases hRun
    exact (Int.sub_zero _).symm
  | cons l labels ih =>
    obtain ⟨next, hStep, hRest⟩ := Option.bind_eq_some_iff.mp hRun
    have hCount := (move_of_step hStep).count_eq
    have hRest := ih hRest
    rw [Roster.countP_cons]
    omega

/-! ## The open latch -/

/-- A thread that calls `Wait` does not block, and a thread in `Wait` has been woken and finds its
condition satisfied. -/
structure Open (s : CountDownLatch) : Prop where
  enters : ¬0 < s.count
  waits : ∀ phase ∈ s.threads, phase.isInside → phase.isWoken ∧ s.count = 0

/-- No call of `CountDown` while the count is zero and a thread is still in `Wait`. -/
def Gentle (s : CountDownLatch) : LatchLabel → Prop
  | .countDown => s.count = 0 → ∀ phase ∈ s.threads, phase.isInside = false
  | _ => True

instance (s : CountDownLatch) (l : LatchLabel) : Decidable (s.Gentle l) := by
  cases l <;> unfold Gentle <;> infer_instance

/-- The latch is closed or open. -/
def Sound (s : CountDownLatch) : Prop := s.count ≤ 0 → s.Open

theorem sound_new : Sound (.new count threads) := by
  intro hCount
  refine ⟨Int.not_lt.mpr hCount, ?_⟩
  intro phase hPhase hInside
  rw [(List.mem_replicate.mp hPhase).2] at hInside
  cases hInside

theorem Moves.isWoken {c : Int} {old new : WaiterPhase} (hMoves : Moves c old new) (hCount : c ≤ 0)
    (hOld : old.isInside → old.isWoken ∧ c = 0) (hInside : new.isInside) :
    new.isWoken ∧ c = 0 := by
  cases hMoves with
  | enter last timed hPos => exact absurd hPos (Int.not_lt.mpr hCount)
  | pass | leave | timeout => cases hInside
  | rouse timed => cases (hOld rfl).1
  | again timed hNonzero => exact absurd (hOld rfl).2 hNonzero

theorem Sound.move (h : Sound s) (hGentle : s.Gentle l) (hMove : Move s l s') : Sound s' := by
  intro hCount
  refine ⟨Int.not_lt.mpr hCount, ?_⟩
  intro phase hPhase hInside
  cases hMove with
  | thread _ i old new hLabel hThread hMoves =>
    have hOpen := h hCount
    obtain hOther | rfl := List.mem_or_eq_of_mem_set hPhase
    · exact hOpen.waits phase hOther hInside
    · exact hMoves.isWoken hCount (hOpen.waits old (List.mem_of_getElem? hThread)) hInside
  | count hNotOne =>
    have hNonpos : s.count ≤ 0 := by
      change s.count - 1 ≤ 0 at hCount
      omega
    have hZero := ((h hNonpos).waits phase hPhase hInside).2
    rw [hGentle hZero phase hPhase] at hInside
    cases hInside
  | opens hOne =>
    obtain ⟨before, _, rfl⟩ := List.mem_map.mp hPhase
    cases before with
    | outside => cases hInside
    | blocked | woken => exact ⟨rfl, Int.sub_eq_zero.mpr hOne⟩

/-- A call of `CountDown` that is not gentle leaves a thread behind. -/
theorem gentle_of_open (hStep : s.step .countDown = some s') (hOpen : s'.Open) :
    s.Gentle .countDown := by
  intro hZero phase hPhase
  apply Bool.eq_false_iff.mpr
  intro hInside
  have hMove := move_of_step hStep
  cases hMove with
  | thread _ i old new hLabel => cases hLabel
  | count =>
    have hNegative := (hOpen.waits phase hPhase hInside).2
    change s.count - 1 = 0 at hNegative
    omega
  | opens hOne => omega

def Stuck (i : Nat) (s : CountDownLatch) : Prop :=
  s.count < 0 ∧ ∃ phase, s.threads[i]? = some phase ∧ phase.isUntimed

theorem Moves.isUntimed {c : Int} {old new : WaiterPhase} (hMoves : Moves c old new)
    (hCount : c < 0) (hOld : old.isUntimed) : new.isUntimed := by
  cases hMoves with
  | enter | pass | timeout => cases hOld
  | rouse | again => exact hOld
  | leave timed hZero => exact absurd hZero (Int.ne_of_lt hCount)

theorem Stuck.move {i : Nat} (h : Stuck i s) (hMove : Move s l s') : Stuck i s' := by
  obtain ⟨hNegative, phase, hPhase, hUntimed⟩ := h
  cases hMove with
  | thread _ j old new hLabel hThread hMoves =>
    refine ⟨hNegative, ?_⟩
    rw [setThread, Roster.getElem?_set hThread]
    split
    · next hSame =>
      subst hSame
      obtain rfl := Option.some.inj (hThread.symm.trans hPhase)
      exact ⟨new, rfl, hMoves.isUntimed hNegative hUntimed⟩
    · exact ⟨phase, hPhase, hUntimed⟩
  | count => exact ⟨Int.lt_trans (Int.sub_lt_self _ Int.one_pos) hNegative, phase, hPhase, hUntimed⟩
  | opens hOne => omega

/-- Such a thread never leaves `Wait`. -/
theorem stuck_of_exec {i : Nat} (h : Stuck i s) (hRun : exec step s labels = some s') :
    Stuck i s' :=
  exec_invariant (fun _ _ _ h hStep => h.move (move_of_step hStep)) h hRun

end CountDownLatch

/-- The latch stays open for every thread, in every state of a run after as many calls of
`CountDown` as the initial count, if and only if no call of `CountDown` is made while the count is
zero and a thread is still in `Wait`. -/
theorem latch_stays_open_iff (count threads : Nat) (labels : List LatchLabel) (s : CountDownLatch)
    (hRun : exec CountDownLatch.step (.new count threads) labels = some s) :
    (∀ before mid, before <+: labels →
      exec CountDownLatch.step (.new count threads) before = some mid →
        count ≤ before.countP LatchLabel.isCountDown → mid.Open) ↔
      exec (restrict CountDownLatch.Gentle CountDownLatch.step) (.new count threads) labels =
        some s := by
  constructor
  · intro hOpen
    refine exec_restrict_iff.mpr ⟨hRun, ?_⟩
    rintro before l after mid rfl hBefore
    obtain ⟨mid', next, hMid, hStep, _⟩ := exec_middle hRun
    obtain rfl := Option.some.inj (hBefore.symm.trans hMid)
    cases l with
    | countDown =>
      intro hZero
      have hCount := CountDownLatch.count_of_exec hBefore
      change mid.count = (count : Int) - _ at hCount
      refine CountDownLatch.gentle_of_open hStep (hOpen (before ++ [.countDown]) next ?_ ?_ ?_)
        hZero
      · exact ⟨after, (List.append_cons before .countDown after).symm⟩
      · exact exec_snoc.mpr ⟨mid, hBefore, hStep⟩
      · rw [List.countP_append]
        omega
    | wait | waitFor | rouse | recheck | timeout => trivial
  · rintro hGentle before mid ⟨after, rfl⟩ hBefore hCalls
    obtain ⟨mid', hMid, _⟩ := exec_append.mp hGentle
    obtain rfl := Option.some.inj (hBefore.symm.trans (exec_of_exec_restrict hMid))
    have hSound : mid.Sound := exec_invariant (fun s l s' h hStep =>
      have hStep := restrict_eq_some.mp hStep
      h.move hStep.1 (CountDownLatch.move_of_step hStep.2)) CountDownLatch.sound_new hMid
    apply hSound
    have hCount := CountDownLatch.count_of_exec hBefore
    change mid.count = (count : Int) - _ at hCount
    omega

/-- A thread waits for two calls, leaves, passes the open latch again, and a third call is made. -/
def gentleRun : List LatchLabel :=
  [.wait 0, .countDown, .countDown, .recheck 0, .wait 0, .countDown]

theorem latch_stays_open_iff_third_call :
    ∃ s : CountDownLatch, exec CountDownLatch.step (.new 2 1) gentleRun = some s ∧
      ∀ before mid, before <+: gentleRun →
        exec CountDownLatch.step (.new 2 1) before = some mid →
          2 ≤ before.countP LatchLabel.isCountDown → mid.Open := by
  obtain ⟨s, hRun, hGentle⟩ : ∃ s : CountDownLatch,
      exec CountDownLatch.step (.new 2 1) gentleRun = some s ∧
        exec (restrict CountDownLatch.Gentle CountDownLatch.step) (.new 2 1) gentleRun = some s :=
    ⟨{ count := -1, threads := [.outside (some .done)] }, by decide, by decide⟩
  exact ⟨s, hRun, (latch_stays_open_iff 2 1 gentleRun s hRun).mpr hGentle⟩

/-- The second call for a count of one comes before the woken thread has the mutex. The thread
blocks again, and it never leaves `Wait`. -/
theorem latch_closes_again :
    ∃ s : CountDownLatch,
      exec CountDownLatch.step (.new 1 1) [.wait 0, .countDown, .countDown, .recheck 0] = some s ∧
        s.threads = [.blocked false] ∧ ¬s.Open ∧
        ∀ labels s', exec CountDownLatch.step s labels = some s' → s'.Stuck 0 := by
  refine ⟨{ count := -1, threads := [.blocked false] }, by decide, rfl, ?_, ?_⟩
  · intro hOpen
    cases (hOpen.waits (.blocked false) (List.mem_singleton_self _) rfl).1
  · intro labels s' hRun
    exact CountDownLatch.stuck_of_exec ⟨by decide, .blocked false, rfl, rfl⟩ hRun

end PsRpc
