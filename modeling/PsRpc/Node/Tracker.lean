import PsRpc.Library.Execution
import PsRpc.Library.Table

/-! # `message_tracker_` and `Wait`

The tracker counts the responses of each request. `Wait` blocks until the two numbers of its
entry agree, or until its time is over, and erases the entry in both cases. Every access goes
through `operator[]`, which makes an entry ⟨0, 0⟩ where there is none.
-/

namespace PsRpc

open Execution

/-- The key of `entries` is the request id, the value ⟨expected responses, actual responses⟩. -/
structure MessageTracker where
  nextRequestId : Nat
  entries : Table Nat (UInt32 × UInt32)

namespace MessageTracker

def new : MessageTracker := ⟨0, ∅⟩

def entry (t : MessageTracker) (requestId : Nat) : UInt32 × UInt32 :=
  t.entries.getD requestId (0, 0)

def addMessageTrack (t : MessageTracker) (expectedResponse : UInt32) : Nat × MessageTracker :=
  (t.nextRequestId + 1,
    ⟨t.nextRequestId + 1, t.entries.insert (t.nextRequestId + 1) (expectedResponse, 0)⟩)

def checkMessageTrack (t : MessageTracker) (requestId : Nat) : Bool × MessageTracker :=
  ((t.entry requestId).1 == (t.entry requestId).2 + 1,
    { t with entries := t.entries.subscript requestId (0, 0) })

def notifyMessageArrival (t : MessageTracker) (requestId : Nat) : MessageTracker :=
  { t with
    entries := t.entries.insert requestId ((t.entry requestId).1, (t.entry requestId).2 + 1) }

/-- One evaluation of the predicate of `Wait`, with the return that follows it: `some res` if
`Wait` returns `res`, `none` if it goes on waiting. `timedOut` says that the time is over. -/
def waitTurn (t : MessageTracker) (requestId : Nat) (timedOut : Bool) :
    Option Bool × MessageTracker :=
  if (t.entry requestId).1 = (t.entry requestId).2 then
    (some true, { t with entries := t.entries.erase requestId })
  else if timedOut then (some false, { t with entries := t.entries.erase requestId })
  else (none, { t with entries := t.entries.subscript requestId (0, 0) })

theorem entry_addMessageTrack (t : MessageTracker) (expectedResponse : UInt32) (requestId : Nat) :
    (t.addMessageTrack expectedResponse).2.entry requestId =
      if requestId = t.nextRequestId + 1 then (expectedResponse, 0) else t.entry requestId :=
  Table.getD_insert _ _ _ _ _

theorem nextRequestId_waitTurn (t : MessageTracker) (requestId : Nat) (timedOut : Bool) :
    (t.waitTurn requestId timedOut).2.nextRequestId = t.nextRequestId := by
  rw [waitTurn]
  split
  · rfl
  · split <;> rfl

theorem entry_waitTurn_of_ne (t : MessageTracker) {requestId requestId' : Nat}
    (h : requestId' ≠ requestId) (timedOut : Bool) :
    (t.waitTurn requestId timedOut).2.entry requestId' = t.entry requestId' := by
  have hErase : Table.getD (t.entries.erase requestId) requestId' (0, 0) = t.entry requestId' := by
    rw [Table.getD, Table.lookup_erase, if_neg h]
    rfl
  have hSubscript :
      Table.getD (t.entries.subscript requestId (0, 0)) requestId' (0, 0) = t.entry requestId' := by
    rw [Table.getD, Table.lookup_subscript, if_neg h]
    rfl
  rw [waitTurn]
  split
  · exact hErase
  · split
    · exact hErase
    · exact hSubscript

theorem waitTurn_of_open {t : MessageTracker} {requestId : Nat}
    (h : (t.entry requestId).1 ≠ (t.entry requestId).2) :
    (t.waitTurn requestId false).1 = none ∧
      (t.waitTurn requestId false).2.entry requestId = t.entry requestId := by
  rw [waitTurn, if_neg h]
  refine ⟨rfl, ?_⟩
  change Table.getD (t.entries.subscript requestId (0, 0)) requestId (0, 0) = _
  rw [Table.subscript, Table.getD_insert, if_pos rfl]
  rfl

end MessageTracker

/-! ## Runs of the tracker -/

/-- The returns of `AddMessageTrack` and of `Wait`, and the responses that are counted. -/
inductive TrackerEvent where
  | added (id : Nat) (expected : UInt32)
  | counted (id : Nat)
  | waited (id : Nat) (res : Bool)
deriving DecidableEq, Repr

inductive TrackerLabel where
  | addMessageTrack (expected : UInt32)
  | notifyMessageArrival (id : Nat)
  | waitTurn (id : Nat) (timedOut : Bool)
deriving DecidableEq, Repr

/-- The tracker of a node and what has happened to it, oldest first. -/
structure TrackerSession where
  tracker : MessageTracker
  log : List TrackerEvent

namespace TrackerSession

def new : TrackerSession := ⟨.new, []⟩

/-- Any number of threads may be inside of `Wait`, on any ids that `AddMessageTrack` has
returned. -/
def step (s : TrackerSession) : TrackerLabel → Option TrackerSession
  | .addMessageTrack expected =>
    let added := s.tracker.addMessageTrack expected
    some ⟨added.2, s.log ++ [.added added.1 expected]⟩
  | .notifyMessageArrival id =>
    some ⟨s.tracker.notifyMessageArrival id, s.log ++ [.counted id]⟩
  | .waitTurn id timedOut =>
    if 0 < id ∧ id ≤ s.tracker.nextRequestId then
      let turn := s.tracker.waitTurn id timedOut
      match turn.1 with
      | some res => some ⟨turn.2, s.log ++ [.waited id res]⟩
      | none => some ⟨turn.2, s.log⟩
    else none

end TrackerSession

def arrivals (log : List TrackerEvent) (id : Nat) : Nat := log.count (.counted id)

/-- A call of `Wait` that returns true comes after the expected number of responses, and one
that comes after this number, on an id not waited for with success before, returns true. -/
def TruthfulWait (before : List TrackerEvent) : TrackerEvent → Prop
  | .waited id res => ∃ expected, .added id expected ∈ before ∧
      (res = true → expected.toNat ≤ arrivals before id) ∧
      (expected.toNat ≤ arrivals before id → .waited id true ∉ before → res = true)
  | _ => True

/-- Responses are counted for ids in use only. When a `Wait` on an id ends, none has timed out on
this id before, and no more responses than expected have been counted for it unless a `Wait` on
it was successful. -/
def RegularUse (before : List TrackerEvent) : TrackerEvent → Prop
  | .added _ _ => True
  | .counted id => ∃ expected, .added id expected ∈ before
  | .waited id _ => .waited id false ∉ before ∧
      (.waited id true ∈ before ∨
        ∃ expected, .added id expected ∈ before ∧ arrivals before id ≤ expected.toNat)

def TrackerEvent.id : TrackerEvent → Nat
  | .added id _ => id
  | .counted id => id
  | .waited id _ => id

/-- What the tracker knows of the past: the entry of an id without a finished `Wait` holds the
two numbers, and a successful `Wait` came after enough responses. -/
structure TrackerSession.Agrees (s : TrackerSession) : Prop where
  known : ∀ event ∈ s.log, event.id ≤ s.tracker.nextRequestId
  added : ∀ id, 0 < id → id ≤ s.tracker.nextRequestId → ∃ n, .added id n ∈ s.log
  unique : ∀ id n n', .added id n ∈ s.log → .added id n' ∈ s.log → n = n'
  entry : ∀ id n, .added id n ∈ s.log → (∀ res, .waited id res ∉ s.log) →
    s.tracker.entries.lookup id = some (n, UInt32.ofNat (arrivals s.log id))
  success : ∀ id n, .added id n ∈ s.log → .waited id true ∈ s.log → n.toNat ≤ arrivals s.log id

theorem arrivals_snoc (log : List TrackerEvent) (event : TrackerEvent) (id : Nat) :
    arrivals (log ++ [event]) id = arrivals log id + if event = .counted id then 1 else 0 := by
  rw [arrivals, List.count_append, List.count_singleton]
  simp only [arrivals, beq_iff_eq]

theorem arrivals_eq_zero {log : List TrackerEvent} {id : Nat} (h : .counted id ∉ log) :
    arrivals log id = 0 :=
  List.count_eq_zero.mpr h

namespace TrackerSession

theorem Agrees.new : Agrees .new := by
  refine ⟨nofun, ?_, nofun, nofun, nofun⟩
  intro id hPos hLe
  exact absurd hLe (by change ¬id ≤ 0; omega)

theorem mem_snoc {log : List TrackerEvent} {event last : TrackerEvent} :
    event ∈ log ++ [last] ↔ event ∈ log ∨ event = last := by
  rw [List.mem_append, List.mem_singleton]

theorem Agrees.addMessageTrack {s : TrackerSession} (h : Agrees s) (expected : UInt32) :
    Agrees ⟨(s.tracker.addMessageTrack expected).2,
      s.log ++ [.added (s.tracker.addMessageTrack expected).1 expected]⟩ := by
  have hFresh : ∀ event ∈ s.log, event.id ≠ s.tracker.nextRequestId + 1 := by
    intro event hEvent
    have hLe := h.known event hEvent
    omega
  constructor
  · intro event hEvent
    rcases mem_snoc.mp hEvent with hOld | rfl
    · exact Nat.le_succ_of_le (h.known event hOld)
    · exact le_refl _
  · intro id hPos hLe
    rcases Nat.le_or_eq_of_le_succ hLe with hOld | rfl
    · obtain ⟨n, hn⟩ := h.added id hPos hOld
      exact ⟨n, mem_snoc.mpr (.inl hn)⟩
    · exact ⟨expected, mem_snoc.mpr (.inr rfl)⟩
  · intro id n n' hn hn'
    rcases mem_snoc.mp hn with hOld | hNew <;> rcases mem_snoc.mp hn' with hOld' | hNew'
    · exact h.unique id n n' hOld hOld'
    · cases hNew'
      exact absurd rfl (hFresh _ hOld)
    · cases hNew
      exact absurd rfl (hFresh _ hOld')
    · cases hNew
      cases hNew'
      rfl
  · intro id n hn hWaited
    rw [arrivals_snoc, if_neg nofun, Nat.add_zero]
    change AList.lookup id (s.tracker.entries.insert (s.tracker.nextRequestId + 1) (expected, 0)) =
      _
    rcases mem_snoc.mp hn with hOld | hNew
    · have hNe : id ≠ s.tracker.nextRequestId + 1 := hFresh _ hOld
      rw [Table.lookup_insert, if_neg hNe]
      exact h.entry id n hOld fun res hRes => hWaited res (mem_snoc.mpr (.inl hRes))
    · obtain ⟨rfl, rfl⟩ : id = s.tracker.nextRequestId + 1 ∧ n = expected :=
        TrackerEvent.added.inj hNew
      rw [Table.lookup_insert, if_pos rfl, arrivals_eq_zero fun hMem => hFresh _ hMem rfl]
      rfl
  · intro id n hn hWaited
    rw [arrivals_snoc, if_neg nofun, Nat.add_zero]
    have hWaited : .waited id true ∈ s.log := (mem_snoc.mp hWaited).resolve_right nofun
    rcases mem_snoc.mp hn with hOld | hNew
    · exact h.success id n hOld hWaited
    · cases hNew
      exact absurd rfl (hFresh _ hWaited)

theorem Agrees.of_snoc {s : TrackerSession} (h : Agrees s) {event : TrackerEvent}
    {entries : Table Nat (UInt32 × UInt32)} (hId : event.id ≤ s.tracker.nextRequestId)
    (hOther : ∀ id n, .added id n ≠ event)
    (hEntry : ∀ id n, .added id n ∈ s.log → (∀ res, .waited id res ∉ s.log) →
      (∀ res, .waited id res ≠ event) →
        entries.lookup id = some (n, UInt32.ofNat (arrivals (s.log ++ [event]) id)))
    (hSuccess : ∀ id n, .added id n ∈ s.log → .waited id true = event →
      n.toNat ≤ arrivals s.log id) :
    Agrees ⟨{ s.tracker with entries := entries }, s.log ++ [event]⟩ := by
  have hOldAdded : ∀ {id n}, .added id n ∈ s.log ++ [event] → .added id n ∈ s.log :=
    fun hMem => (mem_snoc.mp hMem).resolve_right (hOther _ _)
  constructor
  · intro event' hEvent
    rcases mem_snoc.mp hEvent with hOld | rfl
    · exact h.known event' hOld
    · exact hId
  · intro id hPos hLe
    obtain ⟨n, hn⟩ := h.added id hPos hLe
    exact ⟨n, mem_snoc.mpr (.inl hn)⟩
  · intro id n n' hn hn'
    exact h.unique id n n' (hOldAdded hn) (hOldAdded hn')
  · intro id n hn hWaited
    exact hEntry id n (hOldAdded hn) (fun res hRes => hWaited res (mem_snoc.mpr (.inl hRes)))
      fun res hRes => hWaited res (mem_snoc.mpr (.inr hRes))
  · intro id n hn hWaited
    have hLe : n.toNat ≤ arrivals s.log id := by
      rcases mem_snoc.mp hWaited with hOld | hNew
      · exact h.success id n (hOldAdded hn) hOld
      · exact hSuccess id n (hOldAdded hn) hNew
    rw [arrivals_snoc]
    exact Nat.le_add_right_of_le hLe

theorem Agrees.notifyMessageArrival {s : TrackerSession} (h : Agrees s) {id : Nat}
    (hUse : RegularUse s.log (.counted id)) :
    Agrees ⟨s.tracker.notifyMessageArrival id, s.log ++ [.counted id]⟩ := by
  obtain ⟨expected, hAdded⟩ := hUse
  apply h.of_snoc
  · exact h.known (.added id expected) hAdded
  · rintro id' n ⟨⟩
  · intro id' n hn hWaited _
    have hEntry := h.entry id' n hn hWaited
    rw [Table.lookup_insert, arrivals_snoc]
    by_cases hId : id' = id
    · subst hId
      rw [if_pos rfl, if_pos rfl, MessageTracker.entry, Table.getD, hEntry, UInt32.ofNat_add]
      rfl
    · rw [if_neg hId, if_neg fun hEq => hId (TrackerEvent.counted.inj hEq).symm, hEntry]
      rfl
  · rintro id' n hn ⟨⟩

theorem Agrees.waited {s : TrackerSession} (h : Agrees s) {id : Nat} {res : Bool}
    (hLe : id ≤ s.tracker.nextRequestId)
    (hSuccess : res = true → ∀ n, .added id n ∈ s.log → n.toNat ≤ arrivals s.log id) :
    Agrees ⟨{ s.tracker with entries := s.tracker.entries.erase id },
      s.log ++ [.waited id res]⟩ := by
  apply h.of_snoc
  · exact hLe
  · rintro id' n ⟨⟩
  · intro id' n hn hWaited hOther
    have hId : id' ≠ id := by
      rintro rfl
      exact hOther res rfl
    rw [arrivals_snoc, if_neg nofun, Table.lookup_erase, if_neg hId]
    exact h.entry id' n hn hWaited
  · intro id' n hn hNew
    cases hNew
    exact hSuccess rfl n hn

theorem Agrees.polled {s : TrackerSession} (h : Agrees s) (id : Nat) :
    Agrees ⟨{ s.tracker with entries := s.tracker.entries.subscript id (0, 0) }, s.log⟩ := by
  refine ⟨h.known, h.added, h.unique, ?_, h.success⟩
  intro id' n hn hWaited
  have hEntry := h.entry id' n hn hWaited
  change AList.lookup id' (s.tracker.entries.subscript id (0, 0)) = _
  by_cases hId : id' = id
  · subst hId
    rw [Table.subscript_mem hEntry, hEntry]
  · rw [Table.lookup_subscript, if_neg hId, hEntry]

theorem Agrees.entry_eq {s : TrackerSession} (h : Agrees s) {id : Nat} {n : UInt32}
    (hAdded : .added id n ∈ s.log) (hFalse : .waited id false ∉ s.log)
    (hTrue : .waited id true ∉ s.log) :
    s.tracker.entry id = (n, UInt32.ofNat (arrivals s.log id)) := by
  rw [MessageTracker.entry, Table.getD, h.entry id n hAdded, Option.getD_some]
  rintro (_ | _)
  · exact hFalse
  · exact hTrue

theorem Agrees.truthful_true {s : TrackerSession} (h : Agrees s) {id : Nat}
    (hEq : (s.tracker.entry id).1 = (s.tracker.entry id).2)
    (hUse : RegularUse s.log (.waited id true)) {n : UInt32} (hn : .added id n ∈ s.log) :
    n.toNat ≤ arrivals s.log id := by
  by_cases hTrue : .waited id true ∈ s.log
  · exact h.success id n hn hTrue
  · rw [h.entry_eq hn hUse.1 hTrue] at hEq
    change n = UInt32.ofNat (arrivals s.log id) at hEq
    rw [hEq, UInt32.toNat_ofNat']
    exact Nat.mod_le _ _

theorem Agrees.truthful_false {s : TrackerSession} (h : Agrees s) {id : Nat}
    (hNe : (s.tracker.entry id).1 ≠ (s.tracker.entry id).2)
    (hUse : RegularUse s.log (.waited id false)) {n : UInt32} (hn : .added id n ∈ s.log)
    (hEnough : n.toNat ≤ arrivals s.log id) : .waited id true ∈ s.log := by
  by_contra hTrue
  obtain ⟨n', hn', hFew⟩ := hUse.2.resolve_left hTrue
  obtain rfl := h.unique id n n' hn hn'
  apply hNe
  rw [h.entry_eq hn hUse.1 hTrue, ← Nat.le_antisymm hEnough hFew]
  exact (UInt32.ofNat_toNat).symm

theorem step_log {s s' : TrackerSession} {l : TrackerLabel} (hStep : s.step l = some s') :
    s'.log = s.log ∨ ∃ event, s'.log = s.log ++ [event] := by
  cases l with
  | addMessageTrack expected =>
    cases hStep
    exact .inr ⟨_, rfl⟩
  | notifyMessageArrival id =>
    cases hStep
    exact .inr ⟨_, rfl⟩
  | waitTurn id timedOut =>
    simp only [step] at hStep
    repeat' split at hStep
    · cases hStep
      exact .inr ⟨_, rfl⟩
    · cases hStep
      exact .inl rfl
    · cases hStep

theorem step_agrees {s s' : TrackerSession} {l : TrackerLabel} (h : Agrees s)
    (hStep : s.step l = some s') (hUse : Along RegularUse s'.log)
    (hTruth : Along TruthfulWait s.log) : Agrees s' ∧ Along TruthfulWait s'.log := by
  cases l with
  | addMessageTrack expected =>
    cases hStep
    exact ⟨h.addMessageTrack expected, along_snoc.mpr ⟨hTruth, trivial⟩⟩
  | notifyMessageArrival id =>
    cases hStep
    exact ⟨h.notifyMessageArrival (along_snoc.mp hUse).2, along_snoc.mpr ⟨hTruth, trivial⟩⟩
  | waitTurn id timedOut =>
    rw [step] at hStep
    split at hStep
    case isFalse => cases hStep
    case isTrue hId =>
      obtain ⟨n, hn⟩ := h.added id hId.1 hId.2
      rw [MessageTracker.waitTurn] at hStep
      by_cases hEq : (s.tracker.entry id).1 = (s.tracker.entry id).2
      · rw [if_pos hEq] at hStep
        cases hStep
        have hLast := (along_snoc.mp hUse).2
        refine ⟨h.waited hId.2 fun _ n' hn' => h.truthful_true hEq hLast hn', ?_⟩
        exact along_snoc.mpr ⟨hTruth, n, hn, fun _ => h.truthful_true hEq hLast hn, fun _ _ => rfl⟩
      · rw [if_neg hEq] at hStep
        cases timedOut with
        | false =>
          cases hStep
          exact ⟨h.polled id, hTruth⟩
        | true =>
          cases hStep
          have hLast := (along_snoc.mp hUse).2
          refine ⟨h.waited hId.2 nofun, along_snoc.mpr ⟨hTruth, n, hn, nofun, ?_⟩⟩
          intro hEnough hTrue
          exact absurd (h.truthful_false hEq hLast hn hEnough) hTrue

end TrackerSession

/-- In every run that keeps to regular use, every `Wait` is truthful. -/
theorem wait_truthful (labels : List TrackerLabel) (s : TrackerSession)
    (hRun : exec TrackerSession.step .new labels = some s) (hUse : Along RegularUse s.log) :
    Along TruthfulWait s.log := by
  let Holds (s : TrackerSession) : Prop :=
    Along RegularUse s.log → s.Agrees ∧ Along TruthfulWait s.log
  have hInit : Holds .new := fun _ => ⟨.new, along_nil _⟩
  have hStep : ∀ s l s', Holds s → TrackerSession.step s l = some s' → Holds s' := by
    intro s l s' ih hStep hUse'
    have hUse : Along RegularUse s.log := by
      rcases TrackerSession.step_log hStep with hLog | ⟨event, hLog⟩
      · rwa [← hLog]
      · rw [hLog] at hUse'
        exact (along_snoc.mp hUse').1
    obtain ⟨hAgrees, hTruth⟩ := ih hUse
    exact TrackerSession.step_agrees hAgrees hStep hUse' hTruth
  exact (exec_invariant hStep hInit hRun hUse).2

theorem wait_truthful_two_requests :
    ∃ s, exec TrackerSession.step .new
        [.addMessageTrack 1, .addMessageTrack 1, .waitTurn 1 false, .notifyMessageArrival 1,
          .waitTurn 1 false, .waitTurn 2 true] = some s ∧
      s.log = [.added 1 1, .added 2 1, .counted 1, .waited 1 true, .waited 2 false] ∧
      Along TruthfulWait s.log := by
  obtain ⟨s, hRun, hLog⟩ : ∃ s, exec TrackerSession.step .new
      [.addMessageTrack 1, .addMessageTrack 1, .waitTurn 1 false, .notifyMessageArrival 1,
        .waitTurn 1 false, .waitTurn 2 true] = some s ∧
      s.log = [.added 1 1, .added 2 1, .counted 1, .waited 1 true, .waited 2 false] :=
    ⟨_, rfl, rfl⟩
  refine ⟨s, hRun, hLog, wait_truthful _ s hRun ?_⟩
  rw [hLog]
  simp [RegularUse, arrivals]

/-- The second `Wait` on an id that no response has come for finds the entry ⟨0, 0⟩ that its own
access makes and returns true. -/
theorem second_wait_succeeds_falsely :
    ∃ s, exec TrackerSession.step .new
        [.addMessageTrack 1, .waitTurn 1 false, .waitTurn 1 true, .waitTurn 1 false] = some s ∧
      s.log = [.added 1 1, .waited 1 false, .waited 1 true] ∧ ¬Along TruthfulWait s.log := by
  refine ⟨_, rfl, rfl, ?_⟩
  change ¬Along TruthfulWait [.added 1 1, .waited 1 false, .waited 1 true]
  simp [TruthfulWait, arrivals]

end PsRpc
