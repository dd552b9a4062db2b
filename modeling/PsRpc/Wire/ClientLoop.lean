import Mathlib.Logic.Function.Basic
import PsRpc.Library.Execution
import PsRpc.Library.Table

/-! # The event loop of the clients

All clients of a process share the static members `event_base_` and `is_started_` of `TcpClient`.
Any thread, that of the loop in a callback included, calls the functions of any client. `Init`,
`Stop`, `StartWithDelay` and `StartWithNoBlock` hold `connection_mutex_`, which is a member of the
client, so calls for two clients interleave: `Init` has three steps, with the test of `event_base_`
at the end of the first. `Start` has two steps, the section under the static mutex and the call of
`event_base_dispatch`. A loop that is called takes back an earlier break of its base.
-/

namespace PsRpc

open Execution

/-- Where the thread that holds `connection_mutex_` of a client stands. -/
inductive ClientStage where
  | idle
  | making
  | connecting
  | looping (base : Nat)
deriving DecidableEq, Repr

/-- The members of a client that the functions of this module use. `bufferEvent` is the base of its
bufferevent. -/
structure LoopClient where
  bufferEvent : Option Nat := none
  isStop : Bool := true
  isConnected : Bool := false
  stage : ClientStage := .idle
deriving DecidableEq, Repr

/-- The bases are numbered as they are made. `starter` is the client whose `Start` has passed its
section and not called the loop, and `inStart` the base of that call. The lists hold the clients
whose `Init` made a base, whose `Start` called the loop and whose `Stop` broke one. -/
structure ClientLoop where
  eventBase : Option Nat := none
  bases : Nat := 0
  isStarted : Bool := false
  gotBreak : Nat → Bool := fun _ => false
  running : Nat → Bool := fun _ => false
  clients : Table Nat LoopClient := ∅
  starter : Option Nat := none
  inStart : Option Nat := none
  makers : List Nat := []
  dispatches : List Nat := []
  breaks : List Nat := []

inductive ClientLoopLabel where
  | create (id : Nat)
  | init (id : Nat) (checkIp usePthreads : Bool)
  | make (id : Nat) (newBase : Bool)
  | connect (id : Nat) (memsetEok newBufferEvent : Bool)
  | startWithDelay (id : Nat)
  | startWithNoBlock (id : Nat)
  | endNoBlock (id : Nat)
  | start (id : Nat)
  | dispatch (id : Nat)
  | endStart
  | connected (id : Nat)
  | stop (id : Nat)
deriving DecidableEq, Repr

namespace ClientLoop

def put (s : ClientLoop) (id : Nat) (client : LoopClient) : ClientLoop :=
  { s with clients := s.clients.insert id client }

def newBase (s : ClientLoop) : ClientLoop :=
  { s with
    eventBase := some s.bases
    bases := s.bases + 1
    gotBreak := Function.update s.gotBreak s.bases false
    running := Function.update s.running s.bases false }

/-- `Init` to the test of `event_base_`. -/
def init (s : ClientLoop) (id : Nat) (client : LoopClient) (checkIp usePthreads : Bool) :
    ClientLoop :=
  s.put id { client with
    bufferEvent := none
    stage :=
      if checkIp && usePthreads then if s.eventBase.isNone then .making else .connecting
      else .idle }

/-- The branch of `Init` for a null `event_base_`, which raises if there is no new base. -/
def make (s : ClientLoop) (id : Nat) (client : LoopClient) (newBase : Bool) : ClientLoop :=
  if newBase then
    { s.newBase.put id { client with isStop := false, stage := .connecting } with
      makers := s.makers ++ [id] }
  else { s.put id { client with stage := .idle } with eventBase := none }

def connect (s : ClientLoop) (id : Nat) (client : LoopClient) (memsetEok newBufferEvent : Bool) :
    ClientLoop :=
  s.put id { client with
    bufferEvent := if memsetEok && newBufferEvent then s.eventBase else none
    stage := .idle }

def startWithDelay (s : ClientLoop) (client : LoopClient) : ClientLoop :=
  if client.bufferEvent.isSome then s else s.newBase

/-- `event_base_loop` of a base on which no loop runs. -/
def enter (s : ClientLoop) (base : Nat) : ClientLoop :=
  { s with
    gotBreak := Function.update s.gotBreak base false
    running := Function.update s.running base true }

def leave (s : ClientLoop) (base : Nat) : ClientLoop :=
  { s with running := Function.update s.running base false }

def startWithNoBlock (s : ClientLoop) (id : Nat) (client : LoopClient) : ClientLoop :=
  match s.eventBase with
  | none => s
  | some base =>
    if s.running base then s else (s.put id { client with stage := .looping base }).enter base

/-- The section of `Start` under the static mutex. -/
def start (s : ClientLoop) (id : Nat) : ClientLoop :=
  if s.isStarted then s else { s with isStarted := true, starter := some id }

/-- The rest of `Start`, which raises if there is no base. -/
def dispatch (s : ClientLoop) (id : Nat) : ClientLoop :=
  match s.eventBase with
  | none => { s with starter := none }
  | some base =>
    if s.running base then { s with starter := none, dispatches := s.dispatches ++ [id] }
    else
      { s.enter base with
        starter := none
        inStart := some base
        dispatches := s.dispatches ++ [id] }

/-- `Stop`; `event_base_got_break` of a null pointer is undefined. -/
def stop (s : ClientLoop) (id : Nat) (client : LoopClient) : Option ClientLoop :=
  s.eventBase.map fun base =>
    if s.gotBreak base then s.put id { client with isStop := true }
    else if client.isStop then s
    else
      { s.put id { client with isStop := true } with
        gotBreak := Function.update s.gotBreak base true
        breaks := s.breaks ++ [id] }

def at? (s : ClientLoop) (id : Nat) (stage : ClientStage) : Option LoopClient :=
  (s.clients.lookup id).filter fun client => client.stage = stage

def step (s : ClientLoop) : ClientLoopLabel → Option ClientLoop
  | .create id => if id ∈ s.clients then none else some (s.put id {})
  | .init id checkIp usePthreads =>
    (s.at? id .idle).map fun client => s.init id client checkIp usePthreads
  | .make id newBase => (s.at? id .making).map fun client => s.make id client newBase
  | .connect id memsetEok newBufferEvent =>
    (s.at? id .connecting).map fun client => s.connect id client memsetEok newBufferEvent
  | .startWithDelay id => (s.at? id .idle).map s.startWithDelay
  | .startWithNoBlock id => (s.at? id .idle).map (s.startWithNoBlock id)
  | .endNoBlock id =>
    (s.clients.lookup id).bind fun client =>
      match client.stage with
      | .looping base => some ((s.put id { client with stage := .idle }).leave base)
      | _ => none
  | .start id => if id ∈ s.clients then some (s.start id) else none
  | .dispatch id => if s.starter = some id then some (s.dispatch id) else none
  | .endStart => s.inStart.map fun base => { s.leave base with inStart := none }
  | .connected id =>
    (s.clients.lookup id).bind fun client =>
      if client.bufferEvent.any s.running then some (s.put id { client with isConnected := true })
      else none
  | .stop id => (s.at? id .idle).bind (s.stop id)

/-- No client makes a base where another has made one, and `StartWithDelay` is not called. -/
def oneBase (s : ClientLoop) : ClientLoopLabel → Bool
  | .make _ _ => s.eventBase.isNone
  | .startWithDelay _ => false
  | _ => true

variable {s s' : ClientLoop} {label : ClientLoopLabel} {id id' : Nat} {client : LoopClient}

theorem lookup_put : (s.put id client).clients.lookup id' =
    if id' = id then some client else s.clients.lookup id' :=
  Table.lookup_insert s.clients id id' client

theorem at?_eq_some {stage : ClientStage} (h : s.at? id stage = some client) :
    s.clients.lookup id = some client ∧ client.stage = stage := by
  rw [at?, Option.filter_eq_some_iff] at h
  exact ⟨h.1, of_decide_eq_true h.2⟩

/-- What a step can do. A client that is `changed` is stopped if it was, and connected as it was. -/
inductive Move (s : ClientLoop) : ClientLoopLabel → ClientLoop → Prop where
  | nothing (label : ClientLoopLabel) : Move s label s
  | created (id : Nat) : Move s (.create id) (s.put id {})
  | changed (label : ClientLoopLabel) (id : Nat) (client client' : LoopClient)
      (hFound : s.clients.lookup id = some client)
      (hStop : client'.isStop = false → client.isStop = false)
      (hConnected : client'.isConnected = client.isConnected) : Move s label (s.put id client')
  | made (id : Nat) (client : LoopClient) (hFound : s.clients.lookup id = some client) :
      Move s (.make id true)
        { s.newBase.put id { client with isStop := false, stage := .connecting } with
          makers := s.makers ++ [id] }
  | notMade (id : Nat) (client : LoopClient) (hFound : s.clients.lookup id = some client) :
      Move s (.make id false) { s.put id { client with stage := .idle } with eventBase := none }
  | delayed (id : Nat) : Move s (.startWithDelay id) s.newBase
  | entered (id base : Nat) (client : LoopClient) (hFound : s.clients.lookup id = some client) :
      Move s (.startWithNoBlock id) ((s.put id { client with stage := .looping base }).enter base)
  | left (id base : Nat) (client : LoopClient) (hFound : s.clients.lookup id = some client) :
      Move s (.endNoBlock id) ((s.put id { client with stage := .idle }).leave base)
  | chosen (id : Nat) (hStarted : s.isStarted = false) :
      Move s (.start id) { s with isStarted := true, starter := some id }
  | raised (id : Nat) (hStarter : s.starter = some id) :
      Move s (.dispatch id) { s with starter := none }
  | refused (id : Nat) (hStarter : s.starter = some id) :
      Move s (.dispatch id) { s with starter := none, dispatches := s.dispatches ++ [id] }
  | called (id base : Nat) (hStarter : s.starter = some id) :
      Move s (.dispatch id)
        { s.enter base with
          starter := none
          inStart := some base
          dispatches := s.dispatches ++ [id] }
  | returned (base : Nat) : Move s .endStart { s.leave base with inStart := none }
  | connected (id : Nat) (client : LoopClient) (hFound : s.clients.lookup id = some client)
      (hRunning : client.bufferEvent.any s.running = true) :
      Move s (.connected id) (s.put id { client with isConnected := true })
  | broke (id base : Nat) (client : LoopClient) (hFound : s.clients.lookup id = some client)
      (hLive : client.isStop = false) :
      Move s (.stop id)
        { s.put id { client with isStop := true } with
          gotBreak := Function.update s.gotBreak base true
          breaks := s.breaks ++ [id] }

theorem make_move (hFound : s.clients.lookup id = some client) (newBase : Bool) :
    Move s (.make id newBase) (s.make id client newBase) := by
  cases newBase with
  | false => exact .notMade id client hFound
  | true => exact .made id client hFound

theorem startWithDelay_move : Move s (.startWithDelay id) (s.startWithDelay client) := by
  unfold startWithDelay
  split
  · exact .nothing _
  · exact .delayed id

theorem startWithNoBlock_move (hFound : s.clients.lookup id = some client) :
    Move s (.startWithNoBlock id) (s.startWithNoBlock id client) := by
  unfold startWithNoBlock
  split
  · exact .nothing _
  · next base _ =>
    split
    · exact .nothing _
    · exact .entered id base client hFound

theorem start_move : Move s (.start id) (s.start id) := by
  unfold start
  split
  · exact .nothing _
  · next hStarted => exact .chosen id (Bool.eq_false_iff.mpr hStarted)

theorem dispatch_move (hStarter : s.starter = some id) :
    Move s (.dispatch id) (s.dispatch id) := by
  unfold dispatch
  split
  · exact .raised id hStarter
  · next base _ =>
    split
    · exact .refused id hStarter
    · exact .called id base hStarter

theorem stop_move (hFound : s.clients.lookup id = some client) (h : s.stop id client = some s') :
    Move s (.stop id) s' := by
  obtain ⟨base, _, rfl⟩ := Option.map_eq_some_iff.mp h
  split
  · exact .changed _ id client _ hFound (fun hLive => by cases hLive) rfl
  · split
    · exact .nothing _
    · next hStop => exact .broke id base client hFound (Bool.eq_false_iff.mpr hStop)

theorem step_move (h : s.step label = some s') : Move s label s' := by
  cases label with
  | create id =>
    obtain ⟨_, hNext⟩ := Option.ite_none_left_eq_some.mp h
    cases hNext
    exact .created id
  | init id checkIp usePthreads =>
    obtain ⟨client, hAt, rfl⟩ := Option.map_eq_some_iff.mp h
    exact .changed _ id client _ (at?_eq_some hAt).1 (fun hLive => hLive) rfl
  | make id newBase =>
    obtain ⟨client, hAt, rfl⟩ := Option.map_eq_some_iff.mp h
    exact make_move (at?_eq_some hAt).1 newBase
  | connect id memsetEok newBufferEvent =>
    obtain ⟨client, hAt, rfl⟩ := Option.map_eq_some_iff.mp h
    exact .changed _ id client _ (at?_eq_some hAt).1 (fun hLive => hLive) rfl
  | startWithDelay id =>
    obtain ⟨client, _, rfl⟩ := Option.map_eq_some_iff.mp h
    exact startWithDelay_move
  | startWithNoBlock id =>
    obtain ⟨client, hAt, rfl⟩ := Option.map_eq_some_iff.mp h
    exact startWithNoBlock_move (at?_eq_some hAt).1
  | endNoBlock id =>
    obtain ⟨client, hFound, hNext⟩ := Option.bind_eq_some_iff.mp h
    split at hNext
    · next base _ =>
      cases hNext
      exact .left id base client hFound
    · cases hNext
  | start id =>
    obtain ⟨_, hNext⟩ := Option.ite_none_right_eq_some.mp h
    cases hNext
    exact start_move
  | dispatch id =>
    obtain ⟨hStarter, hNext⟩ := Option.ite_none_right_eq_some.mp h
    cases hNext
    exact dispatch_move hStarter
  | endStart =>
    obtain ⟨base, _, rfl⟩ := Option.map_eq_some_iff.mp h
    exact .returned base
  | connected id =>
    obtain ⟨client, hFound, hNext⟩ := Option.bind_eq_some_iff.mp h
    obtain ⟨hRunning, hNext⟩ := Option.ite_none_right_eq_some.mp hNext
    cases hNext
    exact .connected id client hFound hRunning
  | stop id =>
    obtain ⟨client, hAt, hNext⟩ := Option.bind_eq_some_iff.mp h
    exact stop_move (at?_eq_some hAt).1 hNext

def Live (s : ClientLoop) (id : Nat) : Prop :=
  ∃ client, s.clients.lookup id = some client ∧ client.isStop = false

/-- The base has a break that no loop has taken back. -/
def Broken (s : ClientLoop) : Prop := ∃ base, s.eventBase = some base ∧ s.gotBreak base = true

/-- What a step does to the base, to the breaks and to the clients that are not stopped. -/
inductive Touches (s : ClientLoop) (label : ClientLoopLabel) (s' : ClientLoop) : Prop where
  | nothing (base : s.oneBase label = true → s'.eventBase = s.eventBase)
    (makers : s'.makers = s.makers) (breaks : s'.breaks = s.breaks)
    (broken : s.oneBase label = true → s'.Broken → s.Broken) (live : ∀ id, s'.Live id → s.Live id)
  | made (id : Nat) (base : s.oneBase label = true → s.eventBase = none)
    (base' : s'.eventBase.isSome = true) (makers : s'.makers = s.makers ++ [id])
    (breaks : s'.breaks = s.breaks) (broken : ¬ s'.Broken)
    (live : ∀ id', s'.Live id' → id' = id ∨ s.Live id')
  | broken (id : Nat) (stopped : s.Live id) (base : s'.eventBase = s.eventBase)
    (makers : s'.makers = s.makers) (breaks : s'.breaks = s.breaks ++ [id])
    (live : ∀ id', s'.Live id' → id' ≠ id ∧ s.Live id')

theorem put_live (h : (s.put id client).Live id') (hStop : client.isStop = false → s.Live id) :
    s.Live id' := by
  obtain ⟨client', hLookup, hLive⟩ := h
  rw [lookup_put] at hLookup
  split at hLookup
  · next hId =>
    cases hLookup
    rw [hId]
    exact hStop hLive
  · exact ⟨client', hLookup, hLive⟩

theorem put_live_of_stopped (h : (s.put id client).Live id') (hStop : client.isStop = true) :
    id' ≠ id ∧ s.Live id' := by
  obtain ⟨client', hLookup, hLive⟩ := h
  rw [lookup_put] at hLookup
  split at hLookup
  · cases hLookup
    rw [hStop] at hLive
    cases hLive
  · next hId => exact ⟨hId, client', hLookup, hLive⟩

theorem live_of_changed {client' : LoopClient} (h : s'.Live id')
    (hClients : s'.clients = (s.put id client').clients)
    (hFound : s.clients.lookup id = some client)
    (hStop : client'.isStop = false → client.isStop = false) : s.Live id' := by
  have hPut : (s.put id client').Live id' := by
    rw [Live, ← hClients]
    exact h
  exact put_live hPut fun hLive => ⟨client, hFound, hStop hLive⟩

theorem enter_broken {base : Nat} (h : (s.enter base).Broken) : s.Broken := by
  obtain ⟨base', hBase, hBreak⟩ := h
  refine ⟨base', hBase, ?_⟩
  change Function.update s.gotBreak base false base' = true at hBreak
  by_cases hSame : base' = base
  · rw [hSame, Function.update_self] at hBreak
    cases hBreak
  · rwa [Function.update_of_ne hSame] at hBreak

theorem newBase_not_broken : ¬ s.newBase.Broken := by
  rintro ⟨base, hBase, hBreak⟩
  cases hBase
  change Function.update s.gotBreak s.bases false s.bases = true at hBreak
  rw [Function.update_self] at hBreak
  cases hBreak

theorem Move.touches (h : Move s label s') : Touches s label s' := by
  cases h with
  | nothing => exact .nothing (fun _ => rfl) rfl rfl (fun _ hNow => hNow) fun _ hNow => hNow
  | created id =>
    exact .nothing (fun _ => rfl) rfl rfl (fun _ hNow => hNow) fun _ hNow =>
      put_live hNow fun hStop => by cases hStop
  | changed _ id client client' hFound hStop _ =>
    exact .nothing (fun _ => rfl) rfl rfl (fun _ hNow => hNow) fun _ hNow =>
      live_of_changed hNow rfl hFound hStop
  | made id client hFound =>
    refine .made id Option.isNone_iff_eq_none.mp rfl rfl rfl newBase_not_broken ?_
    rintro id' ⟨client', hLookup, hLive⟩
    change (s.put id _).clients.lookup id' = some client' at hLookup
    rw [lookup_put] at hLookup
    split at hLookup
    · next hId => exact .inl hId
    · exact .inr ⟨client', hLookup, hLive⟩
  | notMade id client hFound =>
    refine .nothing (fun hNone => (Option.isNone_iff_eq_none.mp hNone).symm) rfl rfl ?_ ?_
    · rintro _ ⟨base, hBase, _⟩
      cases hBase
    · exact fun _ hNow => live_of_changed hNow rfl hFound fun hStop => hStop
  | delayed id =>
    exact .nothing (fun hOne => by cases hOne) rfl rfl (fun hOne => by cases hOne)
      fun _ hNow => hNow
  | entered id base client hFound =>
    exact .nothing (fun _ => rfl) rfl rfl (fun _ hNow => enter_broken hNow) fun _ hNow =>
      live_of_changed hNow rfl hFound fun hStop => hStop
  | left id base client hFound =>
    exact .nothing (fun _ => rfl) rfl rfl (fun _ hNow => hNow) fun _ hNow =>
      live_of_changed hNow rfl hFound fun hStop => hStop
  | chosen => exact .nothing (fun _ => rfl) rfl rfl (fun _ hNow => hNow) fun _ hNow => hNow
  | raised => exact .nothing (fun _ => rfl) rfl rfl (fun _ hNow => hNow) fun _ hNow => hNow
  | refused => exact .nothing (fun _ => rfl) rfl rfl (fun _ hNow => hNow) fun _ hNow => hNow
  | called =>
    exact .nothing (fun _ => rfl) rfl rfl (fun _ hNow => enter_broken hNow) fun _ hNow => hNow
  | returned => exact .nothing (fun _ => rfl) rfl rfl (fun _ hNow => hNow) fun _ hNow => hNow
  | connected id client hFound _ =>
    exact .nothing (fun _ => rfl) rfl rfl (fun _ hNow => hNow) fun _ hNow =>
      live_of_changed hNow rfl hFound fun hStop => hStop
  | broke id base client hFound hLive =>
    exact .broken id ⟨client, hFound, hLive⟩ rfl rfl rfl fun _ hNow =>
      put_live_of_stopped hNow rfl

/-- Whoever is not stopped, and whoever broke the loop, has made a base. -/
structure ByMakers (s : ClientLoop) : Prop where
  live : ∀ id, s.Live id → id ∈ s.makers
  breaks : s.breaks ⊆ s.makers

theorem ByMakers.step (h : s.ByMakers) (hStep : s.step label = some s') : s'.ByMakers := by
  obtain ⟨_, hMakers, hBreaks, _, hLive⟩ | ⟨id, _, _, hMakers, hBreaks, _, hLive⟩ |
    ⟨id, hStopped, _, hMakers, hBreaks, hLive⟩ := (step_move hStep).touches
  · constructor
    · rw [hMakers]
      exact fun id' hNow => h.live id' (hLive id' hNow)
    · rw [hMakers, hBreaks]
      exact h.breaks
  · constructor
    · intro id' hNow
      rw [hMakers, List.mem_append]
      rcases hLive id' hNow with rfl | hBefore
      · exact .inr (List.mem_singleton_self _)
      · exact .inl (h.live id' hBefore)
    · rw [hMakers, hBreaks]
      exact List.subset_append_of_subset_left _ h.breaks
  · constructor
    · rw [hMakers]
      exact fun id' hNow => h.live id' (hLive id' hNow).2
    · rw [hMakers, hBreaks, List.append_subset]
      exact ⟨h.breaks, List.cons_subset.mpr ⟨h.live id hStopped, List.nil_subset _⟩⟩

/-- Under one base: it is made by the one client that is not stopped and may break the loop. -/
structure BaseMade (s : ClientLoop) : Prop where
  makers : s.makers.length = s.eventBase.isSome.toNat
  breaks : s.breaks = [] ∨ s.breaks = s.makers
  live : ∀ id, s.Live id → s.makers = [id] ∧ s.breaks = []

theorem BaseMade.step (h : s.BaseMade) (hOne : s.oneBase label = true)
    (hStep : s.step label = some s') : s'.BaseMade := by
  obtain ⟨hBase, hMakers, hBreaks, _, hLive⟩ | ⟨id, hNone, hSome, hMakers, hBreaks, _, hLive⟩ |
    ⟨id, hStopped, hBase, hMakers, hBreaks, hLive⟩ := (step_move hStep).touches
  · refine ⟨by rw [hMakers, hBase hOne, h.makers], by rw [hBreaks, hMakers]; exact h.breaks, ?_⟩
    intro id hNow
    rw [hMakers, hBreaks]
    exact h.live id (hLive id hNow)
  · have hNoMakers : s.makers = [] := by
      apply List.length_eq_zero_iff.mp
      rw [h.makers, hNone hOne]
      rfl
    have hNoBreaks : s.breaks = [] :=
      h.breaks.elim (fun hNil => hNil) fun hEq => hEq.trans hNoMakers
    refine ⟨by rw [hMakers, hSome, hNoMakers]; rfl, .inl (hBreaks.trans hNoBreaks), ?_⟩
    intro id' hNow
    rw [hMakers, hNoMakers, hBreaks, hNoBreaks]
    rcases hLive id' hNow with rfl | hBefore
    · exact ⟨rfl, rfl⟩
    · have hMaker := (h.live id' hBefore).1
      rw [hNoMakers] at hMaker
      cases hMaker
  · obtain ⟨hMaker, hNoBreaks⟩ := h.live id hStopped
    refine ⟨by rw [hMakers, hBase, h.makers], .inr ?_, ?_⟩
    · rw [hBreaks, hNoBreaks, hMakers, hMaker]
      rfl
    · intro id' hNow
      obtain ⟨hNe, hBefore⟩ := hLive id' hNow
      have hSame := (h.live id' hBefore).1
      rw [hMaker] at hSame
      exact absurd (List.singleton_inj.mp hSame).symm hNe

/-- A break that was taken back stays so: the client that made the base has stopped. -/
theorem BaseMade.not_broken_step (h : s.BaseMade) (hBreaks : s.breaks ≠ []) (hNot : ¬ s.Broken)
    (hOne : s.oneBase label = true) (hStep : s.step label = some s') :
    s'.breaks ≠ [] ∧ ¬ s'.Broken := by
  obtain ⟨_, _, hSame, hBroken, _⟩ | ⟨_, _, _, _, hSame, hBroken, _⟩ | ⟨id, hStopped, _⟩ :=
    (step_move hStep).touches
  · exact ⟨by rw [hSame]; exact hBreaks, fun hNow => hNot (hBroken hOne hNow)⟩
  · exact ⟨by rw [hSame]; exact hBreaks, hBroken⟩
  · exact absurd (h.live id hStopped).2 hBreaks

inductive Calls (s s' : ClientLoop) : Prop where
  | nothing (started : s'.isStarted = s.isStarted) (starter : s'.starter = s.starter)
    (dispatches : s'.dispatches = s.dispatches)
  | chosen (started : s.isStarted = false) (started' : s'.isStarted = true)
    (dispatches : s'.dispatches = s.dispatches)
  | raised (started : s'.isStarted = s.isStarted) (chosen : s.starter ≠ none)
    (starter : s'.starter = none) (dispatches : s'.dispatches = s.dispatches)
  | called (id : Nat) (started : s'.isStarted = s.isStarted) (chosen : s.starter ≠ none)
    (starter : s'.starter = none) (dispatches : s'.dispatches = s.dispatches ++ [id])

theorem Move.calls (h : Move s label s') : Calls s s' := by
  cases h with
  | chosen id hStarted => exact .chosen hStarted rfl rfl
  | raised id hStarter => exact .raised rfl (by simp [hStarter]) rfl rfl
  | refused id hStarter => exact .called id rfl (by simp [hStarter]) rfl rfl
  | called id base hStarter => exact .called id rfl (by simp [hStarter]) rfl rfl
  | _ => exact .nothing rfl rfl rfl

structure LoopCalled (s : ClientLoop) : Prop where
  before : s.isStarted = false → s.starter = none ∧ s.dispatches = []
  chosen : s.starter ≠ none → s.dispatches = []
  once : s.dispatches.length ≤ 1

theorem LoopCalled.step (h : s.LoopCalled) (hStep : s.step label = some s') : s'.LoopCalled := by
  obtain ⟨hStarted, hStarter, hDispatches⟩ | ⟨hFalse, hTrue, hDispatches⟩ |
    ⟨hStarted, hChosen, hStarter, hDispatches⟩ | ⟨id, hStarted, hChosen, hStarter, hDispatches⟩ :=
    (step_move hStep).calls
  · constructor
    · rw [hStarted, hStarter, hDispatches]
      exact h.before
    · rw [hStarter, hDispatches]
      exact h.chosen
    · rw [hDispatches]
      exact h.once
  · have hNone := (h.before hFalse).2
    refine ⟨?_, fun _ => hDispatches.trans hNone, by rw [hDispatches]; exact h.once⟩
    intro hNot
    rw [hTrue] at hNot
    cases hNot
  · have hNone := h.chosen hChosen
    refine ⟨fun _ => ⟨hStarter, hDispatches.trans hNone⟩, fun _ => hDispatches.trans hNone, ?_⟩
    rw [hDispatches]
    exact h.once
  · have hNone := h.chosen hChosen
    refine ⟨?_, fun hNot => absurd hStarter hNot, by rw [hDispatches, hNone]; exact Nat.le_refl 1⟩
    intro hNot
    rw [hStarted] at hNot
    exact absurd (h.before hNot).1 hChosen

/-- `Start` has called the loop, and no loop runs. -/
def Ended (s : ClientLoop) : Prop := s.dispatches ≠ [] ∧ ∀ base, s.running base = false

def Connected (s : ClientLoop) (id : Nat) : Prop :=
  ∃ client, s.clients.lookup id = some client ∧ client.isConnected = true

/-- No loop runs after the step, and no client is connected by it. -/
def Quiet (s s' : ClientLoop) : Prop :=
  (∀ base, s'.running base = false) ∧ ∀ id, s'.Connected id → s.Connected id

section Quiet

variable (hRunning : ∀ base, s.running base = false)
include hRunning

theorem update_running (base base' : Nat) : Function.update s.running base false base' = false := by
  by_cases hBase : base' = base
  · rw [hBase, Function.update_self]
  · rw [Function.update_of_ne hBase, hRunning]

theorem put_quiet (hClient : client.isConnected = true → s.Connected id) :
    s.Quiet (s.put id client) := by
  refine ⟨hRunning, ?_⟩
  rintro id' ⟨client', hLookup, hConnected⟩
  rw [lookup_put] at hLookup
  split at hLookup
  · next hId =>
    cases hLookup
    rw [hId]
    exact hClient hConnected
  · exact ⟨client', hLookup, hConnected⟩

theorem put_found_quiet {client' : LoopClient} (hFound : s.clients.lookup id = some client)
    (hSame : client'.isConnected = client.isConnected) : s.Quiet (s.put id client') :=
  put_quiet hRunning fun hNow => ⟨client, hFound, hSame.symm.trans hNow⟩

theorem Move.quiet (hStarter : s.starter = none) (hNoBlock : ∀ id, label ≠ .startWithNoBlock id)
    (h : Move s label s') : s.Quiet s' := by
  cases h with
  | nothing => exact ⟨hRunning, fun _ hNow => hNow⟩
  | created id => exact put_quiet hRunning fun hNow => by cases hNow
  | changed _ id client client' hFound _ hConnected =>
    exact put_found_quiet hRunning hFound hConnected
  | made id client hFound =>
    have hPut : s.Quiet (s.put id { client with isStop := false, stage := .connecting }) :=
      put_found_quiet hRunning hFound rfl
    exact ⟨update_running hRunning s.bases, hPut.2⟩
  | notMade id client hFound => exact put_found_quiet hRunning hFound rfl
  | delayed id => exact ⟨update_running hRunning s.bases, fun _ hNow => hNow⟩
  | entered id => exact absurd rfl (hNoBlock id)
  | left id base client hFound =>
    have hPut : s.Quiet (s.put id { client with stage := .idle }) :=
      put_found_quiet hRunning hFound rfl
    exact ⟨update_running hRunning base, hPut.2⟩
  | chosen => exact ⟨hRunning, fun _ hNow => hNow⟩
  | raised id hChosen => exact absurd (hStarter.symm.trans hChosen) (by simp)
  | refused id hChosen => exact absurd (hStarter.symm.trans hChosen) (by simp)
  | called id base hChosen => exact absurd (hStarter.symm.trans hChosen) (by simp)
  | returned base => exact ⟨update_running hRunning base, fun _ hNow => hNow⟩
  | connected id client _ hAny =>
    cases hEvent : client.bufferEvent with
    | none =>
      rw [hEvent] at hAny
      cases hAny
    | some base =>
      rw [hEvent, Option.any_some, hRunning] at hAny
      cases hAny
  | broke id base client hFound _ => exact put_found_quiet hRunning hFound rfl

end Quiet

theorem Ended.step (h : s.Ended) (hCalled : s.LoopCalled)
    (hNoBlock : ∀ id, label ≠ .startWithNoBlock id) (hStep : s.step label = some s') :
    s'.Ended ∧ ∀ id, s'.Connected id → s.Connected id := by
  obtain ⟨hCalls, hRunning⟩ := h
  have hStarter : s.starter = none := by
    by_contra hChosen
    exact hCalls (hCalled.chosen hChosen)
  obtain ⟨hStopped, hConnected⟩ := (step_move hStep).quiet hRunning hStarter hNoBlock
  refine ⟨⟨?_, hStopped⟩, hConnected⟩
  obtain ⟨_, _, hDispatches⟩ | ⟨_, _, hDispatches⟩ | ⟨_, _, _, hDispatches⟩ |
    ⟨_, _, _, _, hDispatches⟩ := (step_move hStep).calls
  · rw [hDispatches]
    exact hCalls
  · rw [hDispatches]
    exact hCalls
  · rw [hDispatches]
    exact hCalls
  · rw [hDispatches]
    exact List.append_ne_nil_of_left_ne_nil hCalls _

end ClientLoop

open ClientLoop

/-- In every run of the clients of a process `Start` calls a loop once, and only clients that made a
base break one. While no two clients make a base, it is made once and broken at most once, and a
break that comes before the call of the loop is lost. Once `Start` has called the loop and no loop
runs, no client is connected but through `StartWithNoBlock`. -/
theorem clients_share_one_loop {labels : List ClientLoopLabel} {s : ClientLoop}
    (hRun : exec step {} labels = some s) :
    s.dispatches.length ≤ 1 ∧ s.breaks ⊆ s.makers ∧
      (exec (restrict (fun s label => s.oneBase label = true) step) {} labels = some s →
        s.makers.length ≤ 1 ∧ (s.breaks = [] ∨ s.breaks = s.makers) ∧
        ∀ labels' s', exec (restrict (fun s label => s.oneBase label = true) step) s labels' =
          some s' → s.breaks ≠ [] → ¬ s.Broken → ¬ s'.Broken) ∧
      (s.Ended → ∀ labels' s', exec step s labels' = some s' →
        (∀ id, .startWithNoBlock id ∉ labels') → ∀ id, s'.Connected id → s.Connected id) := by
  have hNotLive : ∀ id, ¬ ({} : ClientLoop).Live id := by
    rintro id ⟨client, hLookup, _⟩
    cases hLookup
  have hMakers : s.ByMakers :=
    exec_invariant (fun _ _ _ h hStep => h.step hStep)
      ⟨fun id hLive => absurd hLive (hNotLive id), List.nil_subset _⟩ hRun
  have hCalled : s.LoopCalled := by
    refine exec_invariant (fun _ _ _ h hStep => h.step hStep) ?_ hRun
    exact ⟨fun _ => ⟨rfl, rfl⟩, fun _ => rfl, Nat.zero_le 1⟩
  refine ⟨hCalled.once, hMakers.breaks, ?_, ?_⟩
  · intro hOnly
    have hBase : s.BaseMade := by
      refine exec_invariant (fun _ _ _ h hStep => ?_)
        ⟨rfl, .inl rfl, fun id hLive => absurd hLive (hNotLive id)⟩ hOnly
      obtain ⟨hOne, hNext⟩ := restrict_eq_some.mp hStep
      exact h.step hOne hNext
    refine ⟨?_, hBase.breaks, ?_⟩
    · rw [hBase.makers]
      exact Bool.toNat_le _
    · intro labels' s' hRun' hBreaks hNot
      refine (exec_invariant
        (P := fun s' : ClientLoop => s'.BaseMade ∧ s'.breaks ≠ [] ∧ ¬ s'.Broken)
        ?_ ⟨hBase, hBreaks, hNot⟩ hRun').2.2
      rintro mid label next ⟨hBase, hBreaks, hNot⟩ hStep
      obtain ⟨hOne, hNext⟩ := restrict_eq_some.mp hStep
      exact ⟨hBase.step hOne hNext, hBase.not_broken_step hBreaks hNot hOne hNext⟩
  · intro hEnded labels' s' hRun' hNoBlock id
    have hLabels : ∀ label ∈ labels', ∀ id', label ≠ .startWithNoBlock id' := by
      rintro label hMem id' rfl
      exact hNoBlock id' hMem
    refine (exec_invariant_of_labels
      (P := fun s' : ClientLoop => s'.LoopCalled ∧ s'.Ended ∧ (s'.Connected id → s.Connected id))
      ?_ hLabels ⟨hCalled, hEnded, fun h => h⟩ hRun').2.2
    rintro mid label next hNot ⟨hCalled, hEnded, hConnected⟩ hStep
    obtain ⟨hStill, hOld⟩ := hEnded.step hCalled hNot hStep
    exact ⟨hCalled.step hStep, hStill, fun h => hConnected (hOld id h)⟩

/-- The client is stopped after its thread has been chosen to call the loop and before the call. -/
def earlyStop : List ClientLoopLabel :=
  [.create 0, .init 0 true true, .make 0 true, .connect 0 true true, .start 0, .stop 0, .dispatch 0]

theorem clients_share_one_loop_early_stop :
    ∃ s, exec (restrict (fun s label => s.oneBase label = true) step) {} earlyStop = some s ∧
      s.inStart = some 0 ∧ ∀ labels' s',
        exec (restrict (fun s label => s.oneBase label = true) step) s labels' = some s' →
          ¬ s'.Broken := by
  obtain ⟨s, hRun, hOnly, hLoop, hBreaks, hNot⟩ : ∃ s, exec step {} earlyStop = some s ∧
      exec (restrict (fun s label => s.oneBase label = true) step) {} earlyStop = some s ∧
      s.inStart = some 0 ∧ s.breaks ≠ [] ∧ ¬ s.Broken := by
    refine ⟨_, rfl, rfl, rfl, List.cons_ne_nil _ _, ?_⟩
    rintro ⟨base, hBase, hBreak⟩
    cases hBase
    cases hBreak
  refine ⟨s, hOnly, hLoop, fun labels' s' hRun' => ?_⟩
  exact ((clients_share_one_loop hRun).2.2.1 hOnly).2.2 labels' s' hRun' hBreaks hNot

/-- Two clients find no base, and both make one. -/
example : (exec step {} [.create 0, .create 1, .init 0 true true, .init 1 true true, .make 0 true,
    .make 1 true]).map (·.makers) = some [0, 1] := rfl

end PsRpc
