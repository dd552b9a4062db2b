import PsRpc.Node.Requests

/-! # One request of a node on its own

The three maps of a node have the request id as their key, and every step of the node is about
one id. `Slot` is what a node holds for one id, `Slot.Step` what can happen to it, and
`NodeState.step_view` says that each step of the node moves one slot by such a step and leaves
the other slots alone.
-/

namespace PsRpc

open Execution

inductive Phase where
  | idle
  | stored
  | found
  | ran
  | checked
deriving DecidableEq, Repr

structure Slot where
  track : Option (UInt32 × UInt32)
  callback : Bool
  received : Option (Table UInt32 Bytes)
  call : Option Call
  phase : Phase

inductive SlotEvent where
  | began (request : Request)
  | waited (res : Bool)
  | other

namespace Slot

def new : Slot := ⟨none, false, none, none, .idle⟩

def entry (slot : Slot) : UInt32 × UInt32 := slot.track.getD (0, 0)

inductive Step (slot : Slot) : SlotEvent → Slot → Prop where
  | begin (request : Request) (hCall : slot.call = none) :
      Step slot (.began request)
        { slot with track := some (UInt32.ofNat request.expected, 0), call := some (.new request) }
  | setMessageCallback {call : Call} {rest : List Action} (hCall : slot.call = some call)
      (hTodo : call.todo = .setMessageCallback :: rest) :
      Step slot .other { slot with callback := true, call := some { call with todo := rest } }
  | sendMessage {call : Call} {rankId : UInt32} {data : Bytes} {rest : List Action}
      (hCall : slot.call = some call) (hTodo : call.todo = .sendMessage rankId data :: rest) :
      Step slot .other
        { slot with
          call := some { call with
            sent := call.sent ++ [⟨rankId, data, .pending⟩], todo := rest } }
  | raise {call : Call} {fault : Fault} {rest : List Action} (hCall : slot.call = some call)
      (hTodo : call.todo = .raise fault :: rest) :
      Step slot .other
        { slot with call := some { call with status := .raised fault, todo := [] } }
  | waited {call : Call} {res : Bool} (hCall : slot.call = some call)
      (hTodo : call.todo = [.wait]) (hRes : res = true ↔ slot.entry.1 = slot.entry.2) :
      Step slot (.waited res)
        { slot with
          track := none, call := some { call with status := .waited res, todo := [] } }
  | poll {call : Call} (hCall : slot.call = some call) (hTodo : call.todo = [.wait]) :
      Step slot .other { slot with track := some slot.entry }
  | finish {call call' : Call} (hCall : slot.call = some call)
    (hFinish : call.finish = some call') :
      Step slot .other { slot with call := some call' }
  | answer {call call' : Call} {k : Nat} {data : Bytes} (hCall : slot.call = some call)
      (hAnswer : call.answer k data = some call') :
      Step slot .other { slot with call := some call' }
  | respond {call : Call} {k : Nat} {rankId : UInt32} {data : Bytes}
      (hCall : slot.call = some call) (hPhase : slot.phase = .idle)
      (hResponse : call.response k = some (rankId, data)) :
      Step slot .other
        { slot with
          received := some ((slot.received.getD ∅).insert rankId data)
          call := some (call.setReply k (.handled data)), phase := .stored }
  | checkFound (hPhase : slot.phase = .stored) (hCheck : slot.entry.1 = slot.entry.2 + 1)
      (hCallback : slot.callback = true) :
      Step slot .other { slot with track := some slot.entry, phase := .found }
  | checkMissed (hPhase : slot.phase = .stored)
      (hCheck : slot.entry.1 = slot.entry.2 + 1 → slot.callback = false) :
      Step slot .other { slot with track := some slot.entry, phase := .checked }
  | run {call : Call} (hPhase : slot.phase = .found) (hCall : slot.call = some call) :
      Step slot .other
        { slot with
          received := none, call := some (call.runClosure (slot.received.getD ∅)), phase := .ran }
  | erase (hPhase : slot.phase = .ran) :
      Step slot .other { slot with callback := false, phase := .checked }
  | notify {call : Call} (hPhase : slot.phase = .checked) (hCall : slot.call = some call) :
      Step slot .other
        { slot with
          track := some (slot.entry.1, slot.entry.2 + 1), call := some call.count, phase := .idle }

end Slot

def Loop.phase (loop : Loop) (id : Nat) : Phase :=
  match loop with
  | .stored id' => if id = id' then .stored else .idle
  | .found id' _ => if id = id' then .found else .idle
  | .ran id' => if id = id' then .ran else .idle
  | .checked id' => if id = id' then .checked else .idle
  | .idle | .dead => .idle

namespace NodeState

def view (s : NodeState) (id : Nat) : Slot :=
  ⟨s.tracker.entries.lookup id, (s.messageCallbacks.lookup id).isSome,
    s.receiveMessages.lookup id, s.calls.lookup id, s.loop.phase id⟩

/-- Request ids are given out once, and a closure is stored under the id of its call. -/
structure Linked (s : NodeState) : Prop where
  fresh : ∀ id call, s.calls.lookup id = some call → id ≤ s.tracker.nextRequestId
  frame : ∀ id frame, s.messageCallbacks.lookup id = some frame → frame = id
  found : ∀ id frame, s.loop = .found id frame → frame = id

def Moves (s s' : NodeState) (id : Nat) (event : SlotEvent) : Prop :=
  (∀ id', id' ≠ id → s'.view id' = s.view id') ∧ (s.view id).Step event (s'.view id)

theorem moves_of {s s' : NodeState} {id : Nat} {event : SlotEvent} {slot : Slot}
    (hStep : (s.view id).Step event slot) (hSelf : s'.view id = slot)
    (hOthers : ∀ id', id' ≠ id → s'.view id' = s.view id') : Moves s s' id event :=
  ⟨hOthers, hSelf ▸ hStep⟩

theorem begin_moves {s : NodeState} (h : Linked s) (request : Request) :
    Moves s (s.begin request) (s.tracker.nextRequestId + 1) (.began request) := by
  have hFresh : s.calls.lookup (s.tracker.nextRequestId + 1) = none := by
    by_contra hSome
    obtain ⟨call, hCall⟩ := Option.ne_none_iff_exists'.mp hSome
    exact absurd (h.fresh _ call hCall) (by omega)
  refine moves_of (.begin request hFresh) ?_ ?_
  · simp only [view, begin, setCall, MessageTracker.addMessageTrack, Table.lookup_insert, if_true]
  · intro id' hNe
    simp only [view, begin, setCall, MessageTracker.addMessageTrack, Table.lookup_insert,
      if_neg hNe]

theorem setCall_moves {s : NodeState} {id : Nat} {call : Call}
    (hStep : (s.view id).Step .other { s.view id with call := some call }) :
    Moves s (s.setCall id call) id .other := by
  refine moves_of hStep ?_ ?_
  · simp only [view, setCall, Table.lookup_insert, if_true]
  · intro id' hNe
    simp only [view, setCall, Table.lookup_insert, if_neg hNe]

theorem act_moves {s s' : NodeState} {id : Nat} {call : Call}
    (hCall : s.calls.lookup id = some call)
    (h : s.act id call = some s') : Moves s s' id .other := by
  rw [act] at h
  split at h
  · next rest hTodo =>
    cases h
    refine moves_of (.setMessageCallback hCall hTodo) ?_ ?_
    · simp only [view, NodeState.setMessageCallback, setCall, Table.lookup_insert, if_true,
        Option.isSome_some]
    · intro id' hNe
      simp only [view, NodeState.setMessageCallback, setCall, Table.lookup_insert, if_neg hNe]
  · next rankId data rest hTodo =>
    cases h
    exact setCall_moves (.sendMessage hCall hTodo)
  · next fault rest hTodo =>
    cases h
    exact setCall_moves (.raise hCall hTodo)
  · cases h

theorem waited_moves {s : NodeState} {id : Nat} {call : Call} {res : Bool}
    (hCall : s.calls.lookup id = some call) (hTodo : call.todo = [.wait])
    (hRes : res = true ↔ (s.tracker.entry id).1 = (s.tracker.entry id).2) :
    Moves s ({ s with tracker := { s.tracker with
      entries := s.tracker.entries.erase id } }.setCall id
        { call with status := .waited res, todo := [] }) id (.waited res) := by
  refine moves_of (.waited hCall hTodo hRes) ?_ ?_
  · simp only [view, setCall, Table.lookup_insert, Table.lookup_erase, if_true]
  · intro id' hNe
    simp only [view, setCall, Table.lookup_insert, Table.lookup_erase, if_neg hNe]

theorem waitTurn_moves {s s' : NodeState} {id : Nat} {call : Call} {timedOut : Bool}
    (hCall : s.calls.lookup id = some call) (h : s.waitTurn id call timedOut = some s') :
    Moves s s' id .other ∨ Moves s s' id (.waited true) ∨
      timedOut = true ∧ Moves s s' id (.waited false) := by
  rw [waitTurn] at h
  split at h
  case isFalse => cases h
  case isTrue hTodo =>
    rw [MessageTracker.waitTurn] at h
    by_cases hEq : (s.tracker.entry id).1 = (s.tracker.entry id).2
    · rw [if_pos hEq] at h
      cases h
      exact .inr (.inl (waited_moves hCall hTodo ⟨fun _ => hEq, fun _ => rfl⟩))
    · rw [if_neg hEq] at h
      cases timedOut with
      | true =>
        cases h
        exact .inr (.inr ⟨rfl, waited_moves hCall hTodo (iff_of_false Bool.false_ne_true hEq)⟩)
      | false =>
        cases h
        refine .inl (moves_of (.poll hCall hTodo) ?_ ?_)
        · simp only [view, Bool.false_eq_true, if_false, Table.lookup_subscript, if_true]
          rfl
        · intro id' hNe
          simp only [view, Bool.false_eq_true, if_false, Table.lookup_subscript, if_neg hNe]

theorem processSendDataResp_ok {s s' : NodeState} {respMeta : MessageMeta} {data : Bytes}
    (h : s.processSendDataResp respMeta data = .ok s') :
    s' = { s with
      receiveMessages := s.receiveMessages.insert respMeta.requestId
        ((s.receiveMessages.getD respMeta.requestId ∅).insert respMeta.rankId data) } := by
  rw [processSendDataResp] at h
  split at h
  · cases h
  · split at h
    · next res hRes =>
      cases h
      rw [Table.getD, hRes, Option.getD_some]
    · next hRes =>
      cases h
      rw [Table.getD, hRes, Option.getD_none]

theorem respond_moves {s s' : NodeState} {id k : Nat} {call : Call}
    (hCall : s.calls.lookup id = some call) (hIdle : s.loop = .idle)
    (h : s.respond id k call = some s') :
    (∀ id', s'.view id' = s.view id') ∨ Moves s s' id .other := by
  rw [respond, Option.map_eq_some_iff] at h
  obtain ⟨⟨rankId, data⟩, hResponse, h⟩ := h
  split at h
  · -- `memcpy_s` failed and the exception ends the loop
    cases h
    left
    intro id'
    simp only [view, hIdle, Loop.phase]
  · next stored hStored =>
    cases h
    cases processSendDataResp_ok hStored
    have hPhase : (s.view id).phase = .idle := by simp only [view, hIdle, Loop.phase]
    refine .inr (moves_of (.respond hCall hPhase hResponse) ?_ ?_)
    · simp only [view, setCall, MessageMeta.response, Call.messageMeta, Table.lookup_insert,
        if_true, Loop.phase]
      rfl
    · intro id' hNe
      simp only [view, setCall, MessageMeta.response, Call.messageMeta, Table.lookup_insert,
        if_neg hNe, hIdle, Loop.phase]

theorem checkCallback_moves {s : NodeState} {id : Nat} (hLoop : s.loop = .stored id) :
    Moves s (s.checkCallback id) id .other := by
  have hPhase : (s.view id).phase = .stored := by simp only [view, hLoop, Loop.phase, if_true]
  rw [checkCallback]
  split
  · next frame hCheck hFrame =>
    have hCheck : (s.tracker.entry id).1 = (s.tracker.entry id).2 + 1 := beq_iff_eq.mp hCheck
    have hCallback : (s.view id).callback = true := by simp only [view, hFrame, Option.isSome_some]
    refine moves_of (.checkFound hPhase hCheck hCallback) ?_ ?_
    · simp only [view, MessageTracker.checkMessageTrack, Table.lookup_subscript, if_true,
        Loop.phase]
      rfl
    · intro id' hNe
      simp only [view, MessageTracker.checkMessageTrack, Table.lookup_subscript, if_neg hNe, hLoop,
        Loop.phase]
  · next hMissed =>
    have hCheck : (s.tracker.entry id).1 = (s.tracker.entry id).2 + 1 →
        (s.view id).callback = false := by
      intro hEq
      by_contra hSome
      obtain ⟨frame, hFrame⟩ := Option.isSome_iff_exists.mp (Bool.eq_true_of_not_eq_false hSome)
      exact hMissed frame (beq_iff_eq.mpr hEq) hFrame
    refine moves_of (.checkMissed hPhase hCheck) ?_ ?_
    · simp only [view, MessageTracker.checkMessageTrack, Table.lookup_subscript, if_true,
        Loop.phase]
      rfl
    · intro id' hNe
      simp only [view, MessageTracker.checkMessageTrack, Table.lookup_subscript, if_neg hNe, hLoop,
        Loop.phase]

theorem turn_moves {s s' : NodeState} (hLinked : Linked s) (h : s.turn = some s') :
    ∃ id, Moves s s' id .other := by
  rw [turn] at h
  split at h
  · next id hLoop =>
    cases h
    exact ⟨id, checkCallback_moves hLoop⟩
  · next id frame hLoop =>
    obtain rfl := hLinked.found id frame hLoop
    rw [runMessageCallback, Option.map_map, Option.map_eq_some_iff] at h
    obtain ⟨call, hCall, rfl⟩ := h
    have hPhase : (s.view frame).phase = .found := by simp only [view, hLoop, Loop.phase, if_true]
    refine ⟨frame, moves_of (.run hPhase hCall) ?_ ?_⟩
    · simp only [view, Function.comp, setCall, Table.lookup_insert, Table.lookup_erase, if_true,
        Loop.phase]
      rfl
    · intro id' hNe
      simp only [view, Function.comp, setCall, Table.lookup_insert, Table.lookup_erase,
        Table.lookup_subscript, if_neg hNe, hLoop, Loop.phase]
  · next id hLoop =>
    cases h
    have hPhase : (s.view id).phase = .ran := by simp only [view, hLoop, Loop.phase, if_true]
    refine ⟨id, moves_of (.erase hPhase) ?_ ?_⟩
    · simp only [view, Table.lookup_erase, if_true, Loop.phase, Option.isSome_none]
    · intro id' hNe
      simp only [view, Table.lookup_erase, if_neg hNe, hLoop, Loop.phase]
  · next id hLoop =>
    rw [notifyMessageArrival, Option.map_map, Option.map_eq_some_iff] at h
    obtain ⟨call, hCall, rfl⟩ := h
    have hPhase : (s.view id).phase = .checked := by simp only [view, hLoop, Loop.phase, if_true]
    refine ⟨id, moves_of (.notify hPhase hCall) ?_ ?_⟩
    · simp only [view, Function.comp, setCall, MessageTracker.notifyMessageArrival,
        Table.lookup_insert, if_true, Loop.phase]
      rfl
    · intro id' hNe
      simp only [view, Function.comp, setCall, MessageTracker.notifyMessageArrival,
        Table.lookup_insert, if_neg hNe, hLoop, Loop.phase]
  · cases h
  · cases h

theorem Linked.new : Linked .new := by
  refine ⟨?_, ?_, ?_⟩
  · intro id call hCall
    cases hCall
  · intro id frame hFrame
    cases hFrame
  · intro id frame hFound
    cases hFound

theorem Linked.keep {s s' : NodeState} (h : Linked s)
    (hNext : s'.tracker.nextRequestId = s.tracker.nextRequestId)
    (hCallbacks : s'.messageCallbacks = s.messageCallbacks)
    (hCalls : ∀ id call, s'.calls.lookup id = some call → ∃ call', s.calls.lookup id = some call')
    (hLoop : ∀ id frame, s'.loop = .found id frame → s.loop = .found id frame) : Linked s' := by
  constructor
  · intro id call hCall
    obtain ⟨call', hCall'⟩ := hCalls id call hCall
    rw [hNext]
    exact h.fresh id call' hCall'
  · rw [hCallbacks]
    exact h.frame
  · intro id frame hFound
    exact h.found id frame (hLoop id frame hFound)

theorem lookup_setCall {s : NodeState} {id : Nat} {call call' : Call}
    (hCall : s.calls.lookup id = some call') (id' : Nat) (call'' : Call)
    (h : (s.setCall id call).calls.lookup id' = some call'') :
    ∃ call', s.calls.lookup id' = some call' := by
  change AList.lookup id' (s.calls.insert id call) = _ at h
  rw [Table.lookup_insert] at h
  split at h
  · next hEq =>
    rw [hEq]
    exact ⟨call', hCall⟩
  · exact ⟨call'', h⟩

theorem begin_linked {s : NodeState} (h : Linked s) (request : Request) :
    Linked (s.begin request) := by
  refine ⟨?_, h.frame, h.found⟩
  intro id call hCall
  change AList.lookup id (s.calls.insert (s.tracker.nextRequestId + 1) _) = _ at hCall
  rw [Table.lookup_insert] at hCall
  split at hCall
  · next hEq => exact le_of_eq hEq
  · exact Nat.le_succ_of_le (h.fresh id call hCall)

theorem act_linked {s s' : NodeState} {id : Nat} {call : Call} (h : Linked s)
    (hCall : s.calls.lookup id = some call) (hAct : s.act id call = some s') : Linked s' := by
  rw [act] at hAct
  split at hAct
  · cases hAct
    refine ⟨?_, ?_, h.found⟩
    · intro id' call' hCall'
      obtain ⟨call'', hCall''⟩ := lookup_setCall hCall id' call' hCall'
      exact h.fresh id' call'' hCall''
    · intro id' frame hFrame
      change AList.lookup id' (s.messageCallbacks.insert id id) = _ at hFrame
      rw [Table.lookup_insert] at hFrame
      split at hFrame
      · next hEq =>
        cases hFrame
        exact hEq.symm
      · exact h.frame id' frame hFrame
  · cases hAct
    exact h.keep rfl rfl (lookup_setCall hCall) fun _ _ hFound => hFound
  · cases hAct
    exact h.keep rfl rfl (lookup_setCall hCall) fun _ _ hFound => hFound
  · cases hAct

theorem waitTurn_linked {s s' : NodeState} {id : Nat} {call : Call} {timedOut : Bool}
    (h : Linked s) (hCall : s.calls.lookup id = some call)
    (hWait : s.waitTurn id call timedOut = some s') : Linked s' := by
  have hNext : (s.tracker.waitTurn id timedOut).2.nextRequestId = s.tracker.nextRequestId := by
    rw [MessageTracker.waitTurn]
    split
    · rfl
    · split <;> rfl
  simp only [waitTurn] at hWait
  split at hWait
  · split at hWait
    · cases hWait
      exact h.keep hNext rfl (lookup_setCall hCall) fun _ _ hFound => hFound
    · cases hWait
      exact h.keep hNext rfl (fun _ call' hCall' => ⟨call', hCall'⟩) fun _ _ hFound => hFound
  · cases hWait

theorem respond_linked {s s' : NodeState} {id k : Nat} {call : Call} (h : Linked s)
    (hCall : s.calls.lookup id = some call) (hRespond : s.respond id k call = some s') :
    Linked s' := by
  rw [respond, Option.map_eq_some_iff] at hRespond
  obtain ⟨response, _, hEq⟩ := hRespond
  split at hEq
  · cases hEq
    exact h.keep rfl rfl (fun _ call' hCall' => ⟨call', hCall'⟩) nofun
  · next stored hStored =>
    cases hEq
    cases processSendDataResp_ok hStored
    exact h.keep rfl rfl (lookup_setCall hCall) nofun

theorem turn_linked {s s' : NodeState} (h : Linked s) (hTurn : s.turn = some s') : Linked s' := by
  rw [turn] at hTurn
  split at hTurn
  · next id hLoop =>
    cases hTurn
    rw [checkCallback]
    split
    · next frame _ hFrame =>
      refine ⟨h.fresh, h.frame, ?_⟩
      intro id' frame' hFound
      cases hFound
      exact h.frame id frame hFrame
    · exact h.keep rfl rfl (fun _ call' hCall' => ⟨call', hCall'⟩) nofun
  · next id frame hLoop =>
    rw [runMessageCallback, Option.map_map, Option.map_eq_some_iff] at hTurn
    obtain ⟨call, hCall, rfl⟩ := hTurn
    exact h.keep rfl rfl (lookup_setCall hCall) nofun
  · next id hLoop =>
    cases hTurn
    refine ⟨h.fresh, ?_, nofun⟩
    intro id' frame hFrame
    change AList.lookup id' (s.messageCallbacks.erase id) = _ at hFrame
    rw [Table.lookup_erase] at hFrame
    split at hFrame
    · cases hFrame
    · exact h.frame id' frame hFrame
  · next id hLoop =>
    rw [notifyMessageArrival, Option.map_map, Option.map_eq_some_iff] at hTurn
    obtain ⟨call, hCall, rfl⟩ := hTurn
    exact h.keep rfl rfl (lookup_setCall hCall) nofun
  · cases hTurn
  · cases hTurn

end NodeState

/-- A `Wait` ends without success only when its time is over, and a slot begins with the request
of the call. -/
def Label.Explains (l : Label) (id : Nat) : SlotEvent → Prop
  | .began request => ∃ view invocation,
      l = .call view invocation ∧ invocation.request view = .ok request
  | .waited res => res = false → l = .waitTurn id true
  | .other => True

namespace NodeState

/-- A step of the node is a step of one slot, or it does not show in any slot. -/
theorem step_view {s s' : NodeState} {l : Label} (hLinked : Linked s) (h : s.step l = some s') :
    Linked s' ∧ ((∀ id, s'.view id = s.view id) ∨
      ∃ id event, l.Explains id event ∧ Moves s s' id event) := by
  cases l with
  | call view invocation =>
    rw [step] at h
    split at h
    · cases h
      exact ⟨hLinked, .inl fun _ => rfl⟩
    · next request hRequest =>
      cases h
      refine ⟨begin_linked hLinked request, .inr ⟨_, _, ?_, begin_moves hLinked request⟩⟩
      exact ⟨view, invocation, rfl, hRequest⟩
  | act id =>
    obtain ⟨call, hCall, h⟩ := Option.bind_eq_some_iff.mp h
    exact ⟨act_linked hLinked hCall h, .inr ⟨id, .other, trivial, act_moves hCall h⟩⟩
  | waitTurn id timedOut =>
    obtain ⟨call, hCall, h⟩ := Option.bind_eq_some_iff.mp h
    refine ⟨waitTurn_linked hLinked hCall h, .inr ⟨id, ?_⟩⟩
    rcases waitTurn_moves hCall h with hMoves | hMoves | ⟨rfl, hMoves⟩
    · exact ⟨.other, trivial, hMoves⟩
    · exact ⟨.waited true, nofun, hMoves⟩
    · exact ⟨.waited false, fun _ => rfl, hMoves⟩
  | returns id =>
    obtain ⟨call, hCall, h⟩ := Option.bind_eq_some_iff.mp h
    obtain ⟨call', hFinish, rfl⟩ := Option.map_eq_some_iff.mp h
    refine ⟨hLinked.keep rfl rfl (lookup_setCall hCall) fun _ _ hFound => hFound,
      .inr ⟨id, .other, trivial, ?_⟩⟩
    exact setCall_moves (.finish hCall hFinish)
  | answer id k data =>
    obtain ⟨call, hCall, h⟩ := Option.bind_eq_some_iff.mp h
    obtain ⟨call', hAnswer, rfl⟩ := Option.map_eq_some_iff.mp h
    refine ⟨hLinked.keep rfl rfl (lookup_setCall hCall) fun _ _ hFound => hFound,
      .inr ⟨id, .other, trivial, ?_⟩⟩
    exact setCall_moves (.answer hCall hAnswer)
  | respond id k =>
    rw [step] at h
    split at h
    · next hIdle =>
      obtain ⟨call, hCall, h⟩ := Option.bind_eq_some_iff.mp h
      refine ⟨respond_linked hLinked hCall h, ?_⟩
      rcases respond_moves hCall hIdle h with hSame | hMoves
      · exact .inl hSame
      · exact .inr ⟨id, .other, trivial, hMoves⟩
    · cases h
  | loop =>
    obtain ⟨id, hMoves⟩ := turn_moves hLinked h
    exact ⟨turn_linked hLinked h, .inr ⟨id, .other, trivial, hMoves⟩⟩

theorem exec_linked {labels : List Label} {s : NodeState} (hRun : exec step .new labels = some s) :
    Linked s :=
  exec_invariant (fun _ _ _ hLinked hStep => (step_view hLinked hStep).1) .new hRun

/-- What holds for an empty slot and is kept by the steps that a slot makes in a run holds for
every slot of the node. The steps of the run meet the condition `ok`. -/
theorem exec_slots {ok : NodeState → Label → Prop} [∀ s l, Decidable (ok s l)] {P : Slot → Prop}
    (hNew : P .new)
    (hStep : ∀ s l id event slot, ok s l → l.Explains id event → P (s.view id) →
      (s.view id).Step event slot → P slot)
    {labels : List Label} {s : NodeState} (hRun : exec (restrict ok step) .new labels = some s)
    (id : Nat) : P (s.view id) := by
  have hInit : Linked .new ∧ ∀ id, P (NodeState.new.view id) := ⟨.new, fun _ => hNew⟩
  refine (exec_invariant (P := fun s => Linked s ∧ ∀ id, P (s.view id)) ?_ hInit hRun).2 id
  rintro s l s' ⟨hLinked, hP⟩ h
  obtain ⟨hOk, h⟩ := restrict_eq_some.mp h
  obtain ⟨hLinked', hView⟩ := step_view hLinked h
  refine ⟨hLinked', ?_⟩
  intro id
  rcases hView with hSame | ⟨id', event, hExplains, hOthers, hMove⟩
  · rw [hSame]
    exact hP id
  · by_cases hId : id = id'
    · subst hId
      exact hStep s l id event _ hOk hExplains (hP id) hMove
    · rw [hOthers id hId]
      exact hP id

theorem exec_slots_all {P : Slot → Prop} (hNew : P .new)
    (hStep : ∀ slot event slot', P slot → slot.Step event slot' → P slot') {labels : List Label}
    {s : NodeState} (hRun : exec step .new labels = some s) (id : Nat) : P (s.view id) := by
  rw [← restrict_true step] at hRun
  exact exec_slots hNew (fun s _ id event slot _ _ => hStep (s.view id) event slot) hRun id

end NodeState

end PsRpc
