import PsRpc.Node.SlotInvariant

/-! # A `Send` that is rejected for its arguments

The overloads of `Send` with one rank id check their arguments before they touch the shared state
of the node. The two with several rank ids call `AddMessageTrack` first and check the rank ids
one by one while they send, so whenever such a call is rejected the tracker has a new entry.
-/

namespace PsRpc

open Execution

/-- The arguments of the two overloads with several rank ids. The pointer `output` is there in
the second one only, and it can be null. -/
structure MultiSend where
  nodeRole : NodeRole
  rankIds : List UInt32
  data : List DataPtr
  lens : List Nat
  command : Int
  output : Option (Option (List VectorPtr))

def MultiSend.invocation (args : MultiSend) : Invocation :=
  match args.output with
  | none => .sendMany args.nodeRole args.rankIds args.data args.lens args.command
  | some output =>
    .sendManyForOutput args.nodeRole args.rankIds args.data args.lens args.command output

/-- The loop over the rank ids comes to a rank id that `ValidateRankId` refuses, that has no
length in the list or that has no known address. Before it, a failed `Init` and a null pointer
among the data end the loop as well, but not because of these arguments. -/
def RejectsRank (view : NodeView) (nodeRole : NodeRole) :
    List UInt32 → List DataPtr → List Nat → Prop
  | [], _, _ => False
  | rankId :: rankIds, send :: data, _ :: lens =>
    validateRankId view.config nodeRole rankId = false ∨ rankId ∉ view.nodesAddress ∨
      view.initFault rankId = none ∧ send ≠ none ∧ RejectsRank view nodeRole rankIds data lens
  | _ :: _, _, _ => True

def MultiSend.Rejected (view : NodeView) (args : MultiSend) : Prop :=
  args.rankIds.length ≠ args.data.length ∨
    RejectsRank view args.nodeRole args.rankIds args.data args.lens

/-- A call that is alone on the node and raises: the state that it leaves and the messages that
it has handed to clients by then. -/
inductive Raises (s : NodeState) (view : NodeView) (invocation : Invocation) :
    NodeState → List Message → Prop where
  | early {fault : Fault} (hRequest : invocation.request view = .error fault) :
      Raises s view invocation s []
  | late {turns : Nat} {s' : NodeState} {call : Call} {fault : Fault}
      (hRun : exec NodeState.step s (.call view invocation ::
        List.replicate turns (.act (s.tracker.nextRequestId + 1))) = some s')
      (hCall : s'.calls.lookup (s.tracker.nextRequestId + 1) = some call)
      (hRaised : call.status = .raised fault) :
      Raises s view invocation s' call.sent

/-! ## The script of a rejected call -/

def Action.Proceeds : Action → Prop
  | .setMessageCallback | .sendMessage _ _ => True
  | .raise _ | .wait => False

def EndsRaising (script : List Action) : Prop :=
  ∃ actions fault, script = actions ++ [.raise fault] ∧ ∀ action ∈ actions, action.Proceeds

theorem EndsRaising.raise (fault : Fault) : EndsRaising [.raise fault] :=
  ⟨[], fault, rfl, by simp⟩

theorem EndsRaising.cons {action : Action} {script : List Action} (hAction : action.Proceeds)
    (h : EndsRaising script) : EndsRaising (action :: script) := by
  obtain ⟨actions, fault, rfl, hActions⟩ := h
  exact ⟨action :: actions, fault, rfl, List.forall_mem_cons.mpr ⟨hAction, hActions⟩⟩

theorem endsRaising_sendTo {view : NodeView} {rankId : UInt32} {send : DataPtr} (len : Nat)
    {rest : List Action}
    (h : rankId ∉ view.nodesAddress ∨
      view.initFault rankId = none ∧ send ≠ none ∧ EndsRaising rest) :
    EndsRaising (sendTo view rankId send len rest) := by
  rw [sendTo, getOrCreateTcpClient]
  by_cases hKnown : rankId ∈ view.nodesAddress
  · obtain ⟨hInit, hSend, hRest⟩ := h.resolve_left (not_not.mpr hKnown)
    obtain ⟨bytes, rfl⟩ := Option.ne_none_iff_exists'.mp hSend
    rw [if_pos hKnown, hInit]
    exact hRest.cons trivial
  · rw [if_neg hKnown]
    exact .raise _

theorem endsRaising_sendEach {view : NodeView} {nodeRole : NodeRole} (rankIds : List UInt32)
    (data : List DataPtr) (lens : List Nat) (h : RejectsRank view nodeRole rankIds data lens) :
    EndsRaising (sendEach view nodeRole rankIds data lens) := by
  induction rankIds generalizing data lens with
  | nil => exact absurd h id
  | cons rankId rankIds ih =>
    unfold sendEach
    split
    · next hValid =>
      split
      · next send data len lens =>
        have hRest : rankId ∉ view.nodesAddress ∨ view.initFault rankId = none ∧ send ≠ none ∧
            RejectsRank view nodeRole rankIds data lens :=
          h.resolve_left (by rw [hValid]; exact Bool.noConfusion)
        exact endsRaising_sendTo len (hRest.imp_right fun hNext =>
          ⟨hNext.1, hNext.2.1, ih data lens hNext.2.2⟩)
      · exact .raise _
    · exact .raise _

theorem MultiSend.Rejected.plan {view : NodeView} {args : MultiSend} (h : args.Rejected view)
    (hOutput : args.output ≠ some none) :
    ∃ plan, args.invocation.plan view = .ok plan ∧ EndsRaising plan.script := by
  have hScript (fault : Fault) {body : List Action}
      (hBody : RejectsRank view args.nodeRole args.rankIds args.data args.lens →
        EndsRaising body) :
      EndsRaising (if args.rankIds.length ≠ args.data.length then [.raise fault] else body) := by
    split
    · exact .raise fault
    · next hLength => exact hBody (h.resolve_left hLength)
  have hEach := @endsRaising_sendEach view args.nodeRole args.rankIds args.data args.lens
  rw [MultiSend.invocation]
  split
  · exact ⟨_, rfl, hScript _ hEach⟩
  · next output hSome =>
    obtain ⟨initial, rfl⟩ : ∃ initial, output = some initial :=
      Option.ne_none_iff_exists'.mp fun hNull => hOutput (by rw [hSome, hNull])
    exact ⟨_, rfl, hScript _ fun hRank => (hEach hRank).cons trivial⟩

theorem Invocation.request_of_plan {view : NodeView} {invocation : Invocation} {plan : Plan}
    (h : invocation.plan view = .ok plan) :
    ∃ request, invocation.request view = .ok request ∧ request.script = plan.script := by
  refine ⟨⟨plan, plan_shaped h⟩, ?_, rfl⟩
  unfold Invocation.request
  split
  · next hError =>
    rw [h] at hError
    cases hError
  · next other hOther =>
    rw [h] at hOther
    cases hOther
    rfl

theorem Invocation.request_of_error {view : NodeView} {invocation : Invocation} {fault : Fault}
    (h : invocation.plan view = .error fault) : invocation.request view = .error fault := by
  unfold Invocation.request
  split
  · next hError =>
    rw [h] at hError
    cases hError
    rfl
  · next hOther =>
    rw [h] at hOther
    cases hOther

/-! ## Its run -/

namespace NodeState

theorem act_proceeds {s : NodeState} {id : Nat} {call : Call} {action : Action}
    {rest : List Action} (hTodo : call.todo = action :: rest) (hAction : action.Proceeds) :
    ∃ next call', s.act id call = some next ∧ next.tracker = s.tracker ∧
      next.calls.lookup id = some call' ∧ call'.todo = rest := by
  have hSet (s : NodeState) (call : Call) : (s.setCall id call).calls.lookup id = some call :=
    (Table.lookup_insert ..).trans (if_pos rfl)
  cases action with
  | setMessageCallback =>
    exact ⟨(s.setMessageCallback id).setCall id { call with todo := rest }, _,
      by rw [act, hTodo], rfl, hSet _ _, rfl⟩
  | sendMessage rankId data =>
    exact ⟨s.setCall id { call with
      sent := call.sent ++ [⟨rankId, data, .pending⟩], todo := rest }, _,
      by rw [act, hTodo], rfl, hSet _ _, rfl⟩
  | raise => exact hAction.elim
  | wait => exact hAction.elim

/-- A call that goes through its actions to an exception leaves the tracker as it was after
`AddMessageTrack`. -/
theorem exec_raising {id : Nat} {fault : Fault} (actions : List Action) (s : NodeState)
    (call : Call) (hCall : s.calls.lookup id = some call)
    (hTodo : call.todo = actions ++ [.raise fault])
    (hActions : ∀ action ∈ actions, action.Proceeds) :
    ∃ s' call', exec step s (List.replicate (actions.length + 1) (.act id)) = some s' ∧
      s'.tracker = s.tracker ∧ s'.calls.lookup id = some call' ∧
      call'.status = .raised fault := by
  induction actions generalizing s call with
  | nil =>
    refine ⟨s.setCall id { call with status := .raised fault, todo := [] }, _, ?_, rfl,
      by rw [setCall, Table.lookup_insert, if_pos rfl], rfl⟩
    simp only [List.length_nil, List.replicate, exec, step, hCall, Option.bind_some, act, hTodo,
      List.nil_append]
  | cons action actions ih =>
    obtain ⟨hAction, hRest⟩ := List.forall_mem_cons.mp hActions
    obtain ⟨next, call₁, hAct, hTracker, hCall₁, hTodo₁⟩ :=
      act_proceeds (s := s) (hTodo.trans (List.cons_append ..)) hAction
    obtain ⟨s', call', hRun, hTracker', hCall', hStatus⟩ := ih next call₁ hCall₁ hTodo₁ hRest
    refine ⟨s', call', ?_, hTracker'.trans hTracker, hCall', hStatus⟩
    rw [List.length_cons, List.replicate_succ, exec, step, hCall, Option.bind_some, hAct,
      Option.bind_some, hRun]

theorem raises_late {s : NodeState} {view : NodeView} {invocation : Invocation} {plan : Plan}
    (hPlan : invocation.plan view = .ok plan) (hScript : EndsRaising plan.script) :
    ∃ s' sent, Raises s view invocation s' sent ∧
      (s'.tracker.entries.lookup (s.tracker.nextRequestId + 1)).isSome := by
  obtain ⟨request, hRequest, hEq⟩ := Invocation.request_of_plan hPlan
  obtain ⟨actions, fault, hActions, hProceed⟩ := hScript
  have hCall : (s.begin request).calls.lookup (s.tracker.nextRequestId + 1) =
      some (.new request) := (Table.lookup_insert ..).trans (if_pos rfl)
  obtain ⟨s', call, hRun, hTracker, hCall', hStatus⟩ :=
    exec_raising actions (s.begin request) _ hCall (hEq.trans hActions) hProceed
  have hWhole : exec step s (.call view invocation ::
      List.replicate (actions.length + 1) (.act (s.tracker.nextRequestId + 1))) = some s' := by
    rw [exec, step, hRequest]
    exact hRun
  refine ⟨s', call.sent, .late hWhole hCall' hStatus, ?_⟩
  rw [hTracker]
  exact Option.isSome_of_eq_some ((Table.lookup_insert ..).trans (if_pos rfl))

theorem lookup_fresh {labels : List Label} {s : NodeState} (hRun : exec step .new labels = some s) :
    s.tracker.entries.lookup (s.tracker.nextRequestId + 1) = none := by
  have hRegular : (s.view (s.tracker.nextRequestId + 1)).Regular :=
    exec_slots_all .new (fun _ _ _ h hStep => h.step hStep) hRun _
  have hCall : (s.view (s.tracker.nextRequestId + 1)).call = none := by
    by_contra hSome
    obtain ⟨call, hCall⟩ := Option.ne_none_iff_exists'.mp hSome
    exact absurd ((exec_linked hRun).fresh _ call hCall) (by omega)
  exact congrArg Slot.track (hRegular.empty hCall)

theorem raises_early {s s' : NodeState} {view : NodeView} {invocation : Invocation}
    {fault : Fault} {sent : List Message} (hLinked : Linked s)
    (hPlan : invocation.plan view = .error fault) (h : Raises s view invocation s' sent) :
    s' = s ∧ sent = [] := by
  have hNoCall : s.calls.lookup (s.tracker.nextRequestId + 1) = none := by
    by_contra hSome
    obtain ⟨call, hCall⟩ := Option.ne_none_iff_exists'.mp hSome
    exact absurd (hLinked.fresh _ call hCall) (by omega)
  cases h with
  | early => exact ⟨rfl, rfl⟩
  | @late turns _ call _ hRun hCall =>
    rw [exec, step, Invocation.request_of_error hPlan] at hRun
    change exec step s _ = some s' at hRun
    cases turns with
    | zero =>
      obtain rfl := Option.some.inj hRun
      rw [hNoCall] at hCall
      cases hCall
    | succ turns =>
      rw [List.replicate_succ, exec, step, hNoCall] at hRun
      cases hRun

end NodeState

/-- In every state of the node, a rejected call with several rank ids changes nothing exactly if
its output pointer is null: then it raises before `AddMessageTrack`. Calls that are not rejected
are the other case. -/
theorem rejected_send_unchanged_iff (labels : List Label) (s : NodeState)
    (hRun : exec NodeState.step .new labels = some s) (view : NodeView) (args : MultiSend) :
    (∀ s' sent, Raises s view args.invocation s' sent → args.Rejected view →
      s'.tracker.entries = s.tracker.entries ∧ s'.messageCallbacks = s.messageCallbacks ∧
        sent = []) ↔
    ¬ args.Rejected view ∨ args.output = some none := by
  have hLinked := NodeState.exec_linked hRun
  constructor
  · intro hUnchanged
    by_contra hNot
    obtain ⟨hRejected, hOutput⟩ := not_or.mp hNot
    obtain ⟨plan, hPlan, hScript⟩ := (not_not.mp hRejected).plan hOutput
    obtain ⟨s', sent, hRaises, hEntry⟩ := NodeState.raises_late (s := s) hPlan hScript
    have hEntries := (hUnchanged s' sent hRaises (not_not.mp hRejected)).1
    rw [hEntries, NodeState.lookup_fresh hRun] at hEntry
    cases hEntry
  · rintro (hAccepted | hNull) s' sent hRaises hRejected
    · exact absurd hRejected hAccepted
    · obtain ⟨fault, hPlan⟩ : ∃ fault, args.invocation.plan view = .error fault := by
        rw [MultiSend.invocation, hNull]
        exact ⟨_, rfl⟩
      obtain ⟨rfl, rfl⟩ := NodeState.raises_early hLinked hPlan hRaises
      exact ⟨rfl, rfl, rfl⟩

def secondIllegal : MultiSend where
  nodeRole := .server
  rankIds := [0, 5]
  data := [some [1], some [2]]
  lens := [1, 1]
  command := 7
  output := some (some [])

theorem secondIllegal_rejected : secondIllegal.Rejected twoServers :=
  .inr (.inr (.inr ⟨rfl, by simp, .inl rfl⟩))

/-- The exception comes when the tracker has its entry, the closure is registered and the first
message has gone to the server 0. -/
theorem rejected_send_leaves_traces :
    ¬ ∀ s' sent, Raises .new twoServers secondIllegal.invocation s' sent →
      secondIllegal.Rejected twoServers →
      s'.tracker.entries = NodeState.new.tracker.entries ∧
        s'.messageCallbacks = NodeState.new.messageCallbacks ∧ sent = [] := by
  intro h
  obtain ⟨s', call, hRun, hCall, hRaised, hSent⟩ : ∃ s' call,
      exec NodeState.step .new (.call twoServers secondIllegal.invocation ::
        List.replicate 3 (.act 1)) = some s' ∧
      s'.calls.lookup 1 = some call ∧ call.status = .raised illegalRank ∧
      call.sent = [⟨0, [1], .pending⟩] :=
    ⟨_, _, rfl, rfl, rfl, rfl⟩
  have hEmpty := (h s' call.sent (.late hRun hCall hRaised) secondIllegal_rejected).2.2
  rw [hSent] at hEmpty
  cases hEmpty

theorem rejected_send_unchanged_iff_second_illegal :
    (∀ s' sent, Raises .new twoServers secondIllegal.invocation s' sent →
      secondIllegal.Rejected twoServers →
      s'.tracker.entries = NodeState.new.tracker.entries ∧
        s'.messageCallbacks = NodeState.new.messageCallbacks ∧ sent = []) ↔
    ¬ secondIllegal.Rejected twoServers ∨ secondIllegal.output = some none :=
  rejected_send_unchanged_iff [] .new rfl twoServers secondIllegal

end PsRpc
