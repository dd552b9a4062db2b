import PsRpc.Node.CallbackLifetime
import PsRpc.Node.Matching

/-! # The output of a `Send`, with the stack frames of the callers

The closure of a `Send` captures `request_id`, `output` and `size` by reference. When it runs after
its call has returned, their places on the stack may hold the variables of a later call of the same
overload: then it takes the responses of the later call and writes to its output.
-/

namespace PsRpc

open Execution

/-- `returnedAt` has, for each call that has returned, the last request id in use at that time. The
calls of one thread follow one another, so a later call in the same place has a greater id. -/
structure StackNode where
  node : NodeState
  returnedAt : Table Nat Nat

/-- `runReused later`: the event loop runs the closure that it has found, with the variables of the
call `later`. -/
inductive StackLabel where
  | node (label : Label)
  | runReused (later : Nat)

def Call.isReturned (call : Call) : Bool :=
  match call.status with
  | .returned _ => true
  | _ => false

namespace StackNode

def new : StackNode := ⟨.new, ∅⟩

def noteReturn (s : StackNode) : Label → Table Nat Nat
  | .returns id => s.returnedAt.insert id s.node.tracker.nextRequestId
  | _ => s.returnedAt

/-- The variables of `later` can be where those of `frame` were. -/
def reuses (s : StackNode) (frame later : Nat) : Bool :=
  match s.returnedAt.lookup frame, s.node.calls.lookup frame, s.node.calls.lookup later with
  | some last, some old, some new =>
    last < later && old.isReturned && decide (old.request.closure = new.request.closure)
  | _, _, _ => false

def runReused (s : StackNode) (later : Nat) : Option StackNode :=
  match s.node.loop with
  | .found id frame =>
    if s.reuses frame later then
      (s.node.runMessageCallback later).map fun node =>
        { s with node := { node with loop := .ran id } }
    else none
  | _ => none

def step (s : StackNode) : StackLabel → Option StackNode
  | .node label => (s.node.step label).map fun node => ⟨node, s.noteReturn label⟩
  | .runReused later => s.runReused later

def timely (s : StackNode) : StackLabel → Bool
  | .node label => s.node.timely label
  | .runReused _ => true

theorem returned_of_reuses {s : StackNode} {frame later : Nat} (h : s.reuses frame later = true) :
    ∃ call, s.node.calls.lookup frame = some call ∧ call.isReturned = true := by
  rw [reuses] at h
  split at h
  · next last old new _ hOld _ =>
    rw [Bool.and_eq_true, Bool.and_eq_true] at h
    exact ⟨old, hOld, h.1.2⟩
  · cases h

/-- In a timely run no closure finds the variables of another call. -/
theorem exec_timely {labels : List StackLabel} {s : StackNode}
    (hRun : exec (restrict (fun s l => s.timely l = true) step) .new labels = some s) :
    ∃ labels', exec (restrict (fun s l => s.timely l = true) NodeState.step) .new labels' =
      some s.node := by
  refine exec_invariant (P := fun s => ∃ labels', exec (restrict (fun s l => s.timely l = true)
    NodeState.step) .new labels' = some s.node) ?_ ⟨[], rfl⟩ hRun
  rintro s label s' ⟨labels', hNode⟩ hStep
  obtain ⟨hTimely, hStep⟩ := restrict_eq_some.mp hStep
  cases label with
  | node label =>
    obtain ⟨node, hNext, rfl⟩ := Option.map_eq_some_iff.mp hStep
    exact ⟨labels' ++ [label],
      exec_snoc.mpr ⟨s.node, hNode, restrict_eq_some.mpr ⟨hTimely, hNext⟩⟩⟩
  | runReused later =>
    rw [step, runReused] at hStep
    split at hStep
    · next id frame hFound =>
      split at hStep
      · next hReuses =>
        obtain ⟨call, hCall, hStatus⟩ := NodeState.running_of_found hNode hFound
        obtain ⟨old, hOld, hReturned⟩ := returned_of_reuses hReuses
        cases hCall.symm.trans hOld
        rw [Call.isReturned, hStatus] at hReturned
        cases hReturned
      · cases hStep
    · cases hStep

end StackNode

/-- In every timely run, when `Wait` of a `Send` with an output and distinct rank ids has returned
true, the message to the `i`-th rank id has been answered, for each `i`, and its answer is the
`i`-th entry of the output (after what the output held before, in the form that extends it). -/
theorem send_output_matches (labels : List StackLabel) (s : StackNode)
    (hRun : exec (restrict (fun s l => s.timely l = true) StackNode.step) .new labels = some s)
    (id : Nat) (call : Call) (hCall : s.node.calls.lookup id = some call) (closure : Closure)
    (hClosure : call.request.closure = some closure) (hNodup : call.request.rankIds.Nodup)
    (hTrue : call.status = .waited true ∨ call.status = .returned true) :
    ∃ answers : List Bytes, call.sent.map (·.rankId) = call.request.rankIds ∧
      call.sent.map (·.reply) = answers.map .handled ∧
      call.output = closure.outcome call.request.initial (answers.map some) := by
  obtain ⟨labels', hNode⟩ := StackNode.exec_timely hRun
  exact NodeState.output_of_waited (exec_of_exec_restrict hNode) hCall hClosure hNodup hTrue

def twoSends : List StackLabel :=
  [.call twoServers (.sendManyForOutput .server [0, 1] [some [1], some [2]] [1, 1] 5 (some [])),
    .call twoServers (.sendForOutput .server 1 (some [3]) 1 6 (some none)),
    .act 1, .act 2, .act 2, .act 1, .act 1, .answer 2 0 [30], .answer 1 1 [20], .respond 1 1, .loop,
    .waitTurn 1 false, .loop, .respond 2 0, .loop, .answer 1 0 [10], .loop, .loop, .loop,
    .respond 1 0, .waitTurn 2 false, .loop, .loop, .loop, .loop, .waitTurn 1 false,
    .returns 1].map .node

theorem send_output_matches_two_sends :
    ∃ (s : StackNode) (call : Call) (answers : List Bytes),
      exec (restrict (fun s l => s.timely l = true) StackNode.step) .new twoSends = some s ∧
      s.node.calls.lookup 1 = some call ∧ call.status = .returned true ∧
      call.sent.map (·.rankId) = [0, 1] ∧ call.sent.map (·.reply) = answers.map .handled ∧
      call.output = answers.map some := by
  obtain ⟨s, call, hRun, hCall, hStatus, hClosure, hRankIds, hInitial⟩ : ∃ s call,
      exec (restrict (fun s l => s.timely l = true) StackNode.step) .new twoSends = some s ∧
      s.node.calls.lookup 1 = some call ∧ call.status = .returned true ∧
      call.request.closure = some .extend ∧ call.request.rankIds = [0, 1] ∧
      call.request.initial = [] :=
    ⟨_, _, rfl, rfl, rfl, rfl, rfl, rfl⟩
  obtain ⟨answers, hSent, hReplies, hOutput⟩ :=
    send_output_matches twoSends s hRun 1 call hCall .extend hClosure
      (by rw [hRankIds]; decide) (.inr hStatus)
  rw [hRankIds] at hSent
  rw [hInitial] at hOutput
  exact ⟨s, call, answers, hRun, hCall, hStatus, hSent, hReplies, hOutput⟩

/-- Two calls for the rank id 0, one after the other on one thread. The first one times out after
`CheckMessageTrack`, and its closure runs when the second one has its place on the stack. -/
def lateClosure : List StackLabel :=
  ([.call twoServers (.sendManyForOutput .server [0] [some [1]] [1] 5 (some [])), .act 1, .act 1,
    .answer 1 0 [10], .respond 1 0, .loop, .waitTurn 1 true, .returns 1,
    .call twoServers (.sendManyForOutput .server [0] [some [2]] [1] 5 (some [])), .act 2,
    .act 2].map .node ++ [.runReused 2]) ++
  [.loop, .loop, .answer 2 0 [20], .respond 2 0, .loop, .loop, .loop, .loop, .waitTurn 2 false,
    .returns 2].map .node

/-- The second call returns true, with two entries in the output for its only rank id. -/
theorem late_closure_extends_output :
    ∃ s call, exec StackNode.step .new lateClosure = some s ∧
      s.node.calls.lookup 2 = some call ∧ call.status = .returned true ∧
      call.request.closure = some .extend ∧ call.request.rankIds = [0] ∧
      call.request.initial = [] ∧ call.output = [none, some [20]] :=
  ⟨_, _, rfl, rfl, rfl, rfl, rfl, rfl, rfl⟩

end PsRpc
