import PsRpc.Cluster.Meta

/-! # `Send` and `Broadcast` as lists of actions

After `AddMessageTrack`, each of the four `Send` overloads and `Broadcast` goes through a fixed
list of actions on the shared state of the node. The functions below compute, from the arguments
of a call and from what the node knows of its peers, the number given to `AddMessageTrack` and
this list; what a call raises before `AddMessageTrack` is the error of the result.
-/

namespace PsRpc

abbrev DataPtr := Option Bytes

abbrev VectorPtr := Option Bytes

/-- What a call reads of the node. The keys of `nodes_address_` are pairs of `SERVER` and a rank
id, which was a non-negative `int32` in the message of the scheduler; `nodesAddress` lists the
rank ids in the order of the map, and `initFault` is what `Init` of the client to one raises. -/
structure NodeView where
  config : ClusterConfig
  role : NodeRole
  rankId : UInt32
  nodesAddress : List UInt32
  sorted : nodesAddress.Pairwise (· < ·)
  rank_lt : ∀ rankId ∈ nodesAddress, rankId.toNat < 2 ^ 31
  initFault : UInt32 → Option Fault

def getOrCreateTcpClient (view : NodeView) (rankId : UInt32) : Except Fault Unit :=
  if rankId ∈ view.nodesAddress then
    match view.initFault rankId with
    | none => .ok ()
    | some fault => .error fault
  else .error (.exception "Worker node Fetch servers failed!")

inductive Action where
  | setMessageCallback
  | sendMessage (rankId : UInt32) (data : Bytes)
  | raise (fault : Fault)
  | wait
deriving DecidableEq, Repr

/-- Which of the two closures a call registers: `*output = res[rank_id]` or the loop with
`(*output).push_back(res[rank_ids.at(it)])`. -/
inductive Closure where
  | set
  | extend
deriving DecidableEq, Repr

/-- `expected` is the argument of `AddMessageTrack` before it is converted to a `uint32_t`, and
`initial` is `*output` before the call, one pointer for the single form. -/
structure Plan where
  view : NodeView
  command : Int
  rankIds : List UInt32
  expected : Nat
  closure : Option Closure
  initial : List VectorPtr
  script : List Action

def illegalRank : Fault := .exception "The node role or rank_id is illegal!"

/-- `GetOrCreateTcpClient`, then `SendMessage` of the client, then the rest of the call. -/
def sendTo (view : NodeView) (rankId : UInt32) (data : DataPtr) (len : Nat)
    (rest : List Action) : List Action :=
  match getOrCreateTcpClient view rankId with
  | .error fault => [.raise fault]
  | .ok () =>
    match exceptionIfNull "data" data with
    | .error fault => [.raise fault]
    | .ok bytes => .sendMessage rankId (bytes.take len) :: rest

/-- The loop of the two overloads with several rank ids, and `Wait` after it. -/
def sendEach (view : NodeView) (nodeRole : NodeRole) :
    List UInt32 → List DataPtr → List Nat → List Action
  | [], _, _ => [.wait]
  | rankId :: rankIds, data, lens =>
    if validateRankId view.config nodeRole rankId then
      match data, lens with
      | send :: data, len :: lens =>
        sendTo view rankId send len (sendEach view nodeRole rankIds data lens)
      | _, _ => [.raise (.exception "std::out_of_range")]
    else [.raise illegalRank]

/-- The loop of `Broadcast`, and `Wait` after it. -/
def broadcastEach (view : NodeView) (message : DataPtr) (size : Nat) : List UInt32 → List Action
  | [] => [.wait]
  | rankId :: rankIds => sendTo view rankId message size (broadcastEach view message size rankIds)

/-- `Send(node_role, rank_id, data, len, command)`. The client is looked up before
`SendMessageSync` calls `AddMessageTrack`. -/
def send (view : NodeView) (nodeRole : NodeRole) (rankId : UInt32) (data : DataPtr) (len : Nat)
    (command : Int) : Except Fault Plan := do
  let bytes ← exceptionIfNull "data" data
  if validateRankId view.config nodeRole rankId then
    getOrCreateTcpClient view rankId
    .ok ⟨view, command, [rankId], 1, none, [], [.sendMessage rankId (bytes.take len), .wait]⟩
  else .error illegalRank

/-- `Send(node_role, rank_ids, data, lens, command)`. -/
def sendMany (view : NodeView) (nodeRole : NodeRole) (rankIds : List UInt32)
    (data : List DataPtr) (lens : List Nat) (command : Int) : Except Fault Plan :=
  .ok ⟨view, command, rankIds, data.length, none, [],
    if rankIds.length ≠ data.length then
      [.raise (.exception "The number of rank ids is not equal to the number of data!")]
    else sendEach view nodeRole rankIds data lens⟩

/-- `Send(node_role, rank_id, message, len, command, output)`. -/
def sendForOutput (view : NodeView) (nodeRole : NodeRole) (rankId : UInt32) (message : DataPtr)
    (len : Nat) (command : Int) (output : Option VectorPtr) : Except Fault Plan := do
  let _ ← exceptionIfNull "message" message
  let initial ← exceptionIfNull "output" output
  if validateRankId view.config nodeRole rankId then
    .ok ⟨view, command, [rankId], 1, some .set, [initial],
      .setMessageCallback :: sendTo view rankId message len [.wait]⟩
  else .error illegalRank

/-- `Send(node_role, rank_ids, data, data_lens, command, output)`. -/
def sendManyForOutput (view : NodeView) (nodeRole : NodeRole) (rankIds : List UInt32)
    (data : List DataPtr) (dataLens : List Nat) (command : Int)
    (output : Option (List VectorPtr)) : Except Fault Plan := do
  let initial ← exceptionIfNull "output" output
  .ok ⟨view, command, rankIds, data.length, some .extend, initial,
    if rankIds.length ≠ data.length then
      [.raise (.exception "The number of rank ids, data, comm_message_resp should be equal!")]
    else .setMessageCallback :: sendEach view nodeRole rankIds data dataLens⟩

def broadcast (view : NodeView) (nodeRole : NodeRole) (message : DataPtr) (size : Nat)
    (command : Int) : Except Fault Plan := do
  let _ ← exceptionIfNull "message" message
  if nodeRole ≠ .server then
    .error (.exception "Currently only supports broadcast to server nodes")
  else .ok ⟨view, command, view.nodesAddress, view.nodesAddress.length, none, [],
    broadcastEach view message size view.nodesAddress⟩

inductive Invocation where
  | send (nodeRole : NodeRole) (rankId : UInt32) (data : DataPtr) (len : Nat) (command : Int)
  | sendMany (nodeRole : NodeRole) (rankIds : List UInt32) (data : List DataPtr)
      (lens : List Nat) (command : Int)
  | sendForOutput (nodeRole : NodeRole) (rankId : UInt32) (message : DataPtr) (len : Nat)
      (command : Int) (output : Option VectorPtr)
  | sendManyForOutput (nodeRole : NodeRole) (rankIds : List UInt32) (data : List DataPtr)
      (dataLens : List Nat) (command : Int) (output : Option (List VectorPtr))
  | broadcast (nodeRole : NodeRole) (message : DataPtr) (size : Nat) (command : Int)

def Invocation.plan (view : NodeView) : Invocation → Except Fault Plan
  | .send nodeRole rankId data len command => PsRpc.send view nodeRole rankId data len command
  | .sendMany nodeRole rankIds data lens command =>
    PsRpc.sendMany view nodeRole rankIds data lens command
  | .sendForOutput nodeRole rankId message len command output =>
    PsRpc.sendForOutput view nodeRole rankId message len command output
  | .sendManyForOutput nodeRole rankIds data dataLens command output =>
    PsRpc.sendManyForOutput view nodeRole rankIds data dataLens command output
  | .broadcast nodeRole message size command =>
    PsRpc.broadcast view nodeRole message size command

def twoServers : NodeView where
  config := ⟨2, 1⟩
  role := .worker
  rankId := 0
  nodesAddress := [0, 1]
  sorted := by decide
  rank_lt := by simp
  initFault := fun _ => none

/-! ## The shape of a script -/

/-- One message for each rank id and `Wait` at the end, or an exception before the last
message. -/
inductive Delivers : List UInt32 → List Action → Prop where
  | wait : Delivers [] [.wait]
  | raise (rankId : UInt32) (rankIds : List UInt32) (fault : Fault) :
      Delivers (rankId :: rankIds) [.raise fault]
  | send {rankId : UInt32} {rankIds : List UInt32} {rest : List Action} (data : Bytes) :
      rankId.toNat < 2 ^ 31 → Delivers rankIds rest →
      Delivers (rankId :: rankIds) (.sendMessage rankId data :: rest)

/-- A call raises at once, or it registers its closure, if it has one, and then delivers. -/
inductive Plan.Shaped (plan : Plan) : Prop where
  | raises (fault : Fault) (script : plan.script = [.raise fault])
      (single : plan.closure = some .set → plan.expected = 1)
  | delivers (body : List Action)
      (script : plan.script = if plan.closure = none then body else .setMessageCallback :: body)
      (delivers : Delivers plan.rankIds body) (expected : plan.expected = plan.rankIds.length)
      (single : plan.closure = some .set → plan.expected = 1)

theorem Plan.Shaped.expected_of_set {plan : Plan} (h : plan.Shaped)
    (hClosure : plan.closure = some .set) : plan.expected = 1 := by
  cases h with
  | raises _ _ single => exact single hClosure
  | delivers _ _ _ _ single => exact single hClosure

theorem getOrCreateTcpClient_rank_lt {view : NodeView} {rankId : UInt32}
    (h : getOrCreateTcpClient view rankId = .ok ()) : rankId.toNat < 2 ^ 31 := by
  rw [getOrCreateTcpClient] at h
  split at h
  · next hMem => exact view.rank_lt rankId hMem
  · cases h

theorem delivers_sendTo {view : NodeView} {rankIds : List UInt32} {rest : List Action}
    (h : Delivers rankIds rest) (rankId : UInt32) (data : DataPtr) (len : Nat) :
    Delivers (rankId :: rankIds) (sendTo view rankId data len rest) := by
  rw [sendTo]
  split
  · exact .raise rankId rankIds _
  · next hClient =>
    split
    · exact .raise rankId rankIds _
    · exact .send _ (getOrCreateTcpClient_rank_lt hClient) h

theorem delivers_sendEach (view : NodeView) (nodeRole : NodeRole) (rankIds : List UInt32)
    (data : List DataPtr) (lens : List Nat) :
    Delivers rankIds (sendEach view nodeRole rankIds data lens) := by
  induction rankIds generalizing data lens with
  | nil => exact .wait
  | cons rankId rankIds ih =>
    unfold sendEach
    split
    · split
      · exact delivers_sendTo (ih _ _) rankId _ _
      · exact .raise rankId rankIds _
    · exact .raise rankId rankIds _

theorem delivers_broadcastEach (view : NodeView) (message : DataPtr) (size : Nat)
    (rankIds : List UInt32) : Delivers rankIds (broadcastEach view message size rankIds) := by
  induction rankIds with
  | nil => exact .wait
  | cons rankId rankIds ih => exact delivers_sendTo ih rankId message size

theorem Invocation.plan_shaped {view : NodeView} {invocation : Invocation} {plan : Plan}
    (h : invocation.plan view = .ok plan) : plan.Shaped := by
  cases invocation with
  | send nodeRole rankId data len command =>
    obtain ⟨bytes, _, h⟩ := bind_eq_ok h
    split at h
    · obtain ⟨_, hClient, h⟩ := bind_eq_ok h
      cases h
      exact .delivers _ rfl (.send _ (getOrCreateTcpClient_rank_lt hClient) .wait) rfl nofun
    · cases h
  | sendMany nodeRole rankIds data lens command =>
    cases h
    by_cases hLength : rankIds.length = data.length
    · refine .delivers _ ?_ (delivers_sendEach view nodeRole rankIds data lens) hLength.symm nofun
      exact if_neg (not_not.mpr hLength)
    · exact .raises _ (if_pos hLength) nofun
  | sendForOutput nodeRole rankId message len command output =>
    obtain ⟨_, _, h⟩ := bind_eq_ok h
    obtain ⟨initial, _, h⟩ := bind_eq_ok h
    split at h
    · cases h
      exact .delivers _ rfl (delivers_sendTo .wait rankId message len) rfl fun _ => rfl
    · cases h
  | sendManyForOutput nodeRole rankIds data dataLens command output =>
    obtain ⟨initial, _, h⟩ := bind_eq_ok h
    cases h
    by_cases hLength : rankIds.length = data.length
    · refine .delivers _ ?_ (delivers_sendEach view nodeRole rankIds data dataLens) hLength.symm
        nofun
      exact if_neg (not_not.mpr hLength)
    · exact .raises _ (if_pos hLength) nofun
  | broadcast nodeRole message size command =>
    obtain ⟨_, _, h⟩ := bind_eq_ok h
    split at h
    · cases h
    · cases h
      exact .delivers _ rfl (delivers_broadcastEach view message size view.nodesAddress) rfl nofun

end PsRpc
