import PsRpc.Library.Lanes
import PsRpc.Node.Send
import PsRpc.Node.Tracker

/-! # Collective messages to one server

`CollectiveSendAsync` of the senders, the connections between them and a server, and at the
server `RunReceiveCallback` on its event loop and `CollectiveReceiveAsync` and `CollectiveWait` on
any other threads. Each section under `receive_callbacks_mutex_` is one step. The counters
`expected_rank_request_ids_` and `actual_rank_request_ids_` pair the messages of a rank with the
receives that were posted for it.
-/

namespace PsRpc

open Execution Lanes

structure Packet where
  messageMeta : MessageMeta
  data : Bytes
deriving DecidableEq, Repr

def Packet.rankId (packet : Packet) : UInt32 := packet.messageMeta.rankId

def Packet.sender (packet : Packet) : NodeRole × UInt32 :=
  (packet.messageMeta.role, packet.messageMeta.rankId)

def sendMessageAsync (tracker : MessageTracker) (messageMeta : MessageMeta) (data : DataPtr)
    (size : Nat) : Except Fault (Nat × Packet × MessageTracker) := do
  let bytes ← exceptionIfNull "data" data
  let added := tracker.addMessageTrack 1
  .ok (added.1, ⟨{ messageMeta with requestId := added.1 }, bytes.take size⟩, added.2)

/-- `nodeRole` is checked together with `rankId` and not used again: the client is always one to
a server. -/
def collectiveSendAsync (view : NodeView) (tracker : MessageTracker) (nodeRole : NodeRole)
    (rankId : UInt32) (data : DataPtr) (size : Nat) :
    Except Fault (Nat × Packet × MessageTracker) := do
  let _ ← exceptionIfNull "data" data
  if validateRankId view.config nodeRole rankId then
    getOrCreateTcpClient view rankId
    sendMessageAsync tracker ⟨.collectiveSendData, 0, view.role, view.rankId, 0⟩ data size
  else .error illegalRank

/-- The variable of a caller that `VectorPtr *output` points to. -/
abbrev Output := Nat

abbrev RankRequest := UInt32 × Nat

/-- `receiveCallbacks` holds, for each closure, the `output` that it captured; it captured the
key as well. `outputs` are the variables of the callers. -/
structure CollectiveTables where
  expectedRankRequestIds : Table UInt32 Nat
  actualRankRequestIds : Table UInt32 Nat
  receivedData : Table RankRequest VectorPtr
  receiveCallbacks : Table RankRequest Output
  receiveMessagesDone : Table RankRequest Bool
  outputs : Table Output VectorPtr

def nextRankRequestId (ids : Table UInt32 Nat) (rankId : UInt32) : Nat × Table UInt32 Nat :=
  match ids.lookup rankId with
  | some rankRequestId => (rankRequestId + 1, ids.insert rankId (rankRequestId + 1))
  | none => (1, ids.insert rankId 1)

namespace CollectiveTables

def new : CollectiveTables := ⟨∅, ∅, ∅, ∅, ∅, ∅⟩

def nextExpectedRankRequestId (t : CollectiveTables) (rankId : UInt32) :
    Nat × CollectiveTables :=
  let next := nextRankRequestId t.expectedRankRequestIds rankId
  (next.1, { t with expectedRankRequestIds := next.2 })

def nextActualRankRequestId (t : CollectiveTables) (rankId : UInt32) : Nat × CollectiveTables :=
  let next := nextRankRequestId t.actualRankRequestIds rankId
  (next.1, { t with actualRankRequestIds := next.2 })

/-- `*output = received_data_[key]`, the erasure and the mark in `receive_messages_done_`. -/
def takeData (t : CollectiveTables) (key : RankRequest) (output : Output) : CollectiveTables :=
  { t with
    outputs := t.outputs.insert output (t.receivedData.getD key none)
    receivedData := (t.receivedData.subscript key none).erase key
    receiveMessagesDone := t.receiveMessagesDone.insert key true }

/-- `CollectiveReceiveAsync` from the lock on. -/
def postReceive (t : CollectiveTables) (rankId : UInt32) (output : Output) :
    RankRequest × CollectiveTables :=
  let next := t.nextExpectedRankRequestId rankId
  let key := (rankId, next.1)
  let marked := { next.2 with receiveMessagesDone := t.receiveMessagesDone.insert key false }
  if (marked.receivedData.lookup key).isSome then (key, marked.takeData key output)
  else (key, { marked with receiveCallbacks := t.receiveCallbacks.insert key output })

def collectiveReceiveAsync (t : CollectiveTables) (config : ClusterConfig) (nodeRole : NodeRole)
    (rankId : UInt32) (output : Option Output) : Except Fault (RankRequest × CollectiveTables) := do
  let output ← exceptionIfNull "output" output
  if validateRankId config nodeRole rankId then .ok (t.postReceive rankId output)
  else .error illegalRank

/-- One evaluation of the predicate of `CollectiveWait`, with the return that may follow it. -/
def collectiveWaitTurn (t : CollectiveTables) (requestId : RankRequest) (timedOut : Bool) :
    Option Bool × CollectiveTables :=
  let polled :=
    { t with receiveMessagesDone := t.receiveMessagesDone.subscript requestId false }
  if t.receiveMessagesDone.getD requestId false then (some true, polled)
  else (if timedOut then some false else none, polled)

/-- `RunReceiveCallback` until it unlocks the mutex for the first time: the key of the closure
that it has found, or the exception, which leaves the mutex locked. -/
def runReceiveCallback (t : CollectiveTables) (packet : Packet) :
    Except Fault (Option RankRequest) × CollectiveTables :=
  let next := t.nextActualRankRequestId packet.rankId
  let key := (packet.rankId, next.1)
  let ret := memcpyS packet.data.length packet.data.length
  if ret ≠ .eok then (.error (memcpyError ret), next.2)
  else
    (.ok (if (t.receiveCallbacks.lookup key).isSome then some key else none),
      { next.2 with receivedData := t.receivedData.insert key (some packet.data) })

end CollectiveTables

/-- A closure that was found has not run, and one that ran still has its entry. An exception leaves
`receive_callbacks_mutex_` locked. -/
inductive ReceiveLoop where
  | idle
  | found (key : RankRequest)
  | ran (key : RankRequest)
  | raised (fault : Fault)
deriving DecidableEq, Repr

def ReceiveLoop.holdsMutex : ReceiveLoop → Bool
  | .raised _ => true
  | _ => false

/-- The server and what has happened: the messages that were sent to it, those that its event
loop has taken, and the receives that were posted with their outputs. -/
structure Exchange where
  receiver : NodeView
  tables : CollectiveTables
  loop : ReceiveLoop
  sent : List Packet
  arrived : List Packet
  posts : List (UInt32 × Output)

inductive ExchangeLabel where
  | send (sender : NodeView) (tracker : MessageTracker) (nodeRole : NodeRole) (rankId : UInt32)
      (data : DataPtr) (size : Nat)
  | deliver (sender : NodeRole × UInt32)
  | runCallback
  | eraseCallback
  | receive (nodeRole : NodeRole) (rankId : UInt32) (output : Option Output)
  | waitTurn (requestId : RankRequest) (timedOut : Bool)

namespace Exchange

def new (receiver : NodeView) : Exchange := ⟨receiver, .new, .idle, [], [], []⟩

def nextPacket (s : Exchange) (sender : NodeRole × UInt32) : Option Packet :=
  (lane Packet.sender id sender s.sent)[(lane Packet.sender id sender s.arrived).length]?

def takePacket (s : Exchange) (packet : Packet) : Exchange :=
  let ran := s.tables.runReceiveCallback packet
  let next := { s with tables := ran.2, arrived := s.arrived ++ [packet] }
  match ran.1 with
  | .error fault => { next with loop := .raised fault }
  | .ok none => next
  | .ok (some key) => { next with loop := .found key }

/-- Calls that raise before they lock the mutex change nothing. Each connection is reliable and
keeps the order; the event loop takes the messages of all connections one at a time. -/
def step (s : Exchange) : ExchangeLabel → Option Exchange
  | .send sender tracker nodeRole rankId data size =>
    match collectiveSendAsync sender tracker nodeRole rankId data size with
    | .error _ => some s
    | .ok (_, packet, _) =>
      if rankId = s.receiver.rankId then some { s with sent := s.sent ++ [packet] } else some s
  | .deliver sender => if s.loop = .idle then (s.nextPacket sender).map s.takePacket else none
  | .runCallback =>
    match s.loop with
    | .found key =>
      (s.tables.receiveCallbacks.lookup key).map fun output =>
        { s with tables := s.tables.takeData key output, loop := .ran key }
    | _ => none
  | .eraseCallback =>
    match s.loop with
    | .ran key =>
      some { s with
        tables := { s.tables with receiveCallbacks := s.tables.receiveCallbacks.erase key }
        loop := .idle }
    | _ => none
  | .receive nodeRole rankId output =>
    match s.tables.collectiveReceiveAsync s.receiver.config nodeRole rankId output, output with
    | .ok (_, tables), some output =>
      if s.loop.holdsMutex then none
      else some { s with tables := tables, posts := s.posts ++ [(rankId, output)] }
    | _, _ => some s
  | .waitTurn requestId timedOut =>
    if s.loop.holdsMutex then none
    else some { s with tables := (s.tables.collectiveWaitTurn requestId timedOut).2 }

def arrivals (s : Exchange) (rankId : UInt32) : List Bytes :=
  lane Packet.rankId Packet.data rankId s.arrived

def postsFor (s : Exchange) (rankId : UInt32) : List Output :=
  lane Prod.fst Prod.snd rankId s.posts

def sentBy (s : Exchange) (sender : NodeRole × UInt32) : List Bytes :=
  lane Packet.sender Packet.data sender s.sent

/-- Payloads have from 1 to `0x7fffffff` bytes, and every receive has an output of its own. -/
def regular (s : Exchange) : ExchangeLabel → Bool
  | .send _ _ _ _ (some bytes) size =>
    0 < (bytes.take size).length && (bytes.take size).length ≤ securecMemMaxLen
  | .receive _ _ (some output) => output ∉ s.posts.map Prod.snd
  | _ => true

end Exchange

end PsRpc
