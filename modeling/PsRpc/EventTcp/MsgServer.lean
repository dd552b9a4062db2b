import Mathlib.Logic.Function.Basic
import PsRpc.EventTcp.MsgStream
import PsRpc.Library.Execution
import PsRpc.Library.SortedMap

/-! # A server and its clients

`msgserver` keeps its connections under their descriptors, each with a parser of its own. A
`msgclient` has one parser, which serves the connections of `start` and of `start1` and is kept over
`stop`: the messages of a connection come out at the client as they were sent if the client makes no
other connection. The calls of libevent succeed, `client_accept` is not set, no two calls of
`send_msg` overlap on a connection, and its bytes arrive in order until it is closed.
-/

namespace PsRpc

open Execution MsgParser

/-- The parser of a `msgconnection` or a `msgclient`, and the calls that it has made. -/
structure MsgReader where
  mParser : MsgParser := {}
  calls : List MsgArrived := []
deriving DecidableEq, Repr

namespace MsgReader

def read (reader : MsgReader) (input : Bytes) : MsgReader :=
  let arrived := reader.mParser.readCallback input
  ⟨arrived.2, reader.calls ++ arrived.1⟩

end MsgReader

/-- A connection at the server, with the bytes under way to the client and from it. -/
structure MsgConnection extends MsgReader where
  down : Bytes := []
  up : Bytes := []
deriving DecidableEq, Repr

structure MsgServer where
  connections : SortedMap Int MsgConnection := .empty

namespace MsgServer

def addConnection (server : MsgServer) (fd : Int) (connection : MsgConnection) : MsgServer :=
  ⟨(server.connections.insert fd connection).1⟩

def removeConnection (server : MsgServer) (fd : Int) : MsgServer :=
  ⟨(server.connections.erase fd).1⟩

def onConnection (server : MsgServer) (fd : Int) (action : MsgConnection → MsgConnection) :
    MsgServer :=
  ⟨server.connections.mapValues fun key conn => if key = fd then action conn else conn⟩

/-- `send_msg(data, num)`. -/
def sendToAll (server : MsgServer) (data : Bytes) : MsgServer :=
  ⟨server.connections.mapValues fun _ conn => { conn with down := sendMsg conn.down data }⟩

def isOpen (server : MsgServer) (fd : Int) : Bool := (server.connections.get? fd).isSome

end MsgServer

/-- A `bufferevent*` of a client: null, connected to the server, which has the descriptor, or one
over which nothing comes any more. -/
inductive BufferEvent where
  | null
  | connected (fd : Int)
  | dead
deriving DecidableEq, Repr

namespace BufferEvent

def ofAccepted : Option Int → BufferEvent
  | some fd => .connected fd
  | none => .dead

def lose (fd : Int) (event : BufferEvent) : BufferEvent :=
  if event = .connected fd then .dead else event

def withoutBase : BufferEvent → BufferEvent
  | .null => .null
  | _ => .dead

end BufferEvent

inductive BufferSlot where
  | first
  | second
deriving DecidableEq, Repr

structure MsgClient extends MsgReader where
  mBase : Bool := false
  mBufferEvent : BufferEvent := .null
  mBufferEvent1 : BufferEvent := .null
deriving DecidableEq, Repr

namespace MsgClient

def bufferEvent (client : MsgClient) : BufferSlot → BufferEvent
  | .first => client.mBufferEvent
  | .second => client.mBufferEvent1

abbrev Holds (client : MsgClient) (slot : BufferSlot) (fd : Int) : Prop :=
  client.bufferEvent slot = .connected fd

/-- The callback of the parser has called `stop`, which frees the event base under its loop. -/
def failed (client : MsgClient) : Bool := client.calls.contains .formatError

/-- `stop` frees the first bufferevent and leaves the second without a base. -/
def stop (client : MsgClient) : MsgClient :=
  { client with
    mBase := false, mBufferEvent := .null, mBufferEvent1 := client.mBufferEvent1.withoutBase }

def lose (client : MsgClient) (fd : Int) : MsgClient :=
  { client with
    mBufferEvent := client.mBufferEvent.lose fd, mBufferEvent1 := client.mBufferEvent1.lose fd }

end MsgClient

/-- `accepted` is the descriptor at the server if the connection is made, and `flushed` the number
of written bytes that have left the client. Calls that return at once are not events. -/
inductive MsgEvent where
  | start (id : Nat) (accepted : Option Int)
  | start1 (id : Nat) (accepted : Option Int)
  | startWithDelay (id : Nat)
  | stop (id : Nat) (flushed : Nat)
  | closed (fd : Int)
  | sendMsg (fd : Int) (data : Bytes)
  | sendToAll (data : Bytes)
  | clientSend (id : Nat) (fd : Int) (data : Bytes)
  | clientRead (id : Nat) (fd : Int) (count : Nat)
  | serverRead (fd : Int) (count : Nat)
deriving DecidableEq, Repr

def MsgEvent.data? : MsgEvent → Option Bytes
  | .sendMsg _ data => some data
  | .sendToAll data => some data
  | .clientSend _ _ data => some data
  | _ => none

def MsgEvent.Fits (event : MsgEvent) : Prop := ∀ data ∈ event.data?, MsgParser.Fits data

instance (event : MsgEvent) : Decidable event.Fits := inferInstanceAs (Decidable (∀ _ ∈ _, _))

structure MsgSystem where
  server : MsgServer := {}
  clients : Nat → MsgClient := fun _ => {}

namespace MsgSystem

def put (s : MsgSystem) (id : Nat) (client : MsgClient) : MsgSystem :=
  { s with clients := Function.update s.clients id client }

/-- The server gives a new connection a descriptor that is not open. -/
def connect (s : MsgSystem) (id : Nat) (client : MsgClient) : Option Int → Option MsgSystem
  | none => some (s.put id client)
  | some fd =>
    if s.server.isOpen fd then none
    else some (put { s with server := s.server.addConnection fd {} } id client)

/-- What is still in the buffer that `stop` frees is lost. -/
def stop (s : MsgSystem) (id : Nat) (flushed : Nat) : MsgSystem :=
  put { s with server := ⟨s.server.connections.mapValues fun fd conn =>
    if (s.clients id).Holds .first fd then { conn with up := conn.up.take flushed } else conn⟩ }
    id (s.clients id).stop

def clientRead (s : MsgSystem) (id : Nat) (fd : Int) (count : Nat) (conn : MsgConnection) :
    MsgSystem :=
  let client := s.clients id
  put { s with server := s.server.onConnection fd fun conn =>
    { conn with down := conn.down.drop count } }
    id { client with toMsgReader := client.read (conn.down.take count) }

def step (s : MsgSystem) : MsgEvent → Option MsgSystem
  | .start id accepted =>
    let client := s.clients id
    if client.failed = false ∧ client.mBufferEvent = .null then
      s.connect id { client with mBase := true, mBufferEvent := .ofAccepted accepted } accepted
    else none
  | .start1 id accepted =>
    let client := s.clients id
    if client.failed = false ∧ client.mBufferEvent1 = .null ∧ client.mBase = true then
      s.connect id { client with mBufferEvent1 := .ofAccepted accepted } accepted
    else none
  | .startWithDelay id =>
    let client := s.clients id
    if client.failed = false ∧ client.mBufferEvent = .null then
      some (s.put id { client with mBase := true })
    else none
  | .stop id flushed => if (s.clients id).mBase then some (s.stop id flushed) else none
  | .closed fd =>
    if s.server.isOpen fd then
      some ⟨s.server.removeConnection fd, fun id => (s.clients id).lose fd⟩
    else none
  | .sendMsg fd data =>
    if s.server.isOpen fd then
      some { s with server := s.server.onConnection fd fun conn =>
        { conn with down := sendMsg conn.down data } }
    else none
  | .sendToAll data => some { s with server := s.server.sendToAll data }
  | .clientSend id fd data =>
    if (s.clients id).failed = false ∧ (s.clients id).Holds .first fd then
      some { s with server := s.server.onConnection fd fun conn =>
        { conn with up := sendMsg conn.up data } }
    else none
  | .clientRead id fd count =>
    if (s.clients id).failed = false ∧
        ((s.clients id).Holds .first fd ∨ (s.clients id).Holds .second fd) then
      (s.server.connections.get? fd).map (s.clientRead id fd count)
    else none
  | .serverRead fd count =>
    if s.server.isOpen fd then
      some { s with server := s.server.onConnection fd fun conn =>
        { conn with toMsgReader := conn.read (conn.up.take count), up := conn.up.drop count } }
    else none

end MsgSystem

end PsRpc
