import Mathlib.Data.List.Perm.Basic
import Mathlib.Data.Set.List
import PsRpc.Library.Execution
import PsRpc.Library.SortedMap
import PsRpc.Wire.Message

/-! # The connections of a server

`TcpServer` keeps its connections under their descriptors. A connection is entered when it is
accepted and removed by its end-of-file or error event; broadcasts go to all entries. A lookup goes
through `operator[]`, which enters a null connection under a descriptor that is not there.
`client_accept_` is not set, and the calls of libevent that make a connection succeed.
-/

namespace PsRpc

open Execution

structure TcpConnection where
  fd : Int
  bufferEvent : Nat
deriving DecidableEq, Repr

structure BevFlags where
  eof : Bool := false
  error : Bool := false
deriving DecidableEq, Repr

/-- `none` is a null `shared_ptr`. -/
structure TcpServer where
  connections : SortedMap Int (Option TcpConnection) := .empty

inductive BroadcastFault where
  | raised (fault : Fault)
  | nullDereference
deriving DecidableEq, Repr

namespace TcpServer

def addConnection (server : TcpServer) (fd : Int) (connection : Option TcpConnection) :
    Except Fault TcpServer := do
  let connection ← exceptionIfNull "connection" connection
  .ok ⟨(server.connections.insert fd (some connection)).1⟩

def removeConnection (server : TcpServer) (fd : Int) : TcpServer :=
  ⟨(server.connections.erase fd).1⟩

/-- `connections_[fd]` and the map after it. -/
def getConnectionByFd (server : TcpServer) (fd : Int) : Option TcpConnection × TcpServer :=
  let result := server.connections.insert fd none
  (result.2.1.2, ⟨result.1⟩)

def onCreateConnection (bev : Option Nat) (fd : Int) : Except Fault TcpConnection := do
  let bev ← exceptionIfNull "bev" bev
  .ok ⟨fd, bev⟩

def listenerCallback (server : TcpServer) (fd : Int) (bev : Nat) :
    Except Fault (TcpServer × TcpConnection) := do
  let conn ← onCreateConnection (some bev) fd
  let server ← server.addConnection fd (some conn)
  .ok (server, conn)

/-- The table after an event; both branches that free the connection remove its entry. -/
def eventCallback (server : TcpServer) (conn : TcpConnection) (events : BevFlags) : TcpServer :=
  if events.eof then server.removeConnection conn.fd
  else if events.error then server.removeConnection conn.fd
  else server

/-- The loop of the two broadcasts: the connections that get the message, in order. -/
def broadcast {ε : Type} (onNull : ε) :
    List (Int × Option TcpConnection) → Except ε (List TcpConnection)
  | [] => .ok []
  | (_, none) :: _ => .error onNull
  | (_, some conn) :: rest => do
    let later ← broadcast onNull rest
    .ok (conn :: later)

def sendToAllClients (server : TcpServer) (data : Option Bytes) :
    Except BroadcastFault (List TcpConnection) := do
  let _ ← (exceptionIfNull "data" data).mapError .raised
  broadcast .nullDereference server.connections.entries

/-- `SendMessage(message)`; the function that it calls for an entry raises on a null connection. -/
def sendMessage {M : Type} (server : TcpServer) (message : Option M) :
    Except Fault (List TcpConnection) := do
  let _ ← exceptionIfNull "message" message
  broadcast (.exception ": The pointer[conn] is null.") server.connections.entries

def connectionNum (server : TcpServer) : Nat := server.connections.entries.length

end TcpServer

/-! ## Runs -/

structure Listening where
  server : TcpServer := {}
  opened : List TcpConnection := []

inductive ServerStep where
  | accept (fd : Int) (bev : Nat)
  | event (conn : TcpConnection) (events : BevFlags)
  | lookup (fd : Int)
  | sendToAllClients (data : Bytes)
  | sendMessage (message : Bytes)
deriving DecidableEq, Repr

namespace Listening

def isOpen (s : Listening) (fd : Int) : Bool := s.opened.any (·.fd = fd)

/-- A new connection gets a descriptor that is not open, and events are those of open connections.
A broadcast leaves the table as it is. -/
def step (s : Listening) : ServerStep → Option Listening
  | .accept fd bev =>
    if s.isOpen fd then none
    else
      match s.server.listenerCallback fd bev with
      | .ok (server, conn) => some ⟨server, conn :: s.opened⟩
      | .error _ => none
  | .event conn events =>
    if conn ∈ s.opened then
      some ⟨s.server.eventCallback conn events,
        if events.eof ∨ events.error then s.opened.filter (·.fd ≠ conn.fd) else s.opened⟩
    else none
  | .lookup fd => some { s with server := (s.server.getConnectionByFd fd).2 }
  | .sendToAllClients _ => some s
  | .sendMessage _ => some s

/-- The table maps exactly the open descriptors, each to its own connection. -/
def MapsOpened (s : Listening) : Prop :=
  s.server.connections.entries.Perm (s.opened.map fun conn => (conn.fd, some conn))

/-- The broadcasts reach exactly the open connections, and `ConnectionNum` counts them. -/
structure Exact (s : Listening) : Prop where
  table : s.MapsOpened
  sendToAllClients : ∀ data : Bytes,
    ∃ reached, s.server.sendToAllClients (some data) = .ok reached ∧ reached.Perm s.opened
  sendMessage : ∀ message : Bytes,
    ∃ reached, s.server.sendMessage (some message) = .ok reached ∧ reached.Perm s.opened
  connectionNum : s.server.connectionNum = s.opened.length

variable {s s' : Listening} {fd : Int}

theorem isOpen_iff : s.isOpen fd = true ↔ ∃ conn ∈ s.opened, conn.fd = fd := by
  simp only [isOpen, List.any_eq_true, decide_eq_true_eq]

theorem broadcast_some {ε : Type} (onNull : ε) (conns : List TcpConnection) :
    TcpServer.broadcast onNull (conns.map fun conn => (conn.fd, some conn)) = .ok conns := by
  induction conns with
  | nil => rfl
  | cons conn rest ih =>
    rw [List.map_cons, TcpServer.broadcast, ih]
    rfl

theorem entry_injective :
    Function.Injective fun conn : TcpConnection => (conn.fd, some conn) := by
  intro conn other hEq
  exact Option.some.inj (Prod.mk.inj hEq).2

theorem MapsOpened.exists_perm (hTable : s.MapsOpened) :
    ∃ conns : List TcpConnection, conns.Perm s.opened ∧
      s.server.connections.entries = conns.map fun conn => (conn.fd, some conn) := by
  have hRange : s.server.connections.entries ∈
      Set.range (List.map fun conn : TcpConnection => (conn.fd, some conn)) := by
    rw [Set.range_list_map]
    intro entry hEntry
    obtain ⟨conn, _, hEq⟩ := List.mem_map.mp (hTable.mem_iff.mp hEntry)
    exact ⟨conn, hEq⟩
  obtain ⟨conns, hConns⟩ := hRange
  refine ⟨conns, ?_, hConns.symm⟩
  rw [MapsOpened, ← hConns, List.map_perm_map_iff entry_injective] at hTable
  exact hTable

theorem MapsOpened.broadcast {ε : Type} (hTable : s.MapsOpened) (onNull : ε) :
    ∃ reached, TcpServer.broadcast onNull s.server.connections.entries = .ok reached ∧
      reached.Perm s.opened := by
  obtain ⟨conns, hPerm, hEntries⟩ := hTable.exists_perm
  rw [hEntries, broadcast_some]
  exact ⟨conns, rfl, hPerm⟩

theorem MapsOpened.exact (hTable : s.MapsOpened) : s.Exact where
  table := hTable
  sendToAllClients := fun _ => hTable.broadcast _
  sendMessage := fun _ => hTable.broadcast _
  connectionNum := by
    rw [TcpServer.connectionNum, hTable.length_eq, List.length_map]

/-! ## One step -/

theorem MapsOpened.not_mem_of_not_open (hTable : s.MapsOpened) (hClosed : s.isOpen fd = false) :
    ∀ entry ∈ s.server.connections.entries, entry.1 ≠ fd := by
  rintro entry hEntry rfl
  obtain ⟨conn, hConn, rfl⟩ := List.mem_map.mp (hTable.mem_iff.mp hEntry)
  rw [isOpen_iff.mpr ⟨conn, hConn, rfl⟩] at hClosed
  cases hClosed

theorem MapsOpened.accept {bev : Nat} (hTable : s.MapsOpened)
    (hStep : s.step (.accept fd bev) = some s') :
    s'.MapsOpened := by
  rw [step] at hStep
  split at hStep
  · cases hStep
  · next hClosed =>
    have hNew := hTable.not_mem_of_not_open (Bool.eq_false_iff.mpr hClosed)
    cases hStep
    refine List.Perm.trans ?_ (hTable.cons _)
    rw [SortedMap.insert_new hNew]
    exact SortedMap.place_perm hNew

theorem MapsOpened.event {conn : TcpConnection} {events : BevFlags} (hTable : s.MapsOpened)
    (hStep : s.step (.event conn events) = some s') : s'.MapsOpened := by
  have hRemoved : (s.server.removeConnection conn.fd).connections.entries.Perm
      ((s.opened.filter (·.fd ≠ conn.fd)).map fun conn => (conn.fd, some conn)) := by
    have hFilter := hTable.filter fun entry => entry.1 ≠ conn.fd
    rwa [List.filter_map] at hFilter
  rw [step] at hStep
  split at hStep
  · cases hStep
    rw [MapsOpened, TcpServer.eventCallback]
    rcases events with ⟨_ | _, _ | _⟩
    · exact hTable
    · exact hRemoved
    · exact hRemoved
    · exact hRemoved
  · cases hStep

theorem MapsOpened.lookup (hTable : s.MapsOpened) (hOpen : s.isOpen fd = true)
    (hStep : s.step (.lookup fd) = some s') : s'.MapsOpened := by
  cases hStep
  obtain ⟨conn, hConn, rfl⟩ := isOpen_iff.mp hOpen
  have hEntry : (conn.fd, some conn) ∈ s.server.connections.entries :=
    hTable.mem_iff.mpr (List.mem_map_of_mem hConn)
  rw [MapsOpened, TcpServer.getConnectionByFd, SortedMap.insert_old hEntry]
  exact hTable

theorem MapsOpened.not_lookup (hTable : s.MapsOpened) (hClosed : s.isOpen fd = false)
    (hStep : s.step (.lookup fd) = some s') : ¬s'.MapsOpened := by
  cases hStep
  intro hAfter
  have hNew := hTable.not_mem_of_not_open hClosed
  have hNull : (fd, none) ∈ (s.server.getConnectionByFd fd).2.connections.entries := by
    rw [TcpServer.getConnectionByFd, SortedMap.insert_new hNew]
    exact (SortedMap.mem_place hNew).mpr (.inl rfl)
  obtain ⟨conn, _, hEq⟩ := List.mem_map.mp (hAfter.mem_iff.mp hNull)
  cases hEq

def LooksUpOpen (s : Listening) : ServerStep → Prop
  | .lookup fd => s.isOpen fd = true
  | _ => True

instance (s : Listening) : (label : ServerStep) → Decidable (s.LooksUpOpen label)
  | .lookup fd => inferInstanceAs (Decidable (s.isOpen fd = true))
  | .accept _ _ => .isTrue trivial
  | .event _ _ => .isTrue trivial
  | .sendToAllClients _ => .isTrue trivial
  | .sendMessage _ => .isTrue trivial

theorem MapsOpened.step {label : ServerStep} (hTable : s.MapsOpened) (hLookup : s.LooksUpOpen label)
    (hStep : s.step label = some s') : s'.MapsOpened := by
  cases label with
  | accept fd bev => exact hTable.accept hStep
  | event conn events => exact hTable.event hStep
  | lookup fd => exact hTable.lookup hLookup hStep
  | sendToAllClients data =>
    cases hStep
    exact hTable
  | sendMessage message =>
    cases hStep
    exact hTable

end Listening

open Listening in
/-- The table is exact in every state of a run if and only if every lookup of the run is of a
descriptor that is open at that moment. -/
theorem connection_table_exact_iff (labels : List ServerStep) (final : Listening)
    (hRun : exec step {} labels = some final) :
    (∀ before s, before <+: labels → exec step {} before = some s → s.Exact) ↔
      ∀ before fd after s, labels = before ++ .lookup fd :: after →
        exec step {} before = some s → ∃ conn ∈ s.opened, conn.fd = fd := by
  constructor
  · rintro hExact before fd after s rfl hBefore
    obtain ⟨_, next, hMid, hStep, _⟩ := exec_middle hRun
    obtain rfl := Option.some.inj (hBefore.symm.trans hMid)
    have hNow := hExact before s (List.prefix_append _ _) hBefore
    have hNext := hExact (before ++ [.lookup fd]) next ⟨after, by simp⟩
      (exec_snoc.mpr ⟨s, hBefore, hStep⟩)
    rw [← isOpen_iff]
    by_contra hClosed
    exact MapsOpened.not_lookup hNow.table (Bool.eq_false_iff.mpr hClosed) hStep hNext.table
  · rintro hLookups before s ⟨after, rfl⟩ hBefore
    have hAllowed : exec (restrict LooksUpOpen step) {} before = some s := by
      rw [exec_restrict_iff]
      refine ⟨hBefore, ?_⟩
      rintro early label late mid rfl hEarly
      cases label with
      | lookup fd => exact isOpen_iff.mpr (hLookups early fd (late ++ after) mid (by simp) hEarly)
      | accept fd bev => trivial
      | event conn events => trivial
      | sendToAllClients data => trivial
      | sendMessage message => trivial
    have hTable : s.MapsOpened := by
      refine exec_invariant ?_ (.refl _ : MapsOpened {}) hAllowed
      intro s label s' hTable hStep
      obtain ⟨hLookup, hStep⟩ := restrict_eq_some.mp hStep
      exact hTable.step hLookup hStep
    exact hTable.exact

theorem connection_table_exact_lookup :
    ∃ final : Listening, exec Listening.step {} [.accept 5 0, .lookup 5] = some final ∧
      final.Exact ∧ final.opened = [⟨5, 0⟩] := by
  obtain ⟨final, hRun, hOpened⟩ : ∃ final : Listening,
      exec Listening.step {} [.accept 5 0, .lookup 5] = some final ∧ final.opened = [⟨5, 0⟩] :=
    ⟨_, rfl, rfl⟩
  refine ⟨final, hRun, ?_, hOpened⟩
  refine (connection_table_exact_iff _ final hRun).mpr ?_ _ final (List.prefix_refl _) hRun
  rintro (_ | ⟨first, _ | ⟨second, before⟩⟩) fd after s hLabels hBefore
  · cases hLabels
  · cases hLabels
    cases hBefore
    exact ⟨⟨5, 0⟩, List.mem_cons_self, rfl⟩
  · simp at hLabels

/-- A descriptor is looked up before it is accepted. Its entry stays null, so a broadcast
dereferences a null connection and the other one raises. -/
theorem connection_table_null_entry :
    ∃ final : Listening, exec Listening.step {} [.lookup 5, .accept 5 0] = some final ∧
      final.opened = [⟨5, 0⟩] ∧ final.server.connections.entries = [(5, none)] ∧
      final.server.sendToAllClients (some [1]) = .error .nullDereference ∧
      final.server.sendMessage (some [1]) =
        .error (.exception ": The pointer[conn] is null.") :=
  ⟨_, rfl, rfl, rfl, rfl, rfl⟩

end PsRpc
