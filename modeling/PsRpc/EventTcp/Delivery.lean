import PsRpc.EventTcp.MsgServer

/-! # What the server and its clients get

The messages that are sent over a connection are kept in a mailbox, and the bytes that are under way
are the frames of those that have not been read.
-/

namespace PsRpc

open Execution MsgParser

namespace MsgReader

/-- The frames of these messages have been read, up to `rest`. -/
def Reads (reader : MsgReader) (rest : Bytes) (messages : List Bytes) : Prop :=
  (∀ data ∈ messages, Fits data) ∧
    ∃ consumed, consumed ++ rest = (messages.map frame).flatten ∧
      ({} : MsgParser).parse consumed = (reader.calls, reader.mParser)

variable {reader : MsgReader} {rest : Bytes} {messages : List Bytes}

theorem reads_new : Reads {} [] [] :=
  ⟨by simp, [], rfl, parse_nil not_ready_new⟩

theorem Reads.sendMsg (h : reader.Reads rest messages) {data : Bytes} (hFits : Fits data) :
    reader.Reads (MsgParser.sendMsg rest data) (messages ++ [data]) := by
  obtain ⟨hAll, consumed, hBytes, hParse⟩ := h
  refine ⟨?_, consumed, ?_, hParse⟩
  · rw [List.forall_mem_append]
    exact ⟨hAll, by simpa using hFits⟩
  · rw [List.map_append, List.flatten_append, ← hBytes]
    simp [MsgParser.sendMsg, frame]

theorem Reads.not_ready (h : reader.Reads rest messages) : ¬ reader.mParser.Ready := by
  obtain ⟨_, consumed, _, hParse⟩ := h
  have hEnd := not_ready_parse {} consumed
  rwa [hParse] at hEnd

theorem Reads.read {input : Bytes} (h : reader.Reads (input ++ rest) messages) :
    (reader.read input).Reads rest messages := by
  have hReady := h.not_ready
  obtain ⟨hAll, consumed, hBytes, hParse⟩ := h
  refine ⟨hAll, consumed ++ input, ?_, ?_⟩
  · rw [List.append_assoc, hBytes]
  · rw [splits_parse, hParse]
    change _ = (reader.calls ++ (reader.mParser.readCallback _).1,
      (reader.mParser.readCallback _).2)
    rw [readCallback_eq hReady]

/-- What has come out is the first of the messages, and all of them once nothing is left. -/
theorem Reads.calls_isPrefix (h : reader.Reads rest messages) :
    reader.calls <+: messages.map .message ∧
      (rest = [] → reader.calls = messages.map .message) := by
  have hReady := h.not_ready
  obtain ⟨hAll, consumed, hBytes, hParse⟩ := h
  have hFrames := parse_frames hAll
  rw [← hBytes, splits_parse, hParse] at hFrames
  have hCalls := congrArg Prod.fst hFrames
  refine ⟨⟨_, hCalls⟩, ?_⟩
  intro hEmpty
  rw [hEmpty, parse_nil hReady] at hCalls
  simpa using hCalls

end MsgReader

/-! ## What the server is for -/

/-- The messages that were sent over a connection since it was opened, in the two directions. -/
structure Mailbox where
  toClient : List Bytes := []
  toServer : List Bytes := []
deriving DecidableEq, Repr

/-- The mailboxes of the open connections, and how many connections each client has made. -/
structure Mail where
  boxes : Int → Option Mailbox := fun _ => none
  made : Nat → Nat := fun _ => 0

namespace Mail

def change (mail : Mail) (action : Int → Mailbox → Mailbox) : Mail :=
  { mail with boxes := fun fd => (mail.boxes fd).map (action fd) }

def changeAt (mail : Mail) (fd : Int) (action : Mailbox → Mailbox) : Mail :=
  mail.change fun key box => if key = fd then action box else box

def connect (mail : Mail) (id : Nat) : Option Int → Mail
  | none => mail
  | some fd =>
    ⟨fun key => if key = fd then some {} else mail.boxes key,
      Function.update mail.made id (mail.made id + 1)⟩

def step (mail : Mail) : MsgEvent → Mail
  | .start id accepted => mail.connect id accepted
  | .start1 id accepted => mail.connect id accepted
  | .startWithDelay _ => mail
  | .stop _ _ => mail
  | .closed fd => { mail with boxes := fun key => if key = fd then none else mail.boxes key }
  | .sendMsg fd data =>
    mail.changeAt fd fun box => { box with toClient := box.toClient ++ [data] }
  | .sendToAll data => mail.change fun _ box => { box with toClient := box.toClient ++ [data] }
  | .clientSend _ fd data =>
    mail.changeAt fd fun box => { box with toServer := box.toServer ++ [data] }
  | .clientRead _ _ _ => mail
  | .serverRead _ _ => mail

def after (events : List MsgEvent) : Mail := events.foldl step {}

theorem change_self (mail : Mail) : (mail.change fun _ box => box) = mail := by
  simp [change]

end Mail

/-! ## The invariant -/

/-- A descriptor belongs to one bufferevent of one client, and a client that has made one
connection holds no other. -/
structure Owners (clients : Nat → MsgClient) (made : Nat → Nat) : Prop where
  unique : ∀ id id' slot slot' fd, (clients id).Holds slot fd → (clients id').Holds slot' fd →
    id = id' ∧ slot = slot'
  single : ∀ id slot slot' fd fd', made id ≤ 1 → (clients id).Holds slot fd →
    (clients id).Holds slot' fd' → slot = slot'
  fresh : ∀ id, made id = 0 → (clients id).toMsgReader = {} ∧
    ∀ slot fd, ¬ (clients id).Holds slot fd

/-- A connection follows its mailbox. Bytes from the client can have been lost only if it has
stopped. -/
structure Linked (clients : Nat → MsgClient) (made : Nat → Nat) (fd : Int) (conn : MsgConnection)
    (box : Mailbox) : Prop where
  up : ∃ lost, (∀ id, (clients id).Holds .first fd → lost = []) ∧
    conn.toMsgReader.Reads (conn.up ++ lost) box.toServer
  down : ∀ id slot, made id ≤ 1 → (clients id).Holds slot fd →
    (clients id).toMsgReader.Reads conn.down box.toClient

structure MsgSystem.Keeps (s : MsgSystem) (mail : Mail) : Prop where
  owners : Owners s.clients mail.made
  linked : ∀ fd, Option.Rel (Linked s.clients mail.made fd) (s.server.connections.get? fd)
    (mail.boxes fd)
  opened : ∀ id slot fd, (s.clients id).Holds slot fd → s.server.isOpen fd = true

section Fewer

variable {clients clients' : Nat → MsgClient} {made : Nat → Nat}
  (hReader : ∀ id, (clients' id).toMsgReader = (clients id).toMsgReader)
  (hHolds : ∀ id slot fd, (clients' id).Holds slot fd → (clients id).Holds slot fd)
include hReader hHolds

theorem Owners.of_fewer (h : Owners clients made) : Owners clients' made where
  unique id id' slot slot' fd hHeld hHeld' :=
    h.unique id id' slot slot' fd (hHolds _ _ _ hHeld) (hHolds _ _ _ hHeld')
  single id slot slot' fd fd' hMade hHeld hHeld' :=
    h.single id slot slot' fd fd' hMade (hHolds _ _ _ hHeld) (hHolds _ _ _ hHeld')
  fresh id hMade := by
    obtain ⟨hNew, hNone⟩ := h.fresh id hMade
    exact ⟨(hReader id).trans hNew, fun slot fd hHeld => hNone slot fd (hHolds _ _ _ hHeld)⟩

theorem Linked.of_fewer {fd : Int} {conn : MsgConnection} {box : Mailbox}
    (h : Linked clients made fd conn box) : Linked clients' made fd conn box where
  up := by
    obtain ⟨lost, hLost, hReads⟩ := h.up
    exact ⟨lost, fun id hHeld => hLost id (hHolds _ _ _ hHeld), hReads⟩
  down id slot hMade hHeld := by
    rw [hReader]
    exact h.down id slot hMade (hHolds _ _ _ hHeld)

end Fewer

theorem Linked.sendMsg {clients : Nat → MsgClient} {made : Nat → Nat} {fd : Int}
    {conn : MsgConnection} {box : Mailbox} (h : Linked clients made fd conn box) {data : Bytes}
    (hFits : Fits data) : Linked clients made fd { conn with down := sendMsg conn.down data }
      { box with toClient := box.toClient ++ [data] } where
  up := h.up
  down id slot hMade hHeld := (h.down id slot hMade hHeld).sendMsg hFits

theorem Owners.of_read {clients : Nat → MsgClient} {made : Nat → Nat} {id : Nat}
    {slot : BufferSlot} {fd : Int} {client : MsgClient} (h : Owners clients made)
    (hHeld : (clients id).Holds slot fd)
    (hHolds : ∀ id' slot' fd', (Function.update clients id client id').Holds slot' fd' →
      (clients id').Holds slot' fd') : Owners (Function.update clients id client) made where
  unique id₁ id₂ slot₁ slot₂ fd' hHeld₁ hHeld₂ :=
    h.unique id₁ id₂ slot₁ slot₂ fd' (hHolds _ _ _ hHeld₁) (hHolds _ _ _ hHeld₂)
  single id' slot₁ slot₂ fd₁ fd₂ hMade hHeld₁ hHeld₂ :=
    h.single id' slot₁ slot₂ fd₁ fd₂ hMade (hHolds _ _ _ hHeld₁) (hHolds _ _ _ hHeld₂)
  fresh id' hMade := by
    have hId : id' ≠ id := by
      rintro rfl
      exact (h.fresh id' hMade).2 slot fd hHeld
    rw [Function.update_of_ne hId]
    exact h.fresh id' hMade

section Connected

variable {clients clients' : Nat → MsgClient} {made : Nat → Nat} {id : Nat} {slot : BufferSlot}
  {fd : Int}
  (hReader : ∀ id', (clients' id').toMsgReader = (clients id').toMsgReader)
  (hHolds : ∀ id' slot' fd', (clients' id').Holds slot' fd' →
    (id' = id ∧ slot' = slot ∧ fd' = fd) ∨ ((clients id').Holds slot' fd' ∧ fd' ≠ fd))
include hReader hHolds

theorem Owners.of_connected (h : Owners clients made) :
    Owners clients' (Function.update made id (made id + 1)) where
  unique id₁ id₂ slot₁ slot₂ fd' hHeld₁ hHeld₂ := by
    rcases hHolds _ _ _ hHeld₁ with ⟨rfl, rfl, rfl⟩ | ⟨hOld₁, hNe₁⟩
    · rcases hHolds _ _ _ hHeld₂ with ⟨rfl, rfl, _⟩ | ⟨_, hNe₂⟩
      · exact ⟨rfl, rfl⟩
      · exact absurd rfl hNe₂
    · rcases hHolds _ _ _ hHeld₂ with ⟨_, _, hEq⟩ | ⟨hOld₂, _⟩
      · exact absurd hEq hNe₁
      · exact h.unique _ _ _ _ _ hOld₁ hOld₂
  single id' slot₁ slot₂ fd₁ fd₂ hMade hHeld₁ hHeld₂ := by
    by_cases hId : id' = id
    · subst hId
      rw [Function.update_self] at hMade
      have hNone := (h.fresh id' (by omega)).2
      rcases hHolds _ _ _ hHeld₁ with ⟨_, rfl, _⟩ | ⟨hOld, _⟩
      · rcases hHolds _ _ _ hHeld₂ with ⟨_, rfl, _⟩ | ⟨hOld, _⟩
        · rfl
        · exact absurd hOld (hNone _ _)
      · exact absurd hOld (hNone _ _)
    · rw [Function.update_of_ne hId] at hMade
      rcases hHolds _ _ _ hHeld₁ with ⟨hEq, _⟩ | ⟨hOld₁, _⟩
      · exact absurd hEq hId
      · rcases hHolds _ _ _ hHeld₂ with ⟨hEq, _⟩ | ⟨hOld₂, _⟩
        · exact absurd hEq hId
        · exact h.single id' slot₁ slot₂ fd₁ fd₂ hMade hOld₁ hOld₂
  fresh id' hMade := by
    have hId : id' ≠ id := by
      rintro rfl
      rw [Function.update_self] at hMade
      omega
    rw [Function.update_of_ne hId] at hMade
    obtain ⟨hNew, hNone⟩ := h.fresh id' hMade
    refine ⟨(hReader id').trans hNew, ?_⟩
    intro slot' fd' hHeld
    rcases hHolds _ _ _ hHeld with ⟨hEq, _⟩ | ⟨hOld, _⟩
    · exact hId hEq
    · exact hNone _ _ hOld

theorem Owners.linked_new (h : Owners clients made) :
    Linked clients' (Function.update made id (made id + 1)) fd {} {} where
  up := ⟨[], fun _ _ => rfl, MsgReader.reads_new⟩
  down id' slot' hMade hHeld := by
    rcases hHolds _ _ _ hHeld with ⟨rfl, _⟩ | ⟨_, hNe⟩
    · rw [Function.update_self] at hMade
      rw [hReader, (h.fresh id' (by omega)).1]
      exact MsgReader.reads_new
    · exact absurd rfl hNe

theorem Linked.of_connected {fd' : Int} {conn : MsgConnection} {box : Mailbox} (hNe : fd' ≠ fd)
    (h : Linked clients made fd' conn box) :
    Linked clients' (Function.update made id (made id + 1)) fd' conn box := by
  have hOld : ∀ id' slot', (clients' id').Holds slot' fd' → (clients id').Holds slot' fd' := by
    intro id' slot' hHeld
    rcases hHolds _ _ _ hHeld with ⟨_, _, hEq⟩ | ⟨hOld, _⟩
    · exact absurd hEq hNe
    · exact hOld
  obtain ⟨lost, hLost, hReads⟩ := h.up
  refine ⟨⟨lost, fun id' hHeld => hLost id' (hOld id' _ hHeld), hReads⟩, ?_⟩
  intro id' slot' hMade hHeld
  have hLe : made id' ≤ 1 := by
    by_cases hId : id' = id
    · subst hId
      rw [Function.update_self] at hMade
      omega
    · rwa [Function.update_of_ne hId] at hMade
  rw [hReader]
  exact h.down id' slot' hLe (hOld id' slot' hHeld)

end Connected

theorem rel_imp {α β : Type} {R S : α → β → Prop} (hImp : ∀ a b, R a b → S a b) {a : Option α}
    {b : Option β} (h : Option.Rel R a b) : Option.Rel S a b := by
  cases h with
  | some hRel => exact .some (hImp _ _ hRel)
  | none => exact .none

namespace MsgSystem.Keeps

variable {s s' : MsgSystem} {mail : Mail}

theorem new : Keeps {} {} where
  owners := by
    constructor
    · intro _ _ slot _ _ hHeld
      cases slot <;> cases hHeld
    · intro _ slot _ _ _ _ hHeld
      cases slot <;> cases hHeld
    · intro _ _
      refine ⟨rfl, ?_⟩
      intro slot _ hHeld
      cases slot <;> cases hHeld
  linked _ := .none
  opened _ slot _ hHeld := by cases slot <;> cases hHeld

theorem change (h : s.Keeps mail) {clients : Nat → MsgClient}
    (hOwners : Owners clients mail.made)
    (hHolds : ∀ id slot fd, (clients id).Holds slot fd → (s.clients id).Holds slot fd)
    {action : Int → MsgConnection → MsgConnection} {update : Int → Mailbox → Mailbox}
    (hAction : ∀ fd conn box, s.server.connections.get? fd = some conn →
      Linked s.clients mail.made fd conn box →
      Linked clients mail.made fd (action fd conn) (update fd box)) :
    Keeps ⟨⟨s.server.connections.mapValues action⟩, clients⟩ (mail.change update) where
  owners := hOwners
  linked fd := by
    have hRel := h.linked fd
    have hFound := hAction fd
    rw [SortedMap.get?_mapValues]
    change Option.Rel _ _ ((mail.boxes fd).map (update fd))
    generalize s.server.connections.get? fd = conn, mail.boxes fd = box at hRel hFound
    cases hRel with
    | some hLinked => exact .some (hFound _ _ rfl hLinked)
    | none => exact .none
  opened id slot fd hHeld := by
    rw [MsgServer.isOpen, SortedMap.get?_mapValues, Option.isSome_map]
    exact h.opened id slot fd (hHolds _ _ _ hHeld)

theorem onConnection (h : s.Keeps mail) (fd : Int) {action : MsgConnection → MsgConnection}
    {update : Mailbox → Mailbox}
    (hAction : ∀ conn box, Linked s.clients mail.made fd conn box →
      Linked s.clients mail.made fd (action conn) (update box)) :
    Keeps { s with server := s.server.onConnection fd action } (mail.changeAt fd update) := by
  apply h.change h.owners fun _ _ _ hHeld => hHeld
  intro key conn box _ hLinked
  split
  · next hKey =>
    subst hKey
    exact hAction conn box hLinked
  · exact hLinked

theorem reader_update {id : Nat} {client : MsgClient}
    (hReader : client.toMsgReader = (s.clients id).toMsgReader) (id' : Nat) :
    (Function.update s.clients id client id').toMsgReader = (s.clients id').toMsgReader := by
  by_cases hId : id' = id
  · subst hId
    rwa [Function.update_self]
  · rw [Function.update_of_ne hId]

theorem put (h : s.Keeps mail) {id : Nat} {client : MsgClient}
    (hReader : client.toMsgReader = (s.clients id).toMsgReader)
    (hHolds : ∀ slot fd, client.Holds slot fd → (s.clients id).Holds slot fd) :
    (s.put id client).Keeps mail := by
  have hReaders := reader_update hReader
  have hHeld : ∀ id' slot fd, (Function.update s.clients id client id').Holds slot fd →
      (s.clients id').Holds slot fd := by
    intro id' slot fd hNew
    by_cases hId : id' = id
    · subst hId
      rw [Function.update_self] at hNew
      exact hHolds slot fd hNew
    · rwa [Function.update_of_ne hId] at hNew
  exact ⟨h.owners.of_fewer hReaders hHeld,
    fun fd => rel_imp (fun _ _ hLinked => hLinked.of_fewer hReaders hHeld) (h.linked fd),
    fun id' slot fd hNew => h.opened id' slot fd (hHeld id' slot fd hNew)⟩

theorem holds_connect (h : s.Keeps mail) {id : Nat} {client : MsgClient} {slot : BufferSlot}
    {fd : Int} (hOpen : s.server.isOpen fd = false) (hSlot : client.Holds slot fd)
    (hOther : ∀ slot', slot' ≠ slot → client.bufferEvent slot' = (s.clients id).bufferEvent slot')
    (id' : Nat) (slot' : BufferSlot) (fd' : Int)
    (hHeld : (Function.update s.clients id client id').Holds slot' fd') :
    (id' = id ∧ slot' = slot ∧ fd' = fd) ∨ ((s.clients id').Holds slot' fd' ∧ fd' ≠ fd) := by
  have hNew : (s.clients id').Holds slot' fd' → fd' ≠ fd := by
    rintro hOld rfl
    rw [h.opened id' slot' fd' hOld] at hOpen
    cases hOpen
  by_cases hId : id' = id
  · subst hId
    rw [Function.update_self] at hHeld
    by_cases hSame : slot' = slot
    · subst hSame
      exact .inl ⟨rfl, rfl, BufferEvent.connected.inj (hHeld.symm.trans hSlot)⟩
    · have hOld : (s.clients id').Holds slot' fd' := (hOther slot' hSame).symm.trans hHeld
      exact .inr ⟨hOld, hNew hOld⟩
  · rw [Function.update_of_ne hId] at hHeld
    exact .inr ⟨hHeld, hNew hHeld⟩

theorem connect (h : s.Keeps mail) {id : Nat} {client : MsgClient} {accepted : Option Int}
    (hStep : s.connect id client accepted = some s') (slot : BufferSlot)
    (hReader : client.toMsgReader = (s.clients id).toMsgReader)
    (hSlot : client.bufferEvent slot = .ofAccepted accepted)
    (hOther : ∀ slot', slot' ≠ slot →
      client.bufferEvent slot' = (s.clients id).bufferEvent slot') :
    s'.Keeps (mail.connect id accepted) := by
  cases accepted with
  | none =>
    cases hStep
    apply h.put hReader
    intro slot' fd hHeld
    have hNe : slot' ≠ slot := by
      rintro rfl
      cases hSlot.symm.trans hHeld
    exact (hOther slot' hNe).symm.trans hHeld
  | some fd =>
    obtain ⟨hOpen, hNext⟩ := Option.ite_none_left_eq_some.mp hStep
    cases hNext
    rw [Bool.not_eq_true] at hOpen
    have hFree : s.server.connections.get? fd = none := by simpa [MsgServer.isOpen] using hOpen
    have hHeld := h.holds_connect hOpen hSlot hOther
    refine ⟨h.owners.of_connected (reader_update hReader) hHeld, ?_, ?_⟩
    · intro key
      change Option.Rel _ ((s.server.connections.insert fd {}).1.get? key)
        (if key = fd then some {} else mail.boxes key)
      rw [SortedMap.get?_insert hFree]
      split
      · next hKey =>
        subst hKey
        exact .some (h.owners.linked_new (reader_update hReader) hHeld)
      · next hKey =>
        exact rel_imp (fun _ _ => Linked.of_connected (reader_update hReader) hHeld hKey)
          (h.linked key)
    · intro id' slot' key hNew
      change ((s.server.connections.insert fd {}).1.get? key).isSome = true
      rw [SortedMap.get?_insert hFree]
      split
      · rfl
      · next hKey =>
        rcases hHeld id' slot' key hNew with ⟨_, _, hEq⟩ | ⟨hOld, _⟩
        · exact absurd hEq hKey
        · exact h.opened id' slot' key hOld

theorem stop (h : s.Keeps mail) (id flushed : Nat) : (s.stop id flushed).Keeps mail := by
  have hHolds : ∀ slot fd, (s.clients id).stop.Holds slot fd → (s.clients id).Holds slot fd := by
    intro slot fd hHeld
    cases slot with
    | first => cases hHeld
    | second =>
      change (s.clients id).mBufferEvent1.withoutBase = .connected fd at hHeld
      unfold BufferEvent.withoutBase at hHeld
      split at hHeld <;> cases hHeld
  have hStopped : (s.put id (s.clients id).stop).Keeps mail := h.put rfl hHolds
  rw [← mail.change_self]
  refine hStopped.change hStopped.owners (fun _ _ _ hHeld => hHeld) ?_
  intro fd conn box _ hLinked
  split
  · next hFirst =>
    obtain ⟨lost, _, hReads⟩ := hLinked.up
    refine ⟨⟨conn.up.drop flushed ++ lost, ?_, ?_⟩, hLinked.down⟩
    · intro id' hHeld
      change (Function.update s.clients id _ id').Holds .first fd at hHeld
      by_cases hId : id' = id
      · subst hId
        rw [Function.update_self] at hHeld
        cases hHeld
      · rw [Function.update_of_ne hId] at hHeld
        exact absurd (h.owners.unique _ _ _ _ _ hHeld hFirst).1 hId
    · change conn.toMsgReader.Reads (conn.up.take flushed ++ (conn.up.drop flushed ++ lost)) _
      rwa [← List.append_assoc, List.take_append_drop]
  · exact hLinked

theorem closed (h : s.Keeps mail) (fd : Int) :
    Keeps ⟨s.server.removeConnection fd, fun id => (s.clients id).lose fd⟩
      { mail with boxes := fun key => if key = fd then none else mail.boxes key } := by
  have hHolds : ∀ id slot fd', ((s.clients id).lose fd).Holds slot fd' →
      (s.clients id).Holds slot fd' ∧ fd' ≠ fd := by
    intro id slot fd' hHeld
    have hLose : ((s.clients id).bufferEvent slot).lose fd = .connected fd' := by
      cases slot <;> exact hHeld
    unfold BufferEvent.lose at hLose
    split at hLose
    · cases hLose
    · next hOther =>
      refine ⟨hLose, ?_⟩
      rintro rfl
      exact hOther hLose
  have hReader : ∀ id, ((s.clients id).lose fd).toMsgReader = (s.clients id).toMsgReader :=
    fun _ => rfl
  have hOld := fun id slot fd' hHeld => (hHolds id slot fd' hHeld).1
  refine ⟨h.owners.of_fewer hReader hOld, ?_, ?_⟩
  · intro key
    change Option.Rel _ ((s.server.connections.erase fd).1.get? key)
      (if key = fd then none else mail.boxes key)
    rw [SortedMap.get?_erase]
    split
    · exact .none
    · exact rel_imp (fun _ _ => Linked.of_fewer hReader hOld) (h.linked key)
  · intro id slot key hHeld
    obtain ⟨hWas, hNe⟩ := hHolds id slot key hHeld
    change ((s.server.connections.erase fd).1.get? key).isSome = true
    rw [SortedMap.get?_erase, if_neg hNe]
    exact h.opened id slot key hWas

theorem holds_of_read {reader : MsgReader} {id id' : Nat} {slot : BufferSlot} {fd : Int}
    (h : (Function.update s.clients id { s.clients id with toMsgReader := reader } id').Holds
      slot fd) : (s.clients id').Holds slot fd := by
  by_cases hId : id' = id
  · subst hId
    rw [Function.update_self] at h
    cases slot <;> exact h
  · rwa [Function.update_of_ne hId] at h

theorem clientRead (h : s.Keeps mail) {id : Nat} {slot : BufferSlot} {fd : Int}
    {conn : MsgConnection}
    (hHeld : (s.clients id).Holds slot fd) (hFound : s.server.connections.get? fd = some conn)
    (count : Nat) : (s.clientRead id fd count conn).Keeps mail := by
  rw [← mail.change_self]
  refine h.change (h.owners.of_read hHeld fun _ _ _ => holds_of_read)
    (fun _ _ _ => holds_of_read) ?_
  intro key conn' box hFound' hLinked
  obtain ⟨lost, hLost, hReads⟩ := hLinked.up
  split
  · next hKey =>
    subst hKey
    obtain rfl : conn = conn' := Option.some.inj (hFound.symm.trans hFound')
    refine ⟨⟨lost, fun id' hNew => hLost id' (holds_of_read hNew), hReads⟩, ?_⟩
    intro id' slot' hMade hNew
    obtain ⟨rfl, rfl⟩ := h.owners.unique _ _ _ _ _ (holds_of_read hNew) hHeld
    rw [Function.update_self]
    apply MsgReader.Reads.read
    rw [List.take_append_drop]
    exact hLinked.down id' slot' hMade hHeld
  · next hKey =>
    refine ⟨⟨lost, fun id' hNew => hLost id' (holds_of_read hNew), hReads⟩, ?_⟩
    intro id' slot' hMade hNew
    have hOld := holds_of_read hNew
    by_cases hId : id' = id
    · subst hId
      obtain rfl := h.owners.single id' slot slot' fd key hMade hHeld hOld
      exact absurd (BufferEvent.connected.inj (hOld.symm.trans hHeld)) hKey
    · rw [Function.update_of_ne hId]
      exact hLinked.down id' slot' hMade hOld

theorem step {event : MsgEvent} (hFits : event.Fits) (h : s.Keeps mail)
    (hStep : s.step event = some s') : s'.Keeps (mail.step event) := by
  cases event with
  | start id accepted =>
    obtain ⟨_, hNext⟩ := Option.ite_none_right_eq_some.mp hStep
    refine h.connect hNext .first rfl rfl ?_
    intro slot hNe
    cases slot with
    | first => exact absurd rfl hNe
    | second => rfl
  | start1 id accepted =>
    obtain ⟨_, hNext⟩ := Option.ite_none_right_eq_some.mp hStep
    refine h.connect hNext .second rfl rfl ?_
    intro slot hNe
    cases slot with
    | first => rfl
    | second => exact absurd rfl hNe
  | startWithDelay id =>
    obtain ⟨_, hNext⟩ := Option.ite_none_right_eq_some.mp hStep
    cases hNext
    refine h.put ?_ ?_
    · rfl
    · intro slot fd hHeld
      cases slot <;> exact hHeld
  | stop id flushed =>
    obtain ⟨_, hNext⟩ := Option.ite_none_right_eq_some.mp hStep
    cases hNext
    exact h.stop id flushed
  | closed fd =>
    obtain ⟨_, hNext⟩ := Option.ite_none_right_eq_some.mp hStep
    cases hNext
    exact h.closed fd
  | sendMsg fd data =>
    obtain ⟨_, hNext⟩ := Option.ite_none_right_eq_some.mp hStep
    cases hNext
    apply h.onConnection
    intro conn box hLinked
    exact hLinked.sendMsg (hFits data rfl)
  | sendToAll data =>
    cases hStep
    apply h.change h.owners fun _ _ _ hHeld => hHeld
    intro fd conn box _ hLinked
    exact hLinked.sendMsg (hFits data rfl)
  | clientSend id fd data =>
    obtain ⟨⟨_, hHeld⟩, hNext⟩ := Option.ite_none_right_eq_some.mp hStep
    cases hNext
    apply h.onConnection
    intro conn box hLinked
    obtain ⟨lost, hLost, hReads⟩ := hLinked.up
    obtain rfl := hLost id hHeld
    rw [List.append_nil] at hReads
    refine ⟨⟨[], fun _ _ => rfl, ?_⟩, hLinked.down⟩
    rw [List.append_nil]
    exact hReads.sendMsg (hFits data rfl)
  | clientRead id fd count =>
    obtain ⟨⟨_, hHeld⟩, hNext⟩ := Option.ite_none_right_eq_some.mp hStep
    obtain ⟨conn, hFound, rfl⟩ := Option.map_eq_some_iff.mp hNext
    rcases hHeld with hFirst | hSecond
    · exact h.clientRead hFirst hFound count
    · exact h.clientRead hSecond hFound count
  | serverRead fd count =>
    obtain ⟨_, hNext⟩ := Option.ite_none_right_eq_some.mp hStep
    cases hNext
    have hSame : mail.changeAt fd (fun box => box) = mail := by simp [Mail.changeAt, Mail.change]
    rw [Mail.step, ← hSame]
    apply h.onConnection
    intro conn box hLinked
    obtain ⟨lost, hLost, hReads⟩ := hLinked.up
    refine ⟨⟨lost, hLost, ?_⟩, hLinked.down⟩
    apply MsgReader.Reads.read
    rwa [← List.append_assoc, List.take_append_drop]

theorem exec {events : List MsgEvent} (hFits : ∀ event ∈ events, event.Fits) (h : s.Keeps mail)
    (hRun : Execution.exec MsgSystem.step s events = some s') :
    s'.Keeps (events.foldl Mail.step mail) := by
  induction events generalizing s mail with
  | nil =>
    cases hRun
    exact h
  | cons event events ih =>
    obtain ⟨hHead, hTail⟩ := List.forall_mem_cons.mp hFits
    obtain ⟨next, hNext, hRest⟩ := Option.bind_eq_some_iff.mp hRun
    exact ih hTail (h.step hHead hNext) hRest

end MsgSystem.Keeps

/-- What a side of a connection has got, where `sent` are the messages of the other side and `rest`
the bytes that are under way. -/
def MsgReader.InOrder (reader : MsgReader) (rest : Bytes) (sent : List Bytes) : Prop :=
  reader.calls <+: sent.map .message ∧ (rest = [] → reader.calls = sent.map .message)

/-- What has come out of a connection, with the messages in its mailbox. The server loses messages
only of a client that has stopped, and a client gets its own if it has made no other connection. -/
structure MsgSystem.Delivers (system : MsgSystem) (mail : Mail) (fd : Int) (conn : MsgConnection)
    (box : Mailbox) : Prop where
  fromClient : conn.calls <+: box.toServer.map .message
  whole : ∀ id, (system.clients id).Holds .first fd →
    conn.toMsgReader.InOrder conn.up box.toServer
  toClient : ∀ id slot, mail.made id ≤ 1 → (system.clients id).Holds slot fd →
    (system.clients id).toMsgReader.InOrder conn.down box.toClient

def lateClient : List MsgEvent :=
  [.start 0 (some 3), .sendToAll [7], .start 1 (some 4), .sendToAll [8], .clientRead 0 3 12,
    .clientRead 1 4 9]

/-- One parser for two connections: it reads the header of a message over the one and then the same
message over the other. -/
example : (Chunks.feedAll readCallback {} [(frame [7]).take 8, frame [7]]).1 =
    [.message [0], .formatError] := by
  rw [feedAll_readCallback not_ready_new, (parse_new _).1]
  decide

end PsRpc
