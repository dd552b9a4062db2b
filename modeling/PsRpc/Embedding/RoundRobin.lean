import PsRpc.Embedding.Slices
import PsRpc.Library.Lanes

/-! # Parameters and their servers

`RoundRobinSlicer` sends a parameter to the server that `AddKeyToServerId` has chosen for its key.
A message has a list of keys, a list of lengths and one list of all values; where the values of a
key start is summed up anew for each key.
-/

namespace PsRpc

open Lanes Spans

/-- A worker with the servers of the keys of parameters. -/
structure KeyWorker extends Worker where
  keyToServerId : Table UInt64 Int

namespace KeyWorker

open Worker

/-- Both operands of `%` are unsigned. -/
def addKeyByHashMod (w : KeyWorker) (key : UInt64) : Except Fault KeyWorker :=
  if w.serverNum = 0 then .error (.exception "Server number is invalid:0")
  else
    .ok { w with
      keyToServerId :=
        w.keyToServerId.insert key (toInt64 (key % UInt64.ofInt w.serverNum)) }

def addKeyToServerId (w : KeyWorker) (key : UInt64) : Except Fault KeyWorker :=
  w.addKeyByHashMod key

def addKeysToServerId (w : KeyWorker) (keys : List UInt64) : Except Fault KeyWorker :=
  keys.foldlM addKeyToServerId w

variable {V : Type}

/-- `std::accumulate(.., 0)` sums up in an `int`. -/
def accumulate (lens : List Int) : Int :=
  lens.foldl (fun sum len => (sum + len).bmod (2 ^ 32)) 0

def segment (values : List V) (offset len : Int) : Except WorkerFault (List V) :=
  if 0 ≤ offset ∧ 0 ≤ len ∧ offset + len ≤ values.length then
    .ok ((values.drop offset.toNat).take len.toNat)
  else .error (.fault (.outOfBounds "values" (offset + len)))

def orFault {α : Type} (fault : WorkerFault) : Option α → Except WorkerFault α
  | some value => .ok value
  | none => .error fault

/-- The body of the loop, for a key and its place. `key_to_server_id_[param_key]` makes an entry for
a key that was not added. -/
def roundRobinTurn (send : KVMessage V) (s : KeyWorker × List (Bool × KVMessage V))
    (entry : Int × Nat) : Except WorkerFault (KeyWorker × List (Bool × KVMessage V)) := do
  let paramKey := UInt64.ofInt entry.1
  let serverId := UInt64.ofInt (s.1.keyToServerId.getD paramKey 0)
  let slot ← orFault (.outOfRange "sliced") s.2[serverId.toNat]?
  let len ← orFault (.fault (.outOfBounds "lens" entry.2)) send.len[entry.2]?
  let offset := accumulate (send.len.take entry.2)
  let values ← segment send.values offset len
  .ok ({ s.1 with keyToServerId := s.1.keyToServerId.subscript paramKey 0 },
    s.2.set serverId.toNat (true,
      { keys := slot.2.keys ++ [toInt32 paramKey]
        values := slot.2.values ++ values
        len := slot.2.len ++ [len] }))

def roundRobinSlicer (w : KeyWorker) (send : KVMessage V)
    (sliced : Option (List (Bool × KVMessage V))) :
    Except WorkerFault (KeyWorker × List (Bool × KVMessage V)) := do
  let sliced ← checkSliced sliced
  send.keys.zipIdx.foldlM (roundRobinTurn send) (w, resize w.serverNum.toNat (false, {}) sliced)

/-! ## The parts of a message -/

structure Part (V : Type) where
  key : Int
  len : Int
  values : List V
deriving DecidableEq, Repr

def lenAt (send : KVMessage V) (i : Nat) : Nat := (send.len.getD i 0).toNat

def partAt (send : KVMessage V) (entry : Int × Nat) : Part V where
  key := entry.1
  len := send.len.getD entry.2 0
  values := (send.values.drop (start (lenAt send) entry.2)).take (lenAt send entry.2)

def parts (send : KVMessage V) : List (Part V) := send.keys.zipIdx.map (partAt send)

/-- The key as an unsigned number, modulo the number of servers. -/
def serverOf (servers : Nat) (part : Part V) : Nat := (UInt64.ofInt part.key).toNat % servers

def partsOf (servers : Nat) (send : KVMessage V) (j : Nat) : List (Part V) :=
  lane (serverOf servers) id j (parts send)

structure RoundRobinSliceOf (servers : Nat) (send : KVMessage V) (j : Nat)
    (slice : Bool × KVMessage V) : Prop where
  keys : slice.2.keys = (partsOf servers send j).map Part.key
  lens : slice.2.len = (partsOf servers send j).map Part.len
  values : slice.2.values = (partsOf servers send j).flatMap Part.values
  flag : slice.1 = true ↔ partsOf servers send j ≠ []

/-! ## Where the values of a key start -/

theorem accumulate_eq {lens : List Int} (hNonneg : ∀ len ∈ lens, 0 ≤ len)
    (hSmall : lens.sum < 2 ^ 31) : accumulate lens = lens.sum := by
  induction lens using List.reverseRecOn with
  | nil => rfl
  | append_singleton lens len ih =>
    rw [List.sum_append, List.sum_singleton] at hSmall ⊢
    have hLen := hNonneg len (by simp)
    have hBefore : ∀ len ∈ lens, 0 ≤ len := fun len hMem => hNonneg len (by simp [hMem])
    have hSum := List.sum_nonneg hBefore
    rw [accumulate, List.foldl_append, List.foldl_cons, List.foldl_nil]
    change (accumulate lens + len).bmod (2 ^ 32) = _
    rw [ih hBefore (by omega)]
    exact Int.bmod_eq_of_le (by omega) (by omega)

variable {send : KVMessage V}

theorem start_lenAt (hNonneg : ∀ len ∈ send.len, 0 ≤ len) (i : Nat) :
    (start (lenAt send) i : Int) = (send.len.take i).sum := by
  induction i with
  | zero => rfl
  | succ i ih =>
    rw [start_succ, List.take_add_one, List.sum_append, Nat.cast_add, ih, lenAt, List.getD]
    cases hAt : send.len[i]? with
    | none => rfl
    | some len =>
      have hLen := hNonneg len (List.mem_of_getElem? hAt)
      simp [hLen]

theorem sum_take_le (hNonneg : ∀ len ∈ send.len, 0 ≤ len) (i : Nat) :
    (send.len.take i).sum ≤ send.len.sum := by
  have hRest : 0 ≤ (send.len.drop i).sum :=
    List.sum_nonneg fun len hMem => hNonneg len (List.mem_of_mem_drop hMem)
  rw [← List.sum_take_add_sum_drop send.len i]
  omega

structure WellMeasured (send : KVMessage V) : Prop where
  lens : send.len.length = send.keys.length
  nonneg : ∀ len ∈ send.len, 0 ≤ len
  sum : send.len.sum = send.values.length
  small : send.values.length < 2 ^ 31

theorem WellMeasured.start_le (h : WellMeasured send) (i : Nat) :
    start (lenAt send) i ≤ send.values.length := by
  have hStart := start_lenAt h.nonneg i
  have hTake := sum_take_le h.nonneg i
  rw [h.sum] at hTake
  omega

theorem WellMeasured.accumulate_take (h : WellMeasured send) (i : Nat) :
    accumulate (send.len.take i) = start (lenAt send) i := by
  have hTake := sum_take_le h.nonneg i
  have hSum := h.sum
  have hSmall := h.small
  rw [start_lenAt h.nonneg]
  apply accumulate_eq
  · exact fun len hMem => h.nonneg len (List.mem_of_mem_take hMem)
  · omega

theorem WellMeasured.segment_eq (h : WellMeasured send) {i : Nat} {len : Int}
    (hAt : send.len[i]? = some len) (key : Int) :
    segment send.values (accumulate (send.len.take i)) len = .ok (partAt send (key, i)).values := by
  have hLen := h.nonneg len (List.mem_of_getElem? hAt)
  have hLenAt : lenAt send i = len.toNat := by rw [lenAt, List.getD, hAt, Option.getD_some]
  have hStop := h.start_le (i + 1)
  rw [start_succ, hLenAt] at hStop
  rw [h.accumulate_take, segment, if_pos (by omega), partAt, hLenAt, Int.toNat_natCast]

/-! ## The servers of the keys -/

variable {w w' : KeyWorker} {servers : Nat}

def Keyed (w : KeyWorker) (servers : Nat) (key : UInt64) : Prop :=
  w.keyToServerId.lookup key = some ((key.toNat % servers : Nat) : Int)

theorem addKeyToServerId_spec (hServers : w.serverNum = servers) (hMax : servers < 2 ^ 63)
    {key : UInt64} (h : w.addKeyToServerId key = .ok w') :
    w'.serverNum = servers ∧ w'.Keyed servers key ∧
      ∀ other, w.Keyed servers other → w'.Keyed servers other := by
  rw [addKeyToServerId, addKeyByHashMod] at h
  split at h
  · cases h
  · next hZero =>
    cases h
    have hMod : toInt64 (key % UInt64.ofInt w.serverNum) = (key.toNat % servers : Nat) := by
      have hLt := Nat.mod_lt key.toNat (show 0 < servers by omega)
      have hToNat : (key % UInt64.ofInt w.serverNum).toNat = key.toNat % servers := by
        rw [UInt64.toNat_mod, hServers, toNat_ofInt_natCast (by omega)]
      rw [toInt64_of_lt (by omega), hToNat]
    refine ⟨hServers, ?_, ?_⟩
    · exact (AList.lookup_insert _).trans (congrArg some hMod)
    · intro other hOther
      refine (Table.lookup_insert _ _ _ _).trans ?_
      split
      · next hSame => rw [hMod, hSame]
      · exact hOther

theorem addKeysToServerId_spec (hServers : w.serverNum = servers) (hMax : servers < 2 ^ 63)
    {keys : List UInt64} (h : w.addKeysToServerId keys = .ok w') :
    w'.serverNum = servers ∧ ∀ key, key ∈ keys ∨ w.Keyed servers key → w'.Keyed servers key := by
  induction keys generalizing w with
  | nil =>
    cases h
    exact ⟨hServers, by simp⟩
  | cons first keys ih =>
    rw [addKeysToServerId, List.foldlM_cons] at h
    obtain ⟨next, hNext, hRest⟩ := bind_eq_ok h
    obtain ⟨hServers', hFirst, hOthers⟩ := addKeyToServerId_spec hServers hMax hNext
    obtain ⟨hServers'', hKeys⟩ := ih hServers' hRest
    refine ⟨hServers'', ?_⟩
    rintro key (hMem | hKeyed)
    · obtain rfl | hMem := List.mem_cons.mp hMem
      · exact hKeys key (.inr hFirst)
      · exact hKeys key (.inl hMem)
    · exact hKeys key (.inr (hOthers key hKeyed))

theorem addKeysToServerId_returns (hServers : w.serverNum ≠ 0) (keys : List UInt64) :
    ∃ w', w.addKeysToServerId keys = .ok w' := by
  induction keys generalizing w with
  | nil => exact ⟨w, rfl⟩
  | cons first keys ih =>
    rw [addKeysToServerId, List.foldlM_cons, addKeyToServerId, addKeyByHashMod, if_neg hServers]
    exact ih hServers

/-! ## The loop -/

def addParts (slot : Bool × KVMessage V) (parts : List (Part V)) : Bool × KVMessage V :=
  (slot.1 || !parts.isEmpty,
    { keys := slot.2.keys ++ parts.map Part.key
      values := slot.2.values ++ parts.flatMap Part.values
      len := slot.2.len ++ parts.map Part.len })

theorem addParts_nil (slot : Bool × KVMessage V) : addParts slot [] = slot := by
  simp [addParts]

theorem addParts_cons (slot : Bool × KVMessage V) (part : Part V) (parts : List (Part V)) :
    addParts (addParts slot [part]) parts = addParts slot (part :: parts) := by
  simp [addParts]

def Routable (w : KeyWorker) (servers : Nat) (send : KVMessage V) (entry : Int × Nat) : Prop :=
  IsInt32 entry.1 ∧ w.Keyed servers (UInt64.ofInt entry.1) ∧ ∃ len, send.len[entry.2]? = some len

theorem roundRobinTurn_ok (hSend : WellMeasured send) {entry : Int × Nat}
    (hEntry : w.Routable servers send entry) {sliced : List (Bool × KVMessage V)}
    {slot : Bool × KVMessage V}
    (hSlot : sliced[serverOf servers (partAt send entry)]? = some slot) :
    roundRobinTurn send (w, sliced) entry =
      .ok ({ w with keyToServerId := w.keyToServerId.subscript (UInt64.ofInt entry.1) 0 },
        sliced.set (serverOf servers (partAt send entry)) (addParts slot [partAt send entry])) := by
  obtain ⟨hInt, hKeyed, len, hLen⟩ := hEntry
  have hServer : (UInt64.ofInt (w.keyToServerId.getD (UInt64.ofInt entry.1) 0)).toNat =
      serverOf servers (partAt send entry) := by
    have hLt : (UInt64.ofInt entry.1).toNat % servers < 2 ^ 64 := by
      have hMod := Nat.mod_le (UInt64.ofInt entry.1).toNat servers
      have hToNat := (UInt64.ofInt entry.1).toNat_lt
      omega
    rw [Table.getD, hKeyed, Option.getD_some, toNat_ofInt_natCast hLt]
    rfl
  have hLenOf : len = (partAt send entry).len := by
    rw [partAt, List.getD, hLen, Option.getD_some]
  rw [roundRobinTurn, hServer, hSlot, hLen]
  change (segment send.values (accumulate (send.len.take entry.2)) len >>= _) = _
  rw [hSend.segment_eq hLen entry.1, toInt32_ofInt hInt, hLenOf, addParts]
  simp only [List.map_cons, List.map_nil, List.flatMap_cons, List.flatMap_nil, List.append_nil,
    List.isEmpty_cons, Bool.not_false, Bool.or_true]
  rfl

theorem Routable.subscript {entry entry' : Int × Nat} (h : w.Routable servers send entry)
    (h' : w.Routable servers send entry') :
    Routable { w with keyToServerId := w.keyToServerId.subscript (UInt64.ofInt entry.1) 0 }
      servers send entry' := by
  obtain ⟨_, hKeyed, _⟩ := h
  obtain ⟨hInt', hKeyed', hLen'⟩ := h'
  exact ⟨hInt', (Table.subscript_mem hKeyed _).trans hKeyed', hLen'⟩

theorem roundRobin_turns (hSend : WellMeasured send) (hPos : 0 < servers)
    {entries : List (Int × Nat)} (hEntries : ∀ entry ∈ entries, w.Routable servers send entry)
    {sliced : List (Bool × KVMessage V)} (hLength : sliced.length = servers) :
    ∃ w' slices, entries.foldlM (roundRobinTurn send) (w, sliced) = .ok (w', slices) ∧
      slices.length = servers ∧ ∀ (j : Nat) slot, sliced[j]? = some slot →
        slices[j]? = some (addParts slot
          (lane (serverOf servers) id j (entries.map (partAt send)))) := by
  induction entries generalizing w sliced with
  | nil =>
    refine ⟨w, sliced, rfl, hLength, ?_⟩
    intro j slot hSlot
    rw [hSlot]
    exact congrArg some (addParts_nil slot).symm
  | cons entry entries ih =>
    rw [List.forall_mem_cons] at hEntries
    have hServer : serverOf servers (partAt send entry) < sliced.length := by
      rw [hLength]
      exact Nat.mod_lt _ hPos
    have hTurn := roundRobinTurn_ok hSend hEntries.1 (List.getElem?_eq_getElem hServer)
    obtain ⟨w', slices, hRun, hLength', hSlices⟩ :=
      ih (fun entry' hMem => hEntries.1.subscript (hEntries.2 entry' hMem))
        ((List.length_set ..).trans hLength)
    refine ⟨w', slices, ?_, hLength', ?_⟩
    · rw [List.foldlM_cons, hTurn]
      exact hRun
    · intro j slot hSlot
      rw [List.map_cons, lane_cons]
      by_cases hSame : serverOf servers (partAt send entry) = j
      · subst hSame
        have hSet := List.getElem?_set_self
          (a := addParts sliced[serverOf servers (partAt send entry)] [partAt send entry]) hServer
        rw [hSlices _ _ hSet, if_pos rfl, ← Option.some.inj
          ((List.getElem?_eq_getElem hServer).symm.trans hSlot), addParts_cons]
        rfl
      · rw [if_neg hSame]
        exact hSlices j slot ((List.getElem?_set_ne hSame).trans hSlot)

theorem WellMeasured.parts_values (h : WellMeasured send) :
    (parts send).flatMap Part.values = send.values := by
  have hParts : (parts send).map Part.values = (List.range send.keys.length).map fun i =>
      (send.values.drop (start (lenAt send) i * 1)).take (lenAt send i * 1) := by
    rw [parts, List.map_map, ← List.length_zipIdx (l := send.keys) (i := 0)]
    apply map_eq_map_range
    intro i entry hAt
    rw [List.getElem?_zipIdx, Option.map_eq_some_iff] at hAt
    obtain ⟨key, _, rfl⟩ := hAt
    simp [partAt]
  have hAll : (start (lenAt send) send.keys.length : Int) = send.values.length := by
    rw [start_lenAt h.nonneg, ← h.lens, List.take_length, h.sum]
  rw [List.flatMap_def, hParts, flatten_slices, Nat.mul_one, Int.ofNat_inj.mp hAll,
    List.take_length]

theorem roundRobinSliceOf_addParts (servers : Nat) (send : KVMessage V) (j : Nat) :
    RoundRobinSliceOf servers send j (addParts (false, {}) (partsOf servers send j)) where
  keys := List.nil_append _
  lens := List.nil_append _
  values := List.nil_append _
  flag := by simp [addParts]

theorem partsOf_perm (hPos : 0 < servers) (send : KVMessage V) :
    ((List.range servers).flatMap fun j => partsOf servers send j).Perm (parts send) := by
  have hKeys : ∀ part ∈ parts send, serverOf servers part ∈ List.range servers :=
    fun part _ => List.mem_range.mpr (Nat.mod_lt _ hPos)
  have hPerm := lanes_perm id List.nodup_range hKeys
  rwa [List.map_id] at hPerm

end KeyWorker

/-- `RoundRobinSlicer` splits a message by the servers of its keys. A slice holds the keys of its
server with their lengths and values, all in the order of the message, and every value goes to one
server. -/
theorem round_robin_split {V : Type} (w w' : KeyWorker) (servers : Nat)
    (hServers : w.serverNum = servers) (hPos : 1 ≤ servers) (hMax : servers < 2 ^ 63)
    (added : List UInt64) (hAdd : w.addKeysToServerId added = .ok w') (send : KVMessage V)
    (hKeys : ∀ key ∈ send.keys, UInt64.ofInt key ∈ added) (hInt : ∀ key ∈ send.keys, IsInt32 key)
    (hSend : KeyWorker.WellMeasured send) (sliced : List (Bool × KVMessage V))
    (hFresh : ∀ slot ∈ sliced, slot = (false, {})) :
    ∃ w'' slices, w'.roundRobinSlicer send (some sliced) = .ok (w'', slices) ∧
      slices.length = servers ∧
      (∀ (j : Nat) slice, slices[j]? = some slice →
        KeyWorker.RoundRobinSliceOf servers send j slice) ∧
      (slices.flatMap fun slice => slice.2.values).Perm send.values := by
  obtain ⟨hServers', hKeyed⟩ := KeyWorker.addKeysToServerId_spec hServers hMax hAdd
  have hEntries : ∀ entry ∈ send.keys.zipIdx, w'.Routable servers send entry := by
    intro entry hEntry
    have hKey := List.fst_mem_of_mem_zipIdx hEntry
    have hLt : entry.2 < send.len.length := by
      rw [hSend.lens]
      exact (List.getElem?_eq_some_iff.mp (List.mem_zipIdx_iff_getElem?.mp hEntry)).1
    exact ⟨hInt _ hKey, hKeyed _ (.inl (hKeys _ hKey)), _, List.getElem?_eq_getElem hLt⟩
  obtain ⟨w'', slices, hRun, hLength, hSlices⟩ := KeyWorker.roundRobin_turns hSend hPos hEntries
    (Worker.length_resize servers (false, {}) sliced)
  have hSlice (j : Nat) (slice : Bool × KVMessage V) (hAt : slices[j]? = some slice) :
      KeyWorker.RoundRobinSliceOf servers send j slice := by
    obtain ⟨hLt, _⟩ := List.getElem?_eq_some_iff.mp hAt
    have hSlot : sliced[j]?.getD (false, {}) = (false, {}) := by
      cases hOld : sliced[j]? with
      | none => rfl
      | some slot => exact hFresh slot (List.mem_of_getElem? hOld)
    have hResize := Worker.getElem?_resize (hLength ▸ hLt) (false, {}) sliced
    rw [hSlot] at hResize
    rw [hSlices j _ hResize] at hAt
    cases hAt
    exact KeyWorker.roundRobinSliceOf_addParts servers send j
  refine ⟨w'', slices, ?_, hLength, hSlice, ?_⟩
  · rw [KeyWorker.roundRobinSlicer, hServers', Int.toNat_natCast]
    exact hRun
  · have hValues : (slices.map fun slice => slice.2.values) = (List.range slices.length).map
        fun j => (KeyWorker.partsOf servers send j).flatMap KeyWorker.Part.values :=
      map_eq_map_range fun j slice hAt => (hSlice j slice hAt).values
    have hPerm := (KeyWorker.partsOf_perm hPos send).flatMap_right KeyWorker.Part.values
    rw [hLength] at hValues
    rwa [List.flatMap_assoc, hSend.parts_values, List.flatMap_def, ← hValues,
      ← List.flatMap_def] at hPerm

/-- Of three servers, the key 1, which occurs twice, has the server 1; so has the key -3, which is
`2 ^ 64 - 3` as a `Key`. -/
def fourKeys : KVMessage Nat :=
  { keys := [1, -2, 1, -3], values := [10, 20, 21, 30, 40], len := [1, 2, 1, 1] }

theorem round_robin_split_four_keys :
    ∃ (w : KeyWorker) (w'' : KeyWorker) (slices : List (Bool × KVMessage Nat))
      (slice : Bool × KVMessage Nat),
      KeyWorker.addKeysToServerId ⟨.new 3, ∅⟩ (fourKeys.keys.map UInt64.ofInt) = .ok w ∧
      w.roundRobinSlicer fourKeys (some []) = .ok (w'', slices) ∧ slices.length = 3 ∧
      slices[1]? = some slice ∧ slice.1 = true ∧ slice.2.keys = [1, 1, -3] ∧
      slice.2.len = [1, 1, 1] ∧ slice.2.values = [10, 30, 40] := by
  obtain ⟨w, hAdd⟩ := KeyWorker.addKeysToServerId_returns (w := ⟨.new 3, ∅⟩) (by decide)
    (fourKeys.keys.map UInt64.ofInt)
  obtain ⟨w'', slices, hRun, hLength, hSlice, _⟩ :=
    round_robin_split ⟨.new 3, ∅⟩ w 3 rfl (by decide) (by decide) _ hAdd fourKeys
      (fun key hKey => List.mem_map_of_mem hKey) (by simp [IsInt32, fourKeys])
      ⟨rfl, by simp [fourKeys], rfl, by decide⟩ [] (by simp)
  have hAt : slices[1]? = some slices[1] := List.getElem?_eq_getElem (by omega)
  have hOf := hSlice 1 slices[1] hAt
  have hParts : KeyWorker.partsOf 3 fourKeys 1 = [⟨1, 1, [10]⟩, ⟨1, 1, [30]⟩, ⟨-3, 1, [40]⟩] := by
    decide
  refine ⟨w, w'', slices, slices[1], hAdd, hRun, hLength, hAt, ?_, ?_, ?_, ?_⟩
  · rw [hOf.flag, hParts]
    simp
  · rw [hOf.keys, hParts]
    rfl
  · rw [hOf.lens, hParts]
    rfl
  · rw [hOf.values, hParts]
    rfl

end PsRpc
