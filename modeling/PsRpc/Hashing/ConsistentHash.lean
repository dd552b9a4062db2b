import PsRpc.Library.Execution
import PsRpc.Library.KeyRing
import PsRpc.Library.SortedMap

/-! # Consistent hashing

`consistent_hash_map` keeps its nodes under their hashes. `find` gives the first node from a hash
on, and behind the last node it goes on with the first one, so it is the owner of the hash on the
ring.
-/

namespace PsRpc

open Execution KeyRing

structure ConsistentHashMap (κ τ : Type) [LinearOrder κ] where
  hasher : τ → κ
  nodes : SortedMap κ τ

/-- The operations that change the ring. The second `erase` takes an iterator, here the key that it
points to. -/
inductive RingOp (κ τ : Type) where
  | insert (node : τ)
  | erase (node : τ)
  | eraseAt (key : κ)

namespace ConsistentHashMap

variable {κ τ : Type} [LinearOrder κ]

def new (hasher : τ → κ) : ConsistentHashMap κ τ := ⟨hasher, .empty⟩

def empty (ring : ConsistentHashMap κ τ) : Bool := ring.nodes.entries.isEmpty

def insert (ring : ConsistentHashMap κ τ) (node : τ) : ConsistentHashMap κ τ × (κ × τ) × Bool :=
  let result := ring.nodes.insert (ring.hasher node) node
  ({ ring with nodes := result.1 }, result.2)

def erase (ring : ConsistentHashMap κ τ) (node : τ) : ConsistentHashMap κ τ × Nat :=
  let result := ring.nodes.erase (ring.hasher node)
  ({ ring with nodes := result.1 }, result.2)

/-- The iterator has to point into the map. -/
def eraseAt (ring : ConsistentHashMap κ τ) (key : κ) : Option (ConsistentHashMap κ τ) :=
  (ring.nodes.find key).map fun _ => { ring with nodes := (ring.nodes.erase key).1 }

def find (ring : ConsistentHashMap κ τ) (hash : κ) : Option (κ × τ) :=
  if ring.empty then none
  else
    match ring.nodes.lowerBound hash with
    | some entry => some entry
    | none => ring.nodes.begin

def step (ring : ConsistentHashMap κ τ) : RingOp κ τ → Option (ConsistentHashMap κ τ)
  | .insert node => some (ring.insert node).1
  | .erase node => some (ring.erase node).1
  | .eraseAt key => ring.eraseAt key

variable {ring ring' : ConsistentHashMap κ τ} {op : RingOp κ τ} {entry : κ × τ} {h : κ}

/-! ## Every node is stored under its hash -/

def Hashed (ring : ConsistentHashMap κ τ) : Prop :=
  ∀ entry ∈ ring.nodes.entries, entry.1 = ring.hasher entry.2

theorem Hashed.erased (hHashed : Hashed ring) (key : κ) :
    Hashed { ring with nodes := (ring.nodes.erase key).1 } := by
  intro entry hEntry
  exact hHashed entry (SortedMap.mem_erase.mp hEntry).1

theorem Hashed.step (hHashed : Hashed ring) (hStep : ring.step op = some ring') :
    Hashed ring' := by
  cases op with
  | insert node =>
    cases hStep
    intro entry hEntry
    obtain rfl | hOld := SortedMap.mem_of_mem_insert hEntry
    · rfl
    · exact hHashed entry hOld
  | erase node =>
    cases hStep
    exact hHashed.erased _
  | eraseAt key =>
    obtain ⟨_, _, rfl⟩ := Option.map_eq_some_iff.mp hStep
    exact hHashed.erased key

theorem hashed_of_exec {hasher : τ → κ} {ops : List (RingOp κ τ)}
    (hRun : exec step (.new hasher) ops = some ring) : Hashed ring := by
  have hInit : Hashed (new hasher) := by
    intro entry hEntry
    cases hEntry
  exact exec_invariant (fun _ _ _ hHashed hStep => hHashed.step hStep) hInit hRun

/-! ## The owner of a hash -/

def keys (ring : ConsistentHashMap κ τ) : Set κ :=
  { key | ∃ entry ∈ ring.nodes.entries, entry.1 = key }

theorem mem_keys (hEntry : entry ∈ ring.nodes.entries) : entry.1 ∈ ring.keys :=
  ⟨entry, hEntry, rfl⟩

theorem empty_iff : ring.empty = true ↔ ring.nodes.entries = [] := List.isEmpty_iff

/-- A ring with nodes has an owner for every hash, and `find` gives it. -/
theorem find_owner (hNodes : ring.nodes.entries ≠ []) :
    ∃ entry ∈ ring.nodes.entries, ring.find h = some entry ∧ IsOwner ring.keys h entry.1 := by
  rw [find, if_neg (mt empty_iff.mp hNodes)]
  split
  · next entry hFound =>
    obtain ⟨hEntry, hLe, hLeast⟩ := SortedMap.lowerBound_spec hFound
    refine ⟨entry, hEntry, rfl, mem_keys hEntry, ?_⟩
    rintro _ ⟨other, hOther, rfl⟩
    exact cut_le_of_le hLe (hLeast other hOther)
  · next hNone =>
    have hBelow := SortedMap.lowerBound_eq_none_iff.mp hNone
    obtain ⟨entry, hFirst⟩ := Option.isSome_iff_exists.mp (List.isSome_head?.mpr hNodes)
    obtain ⟨hEntry, hLeast⟩ := SortedMap.begin_spec hFirst
    refine ⟨entry, hEntry, hFirst, mem_keys hEntry, ?_⟩
    rintro _ ⟨other, hOther, rfl⟩
    exact cut_le_of_lt (hBelow other hOther) (hLeast other hOther)

theorem find_eq_some_iff :
    ring.find h = some entry ↔ entry ∈ ring.nodes.entries ∧ IsOwner ring.keys h entry.1 := by
  constructor
  · intro hFind
    have hNodes : ring.nodes.entries ≠ [] := by
      intro hEmpty
      rw [find, if_pos (empty_iff.mpr hEmpty)] at hFind
      cases hFind
    obtain ⟨found, hFound, hFind', hOwner⟩ := find_owner (h := h) hNodes
    obtain rfl := Option.some.inj (hFind.symm.trans hFind')
    exact ⟨hFound, hOwner⟩
  · rintro ⟨hEntry, hOwner⟩
    obtain ⟨found, hFound, hFind, hOwner'⟩ := find_owner (h := h) (List.ne_nil_of_mem hEntry)
    rw [hFind, SortedMap.eq_of_key_eq hFound hEntry (hOwner'.unique hOwner)]

theorem find_congr
    (hSame : ∀ entry, entry ∈ ring'.nodes.entries ↔ entry ∈ ring.nodes.entries) :
    ring'.find h = ring.find h := by
  have hKeys : ring'.keys = ring.keys := by
    ext key
    exact exists_congr fun entry => and_congr_left' (hSame entry)
  ext entry
  rw [find_eq_some_iff, find_eq_some_iff, hKeys, hSame]

/-! ## Inserting and erasing -/

theorem mem_insert {x : τ} (hNew : ring.hasher x ∉ ring.keys) :
    entry ∈ (ring.insert x).1.nodes.entries ↔
      entry = (ring.hasher x, x) ∨ entry ∈ ring.nodes.entries := by
  have hOther : ∀ entry ∈ ring.nodes.entries, entry.1 ≠ ring.hasher x :=
    fun entry hEntry hKey => hNew ⟨entry, hEntry, hKey⟩
  rw [insert, SortedMap.insert_new hOther]
  exact SortedMap.mem_place hOther

theorem keys_insert {x : τ} (hNew : ring.hasher x ∉ ring.keys) :
    (ring.insert x).1.keys = Insert.insert (ring.hasher x) ring.keys := by
  ext key
  constructor
  · rintro ⟨entry, hEntry, rfl⟩
    obtain rfl | hOld := (mem_insert hNew).mp hEntry
    · exact .inl rfl
    · exact .inr (mem_keys hOld)
  · rintro (rfl | ⟨entry, hEntry, rfl⟩)
    · exact ⟨_, (mem_insert hNew).mpr (.inl rfl), rfl⟩
    · exact ⟨entry, (mem_insert hNew).mpr (.inr hEntry), rfl⟩

theorem find_insert_of_empty {x : τ} (hEmpty : ring.nodes.entries = []) :
    (ring.insert x).1.find h = some (ring.hasher x, x) := by
  have hKeys : ring.keys = ∅ := by
    ext key
    simp [keys, hEmpty]
  have hNew : ring.hasher x ∉ ring.keys := by
    rw [hKeys]
    exact Set.notMem_empty _
  refine find_eq_some_iff.mpr ⟨(mem_insert hNew).mpr (.inl rfl), ?_⟩
  rw [keys_insert hNew, hKeys, insert_empty_eq]
  exact isOwner_singleton h _

theorem find_insert {x : τ} (hNew : ring.hasher x ∉ ring.keys) :
    (ring.insert x).1.find h = some (ring.hasher x, x) ∨
      ∃ entry, ring.find h = some entry ∧ (ring.insert x).1.find h = some entry := by
  cases hFind : ring.find h with
  | none =>
    left
    apply find_insert_of_empty
    by_contra hNodes
    obtain ⟨entry, _, hFound, _⟩ := find_owner (h := h) hNodes
    rw [hFind] at hFound
    cases hFound
  | some entry =>
    obtain ⟨hEntry, hOwner⟩ := find_eq_some_iff.mp hFind
    obtain hOwner | hOwner := hOwner.insert (ring.hasher x)
    · left
      refine find_eq_some_iff.mpr ⟨(mem_insert hNew).mpr (.inl rfl), ?_⟩
      rw [keys_insert hNew]
      exact hOwner
    · right
      refine ⟨entry, rfl, find_eq_some_iff.mpr ⟨(mem_insert hNew).mpr (.inr hEntry), ?_⟩⟩
      rw [keys_insert hNew]
      exact hOwner

theorem find_insert_erase {x : τ} (hNew : ring.hasher x ∉ ring.keys) :
    ((ring.insert x).1.erase x).1.find h = ring.find h := by
  apply find_congr
  intro entry
  refine SortedMap.mem_erase.trans ?_
  rw [mem_insert hNew]
  constructor
  · rintro ⟨rfl | hOld, hKey⟩
    · exact absurd rfl hKey
    · exact hOld
  · intro hOld
    exact ⟨.inr hOld, fun hKey => hNew ⟨entry, hOld, hKey⟩⟩

theorem find_erase {y : τ} (hNode : (ring.hasher y, y) ∈ ring.nodes.entries)
    (hOther : ring.find h ≠ some (ring.hasher y, y)) : (ring.erase y).1.find h = ring.find h := by
  obtain ⟨entry, hEntry, hFind, hOwner⟩ := find_owner (h := h) (List.ne_nil_of_mem hNode)
  have hKey : entry.1 ≠ ring.hasher y := by
    intro hKey
    rw [hFind, SortedMap.eq_of_key_eq hEntry hNode hKey] at hOther
    exact hOther rfl
  have hKept : entry ∈ (ring.erase y).1.nodes.entries := SortedMap.mem_erase.mpr ⟨hEntry, hKey⟩
  rw [hFind]
  refine find_eq_some_iff.mpr ⟨hKept, hOwner.of_subset ?_ (mem_keys hKept)⟩
  rintro _ ⟨other, hMem, rfl⟩
  exact mem_keys (SortedMap.mem_erase.mp hMem).1

end ConsistentHashMap

/-- Consistent hashing moves only what it must. A node with a new hash takes hashes over and leaves
the others where they are, and without the node everything is as before. A node that goes leaves the
hashes of the other nodes where they are. -/
theorem consistent_hash_moves {κ τ : Type} [LinearOrder κ] (hasher : τ → κ)
    (ops : List (RingOp κ τ)) (ring : ConsistentHashMap κ τ)
    (hRun : exec ConsistentHashMap.step (.new hasher) ops = some ring) :
    (∀ x, ring.hasher x ∉ ring.keys → ∀ h,
      ((ring.insert x).1.find h = some (ring.hasher x, x) ∨
        ∃ entry, ring.find h = some entry ∧ (ring.insert x).1.find h = some entry) ∧
      (ring.empty = true → (ring.insert x).1.find h = some (ring.hasher x, x)) ∧
      ((ring.insert x).1.erase x).1.find h = ring.find h) ∧
    ∀ key y, (key, y) ∈ ring.nodes.entries → ∀ h, ring.find h ≠ some (key, y) →
      (ring.erase y).1.find h = ring.find h := by
  constructor
  · intro x hNew h
    refine ⟨ConsistentHashMap.find_insert hNew, ?_, ConsistentHashMap.find_insert_erase hNew⟩
    intro hEmpty
    exact ConsistentHashMap.find_insert_of_empty (ConsistentHashMap.empty_iff.mp hEmpty)
  · intro key y hNode h hOther
    have hKey : key = ring.hasher y := ConsistentHashMap.hashed_of_exec hRun (key, y) hNode
    subst hKey
    exact ConsistentHashMap.find_erase hNode hOther

/-- Three nodes that are their own hashes, one of which goes again. Hashes behind the last node go
to the first one. -/
theorem consistent_hash_moves_three_nodes :
    ∃ ring : ConsistentHashMap Nat Nat,
      exec ConsistentHashMap.step (.new id) [.insert 50, .insert 20, .insert 80, .eraseAt 20] =
        some ring ∧
      ring.nodes.entries = [(50, 50), (80, 80)] ∧ ring.find 50 = some (50, 50) ∧
      ring.find 90 = some (50, 50) ∧ (ring.insert 20).1.find 90 = some (20, 20) ∧
      ((ring.insert 20).1.erase 20).1.find 90 = ring.find 90 ∧
      (ring.erase 80).1.find 90 = ring.find 90 := by
  obtain ⟨ring, hRun, hNodes, hAt, hBehind, hHasher, hTaken⟩ : ∃ ring : ConsistentHashMap Nat Nat,
      exec ConsistentHashMap.step (.new id) [.insert 50, .insert 20, .insert 80, .eraseAt 20] =
        some ring ∧
      ring.nodes.entries = [(50, 50), (80, 80)] ∧ ring.find 50 = some (50, 50) ∧
      ring.find 90 = some (50, 50) ∧ ring.hasher = id ∧
      (ring.insert 20).1.find 90 = some (20, 20) := ⟨_, rfl, rfl, rfl, rfl, rfl, rfl⟩
  obtain ⟨hInsert, hErase⟩ := consistent_hash_moves id _ ring hRun
  have hAbsent : ring.hasher 20 ∉ ring.keys := by
    simp [ConsistentHashMap.keys, hNodes, hHasher]
  refine ⟨ring, hRun, hNodes, hAt, hBehind, hTaken, (hInsert 20 hAbsent 90).2.2, ?_⟩
  apply hErase 80 80 (by simp [hNodes])
  rw [hBehind]
  decide

end PsRpc
