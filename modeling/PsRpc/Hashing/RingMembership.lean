import Mathlib.Data.List.Induction
import PsRpc.Hashing.ConsistentHash
import PsRpc.Library.Lanes

/-! # What is on the ring

A node is kept under its hash alone, so two nodes with one hash stand for each other. The ring
contains what was put in as long as no operation names a node while another node with its hash is
there.
-/

namespace PsRpc

open Execution

inductive NodeOp (τ : Type) where
  | insert (node : τ)
  | erase (node : τ)
deriving DecidableEq, Repr

def NodeOp.node {τ : Type} : NodeOp τ → τ
  | .insert node => node
  | .erase node => node

def NodeOp.toRingOp {κ τ : Type} : NodeOp τ → RingOp κ τ
  | .insert node => .insert node
  | .erase node => .erase node

def lastOp {τ : Type} [DecidableEq τ] (ops : List (NodeOp τ)) (node : τ) : Option (NodeOp τ) :=
  (ops.filter fun op => op.node = node).getLast?

theorem lastOp_snoc {τ : Type} [DecidableEq τ] (ops : List (NodeOp τ)) (op : NodeOp τ) (node : τ) :
    lastOp (ops ++ [op]) node = if op.node = node then some op else lastOp ops node := by
  rw [lastOp, Lanes.getLast?_filter_snoc, lastOp]
  simp only [decide_eq_true_eq]

namespace ConsistentHashMap

variable {κ τ : Type} [LinearOrder κ]

def apply (ring : ConsistentHashMap κ τ) : NodeOp τ → ConsistentHashMap κ τ
  | .insert node => (ring.insert node).1
  | .erase node => (ring.erase node).1

def ofOps (hasher : τ → κ) (ops : List (NodeOp τ)) : ConsistentHashMap κ τ :=
  ops.foldl apply (.new hasher)

def Reachable (ring : ConsistentHashMap κ τ) (node : τ) : Prop :=
  ∃ entry ∈ ring.nodes.entries, entry.2 = node

variable {ring : ConsistentHashMap κ τ} {x y : τ}

theorem step_toRingOp (ring : ConsistentHashMap κ τ) (op : NodeOp τ) :
    ring.step op.toRingOp = some (ring.apply op) := by
  cases op with
  | insert node => rfl
  | erase node => rfl

theorem ofOps_snoc (hasher : τ → κ) (ops : List (NodeOp τ)) (op : NodeOp τ) :
    ofOps hasher (ops ++ [op]) = (ofOps hasher ops).apply op :=
  List.foldl_concat ..

theorem exec_ofOps (hasher : τ → κ) (ops : List (NodeOp τ)) :
    exec step (.new hasher) (ops.map NodeOp.toRingOp) = some (ofOps hasher ops) := by
  induction ops using List.reverseRecOn with
  | nil => rfl
  | append_singleton ops op ih =>
    rw [List.map_append, List.map_singleton, exec_snoc]
    exact ⟨_, ih, by rw [step_toRingOp, ofOps_snoc]⟩

theorem hashed_ofOps (hasher : τ → κ) (ops : List (NodeOp τ)) : Hashed (ofOps hasher ops) :=
  hashed_of_exec (exec_ofOps hasher ops)

theorem hasher_ofOps (hasher : τ → κ) (ops : List (NodeOp τ)) :
    (ofOps hasher ops).hasher = hasher := by
  induction ops using List.reverseRecOn with
  | nil => rfl
  | append_singleton ops op ih =>
    rw [ofOps_snoc]
    cases op with
    | insert node => exact ih
    | erase node => exact ih

theorem Hashed.reachable_iff (hHashed : Hashed ring) :
    ring.Reachable y ↔ (ring.hasher y, y) ∈ ring.nodes.entries := by
  constructor
  · rintro ⟨entry, hEntry, rfl⟩
    rw [← hHashed entry hEntry]
    exact hEntry
  · intro hEntry
    exact ⟨_, hEntry, rfl⟩

theorem Hashed.eq_of_reachable (hHashed : Hashed ring) (hx : ring.Reachable x)
    (hy : ring.Reachable y) (hHash : ring.hasher x = ring.hasher y) : x = y := by
  have hEntry := SortedMap.eq_of_key_eq (hHashed.reachable_iff.mp hx) (hHashed.reachable_iff.mp hy)
    hHash
  exact congrArg Prod.snd hEntry

/-! ## One operation -/

/-- No other node with the hash of `x` is on the ring. -/
def Alone (ring : ConsistentHashMap κ τ) (x : τ) : Prop :=
  ∀ y, ring.Reachable y → ring.hasher y = ring.hasher x → y = x

theorem reachable_insert (hHashed : Hashed ring) (hAlone : ring.Alone x) :
    (ring.insert x).1.Reachable y ↔ y = x ∨ ring.Reachable y := by
  by_cases hKey : ring.hasher x ∈ ring.keys
  · obtain ⟨entry, hEntry, hHash⟩ := hKey
    have hThere : ring.Reachable x := by
      have hEq := hAlone entry.2 ⟨entry, hEntry, rfl⟩ ((hHashed entry hEntry).symm.trans hHash)
      exact ⟨entry, hEntry, hEq⟩
    have hSame : (ring.insert x).1.nodes = ring.nodes := by
      cases hFind : ring.nodes.find (ring.hasher x) with
      | none => exact absurd hHash (SortedMap.find_eq_none_iff.mp hFind entry hEntry)
      | some found => rw [insert, SortedMap.insert, hFind]
    rw [Reachable, hSame]
    constructor
    · exact .inr
    · rintro (rfl | hOld)
      · exact hThere
      · exact hOld
  · constructor
    · rintro ⟨entry, hEntry, rfl⟩
      obtain rfl | hOld := (mem_insert hKey).mp hEntry
      · exact .inl rfl
      · exact .inr ⟨entry, hOld, rfl⟩
    · rintro (rfl | ⟨entry, hEntry, rfl⟩)
      · exact ⟨_, (mem_insert hKey).mpr (.inl rfl), rfl⟩
      · exact ⟨entry, (mem_insert hKey).mpr (.inr hEntry), rfl⟩

theorem reachable_erase_ne_hash (hHashed : Hashed ring) :
    (ring.erase x).1.Reachable y ↔ ring.Reachable y ∧ ring.hasher y ≠ ring.hasher x := by
  constructor
  · rintro ⟨entry, hEntry, rfl⟩
    obtain ⟨hOld, hKey⟩ := SortedMap.mem_erase.mp hEntry
    rw [hHashed entry hOld] at hKey
    exact ⟨⟨entry, hOld, rfl⟩, hKey⟩
  · rintro ⟨⟨entry, hEntry, rfl⟩, hKey⟩
    rw [← hHashed entry hEntry] at hKey
    exact ⟨entry, SortedMap.mem_erase.mpr ⟨hEntry, hKey⟩, rfl⟩

theorem reachable_erase (hHashed : Hashed ring) (hAlone : ring.Alone x) :
    (ring.erase x).1.Reachable y ↔ y ≠ x ∧ ring.Reachable y := by
  rw [reachable_erase_ne_hash hHashed]
  constructor
  · rintro ⟨hOld, hKey⟩
    exact ⟨fun hEq => hKey (congrArg ring.hasher hEq), hOld⟩
  · rintro ⟨hNe, hOld⟩
    exact ⟨hOld, fun hKey => hNe (hAlone y hOld hKey)⟩

/-! ## A sequence of operations -/

variable [DecidableEq τ]

def Exact (hasher : τ → κ) (ops : List (NodeOp τ)) : Prop :=
  ∀ y, (ofOps hasher ops).Reachable y ↔ lastOp ops y = some (.insert y)

theorem exact_snoc {hasher : τ → κ} {ops : List (NodeOp τ)} {op : NodeOp τ}
    (hExact : Exact hasher ops) (hAlone : (ofOps hasher ops).Alone op.node) :
    Exact hasher (ops ++ [op]) := by
  intro y
  have hHashed := hashed_ofOps hasher ops
  rw [ofOps_snoc, lastOp_snoc]
  cases op with
  | insert x =>
    refine (reachable_insert hHashed hAlone).trans ?_
    rw [hExact y, NodeOp.node]
    split
    · next hEq => simp [hEq]
    · next hNe => simp [Ne.symm hNe]
  | erase x =>
    refine (reachable_erase hHashed hAlone).trans ?_
    rw [hExact y, NodeOp.node]
    split
    · next hEq => simp [hEq]
    · next hNe => simp [Ne.symm hNe]

theorem alone_of_exact_snoc {hasher : τ → κ} {ops : List (NodeOp τ)} {op : NodeOp τ}
    (hExact : Exact hasher ops) (hNext : Exact hasher (ops ++ [op])) :
    (ofOps hasher ops).Alone op.node := by
  intro y hReach hHash
  by_contra hNe
  have hKept : (ofOps hasher (ops ++ [op])).Reachable y := by
    rw [hNext y, lastOp_snoc, if_neg (Ne.symm hNe)]
    exact (hExact y).mp hReach
  have hHashed := hashed_ofOps hasher (ops ++ [op])
  cases op with
  | insert x =>
    have hNew : (ofOps hasher (ops ++ [.insert x])).Reachable x := by
      rw [hNext x, lastOp_snoc, NodeOp.node, if_pos rfl]
    rw [hasher_ofOps] at hHash
    exact hNe (hHashed.eq_of_reachable hKept hNew (by rw [hasher_ofOps]; exact hHash))
  | erase x =>
    rw [ofOps_snoc] at hKept
    exact ((reachable_erase_ne_hash (hashed_ofOps hasher ops)).mp hKept).2 hHash

end ConsistentHashMap

open ConsistentHashMap in
/-- After every operation of a sequence the nodes of the ring are those whose last operation was
an insertion, if and only if no operation names a node while another one with the same hash has
been inserted and not erased. -/
theorem ring_contains_inserted_iff {κ τ : Type} [LinearOrder κ] [DecidableEq τ] (hasher : τ → κ)
    (ops : List (NodeOp τ)) :
    (∀ before, before <+: ops → ∀ y,
      (ofOps hasher before).Reachable y ↔ lastOp before y = some (.insert y)) ↔
    ∀ before op after, ops = before ++ op :: after → ∀ y, lastOp before y = some (.insert y) →
      hasher y = hasher op.node → y = op.node := by
  constructor
  · rintro hExact before op after rfl y hLast hHash
    have hBefore : Exact hasher before := hExact before (List.prefix_append _ _)
    have hNext : Exact hasher (before ++ [op]) := hExact _ ⟨after, by simp⟩
    have hAlone := alone_of_exact_snoc hBefore hNext
    rw [Alone, hasher_ofOps] at hAlone
    exact hAlone y ((hBefore y).mpr hLast) hHash
  · intro hFree before hPrefix
    change Exact hasher before
    induction before using List.reverseRecOn with
    | nil =>
      intro y
      constructor
      · rintro ⟨entry, hEntry, _⟩
        cases hEntry
      · intro hLast
        cases hLast
    | append_singleton before op ih =>
      obtain ⟨after, hOps⟩ := hPrefix
      have hOps' : ops = before ++ op :: after := by rw [← hOps, List.append_assoc]; rfl
      have hBefore : Exact hasher before := ih ⟨op :: after, hOps'.symm⟩
      apply exact_snoc hBefore
      intro y hReach hHash
      rw [hasher_ofOps] at hHash
      exact hFree before op after hOps' y ((hBefore y).mp hReach) hHash

/-- Of two nodes with one hash the second is not stored, and erasing it removes the first. -/
theorem ring_erases_other_node :
    (ConsistentHashMap.ofOps (· % 2) [.insert 1, .insert 3]).nodes.entries = [(1, 1)] ∧
    (ConsistentHashMap.ofOps (· % 2) [.insert 1, .insert 3, .erase 3]).nodes.entries = [] ∧
    lastOp [.insert 1, .insert 3, .erase 3] 1 = some (.insert 1) :=
  ⟨rfl, rfl, rfl⟩

end PsRpc
