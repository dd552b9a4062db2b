import Mathlib.Data.List.Nodup
import Mathlib.Logic.Function.Basic

/-! # Lists whose links are members of the items

An item has a link to the one before it and one to the one behind it, and a list is a link to its
first item. An item is added at the front, where the link back of the item behind it is not set: no
item of the list has a link back. So the first item can be removed, and it is the one that was added
last.
-/

namespace IntrusiveList

structure Links (κ : Type) where
  prev : Option κ
  next : Option κ
deriving DecidableEq, Repr

variable {κ : Type}

def Chain (links : κ → Links κ) : Option κ → List κ → Prop
  | first, [] => first = none
  | first, x :: xs => first = some x ∧ (links x).prev = none ∧ Chain links (links x).next xs

variable {links links' : κ → Links κ} {first : Option κ} {xs : List κ}

theorem Chain.congr (h : Chain links first xs) (hSame : ∀ x ∈ xs, links' x = links x) :
    Chain links' first xs := by
  induction xs generalizing first with
  | nil => exact h
  | cons x xs ih =>
    obtain ⟨hFirst, hPrev, hRest⟩ := h
    obtain ⟨hHead, hTail⟩ := List.forall_mem_cons.mp hSame
    refine ⟨hFirst, ?_, ?_⟩
    · rw [hHead]
      exact hPrev
    · rw [hHead]
      exact ih hRest hTail

theorem Chain.first_eq (h : Chain links first xs) : first = xs.head? := by
  cases xs with
  | nil => exact h
  | cons x xs => exact h.1

variable [DecidableEq κ] {item : κ}

/-- The links after `item` has been put in front of `first`. -/
def addLinks (links : κ → Links κ) (first : Option κ) (item : κ) : κ → Links κ :=
  Function.update links item ⟨none, first⟩

def setNext (links : κ → Links κ) (item : Option κ) (next : Option κ) : κ → Links κ :=
  match item with
  | some p => Function.update links p { links p with next := next }
  | none => links

def setPrev (links : κ → Links κ) (item : Option κ) (prev : Option κ) : κ → Links κ :=
  match item with
  | some n => Function.update links n { links n with prev := prev }
  | none => links

/-- The neighbours of `item` are linked with each other. -/
def bypass (links : κ → Links κ) (item : κ) : κ → Links κ :=
  let forward := setNext links (links item).prev (links item).next
  setPrev forward (forward item).next (forward item).prev

def removeLinks (links : κ → Links κ) (item : κ) : κ → Links κ :=
  Function.update (bypass links item) item ⟨none, none⟩

def removeFirst (links : κ → Links κ) (first : Option κ) (item : κ) : Option κ :=
  if first = some item then (bypass links item item).next else first

theorem chain_addLinks (h : Chain links first xs) (hNew : item ∉ xs) :
    Chain (addLinks links first item) (some item) (item :: xs) := by
  have hItem : addLinks links first item item = ⟨none, first⟩ := Function.update_self ..
  refine ⟨rfl, by rw [hItem], ?_⟩
  rw [hItem]
  refine h.congr ?_
  intro x hMem
  rw [addLinks, Function.update_of_ne]
  rintro rfl
  exact hNew hMem

/-- Without links back, no link of a chain is changed. -/
theorem bypass_eq (h : Chain links first (item :: xs)) (x : κ) : bypass links item x = links x := by
  obtain ⟨_, hPrev, hRest⟩ := h
  have hForward : setNext links (links item).prev (links item).next = links := by
    rw [hPrev, setNext]
  rw [bypass, hForward, hPrev]
  cases xs with
  | nil =>
    rw [show (links item).next = none from hRest, setPrev]
  | cons y ys =>
    obtain ⟨hNext, hPrevNext, _⟩ := hRest
    rw [hNext, setPrev]
    by_cases hEq : x = y
    · rw [hEq, Function.update_self, ← hPrevNext]
    · rw [Function.update_of_ne hEq]

theorem chain_remove (h : Chain links first (item :: xs)) (hNodup : (item :: xs).Nodup) :
    Chain (removeLinks links item) (removeFirst links first item) xs := by
  rw [removeFirst, if_pos h.1, bypass_eq h item]
  refine h.2.2.congr ?_
  intro x hMem
  have hNe : x ≠ item := by
    rintro rfl
    exact (List.nodup_cons.mp hNodup).1 hMem
  rw [removeLinks, Function.update_of_ne hNe, bypass_eq h x]

end IntrusiveList
