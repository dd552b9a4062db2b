import Mathlib.Data.List.TakeWhile

/-! # Runs at the front of a list

A scanner takes the longest run of elements with a property. The run ends where the list ends or
where an element without the property follows.
-/

namespace Scan

variable {α : Type} {p : α → Bool} {run rest : List α}

def Stops (p : α → Bool) (rest : List α) : Prop := ∀ x ∈ rest.head?, p x = false

@[simp] theorem stops_nil : Stops p [] := by
  intro x hx
  cases hx

@[simp] theorem stops_cons {x : α} : Stops p (x :: rest) ↔ p x = false := by
  simp [Stops]

theorem Stops.takeWhile (h : Stops p rest) : rest.takeWhile p = [] := by
  cases rest with
  | nil => rfl
  | cons x rest => rw [List.takeWhile_cons_of_neg (by simpa using h)]

theorem Stops.dropWhile (h : Stops p rest) : rest.dropWhile p = rest := by
  cases rest with
  | nil => rfl
  | cons x rest => rw [List.dropWhile_cons_of_neg (by simpa using h)]

theorem stops_dropWhile (p : α → Bool) (l : List α) : Stops p (l.dropWhile p) := by
  induction l with
  | nil => simp
  | cons x l ih =>
    rw [List.dropWhile_cons]
    split
    · exact ih
    · next hx => simpa using hx

theorem takeWhile_run (hRun : ∀ x ∈ run, p x = true) (h : Stops p rest) :
    (run ++ rest).takeWhile p = run := by
  rw [List.takeWhile_append_of_pos hRun, h.takeWhile, List.append_nil]

theorem dropWhile_run (hRun : ∀ x ∈ run, p x = true) (h : Stops p rest) :
    (run ++ rest).dropWhile p = rest := by
  rw [List.dropWhile_append_of_pos hRun, h.dropWhile]

theorem exists_run (p : α → Bool) (l : List α) :
    ∃ run rest, l = run ++ rest ∧ (∀ x ∈ run, p x = true) ∧ Stops p rest :=
  ⟨l.takeWhile p, l.dropWhile p, List.takeWhile_append_dropWhile.symm,
    fun _ => List.mem_takeWhile_imp, stops_dropWhile p l⟩

theorem stops_append {x : α} (hRun : ∀ y ∈ run, p y = false) (hNext : p x = false) :
    Stops p (run ++ x :: rest) := by
  cases run with
  | nil => simpa using hNext
  | cons y run => simpa using hRun y List.mem_cons_self

end Scan
