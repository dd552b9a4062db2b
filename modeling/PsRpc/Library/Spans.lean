import Mathlib.Algebra.BigOperators.Group.Finset.Basic
import Mathlib.Algebra.GroupWithZero.Nat
import Mathlib.Algebra.Order.BigOperators.Group.Finset

/-! # Consecutive spans and rows of equal length

Spans of given sizes, laid out one after the other from zero on; every position belongs to one of
them. A flat list with `width` values for each item is a list of rows.
-/

namespace Spans

open Finset

def start (size : Nat → Nat) (i : Nat) : Nat := ∑ j ∈ range i, size j

variable {size : Nat → Nat} {i j r : Nat}

@[simp] theorem start_zero (size : Nat → Nat) : start size 0 = 0 := rfl

theorem start_succ (size : Nat → Nat) (i : Nat) : start size (i + 1) = start size i + size i :=
  sum_range_succ size i

theorem start_mono (h : i ≤ j) : start size i ≤ start size j :=
  sum_le_sum_of_subset (range_mono h)

def Owns (size : Nat → Nat) (i r : Nat) : Prop := start size i ≤ r ∧ r < start size (i + 1)

theorem Owns.unique (h : Owns size i r) (h' : Owns size j r) : i = j := by
  obtain ⟨hStart, hStop⟩ := h
  obtain ⟨hStart', hStop'⟩ := h'
  rcases Nat.lt_trichotomy i j with hLt | hEq | hGt
  · have hOrder : start size (i + 1) ≤ start size j := start_mono hLt
    omega
  · exact hEq
  · have hOrder : start size (j + 1) ≤ start size i := start_mono hGt
    omega

theorem exists_owns {count : Nat} (h : r < start size count) : ∃ i < count, Owns size i r := by
  induction count with
  | zero => exact absurd h (Nat.not_lt_zero r)
  | succ count ih =>
    by_cases hBefore : r < start size count
    · obtain ⟨i, hi, hOwns⟩ := ih hBefore
      exact ⟨i, by omega, hOwns⟩
    · exact ⟨count, by omega, by omega, h⟩

theorem sum_sizes (size : Nat → Nat) (count : Nat) :
    ((List.range count).map size).sum = start size count := by
  induction count with
  | zero => rfl
  | succ count ih =>
    rw [List.range_succ, List.map_append, List.sum_append, ih, start_succ, List.map_singleton,
      List.sum_singleton]

theorem map_eq_map_range {α β : Type} {xs : List α} {f : α → β} {g : Nat → β}
    (h : ∀ (i : Nat) x, xs[i]? = some x → f x = g i) :
    xs.map f = (List.range xs.length).map g := by
  apply List.ext_getElem?
  intro i
  rw [List.getElem?_map, List.getElem?_map]
  cases hAt : xs[i]? with
  | none =>
    rw [List.getElem?_eq_none (by simpa using hAt)]
    rfl
  | some x =>
    have hLt := (List.getElem?_eq_some_iff.mp hAt).1
    rw [List.getElem?_range hLt]
    exact congrArg some (h i x hAt)

theorem flatten_slices {α : Type} (size : Nat → Nat) (width : Nat) (values : List α) (count : Nat) :
    ((List.range count).map fun i =>
      (values.drop (start size i * width)).take (size i * width)).flatten =
      values.take (start size count * width) := by
  induction count with
  | zero => simp
  | succ count ih =>
    rw [List.range_succ, List.map_append, List.flatten_append, ih, start_succ, Nat.add_mul,
      List.take_add]
    simp

/-! ## Rows -/

variable {α β : Type} {width : Nat}

def row (width : Nat) (values : List α) (i : Nat) : List α := (values.drop (i * width)).take width

theorem row_append_succ {first : List α} (hFirst : first.length = width) (rest : List α) (i : Nat) :
    row width (first ++ rest) (i + 1) = row width rest i := by
  rw [row, row, Nat.add_mul, Nat.one_mul, Nat.add_comm, ← hFirst, List.drop_length_add_append]

theorem row_append_zero {first : List α} (hFirst : first.length = width) (rest : List α) :
    row width (first ++ rest) 0 = first := by
  rw [row, Nat.zero_mul, List.drop_zero, ← hFirst, List.take_left]

theorem row_flatMap {f : β → List α} {xs : List β} (hWidth : ∀ x ∈ xs, (f x).length = width)
    {x : β} (hAt : xs[i]? = some x) : row width (xs.flatMap f) i = f x := by
  induction xs generalizing i with
  | nil => cases hAt
  | cons first rest ih =>
    rw [List.forall_mem_cons] at hWidth
    rw [List.flatMap_cons]
    cases i with
    | zero =>
      cases hAt
      exact row_append_zero hWidth.1 _
    | succ i =>
      rw [row_append_succ hWidth.1]
      exact ih hWidth.2 hAt

theorem length_row {values : List α} (h : (i + 1) * width ≤ values.length) :
    (row width values i).length = width := by
  rw [row, List.length_take, List.length_drop]
  rw [Nat.add_mul, Nat.one_mul] at h
  omega

theorem row_slice (values : List α) (first : Nat) {count : Nat} (h : i < count) :
    row width ((values.drop (first * width)).take (count * width)) i =
      row width values (first + i) := by
  have hFits : width ≤ count * width - i * width := by
    rw [← Nat.sub_mul]
    exact Nat.le_mul_of_pos_left width (by omega)
  rw [row, row, List.drop_take, List.take_take, Nat.min_eq_left hFits, List.drop_drop,
    Nat.add_mul]

end Spans
