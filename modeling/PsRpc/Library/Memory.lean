import Mathlib.Logic.Function.Basic

/-! # Copies and fills of a memory

A memory gives a value to every address. A block that is moved at once is what a loop over its
addresses leaves, as long as the loop reads no address that it has written before.
-/

namespace Memory

variable {α : Type} {m : Nat → α} {dest src count : Nat}

/-- The block of `count` addresses from `src` on, moved to `dest` at once. -/
def copy (m : Nat → α) (dest src count : Nat) : Nat → α := fun a =>
  if dest ≤ a ∧ a < dest + count then m (src + (a - dest)) else m a

def fill (m : Nat → α) (dest count : Nat) (value : α) : Nat → α := fun a =>
  if dest ≤ a ∧ a < dest + count then value else m a

/-- The same address by address, upwards. -/
def copyUp : Nat → (Nat → α) → Nat → Nat → Nat → α
  | 0, m, _, _ => m
  | count + 1, m, dest, src =>
    copyUp count (Function.update m dest (m src)) (dest + 1) (src + 1)

/-- From the last address downwards. -/
def copyDown : Nat → (Nat → α) → Nat → Nat → Nat → α
  | 0, m, _, _ => m
  | count + 1, m, dest, src =>
    copyDown count (Function.update m (dest + count) (m (src + count))) dest src

def fillUp (value : α) : Nat → (Nat → α) → Nat → Nat → α
  | 0, m, _ => m
  | count + 1, m, dest => fillUp value count (Function.update m dest value) (dest + 1)

@[simp] theorem copy_zero (m : Nat → α) (dest src : Nat) : copy m dest src 0 = m := by
  funext a
  exact if_neg (by omega)

@[simp] theorem copy_self (m : Nat → α) (dest count : Nat) : copy m dest dest count = m := by
  funext a
  simp only [copy]
  split
  · next h => rw [Nat.add_sub_cancel' h.1]
  · rfl

@[simp] theorem fill_zero (m : Nat → α) (dest : Nat) (value : α) : fill m dest 0 value = m := by
  funext a
  exact if_neg (by omega)

theorem copy_inside {i : Nat} (h : i < count) : copy m dest src count (dest + i) = m (src + i) := by
  rw [copy, if_pos (by omega), Nat.add_sub_cancel_left]

theorem copy_outside {a : Nat} (h : a < dest ∨ dest + count ≤ a) :
    copy m dest src count a = m a :=
  if_neg (by omega)

theorem fill_inside {value : α} {i : Nat} (h : i < count) :
    fill m dest count value (dest + i) = value :=
  if_pos (by omega)

theorem fill_outside {value : α} {a : Nat} (h : a < dest ∨ dest + count ≤ a) :
    fill m dest count value a = m a :=
  if_neg (by omega)

/-- Upwards no address is read after it was written, unless the destination begins inside the
source. -/
theorem copyUp_eq_copy (h : dest ≤ src ∨ src + count ≤ dest) :
    copyUp count m dest src = copy m dest src count := by
  induction count generalizing m dest src with
  | zero => simp [copyUp]
  | succ count ih =>
    rw [copyUp, ih (by omega)]
    funext a
    rcases Nat.lt_trichotomy a dest with hBelow | rfl | hAbove
    · rw [copy_outside (by omega), copy_outside (by omega), Function.update_of_ne (by omega)]
    · rw [copy_outside (by omega), Function.update_self]
      exact (copy_inside (Nat.succ_pos count)).symm
    · obtain ⟨i, rfl⟩ : ∃ i, a = dest + 1 + i := ⟨a - (dest + 1), by omega⟩
      by_cases hInside : i < count
      · rw [copy_inside hInside, Function.update_of_ne (by omega), Nat.add_assoc dest,
          copy_inside (by omega), Nat.add_assoc]
      · rw [copy_outside (by omega), copy_outside (by omega), Function.update_of_ne (by omega)]

theorem copyDown_eq_copy (h : src ≤ dest ∨ dest + count ≤ src) :
    copyDown count m dest src = copy m dest src count := by
  induction count generalizing m with
  | zero => simp [copyDown]
  | succ count ih =>
    rw [copyDown, ih (by omega)]
    funext a
    rcases Nat.lt_trichotomy a (dest + count) with hBelow | rfl | hAbove
    · by_cases hInside : dest ≤ a
      · obtain ⟨i, rfl⟩ : ∃ i, a = dest + i := ⟨a - dest, by omega⟩
        rw [copy_inside (by omega), copy_inside (by omega), Function.update_of_ne (by omega)]
      · rw [copy_outside (by omega), copy_outside (by omega), Function.update_of_ne (by omega)]
    · rw [copy_outside (by omega), Function.update_self, copy_inside (Nat.lt_succ_self count)]
    · rw [copy_outside (by omega), copy_outside (by omega), Function.update_of_ne (by omega)]

theorem fillUp_eq_fill (value : α) : fillUp value count m dest = fill m dest count value := by
  induction count generalizing m dest with
  | zero => simp [fillUp]
  | succ count ih =>
    rw [fillUp, ih]
    funext a
    rcases Nat.lt_trichotomy a dest with hBelow | rfl | hAbove
    · rw [fill_outside (by omega), fill_outside (by omega), Function.update_of_ne (by omega)]
    · rw [fill_outside (by omega), Function.update_self]
      exact (fill_inside (Nat.succ_pos count)).symm
    · obtain ⟨i, rfl⟩ : ∃ i, a = dest + 1 + i := ⟨a - (dest + 1), by omega⟩
      by_cases hInside : i < count
      · rw [fill_inside hInside, Nat.add_assoc dest, fill_inside (by omega)]
      · rw [fill_outside (by omega), fill_outside (by omega), Function.update_of_ne (by omega)]

end Memory
