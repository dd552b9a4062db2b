import Mathlib.Data.Prod.Lex
import Mathlib.Order.BooleanAlgebra.Basic
import Mathlib.Data.Set.Insert

/-! # Keys on a ring

A linear order is closed to a ring: behind the greatest element the least one follows. The ring that
is cut open at `h` is a linear order again. In it `h` is at the bottom, and the owner of `h` among
some keys is the least of them.
-/

namespace KeyRing

variable {κ : Type} [LinearOrder κ] {keys keys' : Set κ} {h k k' x : κ}

/-- The place of `k` in the ring that is cut open at `h`. -/
def cut (h k : κ) : Bool ×ₗ κ := toLex (decide (k < h), k)

theorem cut_injective (h : κ) : Function.Injective (cut h) := by
  intro k k' hEq
  exact congrArg (fun place => (ofLex place).2) hEq

theorem cut_of_le (hLe : h ≤ k) : cut h k = toLex (false, k) := by
  rw [cut, decide_eq_false (not_lt.mpr hLe)]

theorem cut_of_lt (hLt : k < h) : cut h k = toLex (true, k) := by
  rw [cut, decide_eq_true hLt]

theorem cut_le_of_le (hLe : h ≤ k) (hNext : h ≤ k' → k ≤ k') : cut h k ≤ cut h k' := by
  obtain hBelow | hAbove := lt_or_ge k' h
  · rw [cut_of_le hLe, cut_of_lt hBelow, Prod.Lex.toLex_le_toLex]
    exact .inl Bool.false_lt_true
  · rw [cut_of_le hLe, cut_of_le hAbove, Prod.Lex.toLex_le_toLex]
    exact .inr ⟨rfl, hNext hAbove⟩

theorem cut_le_of_lt (hLt : k' < h) (hLe : k ≤ k') : cut h k ≤ cut h k' := by
  rw [cut_of_lt (hLe.trans_lt hLt), cut_of_lt hLt, Prod.Lex.toLex_le_toLex]
  exact .inr ⟨rfl, hLe⟩

/-- `k` is the first key that is met on the ring from `h` on. -/
def IsOwner (keys : Set κ) (h k : κ) : Prop := k ∈ keys ∧ ∀ k' ∈ keys, cut h k ≤ cut h k'

theorem IsOwner.unique (hOwner : IsOwner keys h k) (hOwner' : IsOwner keys h k') : k = k' :=
  cut_injective h (le_antisymm (hOwner.2 k' hOwner'.1) (hOwner'.2 k hOwner.1))

theorem isOwner_singleton (h k : κ) : IsOwner {k} h k := by
  refine ⟨rfl, ?_⟩
  rintro k' rfl
  exact le_refl _

/-- A new key is the owner, or the owner stays the same. -/
theorem IsOwner.insert (hOwner : IsOwner keys h k) (x : κ) :
    IsOwner (insert x keys) h x ∨ IsOwner (insert x keys) h k := by
  obtain hLe | hLe := le_total (cut h x) (cut h k)
  · left
    refine ⟨Set.mem_insert x keys, ?_⟩
    rintro k' (rfl | hMem)
    · exact le_refl _
    · exact hLe.trans (hOwner.2 k' hMem)
  · right
    refine ⟨Set.mem_insert_of_mem x hOwner.1, ?_⟩
    rintro k' (rfl | hMem)
    · exact hLe
    · exact hOwner.2 k' hMem

theorem IsOwner.of_subset (hOwner : IsOwner keys h k) (hSubset : keys' ⊆ keys) (hMem : k ∈ keys') :
    IsOwner keys' h k :=
  ⟨hMem, fun k' hMem' => hOwner.2 k' (hSubset hMem')⟩

end KeyRing
