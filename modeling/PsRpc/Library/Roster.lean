import Mathlib.Data.List.Basic

/-! # Threads and their phases

A roster lists the phases of some threads. A thread that goes from one phase to another changes the
numbers of threads in these two phases and no others.
-/

namespace Roster

variable {φ : Type} {threads : List φ} {i j : Nat} {old new : φ}

theorem lt_of_getElem? (hOld : threads[i]? = some old) : i < threads.length :=
  (List.getElem?_eq_some_iff.mp hOld).1

theorem getElem?_set (hOld : threads[i]? = some old) :
    (threads.set i new)[j]? = if i = j then some new else threads[j]? := by
  rw [List.getElem?_set]
  split
  · next hSame =>
    subst hSame
    rw [if_pos (lt_of_getElem? hOld)]
  · rfl

theorem countP_set (hOld : threads[i]? = some old) (new : φ) (p : φ → Bool) :
    (threads.set i new).countP p + (p old).toNat = threads.countP p + (p new).toNat := by
  obtain ⟨hLt, rfl⟩ := List.getElem?_eq_some_iff.mp hOld
  have hCount : (p threads[i]).toNat ≤ threads.countP p := by
    cases hPhase : p threads[i] with
    | false => exact Nat.zero_le _
    | true => exact List.countP_pos_iff.mpr ⟨threads[i], List.getElem_mem hLt, hPhase⟩
  rw [List.countP_set hLt]
  generalize p threads[i] = was at hCount ⊢
  cases was <;> cases p new <;>
    simp only [Bool.toNat_false, Bool.toNat_true, if_true, Bool.false_eq_true, if_false]
      at hCount ⊢ <;> omega

theorem countP_cons (p : φ → Bool) (first : φ) (rest : List φ) :
    (first :: rest).countP p = rest.countP p + (p first).toNat := by
  rw [List.countP_cons]
  cases p first <;> rfl

theorem countP_pos_iff {p : φ → Bool} :
    0 < threads.countP p ↔ ∃ (i : Nat) (phase : φ), threads[i]? = some phase ∧ p phase = true := by
  rw [List.countP_pos_iff]
  constructor
  · rintro ⟨phase, hMem, hPhase⟩
    obtain ⟨i, hAt⟩ := List.mem_iff_getElem?.mp hMem
    exact ⟨i, phase, hAt, hPhase⟩
  · rintro ⟨i, phase, hAt, hPhase⟩
    exact ⟨phase, List.mem_of_getElem? hAt, hPhase⟩

end Roster
