import Mathlib.Data.List.Basic

/-! # Reading a stream in pieces

A reader gets the bytes of a stream in several calls, and a loop empties a buffer through a
fixed array. Where a reader does with two inputs what it does with the two joined, the cut of
the stream does not matter.
-/

namespace Chunks

variable {α ε σ : Type*}

def feedAll (feed : σ → List α → List ε × σ) : σ → List (List α) → List ε × σ
  | s, [] => ([], s)
  | s, chunk :: chunks =>
    ((feed s chunk).1 ++ (feedAll feed (feed s chunk).2 chunks).1,
      (feedAll feed (feed s chunk).2 chunks).2)

/-- Reading a joined input is reading its parts. -/
def Splits (feed : σ → List α → List ε × σ) : Prop :=
  ∀ s a b, feed s (a ++ b) = ((feed s a).1 ++ (feed (feed s a).2 b).1, (feed (feed s a).2 b).2)

theorem Splits.feedAll_cons {feed : σ → List α → List ε × σ} (h : Splits feed) (s : σ)
    (chunk : List α) (chunks : List (List α)) :
    feedAll feed s (chunk :: chunks) = feed s (chunk ++ chunks.flatten) := by
  induction chunks generalizing s chunk with
  | nil => simp [feedAll]
  | cons next chunks ih =>
    rw [feedAll, ih, List.flatten_cons, h s chunk (next ++ chunks.flatten)]

theorem Splits.feedAll_eq {feed : σ → List α → List ε × σ} (h : Splits feed) {s : σ}
    (hRest : feed s [] = ([], s)) (chunks : List (List α)) :
    feedAll feed s chunks = feed s chunks.flatten := by
  cases chunks with
  | nil => exact hRest.symm
  | cons chunk chunks => exact h.feedAll_cons s chunk chunks

/-- The pieces in which a loop takes a buffer that it reads into an array of `size` elements. -/
def pieces (size : Nat) (xs : List α) : List (List α) :=
  if _h : 0 < size ∧ 0 < xs.length then xs.take size :: pieces size (xs.drop size) else []
termination_by xs.length
decreasing_by
  rw [List.length_drop]
  omega

theorem flatten_pieces {size : Nat} (hSize : 0 < size) (xs : List α) :
    (pieces size xs).flatten = xs := by
  fun_induction pieces size xs with
  | case1 xs h ih => rw [List.flatten_cons, ih, List.take_append_drop]
  | case2 xs h => exact (List.length_eq_zero_iff.mp (by omega)).symm

theorem length_le_of_mem_pieces {size : Nat} {xs piece : List α} (h : piece ∈ pieces size xs) :
    piece.length ≤ size := by
  fun_induction pieces size xs with
  | case1 xs _ ih =>
    rcases List.mem_cons.mp h with rfl | hMem
    · exact List.length_take_le size xs
    · exact ih hMem
  | case2 xs _ => cases h

end Chunks
