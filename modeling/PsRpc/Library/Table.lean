import Mathlib.Data.List.AList
import Mathlib.Data.List.Induction
import PsRpc.Library.Lanes

/-! # Maps with a default-inserting subscript

`std::map` and `std::unordered_map` as association lists. `operator[]` of these maps inserts a
default value under a key that is not there; `subscript` is the map after such an access.
-/

abbrev Table (κ β : Type) := AList fun _ : κ => β

namespace Table

variable {κ β : Type} [DecidableEq κ]

theorem lookup_insert (t : Table κ β) (k k' : κ) (v : β) :
    AList.lookup k' (t.insert k v) = if k' = k then some v else t.lookup k' := by
  split
  · next h => rw [h, AList.lookup_insert]
  · next h => rw [AList.lookup_insert_ne h]

theorem lookup_erase (t : Table κ β) (k k' : κ) :
    AList.lookup k' (t.erase k) = if k' = k then none else t.lookup k' := by
  split
  · next h => rw [h, AList.lookup_erase]
  · next h => rw [AList.lookup_erase_ne h]

/-- The value that `t[k]` refers to, where `d` is the default of the value type. -/
def getD (t : Table κ β) (k : κ) (d : β) : β := (t.lookup k).getD d

theorem getD_insert (t : Table κ β) (k k' : κ) (v d : β) :
    getD (t.insert k v) k' d = if k' = k then v else t.getD k' d := by
  rw [getD, lookup_insert]
  split <;> rfl

theorem getD_none (t : Table κ (Option β)) (k : κ) : t.getD k none = (t.lookup k).join := by
  rw [getD]
  cases t.lookup k <;> rfl

/-- The map after `t[k]` has been evaluated. -/
def subscript (t : Table κ β) (k : κ) (d : β) : Table κ β := t.insert k (t.getD k d)

theorem lookup_subscript (t : Table κ β) (k k' : κ) (d : β) :
    AList.lookup k' (t.subscript k d) = if k' = k then some (t.getD k d) else t.lookup k' :=
  lookup_insert t k k' _

theorem subscript_mem {t : Table κ β} {k : κ} {d v : β} (h : t.lookup k = some v) (k' : κ) :
    AList.lookup k' (t.subscript k d) = t.lookup k' := by
  rw [lookup_subscript, getD, h, Option.getD_some]
  split
  · next hk => rw [hk, h]
  · rfl

/-! ## The values under given keys -/

theorem getD_of_mem {t : Table κ β} {e : Sigma fun _ : κ => β} (h : e ∈ t.entries) (d : β) :
    t.getD e.1 d = e.2 := by
  have hLookup : t.lookup e.1 = some e.2 := (List.mem_dlookup_iff t.nodupKeys).mpr h
  rw [getD, hLookup, Option.getD_some]

theorem values_perm {t : Table κ β} {keys : List κ} (hNodup : keys.Nodup)
    (hKeys : ∀ k, k ∈ t ↔ k ∈ keys) (d : β) :
    (t.entries.map Sigma.snd).Perm (keys.map fun k => t.getD k d) := by
  have hPerm : t.keys.Perm keys := (List.perm_ext_iff_of_nodup t.keys_nodup hNodup).mpr hKeys
  have hValues : t.entries.map Sigma.snd = t.keys.map fun k => t.getD k d := by
    rw [AList.keys, List.keys, List.map_map]
    apply List.map_congr_left
    intro e hMem
    exact (getD_of_mem hMem d).symm
  rw [hValues]
  exact hPerm.map _

/-! ## A loop of assignments -/

variable {α : Type} {key : α → κ} {value : α → β} {xs : List α} {t : Table κ β}

theorem of_lookup_foldl_insert {k : κ} {v : β}
    (h : AList.lookup k (xs.foldl (fun t x => t.insert (key x) (value x)) t) = some v) :
    t.lookup k = some v ∨ ∃ x ∈ xs, key x = k ∧ value x = v := by
  induction xs generalizing t with
  | nil => exact .inl h
  | cons x xs ih =>
    rcases ih h with hHead | ⟨x', hMem, hKey, hValue⟩
    · rw [lookup_insert] at hHead
      split at hHead
      · next hKey => exact .inr ⟨x, List.mem_cons_self, hKey.symm, Option.some.inj hHead⟩
      · exact .inl hHead
    · exact .inr ⟨x', List.mem_cons_of_mem x hMem, hKey, hValue⟩

theorem lookup_foldl_insert (xs : List α) (k : κ) :
    AList.lookup k (xs.foldl (fun t x => t.insert (key x) (value x)) (∅ : Table κ β)) =
      (xs.filter fun x => key x = k).getLast?.map value := by
  induction xs using List.reverseRecOn with
  | nil => rfl
  | append_singleton xs x ih =>
    rw [List.foldl_concat, lookup_insert, Lanes.getLast?_filter_snoc, ih]
    split
    · next hKey =>
      rw [if_pos (by simpa using hKey.symm)]
      rfl
    · next hKey => rw [if_neg (by simpa using Ne.symm hKey)]

theorem mem_foldl_insert {k : κ} (h : k ∈ t ∨ ∃ x ∈ xs, key x = k) :
    k ∈ xs.foldl (fun t x => t.insert (key x) (value x)) t := by
  induction xs generalizing t with
  | nil =>
    rcases h with hOld | ⟨x, hMem, _⟩
    · exact hOld
    · cases hMem
  | cons x xs ih =>
    apply ih
    rw [AList.mem_insert]
    rcases h with hOld | ⟨x', hMem, rfl⟩
    · exact .inl (.inr hOld)
    · rcases List.mem_cons.mp hMem with rfl | hTail
      · exact .inl (.inl rfl)
      · exact .inr ⟨x', hTail, rfl⟩

end Table
