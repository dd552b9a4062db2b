import Mathlib.Data.List.Nodup

/-! # Lanes of a history

A history lists what has happened, oldest first. The lane of a key is what happened under this
key; its entries are counted from one.
-/

namespace Lanes

variable {α β κ : Type}

/-- The `k`-th entry, where the first entry has the number one. -/
def kth (xs : List α) : Nat → Option α
  | 0 => none
  | k + 1 => xs[k]?

@[simp] theorem kth_nil (k : Nat) : kth ([] : List α) k = none := by
  cases k <;> rfl

theorem kth_snoc (xs : List α) (x : α) (k : Nat) :
    kth (xs ++ [x]) k = if k = xs.length + 1 then some x else kth xs k := by
  cases k with
  | zero => rfl
  | succ k =>
    change (xs ++ [x])[k]? = if k + 1 = xs.length + 1 then some x else xs[k]?
    rcases Nat.lt_trichotomy k xs.length with hLt | rfl | hGt
    · rw [List.getElem?_append_left hLt, if_neg (by omega)]
    · simp
    · rw [List.getElem?_eq_none (by simp; omega), List.getElem?_eq_none (by omega),
        if_neg (by omega)]

@[simp] theorem kth_length_succ (xs : List α) : kth xs (xs.length + 1) = none :=
  List.getElem?_eq_none Nat.le.refl

theorem kth_mem {xs : List α} {k : Nat} {x : α} (h : kth xs k = some x) : x ∈ xs := by
  cases k with
  | zero => cases h
  | succ k => exact List.mem_of_getElem? h

theorem getLast?_filterMap_snoc (f : α → Option β) (xs : List α) (x : α) :
    ((xs ++ [x]).filterMap f).getLast? = (f x).or (xs.filterMap f).getLast? := by
  rw [List.filterMap_append, List.getLast?_append]
  cases hEntry : f x with
  | none => rw [List.filterMap_cons_none hEntry, List.filterMap_nil, List.getLast?_nil]
  | some y => rw [List.filterMap_cons_some hEntry, List.filterMap_nil, List.getLast?_singleton]

theorem getLast?_filter_snoc (p : α → Bool) (xs : List α) (x : α) :
    ((xs ++ [x]).filter p).getLast? = if p x then some x else (xs.filter p).getLast? := by
  rw [← List.filterMap_eq_filter, getLast?_filterMap_snoc, Option.guard]
  split
  · rfl
  · rfl

theorem kth_of_isPrefix {xs ys : List α} (hPrefix : xs <+: ys) {k : Nat} {x : α}
    (h : kth xs k = some x) : kth ys k = some x := by
  cases k with
  | zero => cases h
  | succ k =>
    obtain ⟨rest, rfl⟩ := hPrefix
    obtain ⟨hLt, _⟩ := List.getElem?_eq_some_iff.mp h
    change (xs ++ rest)[k]? = some x
    rw [List.getElem?_append_left hLt]
    exact h

theorem kth_inj {xs : List α} (hNodup : xs.Nodup) {k k' : Nat} {x : α} (h : kth xs k = some x)
    (h' : kth xs k' = some x) : k = k' := by
  cases k with
  | zero => cases h
  | succ k =>
    cases k' with
    | zero => cases h'
    | succ k' =>
      obtain ⟨hLt, _⟩ := List.getElem?_eq_some_iff.mp h
      have hSame : xs[k]? = xs[k']? := h.trans h'.symm
      rw [List.getElem?_inj hLt hNodup |>.mp hSame]

theorem snoc_isPrefix {xs ys : List α} (hPrefix : xs <+: ys) {x : α}
    (h : ys[xs.length]? = some x) : xs ++ [x] <+: ys := by
  obtain ⟨rest, rfl⟩ := hPrefix
  rw [List.getElem?_append_right Nat.le.refl, Nat.sub_self] at h
  cases rest with
  | nil => cases h
  | cons first rest =>
    cases h
    exact ⟨rest, List.append_assoc _ _ _⟩

theorem filterMap_snoc (f : α → Option β) (xs : List α) (x : α) :
    (xs ++ [x]).filterMap f = xs.filterMap f ++ (f x).toList := by
  rw [List.filterMap_append]
  cases hEntry : f x with
  | none => rw [List.filterMap_cons_none hEntry]; rfl
  | some y => rw [List.filterMap_cons_some hEntry]; rfl

theorem exists_of_filterMap_eq_cons {f : α → Option β} {xs : List α} {b : β} {rest : List β}
    (h : xs.filterMap f = b :: rest) :
    ∃ i x, xs[i]? = some x ∧ f x = some b ∧ (xs.eraseIdx i).filterMap f = rest ∧
      ∀ {γ : Type} (g : α → Option γ), g x = none →
        (xs.eraseIdx i).filterMap g = xs.filterMap g := by
  induction xs with
  | nil => cases h
  | cons x xs ih =>
    cases hEntry : f x with
    | none =>
      rw [List.filterMap_cons_none hEntry] at h
      obtain ⟨i, y, hAt, hValue, hRest, hOther⟩ := ih h
      refine ⟨i + 1, y, hAt, hValue, ?_, ?_⟩
      · rw [List.eraseIdx_cons_succ, List.filterMap_cons_none hEntry, hRest]
      · intro γ g hNone
        rw [List.eraseIdx_cons_succ, List.filterMap_cons, List.filterMap_cons, hOther g hNone]
    | some b' =>
      rw [List.filterMap_cons_some hEntry] at h
      obtain ⟨rfl, rfl⟩ := List.cons.inj h
      refine ⟨0, x, rfl, hEntry, rfl, ?_⟩
      intro γ g hNone
      rw [List.eraseIdx_cons_zero, List.filterMap_cons_none hNone]

variable [DecidableEq κ]

def lane (key : α → κ) (value : α → β) (k : κ) (history : List α) : List β :=
  history.filterMap fun x => if key x = k then some (value x) else none

variable {key : α → κ} {value : α → β} {k : κ} {history : List α}

theorem lane_cons (x : α) :
    lane key value k (x :: history) =
      if key x = k then value x :: lane key value k history else lane key value k history := by
  rw [lane, List.filterMap_cons]
  split
  · next h => rw [if_neg (by intro hKey; rw [if_pos hKey] at h; cases h), lane]
  · next b h =>
    split at h
    · next hKey =>
      cases h
      rw [if_pos hKey, lane]
    · cases h

theorem lane_snoc (x : α) :
    lane key value k (history ++ [x]) =
      if key x = k then lane key value k history ++ [value x] else lane key value k history := by
  rw [lane, List.filterMap_append, List.filterMap_cons]
  split
  · next h =>
    rw [if_neg (by intro hKey; rw [if_pos hKey] at h; cases h), List.filterMap_nil,
      List.append_nil, lane]
  · next b h =>
    by_cases hKey : key x = k
    · rw [if_pos hKey] at h ⊢
      cases h
      rfl
    · rw [if_neg hKey] at h
      cases h

theorem length_lane_snoc (x : α) :
    (lane key value k (history ++ [x])).length =
      (lane key value k history).length + if key x = k then 1 else 0 := by
  rw [lane_snoc]
  split
  · rw [List.length_append]
    rfl
  · rfl

theorem kth_lane_snoc (x : α) (n : Nat) :
    kth (lane key value k (history ++ [x])) n =
      if (k, n) = (key x, (lane key value (key x) history).length + 1) then some (value x)
      else kth (lane key value k history) n := by
  simp only [lane_snoc, Prod.mk.injEq]
  by_cases hKey : key x = k
  · subst hKey
    simp only [if_true, kth_snoc, true_and]
  · rw [if_neg hKey, if_neg (by rintro ⟨rfl, _⟩; exact hKey rfl)]

theorem mem_lane {b : β} :
    b ∈ lane key value k history ↔ ∃ x ∈ history, key x = k ∧ value x = b := by
  rw [lane, List.mem_filterMap]
  apply exists_congr
  intro x
  split
  · next h => simp [h]
  · next h => simp [h]

theorem lane_eq_map : lane key value k history = (lane key id k history).map value := by
  rw [lane, lane, List.map_filterMap]
  congr 1
  funext x
  split <;> rfl

theorem lane_sublist : (lane key value k history).Sublist (history.map value) := by
  rw [lane_eq_map]
  apply List.Sublist.map
  induction history with
  | nil => exact List.Sublist.slnil
  | cons x history ih =>
    rw [lane, List.filterMap_cons]
    by_cases hKey : key x = k
    · rw [if_pos hKey]
      exact ih.cons_cons x
    · rw [if_neg hKey]
      exact ih.cons x

theorem flatMap_cons_perm {ks : List κ} (hNodup : ks.Nodup) (hMem : k ∈ ks) (b : β)
    (f : κ → List β) :
    (ks.flatMap fun k' => if k = k' then b :: f k' else f k').Perm (b :: ks.flatMap f) := by
  induction ks with
  | nil => cases hMem
  | cons first ks ih =>
    rw [List.nodup_cons] at hNodup
    rw [List.flatMap_cons, List.flatMap_cons]
    split
    · next hFirst =>
      subst hFirst
      have hRest : (ks.flatMap fun k' => if k = k' then b :: f k' else f k') = ks.flatMap f := by
        apply List.flatMap_congr
        intro k' hk'
        rw [if_neg]
        rintro rfl
        exact hNodup.1 hk'
      rw [hRest, List.cons_append]
    · next hFirst =>
      have hRest := ih hNodup.2 ((List.mem_cons.mp hMem).resolve_left hFirst)
      exact (hRest.append_left (f first)).trans List.perm_middle

/-- The lanes of all keys are the history in another order. -/
theorem lanes_perm (value : α → β) {ks : List κ} (hNodup : ks.Nodup)
    (hKeys : ∀ x ∈ history, key x ∈ ks) :
    (ks.flatMap fun k => lane key value k history).Perm (history.map value) := by
  induction history with
  | nil => simp [lane]
  | cons x history ih =>
    rw [List.forall_mem_cons] at hKeys
    simp only [lane_cons]
    exact (flatMap_cons_perm hNodup hKeys.1 (value x) _).trans ((ih hKeys.2).cons _)

theorem nodup_map_snoc (hNodup : (history.map value).Nodup) {x : α}
    (hNew : value x ∉ history.map value) : ((history ++ [x]).map value).Nodup := by
  rw [List.map_append]
  exact List.nodup_append_comm.mp (List.nodup_cons.mpr ⟨hNew, hNodup⟩)

/-- Where no value occurs twice, a value belongs to one key and one number. -/
theorem kth_lane_inj (hNodup : (history.map value).Nodup) {k' : κ} {n n' : Nat} {b : β}
    (h : kth (lane key value k history) n = some b)
    (h' : kth (lane key value k' history) n' = some b) : (k, n) = (k', n') := by
  obtain ⟨x, hx, rfl, hValue⟩ := mem_lane.mp (kth_mem h)
  obtain ⟨x', hx', rfl, hValue'⟩ := mem_lane.mp (kth_mem h')
  obtain rfl := List.inj_on_of_nodup_map hNodup hx hx' (hValue.trans hValue'.symm)
  rw [kth_inj (hNodup.sublist lane_sublist) h h']

end Lanes
