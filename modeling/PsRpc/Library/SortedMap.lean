import Mathlib.Data.List.Nodup
import Mathlib.Order.Lattice

/-! # Sorted maps

`std::map` as the list of its entries in the order of their keys. An iterator is the entry that it
points to, and `none` is the end.
-/

structure SortedMap (κ β : Type) [LinearOrder κ] where
  entries : List (κ × β)
  sorted : entries.Pairwise fun a b => a.1 < b.1

namespace SortedMap

variable {κ β : Type} [LinearOrder κ]

def empty : SortedMap κ β := ⟨[], .nil⟩

def find (m : SortedMap κ β) (key : κ) : Option (κ × β) :=
  m.entries.find? fun entry => entry.1 = key

/-- The entries after `m[key] = value`. -/
def assign (entries : List (κ × β)) (key : κ) (value : β) : List (κ × β) :=
  entries.filter (·.1 < key) ++ (key, value) :: entries.filter (key < ·.1)

theorem sorted_assign {entries : List (κ × β)} (h : entries.Pairwise fun a b => a.1 < b.1)
    (key : κ) (value : β) : (assign entries key value).Pairwise fun a b => a.1 < b.1 := by
  refine List.pairwise_append.mpr ⟨h.filter _, ?_, ?_⟩
  · refine List.pairwise_cons.mpr ⟨?_, h.filter _⟩
    intro entry hEntry
    exact of_decide_eq_true (List.mem_filter.mp hEntry).2
  · intro below hBelow entry hEntry
    have hLt : below.1 < key := of_decide_eq_true (List.mem_filter.mp hBelow).2
    obtain rfl | hAbove := List.mem_cons.mp hEntry
    · exact hLt
    · exact lt_trans hLt (of_decide_eq_true (List.mem_filter.mp hAbove).2)

def place (m : SortedMap κ β) (key : κ) (value : β) : SortedMap κ β :=
  ⟨assign m.entries key value, sorted_assign m.sorted key value⟩

/-- A value under a key that is there already is kept. -/
def insert (m : SortedMap κ β) (key : κ) (value : β) : SortedMap κ β × (κ × β) × Bool :=
  match m.find key with
  | some entry => (m, entry, false)
  | none => (m.place key value, (key, value), true)

/-- The number is that of the entries that are removed. -/
def erase (m : SortedMap κ β) (key : κ) : SortedMap κ β × Nat :=
  (⟨m.entries.filter (·.1 ≠ key), m.sorted.filter _⟩, m.entries.countP (·.1 = key))

def lowerBound (m : SortedMap κ β) (key : κ) : Option (κ × β) :=
  m.entries.find? fun entry => key ≤ entry.1

def begin (m : SortedMap κ β) : Option (κ × β) := m.entries.head?

variable {m : SortedMap κ β} {key : κ} {value : β} {entry other : κ × β}

theorem eq_of_key_eq (hEntry : entry ∈ m.entries) (hOther : other ∈ m.entries)
    (hKey : entry.1 = other.1) : entry = other := by
  have hNodup : (m.entries.map Prod.fst).Nodup := List.pairwise_map.mpr (m.sorted.imp ne_of_lt)
  exact List.inj_on_of_nodup_map hNodup hEntry hOther hKey

theorem find_eq_none_iff : m.find key = none ↔ ∀ entry ∈ m.entries, entry.1 ≠ key := by
  rw [find, List.find?_eq_none]
  simp only [decide_eq_true_eq, ne_eq]

theorem insert_new (hNew : ∀ entry ∈ m.entries, entry.1 ≠ key) :
    m.insert key value = (m.place key value, (key, value), true) := by
  rw [insert, find_eq_none_iff.mpr hNew]

theorem mem_place (hNew : ∀ entry ∈ m.entries, entry.1 ≠ key) :
    entry ∈ (m.place key value).entries ↔ entry = (key, value) ∨ entry ∈ m.entries := by
  simp only [place, assign, List.mem_append, List.mem_cons, List.mem_filter, decide_eq_true_eq]
  constructor
  · rintro (⟨hMem, _⟩ | hEq | ⟨hMem, _⟩)
    · exact .inr hMem
    · exact .inl hEq
    · exact .inr hMem
  · rintro (hEq | hMem)
    · exact .inr (.inl hEq)
    · obtain hBelow | hAbove := lt_or_gt_of_ne (hNew entry hMem)
      · exact .inl ⟨hMem, hBelow⟩
      · exact .inr (.inr ⟨hMem, hAbove⟩)

theorem place_perm (hNew : ∀ entry ∈ m.entries, entry.1 ≠ key) :
    (m.place key value).entries.Perm ((key, value) :: m.entries) := by
  have hAbove : m.entries.filter (key < ·.1) =
      m.entries.filter fun entry => !decide (entry.1 < key) := by
    apply List.filter_congr
    intro entry hEntry
    rw [← decide_not, decide_eq_decide, not_lt]
    exact ⟨le_of_lt, fun hLe => lt_of_le_of_ne hLe (hNew entry hEntry).symm⟩
  refine List.perm_middle.trans (.cons _ ?_)
  rw [hAbove]
  exact List.filter_append_perm _ _

theorem assign_last {entries : List (κ × β)} (hBelow : ∀ entry ∈ entries, entry.1 < key) :
    assign entries key value = entries ++ [(key, value)] := by
  have hFront : entries.filter (·.1 < key) = entries := by
    rw [List.filter_eq_self]
    intro entry hEntry
    exact decide_eq_true (hBelow entry hEntry)
  have hBack : entries.filter (key < ·.1) = [] := by
    rw [List.filter_eq_nil_iff]
    intro entry hEntry hAbove
    exact lt_asymm (hBelow entry hEntry) (of_decide_eq_true hAbove)
  rw [assign, hFront, hBack]

theorem mem_assign {entries : List (κ × β)} (hMem : entry ∈ assign entries key value) :
    entry = (key, value) ∨ entry ∈ entries := by
  obtain hBelow | hRest := List.mem_append.mp hMem
  · exact .inr (List.mem_of_mem_filter hBelow)
  · obtain rfl | hAbove := List.mem_cons.mp hRest
    · exact .inl rfl
    · exact .inr (List.mem_of_mem_filter hAbove)

omit [LinearOrder κ] in
theorem lookup_filter [BEq κ] [LawfulBEq κ] (entries : List (κ × β)) (p : κ → Bool) (name : κ) :
    (entries.filter fun entry => p entry.1).lookup name =
      if p name then entries.lookup name else none := by
  induction entries with
  | nil => simp
  | cons entry entries ih =>
    rw [List.filter_cons, List.lookup_cons]
    cases hName : name == entry.1 with
    | true =>
      obtain rfl := eq_of_beq hName
      split
      · rw [List.lookup_cons, hName]
      · next hNot => rw [ih, if_neg hNot]
    | false =>
      split
      · rw [List.lookup_cons, hName]
        exact ih
      · exact ih

theorem lookup_assign [BEq κ] [LawfulBEq κ] (entries : List (κ × β)) (key name : κ) (value : β) :
    (assign entries key value).lookup name =
      if name = key then some value else entries.lookup name := by
  rw [assign, List.lookup_append, lookup_filter _ fun k => decide (k < key), List.lookup_cons,
    lookup_filter _ fun k => decide (key < k)]
  rcases lt_trichotomy name key with hLt | rfl | hGt
  · rw [if_neg hLt.ne, if_pos (decide_eq_true hLt), beq_false_of_ne hLt.ne]
    simp [lt_asymm hLt]
  · simp
  · rw [if_neg hGt.ne', beq_false_of_ne hGt.ne']
    simp [hGt, lt_asymm hGt]

theorem insert_old (hEntry : entry ∈ m.entries) : m.insert entry.1 value = (m, entry, false) := by
  cases hFind : m.find entry.1 with
  | none => exact absurd rfl (find_eq_none_iff.mp hFind entry hEntry)
  | some found =>
    have hKey : found.1 = entry.1 := by simpa using List.find?_some hFind
    rw [insert, hFind, eq_of_key_eq (List.mem_of_find?_eq_some hFind) hEntry hKey]

theorem mem_of_mem_insert (hMem : entry ∈ (m.insert key value).1.entries) :
    entry = (key, value) ∨ entry ∈ m.entries := by
  rw [insert] at hMem
  split at hMem
  · exact .inr hMem
  · next hNone => exact (mem_place (find_eq_none_iff.mp hNone)).mp hMem

theorem mem_erase : entry ∈ (m.erase key).1.entries ↔ entry ∈ m.entries ∧ entry.1 ≠ key := by
  simp only [erase, List.mem_filter, decide_eq_true_eq]

theorem lowerBound_spec (hFound : m.lowerBound key = some entry) :
    entry ∈ m.entries ∧ key ≤ entry.1 ∧
      ∀ other ∈ m.entries, key ≤ other.1 → entry.1 ≤ other.1 := by
  obtain ⟨hLe, before, after, hEntries, hBefore⟩ := List.find?_eq_some_iff_append.mp hFound
  have hSorted := m.sorted
  rw [hEntries] at hSorted ⊢
  refine ⟨List.mem_append_cons_self, of_decide_eq_true hLe, ?_⟩
  intro other hOther hOtherLe
  obtain hMem | hMem := List.mem_append.mp hOther
  · have hNot := hBefore other hMem
    simp [hOtherLe] at hNot
  · obtain rfl | hAfter := List.mem_cons.mp hMem
    · exact le_refl _
    · have hTail := (List.pairwise_append.mp hSorted).2.1
      exact le_of_lt ((List.pairwise_cons.mp hTail).1 other hAfter)

theorem lowerBound_eq_none_iff :
    m.lowerBound key = none ↔ ∀ entry ∈ m.entries, entry.1 < key := by
  rw [lowerBound, List.find?_eq_none]
  simp only [decide_eq_true_eq, not_le]

theorem begin_spec (hFirst : m.begin = some entry) :
    entry ∈ m.entries ∧ ∀ other ∈ m.entries, entry.1 ≤ other.1 := by
  obtain ⟨rest, hEntries⟩ := List.head?_eq_some_iff.mp hFirst
  have hSorted := m.sorted
  rw [hEntries] at hSorted ⊢
  refine ⟨List.mem_cons_self, ?_⟩
  intro other hOther
  obtain rfl | hRest := List.mem_cons.mp hOther
  · exact le_refl _
  · exact le_of_lt ((List.pairwise_cons.mp hSorted).1 other hRest)

/-! ## The values -/

def get? (m : SortedMap κ β) (key : κ) : Option β := (m.find key).map Prod.snd

theorem get?_eq_some : m.get? key = some value ↔ (key, value) ∈ m.entries := by
  rw [get?, Option.map_eq_some_iff]
  constructor
  · rintro ⟨entry, hFind, rfl⟩
    have hKey : entry.1 = key := by simpa using List.find?_some hFind
    rw [← hKey]
    exact List.mem_of_find?_eq_some hFind
  · intro hMem
    cases hFind : m.find key with
    | none => exact absurd rfl (find_eq_none_iff.mp hFind _ hMem)
    | some found =>
      have hKey : found.1 = key := by simpa using List.find?_some hFind
      have hSame := eq_of_key_eq (List.mem_of_find?_eq_some hFind) hMem hKey
      exact ⟨found, rfl, congrArg Prod.snd hSame⟩

theorem get?_insert (hNew : m.get? key = none) (name : κ) :
    (m.insert key value).1.get? name = if name = key then some value else m.get? name := by
  have hKeys : ∀ entry ∈ m.entries, entry.1 ≠ key := by
    rwa [get?, Option.map_eq_none_iff, find_eq_none_iff] at hNew
  rw [insert_new hKeys]
  apply Option.ext
  intro v
  rw [get?_eq_some, mem_place hKeys, Prod.mk.injEq]
  split
  · next hName =>
    subst hName
    rw [Option.some.injEq, ← get?_eq_some, hNew]
    simp [eq_comm]
  · next hName => simp [hName, get?_eq_some]

theorem get?_erase (name : κ) :
    (m.erase key).1.get? name = if name = key then none else m.get? name := by
  apply Option.ext
  intro v
  rw [get?_eq_some, mem_erase]
  split
  · next hName => simp [hName]
  · next hName => simp [hName, get?_eq_some]

/-- A loop over the map that changes the values. -/
def mapValues {γ : Type} (f : κ → β → γ) (m : SortedMap κ β) : SortedMap κ γ where
  entries := m.entries.map fun entry => (entry.1, f entry.1 entry.2)
  sorted := List.pairwise_map.mpr m.sorted

theorem get?_mapValues {γ : Type} (f : κ → β → γ) :
    (m.mapValues f).get? key = (m.get? key).map (f key) := by
  apply Option.ext
  intro v
  rw [get?_eq_some, Option.map_eq_some_iff, mapValues, List.mem_map]
  simp only [get?_eq_some, Prod.mk.injEq]
  constructor
  · rintro ⟨entry, hMem, rfl, rfl⟩
    exact ⟨entry.2, hMem, rfl⟩
  · rintro ⟨value, hMem, rfl⟩
    exact ⟨(key, value), hMem, rfl, rfl⟩

end SortedMap
