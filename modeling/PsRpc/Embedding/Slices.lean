import Mathlib.Data.Set.Card
import Mathlib.Order.Interval.Finset.Nat
import PsRpc.Embedding.Partition

/-! # What the slicers cut

The slices that a table gets which was added once, compared with the message that is cut: what each
slice holds and in which order, and that nothing is lost or sent twice. Ids are of the type
`int32_t` and become `uint64_t` when they are compared with the ends of a range.
-/

namespace PsRpc

open Spans

def IsInt32 (n : Int) : Prop := -2 ^ 31 ≤ n ∧ n < 2 ^ 31

def EmbeddingTableShardMetadata.Covers (range : EmbeddingTableShardMetadata) (id : Int) : Prop :=
  (range.begin_.toNat : Int) ≤ id ∧ id ≤ range.end_.toNat

instance (range : EmbeddingTableShardMetadata) (id : Int) : Decidable (range.Covers id) :=
  inferInstanceAs (Decidable (_ ∧ _))

theorem toNat_ofInt (n : Int) : ((UInt64.ofInt n).toNat : Int) = n % 2 ^ 64 := by
  rw [UInt64.ofInt, UInt64.toNat_ofNat']
  omega

theorem toInt32_ofInt {n : Int} (h : IsInt32 n) : toInt32 (UInt64.ofInt n) = n := by
  obtain ⟨hLow, hHigh⟩ := h
  unfold toInt32
  rw [toNat_ofInt, Int.bmod_def]
  push_cast
  split_ifs <;> omega

namespace Worker

variable {V : Type} {w : Worker} {servers : Nat} {key rowCount : UInt64}
  {ranges : List EmbeddingTableShardMetadata} {i : Nat} {range : EmbeddingTableShardMetadata}

/-! ## Tables that were added once -/

/-- `AddEmbeddingTable` has returned for a new key, and all later calls were for other keys. -/
def AddedOnce (w : Worker) (servers : Nat) (key rowCount : UInt64) : Prop :=
  ∃ (before added : Worker) (tables : List (UInt64 × UInt64)),
    before.serverNum = servers ∧ key ∉ before.embeddingTableRanges ∧
    before.addEmbeddingTable key rowCount = .ok added ∧ (∀ table ∈ tables, table.1 ≠ key) ∧
    added.tryAdds tables = w

theorem HasTable.tryAdds (h : w.HasTable servers key rowCount ranges)
    {tables : List (UInt64 × UInt64)} (hKeys : ∀ table ∈ tables, table.1 ≠ key) :
    (w.tryAdds tables).HasTable servers key rowCount ranges := by
  induction tables generalizing w with
  | nil => exact h
  | cons table tables ih =>
    rw [List.forall_mem_cons] at hKeys
    refine ih ?_ hKeys.2
    rw [tryAdd]
    split
    · next hAdd => exact h.addOther hKeys.1 hAdd
    · exact h

theorem AddedOnce.hasTable (h : w.AddedOnce servers key rowCount) (hPos : 0 < servers) :
    0 < rowCount.toNat ∧ rowCount.toNat < 2 ^ 63 ∧
      ∃ ranges, w.HasTable servers key rowCount ranges := by
  obtain ⟨before, added, tables, hServers, hNew, hAdd, hKeys, rfl⟩ := h
  have hRows : 0 < rowCount.toNat ∧ rowCount.toNat < 2 ^ 63 := by
    by_contra hRows
    rw [addEmbeddingTable_refused hServers hPos hRows] at hAdd
    cases hAdd
  obtain ⟨added', ranges, hAdd', hTable⟩ :=
    addEmbeddingTable_ok hServers hPos (AList.lookup_eq_none.mpr hNew) hRows.1 hRows.2
  rw [hAdd] at hAdd'
  cases hAdd'
  exact ⟨hRows.1, hRows.2, ranges, hTable.tryAdds hKeys⟩

theorem exists_addedOnce (hPos : 0 < servers) (key rowCount : UInt64)
    (hRows : 0 < rowCount.toNat) (hLt : rowCount.toNat < 2 ^ 63) :
    ∃ (w : Worker) (ranges : List EmbeddingTableShardMetadata),
      w.AddedOnce servers key rowCount ∧ w.HasTable servers key rowCount ranges := by
  obtain ⟨w, ranges, hAdd, hTable⟩ :=
    addEmbeddingTable_ok (w := .new servers) rfl hPos (AList.lookup_empty key) hRows hLt
  refine ⟨w, ranges, ⟨.new servers, w, [], rfl, AList.notMem_empty key, hAdd, ?_, rfl⟩, hTable⟩
  simp

theorem HasTable.covers_iff (h : w.HasTable servers key rowCount ranges)
    (hAt : ranges[i]? = some range) (id : Int) :
    range.Covers id ↔ 0 ≤ id ∧ Owns (Util.share servers rowCount.toNat) i id.toNat := by
  obtain ⟨hBegin, hEnd⟩ := h.shards.bounds i range hAt
  rw [EmbeddingTableShardMetadata.Covers, Owns]
  omega

theorem HasTable.end_lt (h : w.HasTable servers key rowCount ranges)
    (hAt : ranges[i]? = some range) : range.end_.toNat < rowCount.toNat := by
  have hLt := h.shards.lt_of_getElem? hAt
  have hLe : start (Util.share servers rowCount.toNat) (i + 1) ≤ rowCount.toNat :=
    start_le_rowCount hLt (by omega)
  have hEnd := (h.shards.bounds i range hAt).2
  omega

/-- A negative id is far above all rows when it has become a `uint64_t`. -/
theorem HasTable.contains_iff_covers (h : w.HasTable servers key rowCount ranges)
    (hLt : rowCount.toNat < 2 ^ 63) (hAt : ranges[i]? = some range) {id : Int} (hId : IsInt32 id) :
    range.Contains (UInt64.ofInt id) ↔ range.Covers id := by
  have hEnd := h.end_lt hAt
  have hToNat := toNat_ofInt id
  obtain ⟨hLow, hHigh⟩ := hId
  rw [EmbeddingTableShardMetadata.Contains, EmbeddingTableShardMetadata.Covers,
    UInt64.le_iff_toNat_le, UInt64.le_iff_toNat_le]
  omega

theorem HasTable.existsUnique_covers (h : w.HasTable servers key rowCount ranges)
    (hPos : 0 < servers) {id : Int} (hNonneg : 0 ≤ id) (hLt : id < rowCount.toNat) :
    ∃! i : Nat, ∃ range, ranges[i]? = some range ∧ range.Covers id := by
  have hInside : id.toNat < start (Util.share servers rowCount.toNat) servers := by
    rw [Util.start_share hPos]
    omega
  obtain ⟨i, hi, hOwns⟩ := exists_owns hInside
  obtain ⟨range, hAt⟩ := exists_range h hi
  refine ⟨i, ⟨range, hAt, (h.covers_iff hAt id).mpr ⟨hNonneg, hOwns⟩⟩, ?_⟩
  rintro j ⟨range', hAt', hCovers⟩
  exact ((h.covers_iff hAt' id).mp hCovers).2.unique hOwns

theorem HasTable.lt_of_covers (h : w.HasTable servers key rowCount ranges)
    (hAt : ranges[i]? = some range) {id : Int} (hCovers : range.Covers id) :
    0 ≤ id ∧ id < rowCount.toNat := by
  have hEnd := h.end_lt hAt
  obtain ⟨hLow, hHigh⟩ := hCovers
  omega

theorem length_slices {α : Type} (slice : EmbeddingTableShardMetadata → α → α) (filler : α)
    (sliced : List α) :
    (List.zipWith slice ranges (resize ranges.length filler sliced)).length = ranges.length := by
  rw [List.length_zipWith, length_resize, Nat.min_self]

/-! ## Lookups -/

structure LookupSliceOf (send : EmbeddingTableLookup V) (range : EmbeddingTableShardMetadata)
    (slice : Bool × EmbeddingTableLookup V) : Prop where
  key : slice.2.key = send.key
  nodup : slice.2.keys.Nodup
  ids : ∀ id, id ∈ slice.2.keys ↔ id ∈ send.keys ∧ range.Covers id
  flag : slice.1 = true ↔ slice.2.keys ≠ []

theorem lookupSlice_of (h : w.HasTable servers key rowCount ranges)
    (hLt : rowCount.toNat < 2 ^ 63) (hAt : ranges[i]? = some range)
    {send : EmbeddingTableLookup V} (hIds : ∀ id ∈ send.keys, IsInt32 id)
    (slot : Bool × EmbeddingTableLookup V) :
    LookupSliceOf send range (lookupSlice send range slot) where
  key := rfl
  nodup := List.nodup_dedup _
  ids id := by
    rw [mem_lookupSlice]
    apply and_congr_right
    intro hMem
    exact h.contains_iff_covers hLt hAt (hIds id hMem)
  flag := by simp [lookupSlice]

end Worker

/-- `LookupIdSlicer` cuts a lookup into one slice for each server. A slice holds the distinct ids of
the list that lie in the range of its server, and together they hold those that are rows. -/
theorem lookup_slices_exact {V : Type} (w : Worker) (servers : Nat) (hPos : 1 ≤ servers)
    (key rowCount : UInt64) (hAdded : w.AddedOnce servers key rowCount)
    (send : EmbeddingTableLookup V) (hKey : send.key = key) (hIds : ∀ id ∈ send.keys, IsInt32 id)
    (sliced : List (Bool × EmbeddingTableLookup V)) :
    ∃ ranges slices, w.embeddingTableRanges.lookup key = some ranges ∧
      w.lookupIdSlicer send (some sliced) = .ok slices ∧ ranges.length = servers ∧
      slices.length = servers ∧
      (∀ (i : Nat) range slice, ranges[i]? = some range → slices[i]? = some slice →
        Worker.LookupSliceOf send range slice) ∧
      ∀ id, (∃ slice ∈ slices, id ∈ slice.2.keys) ↔
        id ∈ send.keys ∧ 0 ≤ id ∧ id < rowCount.toNat := by
  obtain ⟨_, hLt, ranges, hTable⟩ := hAdded.hasTable hPos
  have hSlice {i : Nat} {range slice} (hAt : ranges[i]? = some range)
      (hSlice : (List.zipWith (Worker.lookupSlice send) ranges
        (Worker.resize ranges.length (false, {}) sliced))[i]? = some slice) :
      Worker.LookupSliceOf send range slice := by
    rw [Worker.getElem?_slices _ hAt] at hSlice
    cases hSlice
    exact Worker.lookupSlice_of hTable hLt hAt hIds _
  refine ⟨ranges, _, hTable.lookup, Worker.lookupIdSlicer_eq hTable hKey sliced,
    hTable.shards.length, ?_, fun i range slice hAt hSliceAt => hSlice hAt hSliceAt, ?_⟩
  · rw [Worker.length_slices, hTable.shards.length]
  · intro id
    constructor
    · rintro ⟨slice, hMem, hId⟩
      obtain ⟨i, hSliceAt⟩ := List.mem_iff_getElem?.mp hMem
      obtain ⟨range, _, hAt, _⟩ := List.getElem?_zipWith_eq_some.mp hSliceAt
      obtain ⟨hSent, hCovers⟩ := ((hSlice hAt hSliceAt).ids id).mp hId
      exact ⟨hSent, hTable.lt_of_covers hAt hCovers⟩
    · rintro ⟨hSent, hNonneg, hBelow⟩
      obtain ⟨i, ⟨range, hAt, hCovers⟩, _⟩ := hTable.existsUnique_covers hPos hNonneg hBelow
      have hSliceAt := Worker.getElem?_slices (Worker.lookupSlice send) hAt (false, {}) sliced
      exact ⟨_, List.mem_of_getElem? hSliceAt, ((hSlice hAt hSliceAt).ids id).mpr ⟨hSent, hCovers⟩⟩

/-- Ten rows on three servers. Of the ids that are looked up, one is negative, one is beyond the
rows and one is repeated. -/
theorem lookup_slices_exact_ten_rows :
    ∃ w : Worker, w.AddedOnce 3 1 10 ∧ ∃ slices,
      w.lookupIdSlicer { key := 1, keys := [-1, 4, 9, 4, 12], values := ([] : List Nat) }
        (some []) = .ok slices ∧ slices.length = 3 ∧
      ∀ id, (∃ slice ∈ slices, id ∈ slice.2.keys) ↔ id ∈ [-1, 4, 9, 4, 12] ∧ 0 ≤ id ∧ id < 10 := by
  obtain ⟨w, _, hAdded, _⟩ :=
    Worker.exists_addedOnce (show 0 < 3 by decide) 1 10 (by decide) (by decide)
  have hIds : ∀ id ∈ ([-1, 4, 9, 4, 12] : List Int), IsInt32 id := by simp [IsInt32]
  obtain ⟨_, slices, _, hSlices, _, hLength, _, hUnion⟩ :=
    lookup_slices_exact w 3 (by decide) 1 10 hAdded
      { key := 1, keys := [-1, 4, 9, 4, 12], values := ([] : List Nat) } rfl hIds []
  exact ⟨w, hAdded, slices, hSlices, hLength, hUnion⟩

/-! ## Updates -/

namespace Worker

variable {V : Type} {w : Worker} {servers : Nat} {key rowCount : UInt64}
  {ranges : List EmbeddingTableShardMetadata} {i : Nat} {range : EmbeddingTableShardMetadata}

def updatePairs (d : Nat) (send : KVMessage V) : List (Int × List V) :=
  send.len.zipIdx.map fun entry => (entry.1, row d send.values entry.2)

def pairsIn (d : Nat) (send : KVMessage V) (range : EmbeddingTableShardMetadata) :
    List (Int × List V) :=
  (updatePairs d send).filter fun pair => range.Covers pair.1

structure UpdateSliceOf (firstKey : Int) (d : Nat) (send : KVMessage V)
    (range : EmbeddingTableShardMetadata) (slice : Bool × KVMessage V) : Prop where
  keys : slice.2.keys = firstKey :: (pairsIn d send range).map Prod.fst
  values : slice.2.values = (pairsIn d send range).flatMap Prod.snd
  flag : slice.1 = true ↔ pairsIn d send range ≠ []

theorem selected_eq (h : w.HasTable servers key rowCount ranges) (hLt : rowCount.toNat < 2 ^ 63)
    (hAt : ranges[i]? = some range) {send : KVMessage V} (hIds : ∀ id ∈ send.len, IsInt32 id) :
    selected send range = send.len.zipIdx.filter fun entry => range.Covers entry.1 := by
  apply List.filter_congr
  intro entry hEntry
  apply decide_eq_decide.mpr
  exact h.contains_iff_covers hLt hAt (hIds entry.1 (List.fst_mem_of_mem_zipIdx hEntry))

theorem updateSlice_of (h : w.HasTable servers key rowCount ranges)
    (hLt : rowCount.toNat < 2 ^ 63) (hAt : ranges[i]? = some range) {send : KVMessage V}
    (hIds : ∀ id ∈ send.len, IsInt32 id) {firstKey : Int} (hFirst : IsInt32 firstKey) (d : Nat)
    {slot : Bool × KVMessage V} (hFresh : slot.2 = {}) :
    UpdateSliceOf firstKey d send range
      (updateSlice (UInt64.ofInt firstKey) d send range slot) := by
  have hSelected := selected_eq h hLt hAt hIds
  have hPairs : pairsIn d send range =
      (selected send range).map fun entry => (entry.1, row d send.values entry.2) := by
    rw [pairsIn, updatePairs, List.filter_map, hSelected]
    rfl
  have hKeys : sliceIds send range = (pairsIn d send range).map Prod.fst := by
    rw [sliceIds, hPairs, List.map_map]
    apply List.map_congr_left
    intro entry hEntry
    rw [hSelected] at hEntry
    exact toInt32_ofInt (hIds _ (List.fst_mem_of_mem_zipIdx (List.mem_of_mem_filter hEntry)))
  have hSlice := updateSlice_snd (UInt64.ofInt firstKey) d send range slot
  rw [hFresh, toInt32_ofInt hFirst, hKeys] at hSlice
  constructor
  · rw [hSlice]
    rfl
  · rw [hSlice, hPairs, List.flatMap_map]
    rfl
  · change decide (1 < (updateSlice (UInt64.ofInt firstKey) d send range slot).2.keys.length) =
      true ↔ _
    rw [hSlice]
    simp [List.length_pos_iff]

end Worker

/-- `UpdateEmbeddingSlicer` cuts an update into one slice for each server. A slice holds the key of
the table, then the ids in the range of its server in their order, and the row of each of them in
the same order. Every id that is a row goes with its values to exactly one server. -/
theorem update_slices_paired {V : Type} (w : Worker) (servers : Nat) (hPos : 1 ≤ servers)
    (key rowCount : UInt64) (hAdded : w.AddedOnce servers key rowCount) (send : KVMessage V)
    (firstKey : Int) (hFirst : send.keys.head? = some firstKey) (hInt : IsInt32 firstKey)
    (hKey : UInt64.ofInt firstKey = key) (hIds : ∀ id ∈ send.len, IsInt32 id)
    (hSome : send.len ≠ []) (d : Nat) (hValues : send.values.length = send.len.length * d)
    (sliced : List (Bool × KVMessage V)) (hFresh : ∀ slot ∈ sliced, slot.2 = {}) :
    ∃ ranges slices, w.embeddingTableRanges.lookup key = some ranges ∧
      w.updateEmbeddingSlicer send (some sliced) = .ok slices ∧ ranges.length = servers ∧
      slices.length = servers ∧
      (∀ (i : Nat) range slice, ranges[i]? = some range → slices[i]? = some slice →
        Worker.UpdateSliceOf firstKey d send range slice) ∧
      ∀ pair ∈ Worker.updatePairs d send, 0 ≤ pair.1 → pair.1 < rowCount.toNat →
        ∃! i : Nat, ∃ range, ranges[i]? = some range ∧ pair ∈ Worker.pairsIn d send range := by
  subst hKey
  obtain ⟨_, hLt, ranges, hTable⟩ := hAdded.hasTable hPos
  have hFirstKey := Worker.firstKey_of_head? hFirst
  refine ⟨ranges, _, hTable.lookup, Worker.updateEmbeddingSlicer_eq hTable hFirstKey
    (List.length_pos_iff.mpr hSome) hValues sliced, hTable.shards.length, ?_, ?_, ?_⟩
  · rw [Worker.length_slices, hTable.shards.length]
  · intro i range slice hAt hSlice
    rw [Worker.getElem?_slices _ hAt] at hSlice
    cases hSlice
    refine Worker.updateSlice_of hTable hLt hAt hIds hInt d ?_
    cases hSlot : sliced[i]? with
    | none => rfl
    | some slot => exact hFresh slot (List.mem_of_getElem? hSlot)
  · intro pair hPair hNonneg hBelow
    have hMem (range : EmbeddingTableShardMetadata) :
        pair ∈ Worker.pairsIn d send range ↔ range.Covers pair.1 := by
      simp [Worker.pairsIn, hPair]
    simpa only [hMem] using hTable.existsUnique_covers hPos hNonneg hBelow

/-- Three ids with two values each; the first and the last one belong to the first server, and the
other one is not a row. -/
def threeIds : KVMessage Nat :=
  { keys := [1], values := [10, 11, 20, 21, 30, 31], len := [2, -7, 0] }

theorem update_slices_paired_three_ids :
    ∃ w : Worker, w.AddedOnce 3 1 10 ∧ ∃ slices slice,
      w.updateEmbeddingSlicer threeIds (some []) = .ok slices ∧ slices[0]? = some slice ∧
      slice.1 = true ∧ slice.2.keys = [1, 2, 0] ∧ slice.2.values = [10, 11, 30, 31] := by
  obtain ⟨w, ranges, hAdded, hTable⟩ :=
    Worker.exists_addedOnce (show 0 < 3 by decide) 1 10 (by decide) (by decide)
  obtain ⟨ranges', slices, hLookup, hSlices, _, hLength, hSlice, _⟩ :=
    update_slices_paired w 3 (by decide) 1 10 hAdded threeIds 1 rfl (by simp [IsInt32]) rfl
      (by simp [IsInt32, threeIds]) (by simp [threeIds]) 2 rfl [] (by simp)
  rw [hTable.lookup] at hLookup
  cases hLookup
  obtain ⟨range, hRange⟩ := Worker.exists_range hTable (i := 0) (by decide)
  have hAt : slices[0]? = some slices[0] := List.getElem?_eq_getElem (by omega)
  have hOf := hSlice 0 range slices[0] hRange hAt
  have hCovers (id : Int) : range.Covers id ↔ 0 ≤ id ∧ id < 4 := by
    obtain ⟨hBegin, hEnd⟩ := hTable.shards.bounds 0 range hRange
    change range.end_.toNat + 1 = 4 at hEnd
    change range.begin_.toNat = 0 at hBegin
    rw [EmbeddingTableShardMetadata.Covers]
    omega
  have hPairs : Worker.pairsIn 2 threeIds range = [(2, [10, 11]), (0, [30, 31])] := by
    simp [Worker.pairsIn, Worker.updatePairs, hCovers, row, threeIds]
  refine ⟨w, hAdded, slices, slices[0], hSlices, hAt, ?_, ?_, ?_⟩
  · rw [hOf.flag, hPairs]
    simp
  · rw [hOf.keys, hPairs]
    rfl
  · rw [hOf.values, hPairs]
    rfl

/-! ## Initial values -/

/-- `WorkerInitEmbeddingSlicer` cuts the initial values of a table into one slice for each server,
all of them to be sent. A slice holds the rows of its shard, no offset is beyond the values, and one
after the other the slices are the values. -/
theorem initial_values_complete {V : Type} (w : Worker) (servers : Nat) (hPos : 1 ≤ servers)
    (key rowCount : UInt64) (hAdded : w.AddedOnce servers key rowCount) (send : KVMessage V)
    (firstKey : Int) (hFirst : send.keys.head? = some firstKey)
    (hKey : UInt64.ofInt firstKey = key) (c : Nat) (hSmall : rowCount.toNat * c < 2 ^ 31)
    (hValues : send.values.length = rowCount.toNat * c) (sliced : List (Bool × KVMessage V)) :
    ∃ ranges slices, w.embeddingTableRanges.lookup key = some ranges ∧
      w.workerInitEmbeddingSlicer send (some sliced) = .ok slices ∧ slices.length = servers ∧
      (∀ slice ∈ slices, slice.1 = true) ∧
      (∀ (i : Nat) slice, slices[i]? = some slice →
        ∃ rows : Nat, Util.localShard rowCount.toNat i servers = .ok (rows : Int) ∧
          slice.2.values.length = rows * c) ∧
      (∀ range ∈ ranges, (range.begin_ * UInt64.ofNat c).toNat ≤ send.values.length ∧
        ((range.end_ + 1) * UInt64.ofNat c).toNat ≤ send.values.length) ∧
      (slices.flatMap fun slice => slice.2.values) = send.values := by
  subst hKey
  obtain ⟨hRows, hLt, ranges, hTable⟩ := hAdded.hasTable hPos
  have hFirstKey := Worker.firstKey_of_head? hFirst
  refine ⟨ranges, _, hTable.lookup, Worker.workerInitEmbeddingSlicer_eq hTable hFirstKey hSmall
    hRows hValues sliced, ?_, ?_, ?_, ?_, ?_⟩
  · rw [List.length_map, hTable.shards.length]
  · simp
  · intro i slice hSlice
    rw [List.getElem?_map, Option.map_eq_some_iff] at hSlice
    obtain ⟨range, hAt, rfl⟩ := hSlice
    refine ⟨_, hTable.shards.localShard_eq hRows hAt, ?_⟩
    obtain ⟨_, _, hOrder, hStop⟩ :=
      Worker.initOffsets_eq hTable hSmall hRows (List.mem_of_getElem? hAt)
    rw [Worker.initValues, List.length_take, List.length_drop, hValues, Nat.sub_mul]
    omega
  · intro range hMem
    obtain ⟨hBegin, hEnd, hOrder, hStop⟩ := Worker.initOffsets_eq hTable hSmall hRows hMem
    rw [hBegin, hEnd, hValues]
    exact ⟨hOrder.trans hStop, hStop⟩
  · have hSizes : ranges.map (Worker.initValues c send) = (List.range ranges.length).map fun i =>
        (send.values.drop (start (Util.share servers rowCount.toNat) i * c)).take
          (Util.share servers rowCount.toNat i * c) := by
      apply map_eq_map_range
      intro i range hAt
      obtain ⟨hBegin, hEnd⟩ := hTable.shards.bounds i range hAt
      rw [Worker.initValues, hBegin, hEnd, start_succ, Nat.add_sub_cancel_left]
    rw [List.flatMap_map]
    change (ranges.flatMap fun range => Worker.initValues c send range) = _
    rw [List.flatMap_def, hSizes, flatten_slices, hTable.shards.length, Util.start_share hPos,
      ← hValues, List.take_length]

/-- Two rows of three values on three servers: the last slice is empty. -/
theorem initial_values_complete_fewer_rows :
    ∃ w : Worker, w.AddedOnce 3 1 2 ∧ ∃ slices,
      w.workerInitEmbeddingSlicer { keys := [1], values := [10, 11, 12, 20, 21, 22] } (some []) =
        .ok slices ∧ slices.length = 3 ∧ (∀ slice ∈ slices, slice.1 = true) ∧
      (slices.flatMap fun slice => slice.2.values) = [10, 11, 12, 20, 21, 22] := by
  obtain ⟨w, _, hAdded, _⟩ :=
    Worker.exists_addedOnce (show 0 < 3 by decide) 1 2 (by decide) (by decide)
  obtain ⟨_, slices, _, hSlices, hLength, hFlags, _, _, hConcat⟩ :=
    initial_values_complete w 3 (by decide) 1 2 hAdded
      { keys := [1], values := [10, 11, 12, 20, 21, 22] } 1 rfl rfl 3 (by decide) rfl []
  exact ⟨w, hAdded, slices, hSlices, hLength, hFlags, hConcat⟩

/-! ## The size of a shard -/

def EmbeddingTableShardMetadata.size (range : EmbeddingTableShardMetadata) : UInt64 :=
  range.end_ - range.begin_

/-- `size()` of every shard is its number of rows, and the sizes add up to the rows of the table. -/
structure SizesAgree (servers : Nat) (rowCount : UInt64)
    (ranges : List EmbeddingTableShardMetadata) : Prop where
  shards : ∀ (i : Nat) range, ranges[i]? = some range →
    Util.localShard rowCount.toNat i servers = .ok (range.size.toNat : Int) ∧
      {id : UInt64 | range.Contains id}.ncard = range.size.toNat
  total : (ranges.map fun range => range.size.toNat).sum = rowCount.toNat

namespace Worker

variable {w : Worker} {servers : Nat} {key rowCount : UInt64}
  {ranges : List EmbeddingTableShardMetadata} {i : Nat} {range : EmbeddingTableShardMetadata}

def shardSize (servers : Nat) (rowCount : UInt64) (i : Nat) : Nat :=
  (Util.share servers rowCount.toNat i + (2 ^ 64 - 1)) % 2 ^ 64

theorem HasTable.size_toNat (h : w.HasTable servers key rowCount ranges)
    (hAt : ranges[i]? = some range) : range.size.toNat = shardSize servers rowCount i := by
  have hMax := range.begin_.toNat_lt
  obtain ⟨hBegin, hEnd⟩ := h.shards.bounds i range hAt
  rw [start_succ, ← hBegin] at hEnd
  rw [EmbeddingTableShardMetadata.size, UInt64.toNat_sub, shardSize]
  omega

theorem HasTable.ncard_contains (h : w.HasTable servers key rowCount ranges)
    (hAt : ranges[i]? = some range) :
    {id : UInt64 | range.Contains id}.ncard = Util.share servers rowCount.toNat i := by
  have hImage : UInt64.toNat '' {id : UInt64 | range.Contains id} =
      (Finset.Ico (start (Util.share servers rowCount.toNat) i)
        (start (Util.share servers rowCount.toNat) (i + 1)) : Finset Nat) := by
    ext r
    rw [Finset.coe_Ico, Set.mem_Ico]
    constructor
    · rintro ⟨id, hIn, rfl⟩
      exact (h.shards.contains_iff hAt id).mp hIn
    · intro hOwns
      have hEnd := (h.shards.bounds i range hAt).2
      have hMax := range.end_.toNat_lt
      have hLt : r < 2 ^ 64 := by omega
      have hToNat : (UInt64.ofNat r).toNat = r := UInt64.toNat_ofNat_of_lt' hLt
      refine ⟨UInt64.ofNat r, (h.shards.contains_iff hAt _).mpr ?_, hToNat⟩
      rwa [hToNat]
  have hInjective : Function.Injective UInt64.toNat := fun _ _ => UInt64.toNat_inj.mp
  rw [← Set.ncard_image_of_injective _ hInjective, hImage, Set.ncard_coe_finset, Nat.card_Ico,
    start_succ, Nat.add_sub_cancel_left]

/-- One row is missing in every shard that has rows; a shard without rows has size `2 ^ 64 - 1`. -/
theorem start_shardSize (servers : Nat) {rowCount : UInt64} (hLt : rowCount.toNat < 2 ^ 63)
    (count : Nat) :
    start (shardSize servers rowCount) count + count =
        start (Util.share servers rowCount.toNat) count ∨
      2 ^ 64 - 1 ≤ start (shardSize servers rowCount) count := by
  induction count with
  | zero => exact .inl rfl
  | succ count ih =>
    have hShare := Util.share_le servers rowCount.toNat count
    have hSize : shardSize servers rowCount count =
        (Util.share servers rowCount.toNat count + (2 ^ 64 - 1)) % 2 ^ 64 := rfl
    rw [start_succ, start_succ]
    omega

theorem HasTable.total_ne (h : w.HasTable servers key rowCount ranges) (hPos : 0 < servers)
    (hLt : rowCount.toNat < 2 ^ 63) :
    (ranges.map fun range => range.size.toNat).sum ≠ rowCount.toNat := by
  have hSizes : (ranges.map fun range => range.size.toNat) =
      (List.range ranges.length).map (shardSize servers rowCount) :=
    map_eq_map_range fun i range hAt => h.size_toNat hAt
  have hStart := start_shardSize servers hLt servers
  rw [Util.start_share hPos] at hStart
  rw [hSizes, sum_sizes, h.shards.length]
  omega

end Worker

/-- `size()` takes the end of a range as the first row behind it, while it is the last row of the
shard: for no table and no shard of it is `size()` the number of its rows, and the sizes never add
up to the rows of the table. -/
theorem shard_size_never_agrees (w : Worker) (servers : Nat) (hPos : 1 ≤ servers)
    (key rowCount : UInt64) (hAdded : w.AddedOnce servers key rowCount) :
    ∃ ranges, w.embeddingTableRanges.lookup key = some ranges ∧ ranges.length = servers ∧
      (∀ (i : Nat) range, ranges[i]? = some range →
        ∃ rows : Nat, Util.localShard rowCount.toNat i servers = .ok (rows : Int) ∧
          {id : UInt64 | range.Contains id}.ncard = rows ∧
          range.size.toNat = (rows + (2 ^ 64 - 1)) % 2 ^ 64 ∧ range.size.toNat ≠ rows) ∧
      (ranges.map fun range => range.size.toNat).sum ≠ rowCount.toNat ∧
      ¬SizesAgree servers rowCount ranges := by
  obtain ⟨hRows, hLt, ranges, hTable⟩ := hAdded.hasTable hPos
  have hTotal := hTable.total_ne hPos hLt
  refine ⟨ranges, hTable.lookup, hTable.shards.length, ?_, hTotal, fun h => hTotal h.total⟩
  intro i range hAt
  have hShard := Util.localShard_ok hRows (hTable.shards.lt_of_getElem? hAt)
  have hSize : range.size.toNat =
      (Util.share servers rowCount.toNat i + (2 ^ 64 - 1)) % 2 ^ 64 := hTable.size_toNat hAt
  have hShare := Util.share_le servers rowCount.toNat i
  exact ⟨_, hShard, hTable.ncard_contains hAt, hSize, by omega⟩

theorem shard_size_never_agrees_three_servers :
    ∃ w : Worker, w.AddedOnce 3 7 100 ∧ ∃ ranges, w.embeddingTableRanges.lookup 7 = some ranges ∧
      ranges.length = 3 ∧ (ranges.map fun range => range.size.toNat).sum ≠ 100 ∧
      ¬SizesAgree 3 100 ranges := by
  obtain ⟨w, _, hAdded, _⟩ :=
    Worker.exists_addedOnce (show 0 < 3 by decide) 7 100 (by decide) (by decide)
  obtain ⟨ranges, hLookup, hLength, _, hTotal, hNot⟩ :=
    shard_size_never_agrees w 3 (by decide) 7 100 hAdded
  exact ⟨w, hAdded, ranges, hLookup, hLength, hTotal, hNot⟩

/-- Two rows on three servers: the first shard has one row and size 0, and the last one has none
and the largest size that there is. -/
theorem empty_shard_size_wraps :
    ∃ (w : Worker) (ranges : List EmbeddingTableShardMetadata)
      (first last : EmbeddingTableShardMetadata),
      w.AddedOnce 3 7 2 ∧ w.embeddingTableRanges.lookup 7 = some ranges ∧
      ranges[0]? = some first ∧ ranges[2]? = some last ∧
      Util.localShard 2 0 3 = .ok 1 ∧ first.size = 0 ∧
      Util.localShard 2 2 3 = .ok 0 ∧ last.size = 18446744073709551615 ∧
      ¬SizesAgree 3 2 ranges := by
  obtain ⟨w, ranges, hAdded, hTable⟩ :=
    Worker.exists_addedOnce (show 0 < 3 by decide) 7 2 (by decide) (by decide)
  obtain ⟨first, hFirst⟩ := Worker.exists_range hTable (i := 0) (by decide)
  obtain ⟨last, hLast⟩ := Worker.exists_range hTable (i := 2) (by decide)
  have hFirstSize : first.size = 0 :=
    UInt64.toNat_inj.mp ((hTable.size_toNat hFirst).trans (by decide))
  have hLastSize : last.size = 18446744073709551615 :=
    UInt64.toNat_inj.mp ((hTable.size_toNat hLast).trans (by decide))
  exact ⟨w, ranges, first, last, hAdded, hTable.lookup, hFirst, hLast, rfl, hFirstSize, rfl,
    hLastSize, fun h => hTable.total_ne (by decide) (by decide) h.total⟩

end PsRpc
