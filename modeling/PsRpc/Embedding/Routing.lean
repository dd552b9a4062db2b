import PsRpc.Embedding.Ranges

/-! # All slicers send a row to the same server

Each of the three slicers finds the shard of a row by other means: a comparison of a signed id with
the ends of the range, the same comparison after a cast, and offsets into the values. All of them
agree with the layout of the shards.
-/

namespace PsRpc

open Spans

namespace Worker

variable {V : Type} {w : Worker} {servers : Nat} {key rowCount : UInt64}
  {ranges : List EmbeddingTableShardMetadata} {i r : Nat}

theorem length_resize {α : Type} (count : Nat) (filler : α) (xs : List α) :
    (resize count filler xs).length = count := by
  rw [resize, List.length_append, List.length_take, List.length_replicate]
  omega

theorem getElem?_resize {α : Type} {count : Nat} (h : i < count) (filler : α) (xs : List α) :
    (resize count filler xs)[i]? = some (xs[i]?.getD filler) := by
  rw [resize]
  by_cases hOld : i < xs.length
  · rw [List.getElem?_append_left (by rw [List.length_take]; omega), List.getElem?_take_of_lt h,
      List.getElem?_eq_getElem hOld, Option.getD_some]
  · rw [List.getElem?_append_right (by rw [List.length_take]; omega), List.getElem?_replicate,
      if_pos (by rw [List.length_take]; omega), List.getElem?_eq_none (by omega), Option.getD_none]

theorem getElem?_slices {α : Type} (slice : EmbeddingTableShardMetadata → α → α)
    {range : EmbeddingTableShardMetadata} (hAt : ranges[i]? = some range) (filler : α)
    (sliced : List α) :
    (List.zipWith slice ranges (resize ranges.length filler sliced))[i]? =
      some (slice range (sliced[i]?.getD filler)) := by
  obtain ⟨hLt, _⟩ := List.getElem?_eq_some_iff.mp hAt
  rw [List.getElem?_zipWith, hAt, getElem?_resize hLt]

theorem ranges_eq (h : w.HasTable servers key rowCount ranges) : w.ranges key = .ok ranges := by
  rw [Worker.ranges, h.lookup]

theorem exists_range (h : w.HasTable servers key rowCount ranges) (hLt : i < servers) :
    ∃ range, ranges[i]? = some range :=
  ⟨_, List.getElem?_eq_getElem (by rw [h.shards.length]; exact hLt)⟩

/-! ## Lookups -/

theorem mem_lookupSlice {send : EmbeddingTableLookup V} {range : EmbeddingTableShardMetadata}
    {slot : Bool × EmbeddingTableLookup V} {id : Int} :
    id ∈ (lookupSlice send range slot).2.keys ↔
      id ∈ send.keys ∧ range.Contains (UInt64.ofInt id) := by
  rw [lookupSlice, List.mem_dedup, List.mem_filter, decide_eq_true_eq]

theorem lookupSlice_flag {send : EmbeddingTableLookup V} {range : EmbeddingTableShardMetadata}
    {slot : Bool × EmbeddingTableLookup V} {id : Int}
    (h : id ∈ (lookupSlice send range slot).2.keys) : (lookupSlice send range slot).1 = true := by
  change (!(lookupSlice send range slot).2.keys.isEmpty) = true
  rw [List.isEmpty_eq_false_iff.mpr (List.ne_nil_of_mem h)]
  rfl

/-- `LookupIdSlicer` puts the id into this slice, whatever else the list holds. -/
def LookupRoutes (V : Type) (w : Worker) (key : UInt64) (r i : Nat) : Prop :=
  ∀ (send : EmbeddingTableLookup V) (sliced : List (Bool × EmbeddingTableLookup V)),
    send.key = key → (r : Int) ∈ send.keys →
      ∃ slices kvs, w.lookupIdSlicer send (some sliced) = .ok slices ∧
        slices[i]? = some (true, kvs) ∧ (r : Int) ∈ kvs.keys

theorem lookupIdSlicer_eq (h : w.HasTable servers key rowCount ranges)
    {send : EmbeddingTableLookup V} (hKey : send.key = key)
    (sliced : List (Bool × EmbeddingTableLookup V)) :
    w.lookupIdSlicer send (some sliced) =
      .ok (List.zipWith (lookupSlice send) ranges (resize ranges.length (false, {}) sliced)) := by
  rw [lookupIdSlicer, hKey, ranges_eq h]
  rfl

theorem lookupRoutes_iff (h : w.HasTable servers key rowCount ranges) (hLt : i < servers)
    (hRow : r < 2 ^ 64) :
    w.LookupRoutes V key r i ↔ Owns (Util.share servers rowCount.toNat) i r := by
  obtain ⟨range, hAt⟩ := exists_range h hLt
  have hContains : range.Contains (UInt64.ofInt (r : Int)) ↔
      Owns (Util.share servers rowCount.toNat) i r := by
    rw [h.shards.contains_iff hAt, toNat_ofInt_natCast hRow]
  constructor
  · intro hRoutes
    obtain ⟨slices, kvs, hSlices, hSlice, hMem⟩ :=
      hRoutes { key := key, keys := [(r : Int)] } [] rfl List.mem_cons_self
    rw [lookupIdSlicer_eq h rfl] at hSlices
    cases hSlices
    rw [getElem?_slices _ hAt] at hSlice
    change (r : Int) ∈ (true, kvs).2.keys at hMem
    rw [← Option.some.inj hSlice] at hMem
    exact hContains.mp (mem_lookupSlice.mp hMem).2
  · intro hOwns send sliced hKey hMem
    have hIn : (r : Int) ∈ (lookupSlice send range (sliced[i]?.getD (false, {}))).2.keys :=
      mem_lookupSlice.mpr ⟨hMem, hContains.mpr hOwns⟩
    refine ⟨_, _, lookupIdSlicer_eq h hKey sliced, ?_, hIn⟩
    rw [getElem?_slices _ hAt]
    exact congrArg some (Prod.ext (lookupSlice_flag hIn) rfl)

/-! ## Updates -/

def selected (send : KVMessage V) (range : EmbeddingTableShardMetadata) : List (Int × Nat) :=
  send.len.zipIdx.filter fun entry => range.Contains (UInt64.ofInt entry.1)

def sliceIds (send : KVMessage V) (range : EmbeddingTableShardMetadata) : List Int :=
  (selected send range).map fun entry => toInt32 (UInt64.ofInt entry.1)

def sliceValues (embeddingDim : Nat) (send : KVMessage V) (range : EmbeddingTableShardMetadata) :
    List V :=
  (selected send range).flatMap fun entry => row embeddingDim send.values entry.2

theorem foldl_putRow (embeddingDim : Nat) (values : List V) (range : EmbeddingTableShardMetadata)
    (entries : List (Int × Nat)) (kvs : KVMessage V) :
    entries.foldl (putRow embeddingDim values range) kvs =
      { kvs with
        keys := kvs.keys ++ (entries.filter fun entry =>
          range.Contains (UInt64.ofInt entry.1)).map fun entry => toInt32 (UInt64.ofInt entry.1)
        values := kvs.values ++ (entries.filter fun entry =>
          range.Contains (UInt64.ofInt entry.1)).flatMap fun entry =>
            row embeddingDim values entry.2 } := by
  induction entries generalizing kvs with
  | nil => simp
  | cons entry entries ih =>
    rw [List.foldl_cons, ih, putRow, List.filter_cons]
    by_cases hIn : range.Contains (UInt64.ofInt entry.1)
    · simp only [hIn, if_true, decide_true, List.map_cons, List.flatMap_cons, List.append_assoc,
        List.singleton_append]
    · simp only [hIn, if_false, decide_false, Bool.false_eq_true]

/-- What a call of `UpdateEmbeddingSlicer` has added to a slice: the key of the table and then ids,
and values. -/
structure Adds (before after : KVMessage V) (key : UInt64) (ids : List Int) (values : List V) :
    Prop where
  keys : after.keys = before.keys ++ (key.toNat : Int) :: ids
  values : after.values = before.values ++ values

theorem updateSlice_snd (key : UInt64) (embeddingDim : Nat) (send : KVMessage V)
    (range : EmbeddingTableShardMetadata) (slot : Bool × KVMessage V) :
    (updateSlice key embeddingDim send range slot).2 =
      { slot.2 with
        keys := slot.2.keys ++ toInt32 key :: sliceIds send range
        values := slot.2.values ++ sliceValues embeddingDim send range } := by
  rw [updateSlice, foldl_putRow, List.append_assoc]
  rfl

theorem updateSlice_adds (hKey : key.toNat < 2 ^ 31) (embeddingDim : Nat) (send : KVMessage V)
    (range : EmbeddingTableShardMetadata) (slot : Bool × KVMessage V) :
    Adds slot.2 (updateSlice key embeddingDim send range slot).2 key (sliceIds send range)
      (sliceValues embeddingDim send range) := by
  rw [updateSlice_snd, toInt32_of_lt hKey]
  exact ⟨rfl, rfl⟩

def slotBefore (sliced : List (Bool × KVMessage V)) (i : Nat) : KVMessage V :=
  (sliced[i]?.getD (false, {})).2

/-- `UpdateEmbeddingSlicer` puts the id with its row into this slice and not into another one, for
every list with `d` values for each id and every occurrence of the id in it. -/
def UpdateRoutes (V : Type) (w : Worker) (key : UInt64) (r i : Nat) : Prop :=
  ∀ (send : KVMessage V) (sliced : List (Bool × KVMessage V)) (d p : Nat),
    send.keys.head? = some (key.toNat : Int) → send.values.length = send.len.length * d →
    send.len[p]? = some (r : Int) →
      ∃ slices, w.updateEmbeddingSlicer send (some sliced) = .ok slices ∧
        (∃ kvs ids values q, slices[i]? = some (true, kvs) ∧
          Adds (slotBefore sliced i) kvs key ids values ∧ ids[q]? = some (r : Int) ∧
          row d values q = row d send.values p) ∧
        ∀ j slice, j ≠ i → slices[j]? = some slice →
          ∃ ids values, Adds (slotBefore sliced j) slice.2 key ids values ∧ (r : Int) ∉ ids

theorem firstKey_of_head? {send : KVMessage V} {first : Int} (h : send.keys.head? = some first) :
    firstKey send = .ok (UInt64.ofInt first) := by
  obtain ⟨rest, hKeys⟩ := List.head?_eq_some_iff.mp h
  rw [firstKey, hKeys]

theorem firstKey_eq {send : KVMessage V} (hKey : send.keys.head? = some (key.toNat : Int)) :
    firstKey send = .ok key := by
  rw [firstKey_of_head? hKey]
  refine congrArg Except.ok (UInt64.toNat_inj.mp ?_)
  exact toNat_ofInt_natCast key.toNat_lt

theorem divide_mul {count : Nat} (hCount : 0 < count) (width : Nat) :
    divide (count * width) count = .ok width := by
  rw [divide, if_neg hCount.ne', Nat.mul_div_cancel_left width hCount]

theorem updateEmbeddingSlicer_eq (h : w.HasTable servers key rowCount ranges)
    {send : KVMessage V} (hFirst : firstKey send = .ok key) {d : Nat}
    (hCount : 0 < send.len.length) (hValues : send.values.length = send.len.length * d)
    (sliced : List (Bool × KVMessage V)) :
    w.updateEmbeddingSlicer send (some sliced) =
      .ok (List.zipWith (updateSlice key d send) ranges
        (resize ranges.length (false, {}) sliced)) := by
  rw [updateEmbeddingSlicer, hValues, divide_mul hCount, hFirst]
  change (w.ranges key >>= _) = _
  rw [ranges_eq h]
  rfl

theorem owns_of_mem_sliceIds (h : w.HasTable servers key rowCount ranges)
    (hRows : rowCount.toNat ≤ 2 ^ 31) {send : KVMessage V} {range : EmbeddingTableShardMetadata}
    (hAt : ranges[i]? = some range) (hMem : (r : Int) ∈ sliceIds send range) :
    Owns (Util.share servers rowCount.toNat) i r := by
  obtain ⟨entry, hEntry, hId⟩ := List.mem_map.mp hMem
  have hContains : range.Contains (UInt64.ofInt entry.1) :=
    of_decide_eq_true (List.mem_filter.mp hEntry).2
  have hOwns := (h.shards.contains_iff hAt _).mp hContains
  have hLt : i < servers := by
    obtain ⟨hLt, _⟩ := List.getElem?_eq_some_iff.mp hAt
    rwa [h.shards.length] at hLt
  have hStop : start (Util.share servers rowCount.toNat) (i + 1) ≤ rowCount.toNat :=
    start_le_rowCount hLt (by omega)
  have hSmall : (UInt64.ofInt entry.1).toNat < 2 ^ 31 := by
    have hBelow := hOwns.2
    omega
  rw [toInt32_of_lt hSmall] at hId
  rw [← Int.ofNat_inj.mp hId]
  exact hOwns

theorem exists_selected (h : w.HasTable servers key rowCount ranges) (hRow : r < 2 ^ 64)
    (hOwns : Owns (Util.share servers rowCount.toNat) i r) {range : EmbeddingTableShardMetadata}
    (hAt : ranges[i]? = some range) {send : KVMessage V} {p : Nat}
    (hId : send.len[p]? = some (r : Int)) :
    ∃ q : Nat, (selected send range)[q]? = some ((r : Int), p) := by
  refine List.mem_iff_getElem?.mp ?_
  rw [selected, List.mem_filter, List.mem_zipIdx_iff_getElem?, decide_eq_true_eq,
    h.shards.contains_iff hAt, toNat_ofInt_natCast hRow]
  exact ⟨hId, hOwns⟩

theorem row_sliceValues {d : Nat} {send : KVMessage V}
    (hValues : send.values.length = send.len.length * d) {range : EmbeddingTableShardMetadata}
    {q : Nat} {entry : Int × Nat} (hq : (selected send range)[q]? = some entry) :
    row d (sliceValues d send range) q = row d send.values entry.2 := by
  refine row_flatMap (f := fun entry : Int × Nat => row d send.values entry.2) ?_ hq
  intro entry hEntry
  obtain ⟨hLt, _⟩ := List.getElem?_eq_some_iff.mp
    (List.mem_zipIdx_iff_getElem?.mp (List.mem_of_mem_filter hEntry))
  refine length_row ?_
  rw [hValues]
  exact Nat.mul_le_mul_right d hLt

theorem updateSlice_flag (hKey : key.toNat < 2 ^ 31) (embeddingDim : Nat) {send : KVMessage V}
    {range : EmbeddingTableShardMetadata} (slot : Bool × KVMessage V)
    (hIds : 0 < (sliceIds send range).length) :
    (updateSlice key embeddingDim send range slot).1 = true := by
  have hLength := congrArg List.length (updateSlice_adds hKey embeddingDim send range slot).keys
  rw [List.length_append, List.length_cons] at hLength
  refine decide_eq_true ?_
  change 1 < (updateSlice key embeddingDim send range slot).2.keys.length
  omega

theorem updateRoutes (h : w.HasTable servers key rowCount ranges) (hKey : key.toNat < 2 ^ 31)
    (hRows : rowCount.toNat ≤ 2 ^ 31) (hLt : i < servers) (hRow : r < rowCount.toNat)
    (hOwns : Owns (Util.share servers rowCount.toNat) i r) : w.UpdateRoutes V key r i := by
  intro send sliced d p hFirst hValues hId
  obtain ⟨hPos, _⟩ := List.getElem?_eq_some_iff.mp hId
  refine ⟨_, updateEmbeddingSlicer_eq h (firstKey_eq hFirst) (by omega) hValues sliced, ?_, ?_⟩
  · obtain ⟨range, hAt⟩ := exists_range h hLt
    obtain ⟨q, hq⟩ := exists_selected h (by omega) hOwns hAt hId
    have hToNat : (UInt64.ofInt (r : Int)).toNat = r := toNat_ofInt_natCast (by omega)
    have hAtQ : (sliceIds send range)[q]? = some (r : Int) := by
      rw [sliceIds, List.getElem?_map, hq]
      change some (toInt32 (UInt64.ofInt (r : Int))) = _
      rw [toInt32_of_lt (by omega), hToNat]
    obtain ⟨hLtQ, _⟩ := List.getElem?_eq_some_iff.mp hAtQ
    refine ⟨_, _, _, q, ?_, updateSlice_adds hKey d send range _, hAtQ, row_sliceValues hValues hq⟩
    rw [getElem?_slices _ hAt]
    exact congrArg some (Prod.ext (updateSlice_flag hKey d _ (by omega)) rfl)
  · intro j slice hj hSlice
    have hLtJ : j < ranges.length := by
      obtain ⟨hLtJ, _⟩ := List.getElem?_eq_some_iff.mp hSlice
      rw [List.length_zipWith, length_resize, Nat.min_self] at hLtJ
      exact hLtJ
    have hAt := List.getElem?_eq_getElem hLtJ
    rw [getElem?_slices _ hAt] at hSlice
    cases hSlice
    refine ⟨_, _, updateSlice_adds hKey d send _ _, ?_⟩
    intro hMem
    exact hj ((owns_of_mem_sliceIds h hRows hAt hMem).unique hOwns)

/-! ## Initial values -/

/-- `WorkerInitEmbeddingSlicer` puts the initial values of the row into this slice, as many rows
behind its start as the row is behind the first row of the shard. -/
def InitRoutes (V : Type) (w : Worker) (key rowCount : UInt64) (r i : Nat) : Prop :=
  ∀ (send : KVMessage V) (sliced : List (Bool × KVMessage V)) (c : Nat),
    send.keys.head? = some (key.toNat : Int) → rowCount.toNat * c < 2 ^ 31 →
    send.values.length = rowCount.toNat * c →
      ∃ slices kvs ranges range, w.workerInitEmbeddingSlicer send (some sliced) = .ok slices ∧
        slices[i]? = some (true, kvs) ∧
        w.embeddingTableRanges.lookup key = some ranges ∧ ranges[i]? = some range ∧
        range.begin_.toNat ≤ r ∧
        row c kvs.values (r - range.begin_.toNat) = row c send.values r

theorem initSlices_eq {send : KVMessage V} {colCnt : Nat}
    {slice : EmbeddingTableShardMetadata → KVMessage V}
    {ranges : List EmbeddingTableShardMetadata} {slots : List (Bool × KVMessage V)}
    (hLength : ranges.length = slots.length)
    (hSlice : ∀ range ∈ ranges, initSlice send colCnt range = .ok (slice range)) :
    initSlices send colCnt ranges slots = .ok (ranges.map fun range => (true, slice range)) := by
  induction ranges generalizing slots with
  | nil => rw [initSlices, List.eq_nil_of_length_eq_zero hLength.symm, List.map_nil]
  | cons first rest ih =>
    cases slots with
    | nil => cases hLength
    | cons slot slots =>
      rw [List.forall_mem_cons] at hSlice
      rw [initSlices, hSlice.1, ih (Nat.succ.inj hLength) hSlice.2]
      rfl

def initValues (colCnt : Nat) (send : KVMessage V) (range : EmbeddingTableShardMetadata) :
    List V :=
  (send.values.drop (range.begin_.toNat * colCnt)).take
    ((range.end_.toNat + 1 - range.begin_.toNat) * colCnt)

/-- The products are far below `2 ^ 64`. -/
theorem initOffsets_eq (h : w.HasTable servers key rowCount ranges) {c : Nat}
    (hSmall : rowCount.toNat * c < 2 ^ 31) (hRows : 0 < rowCount.toNat)
    {range : EmbeddingTableShardMetadata} (hMem : range ∈ ranges) :
    (range.begin_ * UInt64.ofNat c).toNat = range.begin_.toNat * c ∧
      ((range.end_ + 1) * UInt64.ofNat c).toNat = (range.end_.toNat + 1) * c ∧
      range.begin_.toNat * c ≤ (range.end_.toNat + 1) * c ∧
      (range.end_.toNat + 1) * c ≤ rowCount.toNat * c := by
  obtain ⟨i, hAt⟩ := List.mem_iff_getElem?.mp hMem
  obtain ⟨hBegin, hEnd⟩ := h.shards.bounds i range hAt
  obtain ⟨hLt, _⟩ := List.getElem?_eq_some_iff.mp hAt
  rw [h.shards.length] at hLt
  have hOrder : start (Util.share servers rowCount.toNat) i ≤
      start (Util.share servers rowCount.toNat) (i + 1) := start_mono (Nat.le_succ i)
  have hStop : start (Util.share servers rowCount.toNat) (i + 1) ≤ rowCount.toNat :=
    start_le_rowCount hLt (by omega)
  rw [← hEnd, ← hBegin] at hOrder
  rw [← hEnd] at hStop
  have hMax := rowCount.toNat_lt
  have hCol : c < 2 ^ 64 := by
    have hLe : c ≤ rowCount.toNat * c := Nat.le_mul_of_pos_left c hRows
    omega
  have hBeginCol : range.begin_.toNat * c ≤ (range.end_.toNat + 1) * c :=
    Nat.mul_le_mul_right c hOrder
  have hEndCol : (range.end_.toNat + 1) * c ≤ rowCount.toNat * c := Nat.mul_le_mul_right c hStop
  have hColToNat : (UInt64.ofNat c).toNat = c := UInt64.toNat_ofNat_of_lt' hCol
  have hNext : (range.end_ + 1).toNat = range.end_.toNat + 1 := by
    change (range.end_.toNat + 1) % 2 ^ 64 = _
    exact Nat.mod_eq_of_lt (by omega)
  refine ⟨?_, ?_, hBeginCol, hEndCol⟩
  · rw [UInt64.toNat_mul, hColToNat, Nat.mod_eq_of_lt (by omega)]
  · rw [UInt64.toNat_mul, hColToNat, hNext, Nat.mod_eq_of_lt (by omega)]

theorem initSlice_ok (h : w.HasTable servers key rowCount ranges) {send : KVMessage V} {c : Nat}
    (hSmall : rowCount.toNat * c < 2 ^ 31) (hRows : 0 < rowCount.toNat)
    (hValues : send.values.length = rowCount.toNat * c) {range : EmbeddingTableShardMetadata}
    (hMem : range ∈ ranges) :
    initSlice send c range = .ok { keys := send.keys, values := initValues c send range } := by
  obtain ⟨hOffsetBegin, hOffsetEnd, hBeginCol, hEndCol⟩ := initOffsets_eq h hSmall hRows hMem
  rw [initSlice, hOffsetBegin, hOffsetEnd, subrange, hValues, if_pos ⟨hBeginCol, hEndCol⟩,
    ← Nat.sub_mul]
  rfl

theorem workerInitEmbeddingSlicer_eq (h : w.HasTable servers key rowCount ranges)
    {send : KVMessage V} (hFirst : firstKey send = .ok key) {c : Nat}
    (hSmall : rowCount.toNat * c < 2 ^ 31) (hRows : 0 < rowCount.toNat)
    (hValues : send.values.length = rowCount.toNat * c) (sliced : List (Bool × KVMessage V)) :
    w.workerInitEmbeddingSlicer send (some sliced) = .ok (ranges.map fun range =>
      (true, { keys := send.keys, values := initValues c send range })) := by
  have hLength : ranges.length = (resize servers (false, {}) sliced).length := by
    rw [length_resize, h.shards.length]
  rw [workerInitEmbeddingSlicer, hFirst]
  change (divide send.values.length (w.embeddingRowCnt.getD key 0).toNat >>= _) = _
  rw [Table.getD, h.rows, Option.getD_some, hValues, divide_mul hRows, ranges_eq h, h.serverNum,
    Int.toNat_natCast]
  exact initSlices_eq hLength fun range hMem => initSlice_ok h hSmall hRows hValues hMem

theorem initRoutes (h : w.HasTable servers key rowCount ranges) (hLt : i < servers)
    (hRow : r < rowCount.toNat) (hOwns : Owns (Util.share servers rowCount.toNat) i r) :
    w.InitRoutes V key rowCount r i := by
  intro send sliced c hFirst hSmall hValues
  obtain ⟨range, hAt⟩ := exists_range h hLt
  obtain ⟨hBegin, hEnd⟩ := h.shards.bounds i range hAt
  refine ⟨_, { keys := send.keys, values := initValues c send range }, ranges, range,
    workerInitEmbeddingSlicer_eq h (firstKey_eq hFirst) hSmall (by omega) hValues sliced, ?_,
    h.lookup, hAt, ?_, ?_⟩
  · rw [List.getElem?_map, hAt]
    rfl
  · rw [hBegin]
    exact hOwns.1
  · obtain ⟨hFrom, hTo⟩ := hOwns
    rw [← hBegin] at hFrom
    rw [← hEnd] at hTo
    rw [initValues, row_slice _ _ (by omega), Nat.add_sub_cancel' hFrom]

end Worker

/-- Every row of a table belongs to exactly one server: the one that lookups of the row, updates of
the row and its initial values go to, also when other tables are added later. -/
theorem slicers_agree_on_row (V : Type) (w : Worker) (servers : Nat) (key rowCount : UInt64)
    (hServers : w.serverNum = servers) (hPos : 1 ≤ servers) (hKey : key.toNat < 2 ^ 31)
    (hRows : 1 ≤ rowCount.toNat) (hMax : rowCount.toNat ≤ 2 ^ 31)
    (hNew : w.embeddingTableRanges.lookup key = none) :
    ∃ added, w.addEmbeddingTable key rowCount = .ok added ∧
      ∀ (tables : List (UInt64 × UInt64)) (later : Worker), (∀ table ∈ tables, table.1 ≠ key) →
        added.addEmbeddingTables tables = .ok later →
        ∀ r < rowCount.toNat, ∃! i, i < servers ∧ later.LookupRoutes V key r i ∧
          later.UpdateRoutes V key r i ∧ later.InitRoutes V key rowCount r i := by
  obtain ⟨added, ranges, hAdd, hTable⟩ :=
    Worker.addEmbeddingTable_ok hServers hPos hNew hRows (by omega)
  refine ⟨added, hAdd, ?_⟩
  intro tables later hOther hLater r hRow
  replace hTable := hTable.addOthers hOther hLater
  have hInside : r < start (Util.share servers rowCount.toNat) servers := by
    rw [Util.start_share hPos]
    exact hRow
  obtain ⟨i, hLt, hOwns⟩ := exists_owns hInside
  refine ⟨i, ⟨hLt, ?_, ?_, ?_⟩, ?_⟩
  · exact (Worker.lookupRoutes_iff hTable hLt (by omega)).mpr hOwns
  · exact Worker.updateRoutes hTable hKey hMax hLt hRow hOwns
  · exact Worker.initRoutes hTable hLt hRow hOwns
  · rintro j ⟨hLtJ, hLookup, _, _⟩
    exact ((Worker.lookupRoutes_iff hTable hLtJ (by omega)).mp hLookup).unique hOwns

def threeServers : Worker := ⟨∅, 3, ∅⟩

theorem slicers_agree_on_row_ten :
    ∃ added, threeServers.addEmbeddingTable 1 10 = .ok added ∧
      ∀ (tables : List (UInt64 × UInt64)) (later : Worker), (∀ table ∈ tables, table.1 ≠ 1) →
        added.addEmbeddingTables tables = .ok later →
        ∀ r < (10 : UInt64).toNat, ∃! i, i < 3 ∧ later.LookupRoutes Nat 1 r i ∧
          later.UpdateRoutes Nat 1 r i ∧ later.InitRoutes Nat 1 10 r i :=
  slicers_agree_on_row Nat threeServers 3 1 10 rfl (by decide) (by decide) (by decide) (by decide)
    rfl

end PsRpc
