import PsRpc.Embedding.Routing

/-! # Tables and their partitions

The ranges of a table partition its rows if its key is added once. Each further call of
`AddEmbeddingTable` with the same key appends the ranges of its own row count to those that are
there, while the row count itself is overwritten.
-/

namespace PsRpc

/-- The ranges, one for each server, cut the rows of a table into consecutive parts of the sizes
that `LocalShard` gives. -/
structure Partitions (servers : Nat) (rowCount : UInt64)
    (ranges : List EmbeddingTableShardMetadata) : Prop where
  length : ranges.length = servers
  first : ∀ range, ranges[0]? = some range → range.begin_ = 0
  next : ∀ i range range', ranges[i]? = some range → ranges[i + 1]? = some range' →
    range'.begin_.toNat = range.end_.toNat + 1
  last : ∀ range, ranges[servers - 1]? = some range → range.end_.toNat + 1 = rowCount.toNat
  sizes : ∀ (i : Nat) range, ranges[i]? = some range →
    range.begin_.toNat ≤ range.end_.toNat + 1 ∧ range.end_.toNat + 1 < 2 ^ 64 ∧
      Util.localShard rowCount.toNat i servers =
        .ok (range.end_.toNat + 1 - range.begin_.toNat : Nat)
  cover : ∀ id : UInt64, id < rowCount →
    ∃! i : Nat, ∃ range, ranges[i]? = some range ∧ range.Contains id
  outside : ∀ range ∈ ranges, ∀ id : UInt64, range.Contains id → id < rowCount
  empty : ∀ (i : Nat) range, ranges[i]? = some range →
    Util.localShard rowCount.toNat i servers = .ok 0 → ∀ id : UInt64, ¬range.Contains id

namespace Shards

variable {servers : Nat} {rowCount : UInt64} {ranges : List EmbeddingTableShardMetadata}

theorem lt_of_getElem? {size : Nat → Nat} (h : Shards size servers ranges) {i : Nat}
    {range : EmbeddingTableShardMetadata} (hAt : ranges[i]? = some range) : i < servers := by
  rw [← h.length]
  exact (List.getElem?_eq_some_iff.mp hAt).1

theorem contains_unique {size : Nat → Nat} (h : Shards size servers ranges) {i j : Nat}
    {range range' : EmbeddingTableShardMetadata} (hAt : ranges[i]? = some range)
    (hAt' : ranges[j]? = some range') {id : UInt64} (hIn : range.Contains id)
    (hIn' : range'.Contains id) : i = j :=
  ((h.contains_iff hAt id).mp hIn).unique ((h.contains_iff hAt' id).mp hIn')

theorem cover (h : Shards (Util.share servers rowCount.toNat) servers ranges) (hPos : 0 < servers)
    {id : UInt64} (hId : id < rowCount) :
    ∃! i : Nat, ∃ range, ranges[i]? = some range ∧ range.Contains id := by
  rw [UInt64.lt_iff_toNat_lt, ← Util.start_share hPos rowCount.toNat] at hId
  obtain ⟨i, hi, hOwns⟩ := Spans.exists_owns hId
  obtain ⟨range, hAt⟩ : ∃ range, ranges[i]? = some range := by
    rw [← h.length] at hi
    exact ⟨_, List.getElem?_eq_getElem hi⟩
  have hIn := (h.contains_iff hAt id).mpr hOwns
  refine ⟨i, ⟨range, hAt, hIn⟩, ?_⟩
  rintro j ⟨range', hAt', hIn'⟩
  exact h.contains_unique hAt' hAt hIn' hIn

theorem localShard_eq (h : Shards (Util.share servers rowCount.toNat) servers ranges)
    (hRows : 0 < rowCount.toNat) {i : Nat} {range : EmbeddingTableShardMetadata}
    (hAt : ranges[i]? = some range) :
    Util.localShard rowCount.toNat i servers =
      .ok (range.end_.toNat + 1 - range.begin_.toNat : Nat) := by
  obtain ⟨hBegin, hEnd⟩ := h.bounds i range hAt
  rw [Util.localShard_ok hRows (h.lt_of_getElem? hAt), hBegin, hEnd, Spans.start_succ,
    Nat.add_sub_cancel_left]

theorem partitions (h : Shards (Util.share servers rowCount.toNat) servers ranges)
    (hPos : 0 < servers) (hRows : 0 < rowCount.toNat) : Partitions servers rowCount ranges := by
  have hTotal := Util.start_share hPos rowCount.toNat
  have hStop {i : Nat} (hi : i < servers) :
      Spans.start (Util.share servers rowCount.toNat) (i + 1) ≤ rowCount.toNat :=
    Worker.start_le_rowCount hi hPos
  have hMax := rowCount.toNat_lt
  constructor
  · exact h.length
  · intro range hAt
    apply UInt64.toNat_inj.mp
    rw [(h.bounds 0 range hAt).1, Spans.start_zero]
    rfl
  · intro i range range' hAt hAt'
    rw [(h.bounds (i + 1) range' hAt').1, (h.bounds i range hAt).2]
  · intro range hAt
    rw [(h.bounds _ range hAt).2, Nat.sub_add_cancel hPos, hTotal]
  · intro i range hAt
    obtain ⟨hBegin, hEnd⟩ := h.bounds i range hAt
    have hOrder : Spans.start (Util.share servers rowCount.toNat) i ≤
        Spans.start (Util.share servers rowCount.toNat) (i + 1) :=
      Spans.start_mono (i.le_add_right 1)
    have hLe := hStop (h.lt_of_getElem? hAt)
    exact ⟨by omega, by omega, h.localShard_eq hRows hAt⟩
  · intro id hId
    exact h.cover hPos hId
  · intro range hMem id hIn
    obtain ⟨i, hAt⟩ := List.mem_iff_getElem?.mp hMem
    have hLe := hStop (h.lt_of_getElem? hAt)
    have hOwns := (h.contains_iff hAt id).mp hIn
    rw [UInt64.lt_iff_toNat_lt]
    exact hOwns.2.trans_le hLe
  · intro i range hAt hZero id hIn
    rw [h.localShard_eq hRows hAt] at hZero
    obtain ⟨hBegin, hEnd⟩ := h.bounds i range hAt
    obtain ⟨hStart, hLt⟩ := (h.contains_iff hAt id).mp hIn
    have hSize : ((range.end_.toNat + 1 - range.begin_.toNat : Nat) : Int) = 0 :=
      Except.ok.inj hZero
    omega

end Shards

/-- The ranges that `AddEmbeddingTable` stores for a new key partition the rows of the table. -/
theorem added_ranges_partition (w : Worker) (servers : Nat) (hServers : w.serverNum = servers)
    (hPos : 1 ≤ servers) (key rowCount : UInt64) (hNew : key ∉ w.embeddingTableRanges)
    (hRows : 1 ≤ rowCount.toNat) (hLt : rowCount.toNat < 2 ^ 63) :
    ∃ w' ranges, w.addEmbeddingTable key rowCount = .ok w' ∧
      w'.embeddingTableRanges.lookup key = some ranges ∧ Partitions servers rowCount ranges := by
  obtain ⟨w', ranges, hAdd, hTable⟩ := Worker.addEmbeddingTable_ok hServers hPos
    (AList.lookup_eq_none.mpr hNew) hRows hLt
  exact ⟨w', ranges, hAdd, hTable.lookup, hTable.shards.partitions hPos hRows⟩

/-- Two rows on three servers: the last shard is empty. -/
theorem added_ranges_partition_fewer_rows :
    ∃ w' ranges, (Worker.mk ∅ 3 ∅).addEmbeddingTable 7 2 = .ok w' ∧
      w'.embeddingTableRanges.lookup 7 = some ranges ∧ Partitions 3 2 ranges :=
  added_ranges_partition ⟨∅, 3, ∅⟩ 3 rfl (by decide) 7 2 (AList.notMem_empty 7) (by decide)
    (by decide)

/-! ## Any sequence of additions -/

namespace Worker

def new (servers : Nat) : Worker := ⟨∅, servers, ∅⟩

/-- A call of `AddEmbeddingTable` whose exception is caught. The row count is refused in the first
turn or not at all, so that a call which raises has not changed the worker. -/
def tryAdd (w : Worker) (table : UInt64 × UInt64) : Worker :=
  match w.addEmbeddingTable table.1 table.2 with
  | .ok w' => w'
  | .error _ => w

def tryAdds (w : Worker) (tables : List (UInt64 × UInt64)) : Worker := tables.foldl tryAdd w

/-- The ids of a lookup go to the servers that there are, and each of them to one of these. -/
def LookupsSeparated (w : Worker) (key : UInt64) : Prop :=
  ∀ (V : Type) (send : EmbeddingTableLookup V)
    (sliced slices : List (Bool × EmbeddingTableLookup V)),
    send.key = key → w.lookupIdSlicer send (some sliced) = .ok slices →
    (slices.length : Int) ≤ w.serverNum ∧
      ∀ (i j : Nat) slice slice' id, slices[i]? = some slice → slices[j]? = some slice' →
        id ∈ slice.2.keys → id ∈ slice'.2.keys → i = j

/-- Every table that was added has one range for each server, and these partition its rows. -/
def Consistent (w : Worker) (servers : Nat) : Prop :=
  ∀ key rowCount, w.embeddingRowCnt.lookup key = some rowCount →
    ∃ ranges, w.embeddingTableRanges.lookup key = some ranges ∧
      Partitions servers rowCount ranges ∧ w.LookupsSeparated key

/-- Of the calls with a positive row count, those that return: it is positive as an `int64_t`,
too. -/
def Accepted (table : UInt64 × UInt64) : Prop := table.2.toNat < 2 ^ 63

instance (table : UInt64 × UInt64) : Decidable (Accepted table) :=
  inferInstanceAs (Decidable (_ < _))

variable {servers : Nat} {key rowCount : UInt64} {w w' : Worker}

/-! ### One call -/

theorem toInt64_nonpos {n : UInt64} (h : ¬(0 < n.toNat ∧ n.toNat < 2 ^ 63)) :
    toInt64 n ≤ 0 := by
  have hMax := n.toNat_lt
  unfold toInt64
  rw [Int.bmod_def]
  push_cast
  split_ifs <;> omega

/-- A row count that is not positive as an `int64_t` is refused in the first turn. -/
theorem addEmbeddingTable_refused (hServers : w.serverNum = servers) (hPos : 0 < servers)
    (hRows : ¬(0 < rowCount.toNat ∧ rowCount.toNat < 2 ^ 63)) :
    w.addEmbeddingTable key rowCount = .error (.exception "Input values are invalid.") := by
  have hNegative : toInt64 rowCount ≤ 0 := toInt64_nonpos hRows
  have hShard (i : Nat) : Util.localShard (toInt64 rowCount) i w.serverNum =
      .error (.exception "Input values are invalid.") := by
    rw [Util.localShard, Util.allRankLocalShard, if_pos (.inl hNegative)]
    rfl
  obtain ⟨turns, rfl⟩ := Nat.exists_eq_add_one.mpr hPos
  rw [addEmbeddingTable, hServers, Int.toNat_natCast, List.range_succ_eq_map, List.foldlM_cons,
    addShard, hShard]
  rfl

theorem addShard_spec {s s' : AddState} {i : Nat} (h : addShard key rowCount s i = .ok s') :
    s'.worker.serverNum = s.worker.serverNum ∧
      s'.worker.embeddingRowCnt = s.worker.embeddingRowCnt ∧
      ∃ range, s'.worker.embeddingTableRanges = s.worker.embeddingTableRanges.insert key
        (s.worker.embeddingTableRanges.getD key [] ++ [range]) := by
  obtain ⟨localRowCnt, _, h⟩ := bind_eq_ok h
  cases h
  exact ⟨rfl, rfl, _, rfl⟩

theorem addShards_spec {turns : List Nat} {s s' : AddState}
    (h : turns.foldlM (addShard key rowCount) s = .ok s') :
    s'.worker.serverNum = s.worker.serverNum ∧
      s'.worker.embeddingRowCnt = s.worker.embeddingRowCnt ∧
      (∀ other, other ≠ key → s'.worker.embeddingTableRanges.lookup other =
        s.worker.embeddingTableRanges.lookup other) ∧
      (s'.worker.embeddingTableRanges.getD key []).length =
        (s.worker.embeddingTableRanges.getD key []).length + turns.length := by
  induction turns generalizing s with
  | nil =>
    cases h
    exact ⟨rfl, rfl, fun _ _ => rfl, rfl⟩
  | cons i turns ih =>
    rw [List.foldlM_cons] at h
    obtain ⟨next, hTurn, hRest⟩ := bind_eq_ok h
    obtain ⟨hServers, hRows, range, hRanges⟩ := addShard_spec hTurn
    obtain ⟨hServers', hRows', hOthers, hLength⟩ := ih hRest
    refine ⟨hServers'.trans hServers, hRows'.trans hRows, ?_, ?_⟩
    · intro other hOther
      rw [hOthers other hOther, hRanges, Table.lookup_insert, if_neg hOther]
    · rw [hLength, hRanges, Table.getD_insert, if_pos rfl]
      simp only [List.length_append, List.length_cons, List.length_nil]
      omega

theorem addEmbeddingTable_spec (hServers : w.serverNum = servers)
    (h : w.addEmbeddingTable key rowCount = .ok w') :
    w'.serverNum = servers ∧ w'.embeddingRowCnt = w.embeddingRowCnt.insert key rowCount ∧
      (∀ other, other ≠ key → w'.embeddingTableRanges.lookup other =
        w.embeddingTableRanges.lookup other) ∧
      (w'.embeddingTableRanges.getD key []).length =
        (w.embeddingTableRanges.getD key []).length + servers := by
  obtain ⟨s, hTurns, hAdd⟩ := bind_eq_ok h
  obtain ⟨hSame, hRows, hOthers, hLength⟩ := addShards_spec hTurns
  cases hAdd
  rw [List.length_range, hServers, Int.toNat_natCast] at hLength
  refine ⟨hSame.trans hServers, ?_, hOthers, hLength⟩
  change s.worker.embeddingRowCnt.insert key rowCount = _
  rw [hRows]

theorem addEmbeddingTable_returns (hServers : w.serverNum = servers) (hRows : 0 < rowCount.toNat)
    (hLt : rowCount.toNat < 2 ^ 63) : ∃ w', w.addEmbeddingTable key rowCount = .ok w' := by
  have hTurns (turns : Nat) (hLe : turns ≤ servers) :
      ∃ s, (List.range turns).foldlM (addShard key rowCount) ⟨w, 0, 0⟩ = .ok s ∧
        s.worker.serverNum = servers := by
    induction turns with
    | zero => exact ⟨_, rfl, hServers⟩
    | succ turns ih =>
      obtain ⟨s, hRun, hSame⟩ := ih (by omega)
      have hShard : Util.localShard (toInt64 rowCount) turns s.worker.serverNum =
          .ok (Util.share servers rowCount.toNat turns : Int) := by
        rw [toInt64_of_lt hLt, hSame]
        exact Util.localShard_ok hRows hLe
      have hTurn : ∃ s', addShard key rowCount s turns = .ok s' := by
        rw [addShard, hShard]
        exact ⟨_, rfl⟩
      obtain ⟨s', hTurn⟩ := hTurn
      exact ⟨s', foldlM_range_succ hRun hTurn, (addShard_spec hTurn).1.trans hSame⟩
  obtain ⟨s, hRun, _⟩ := hTurns servers (le_refl servers)
  rw [addEmbeddingTable, hServers, Int.toNat_natCast, hRun]
  exact ⟨_, rfl⟩

/-- What one call does to the worker, whether it returns or raises. -/
theorem tryAdd_cases (hServers : w.serverNum = servers) (hPos : 0 < servers)
    {table : UInt64 × UInt64} (hRows : 0 < table.2.toNat) :
    (Accepted table ∧ w.addEmbeddingTable table.1 table.2 = .ok (w.tryAdd table)) ∨
      (¬Accepted table ∧ w.tryAdd table = w) := by
  by_cases hAccepted : Accepted table
  · obtain ⟨w', hAdd⟩ := addEmbeddingTable_returns hServers hRows hAccepted
    refine .inl ⟨hAccepted, ?_⟩
    rw [tryAdd, hAdd]
  · refine .inr ⟨hAccepted, ?_⟩
    rw [tryAdd, addEmbeddingTable_refused hServers hPos fun h => hAccepted h.2]

theorem tryAdd_serverNum (hServers : w.serverNum = servers) (hPos : 0 < servers)
    {table : UInt64 × UInt64} (hRows : 0 < table.2.toNat) :
    (w.tryAdd table).serverNum = servers := by
  rcases tryAdd_cases hServers hPos hRows with ⟨_, hAdd⟩ | ⟨_, hSame⟩
  · exact (addEmbeddingTable_spec hServers hAdd).1
  · rw [hSame, hServers]

/-! ### Repeated keys -/

def addedKeys (tables : List (UInt64 × UInt64)) : List UInt64 :=
  (tables.filter fun table => Accepted table).map Prod.fst

theorem addedKeys_cons (table : UInt64 × UInt64) (tables : List (UInt64 × UInt64)) :
    addedKeys (table :: tables) =
      if Accepted table then table.1 :: addedKeys tables else addedKeys tables := by
  rw [addedKeys, List.filter_cons]
  split
  · next h =>
    rw [if_pos (of_decide_eq_true h)]
    rfl
  · next h =>
    rw [if_neg (by simpa using h)]
    rfl

theorem length_tryAdds {tables : List (UInt64 × UInt64)} (hServers : w.serverNum = servers)
    (hPos : 0 < servers) (hRows : ∀ table ∈ tables, 0 < table.2.toNat) :
    ((w.tryAdds tables).embeddingTableRanges.getD key []).length =
      (w.embeddingTableRanges.getD key []).length + servers * (addedKeys tables).count key := by
  induction tables generalizing w with
  | nil => rfl
  | cons table tables ih =>
    rw [List.forall_mem_cons] at hRows
    have hRest := ih (tryAdd_serverNum hServers hPos hRows.1) hRows.2
    change ((tryAdds (w.tryAdd table) tables).embeddingTableRanges.getD key []).length = _
    rw [hRest, addedKeys_cons]
    rcases tryAdd_cases hServers hPos hRows.1 with ⟨hAccepted, hAdd⟩ | ⟨hRefused, hSame⟩
    · obtain ⟨_, _, hOthers, hLength⟩ := addEmbeddingTable_spec hServers hAdd
      rw [if_pos hAccepted, List.count_cons]
      by_cases hKey : table.1 = key
      · subst hKey
        simp only [hLength, beq_self_eq_true, if_true, Nat.mul_add, Nat.mul_one]
        omega
      · simp only [Table.getD, hOthers key (Ne.symm hKey), beq_iff_eq, hKey, if_false, Nat.add_zero]
    · rw [if_neg hRefused, hSame]

theorem mem_embeddingRowCnt_tryAdds {tables : List (UInt64 × UInt64)}
    (hServers : w.serverNum = servers) (hPos : 0 < servers)
    (hRows : ∀ table ∈ tables, 0 < table.2.toNat)
    (h : key ∈ w.embeddingRowCnt ∨ key ∈ addedKeys tables) :
    key ∈ (w.tryAdds tables).embeddingRowCnt := by
  induction tables generalizing w with
  | nil =>
    rcases h with hOld | hNew
    · exact hOld
    · cases hNew
  | cons table tables ih =>
    rw [List.forall_mem_cons] at hRows
    apply ih (tryAdd_serverNum hServers hPos hRows.1) hRows.2
    rw [addedKeys_cons] at h
    rcases tryAdd_cases hServers hPos hRows.1 with ⟨hAccepted, hAdd⟩ | ⟨hRefused, hSame⟩
    · rw [(addEmbeddingTable_spec hServers hAdd).2.1, AList.mem_insert]
      rw [if_pos hAccepted, List.mem_cons] at h
      tauto
    · rw [hSame]
      rwa [if_neg hRefused] at h

/-- Ranges that partition the rows of a table are as many as the servers, so its key was added
once. -/
theorem Consistent.nodup {tables : List (UInt64 × UInt64)} (hPos : 0 < servers)
    (hRows : ∀ table ∈ tables, 0 < table.2.toNat)
    (h : ((Worker.new servers).tryAdds tables).Consistent servers) : (addedKeys tables).Nodup := by
  apply List.nodup_iff_count_le_one.mpr
  intro key
  by_contra hMany
  have hMem : key ∈ addedKeys tables := List.count_pos_iff.mp (by omega)
  have hAdded := mem_embeddingRowCnt_tryAdds (w := Worker.new servers) rfl hPos hRows (.inr hMem)
  obtain ⟨rowCount, hRowCount⟩ := Option.isSome_iff_exists.mp (AList.lookup_isSome.mpr hAdded)
  obtain ⟨ranges, hRanges, hParts, _⟩ := h key rowCount hRowCount
  have hLength : (((Worker.new servers).tryAdds tables).embeddingTableRanges.getD key []).length =
      0 + servers * (addedKeys tables).count key := length_tryAdds rfl hPos hRows
  rw [Nat.zero_add, Table.getD, hRanges, Option.getD_some, hParts.length] at hLength
  have hLe : servers * 2 ≤ servers * (addedKeys tables).count key :=
    Nat.mul_le_mul_left servers (by omega)
  omega

/-! ### Distinct keys -/

structure Tidy (servers : Nat) (seen : List UInt64) (w : Worker) : Prop where
  serverNum : w.serverNum = servers
  unseen : ∀ key, key ∉ seen →
    w.embeddingTableRanges.lookup key = none ∧ w.embeddingRowCnt.lookup key = none
  tables : ∀ key ∈ seen, ∃ rowCount ranges,
    w.HasTable servers key rowCount ranges ∧ 0 < rowCount.toNat

theorem Tidy.new (servers : Nat) : Tidy servers [] (.new servers) where
  serverNum := rfl
  unseen _ _ := ⟨rfl, rfl⟩
  tables := by simp

theorem Tidy.add {seen : List UInt64} (h : Tidy servers seen w) (hPos : 0 < servers)
    (hRows : 0 < rowCount.toNat) (hLt : rowCount.toNat < 2 ^ 63) (hNew : key ∉ seen)
    (hAdd : w.addEmbeddingTable key rowCount = .ok w') : Tidy servers (key :: seen) w' := by
  obtain ⟨hServers, hRowCnt, hOthers, _⟩ := addEmbeddingTable_spec h.serverNum hAdd
  refine ⟨hServers, ?_, ?_⟩
  · intro other hOther
    rw [List.mem_cons, not_or] at hOther
    obtain ⟨hRanges, hNoRows⟩ := h.unseen other hOther.2
    rw [hOthers other hOther.1, hRowCnt, Table.lookup_insert, if_neg hOther.1]
    exact ⟨hRanges, hNoRows⟩
  · intro other hOther
    rcases List.mem_cons.mp hOther with rfl | hSeen
    · obtain ⟨w'', ranges, hAdd', hTable⟩ :=
        addEmbeddingTable_ok h.serverNum hPos (h.unseen other hNew).1 hRows hLt
      rw [hAdd] at hAdd'
      cases hAdd'
      exact ⟨rowCount, ranges, hTable, hRows⟩
    · obtain ⟨rowCount', ranges, hTable, hPositive⟩ := h.tables other hSeen
      have hKey : key ≠ other := fun hEq => hNew (hEq ▸ hSeen)
      exact ⟨rowCount', ranges, hTable.addOther hKey hAdd, hPositive⟩

theorem Tidy.tryAdds {tables : List (UInt64 × UInt64)} {seen : List UInt64}
    (h : Tidy servers seen w) (hPos : 0 < servers)
    (hRows : ∀ table ∈ tables, 0 < table.2.toNat) (hNodup : (addedKeys tables).Nodup)
    (hFresh : ∀ key ∈ addedKeys tables, key ∉ seen) :
    ∃ seen', Tidy servers seen' (w.tryAdds tables) := by
  induction tables generalizing w seen with
  | nil => exact ⟨seen, h⟩
  | cons table tables ih =>
    rw [List.forall_mem_cons] at hRows
    change ∃ seen', Tidy servers seen' ((w.tryAdd table).tryAdds tables)
    rw [addedKeys_cons] at hNodup hFresh
    rcases tryAdd_cases h.serverNum hPos hRows.1 with ⟨hAccepted, hAdd⟩ | ⟨hRefused, hSame⟩
    · rw [if_pos hAccepted, List.nodup_cons] at hNodup
      rw [if_pos hAccepted, List.forall_mem_cons] at hFresh
      refine ih (h.add hPos hRows.1 hAccepted hFresh.1 hAdd) hRows.2 hNodup.2 ?_
      intro key hKey
      rw [List.mem_cons, not_or]
      exact ⟨fun hEq => hNodup.1 (hEq ▸ hKey), hFresh.2 key hKey⟩
    · rw [if_neg hRefused] at hNodup hFresh
      rw [hSame]
      exact ih h hRows.2 hNodup hFresh

theorem HasTable.lookupsSeparated {ranges : List EmbeddingTableShardMetadata}
    (h : w.HasTable servers key rowCount ranges) : w.LookupsSeparated key := by
  intro V send sliced slices hKey hSlices
  rw [lookupIdSlicer_eq h hKey] at hSlices
  cases hSlices
  constructor
  · have hLength := h.shards.length
    rw [h.serverNum, List.length_zipWith]
    omega
  · intro i j slice slice' id hAt hAt' hId hId'
    have hFrom {i : Nat} {slice : Bool × EmbeddingTableLookup V}
        (hAt : (List.zipWith (lookupSlice send) ranges
          (resize ranges.length (false, {}) sliced))[i]? = some slice)
        (hId : id ∈ slice.2.keys) :
        ∃ range, ranges[i]? = some range ∧ range.Contains (UInt64.ofInt id) := by
      rw [List.getElem?_zipWith_eq_some] at hAt
      obtain ⟨range, slot, hRange, _, rfl⟩ := hAt
      exact ⟨range, hRange, (mem_lookupSlice.mp hId).2⟩
    obtain ⟨range, hRange, hIn⟩ := hFrom hAt hId
    obtain ⟨range', hRange', hIn'⟩ := hFrom hAt' hId'
    exact h.shards.contains_unique hRange hRange' hIn hIn'

theorem Tidy.consistent {seen : List UInt64} (h : Tidy servers seen w) (hPos : 0 < servers) :
    w.Consistent servers := by
  intro key rowCount hRowCount
  have hSeen : key ∈ seen := by
    by_contra hUnseen
    rw [(h.unseen key hUnseen).2] at hRowCount
    cases hRowCount
  obtain ⟨rowCount', ranges, hTable, hPositive⟩ := h.tables key hSeen
  rw [hTable.rows] at hRowCount
  cases hRowCount
  exact ⟨ranges, hTable.lookup, hTable.shards.partitions hPos hPositive, hTable.lookupsSeparated⟩

end Worker

/-- After any calls of `AddEmbeddingTable`, the tables are consistent if and only if no key was
added twice. -/
theorem tables_consistent_iff (servers : Nat) (hPos : 1 ≤ servers)
    (tables : List (UInt64 × UInt64)) (hRows : ∀ table ∈ tables, 0 < table.2.toNat) :
    ((Worker.new servers).tryAdds tables).Consistent servers ↔
      (Worker.addedKeys tables).Nodup := by
  constructor
  · intro hConsistent
    exact hConsistent.nodup hPos hRows
  · intro hNodup
    obtain ⟨seen, hTidy⟩ :=
      (Worker.Tidy.new servers).tryAdds hPos hRows hNodup fun _ _ => List.not_mem_nil
    exact hTidy.consistent hPos

theorem tables_consistent_iff_two_keys :
    ((Worker.new 3).tryAdds [(1, 100), (2, 10)]).Consistent 3 :=
  (tables_consistent_iff 3 (by decide) [(1, 100), (2, 10)] (by simp)).mpr (by decide)

/-- The second call with the key 1 leaves six ranges for three servers. -/
theorem repeated_key_inconsistent :
    ¬((Worker.new 3).tryAdds [(1, 100), (1, 10)]).Consistent 3 := by
  intro hConsistent
  have hNodup := hConsistent.nodup (by decide) (by simp)
  revert hNodup
  decide

end PsRpc
