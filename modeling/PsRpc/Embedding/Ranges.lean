import PsRpc.Embedding.Worker

/-! # The ranges of a table

The turns of `AddEmbeddingTable` lay the shards of the servers out one after the other, and the
sizes of the shards add up to the number of rows. All sums stay below `2 ^ 63`, so that none of the
conversions between signed and unsigned integers changes a value.
-/

namespace PsRpc

theorem toInt64_of_lt {n : UInt64} (h : n.toNat < 2 ^ 63) : toInt64 n = n.toNat :=
  Int.bmod_eq_of_le (by omega) (by omega)

theorem toInt32_of_lt {n : UInt64} (h : n.toNat < 2 ^ 31) : toInt32 n = n.toNat :=
  Int.bmod_eq_of_le (by omega) (by omega)

theorem toNat_ofInt_natCast {n : Nat} (h : n < 2 ^ 64) : (UInt64.ofInt n).toNat = n := by
  rw [UInt64.ofInt, UInt64.toNat_ofNat']
  omega

theorem foldlM_range_succ {ε σ : Type} {body : σ → Nat → Except ε σ} {init s s' : σ} {turns : Nat}
    (hRun : (List.range turns).foldlM body init = .ok s) (hTurn : body s turns = .ok s') :
    (List.range (turns + 1)).foldlM body init = .ok s' := by
  rw [List.range_succ, List.foldlM_append, hRun]
  change body s turns >>= pure = _
  rw [hTurn]
  rfl

theorem foldlM_invariant {ε σ α : Type} {P : σ → Prop} {body : σ → α → Except ε σ} {xs : List α}
    (hBody : ∀ s, ∀ x ∈ xs, ∀ s', P s → body s x = .ok s' → P s') {init s : σ} (hInit : P init)
    (hRun : xs.foldlM body init = .ok s) : P s := by
  induction xs generalizing init with
  | nil =>
    cases hRun
    exact hInit
  | cons x xs ih =>
    rw [List.foldlM_cons] at hRun
    obtain ⟨next, hNext, hRest⟩ := bind_eq_ok hRun
    refine ih ?_ (hBody init x List.mem_cons_self next hInit hNext) hRest
    exact fun s x hx => hBody s x (List.mem_cons_of_mem _ hx)

structure Shards (size : Nat → Nat) (count : Nat) (ranges : List EmbeddingTableShardMetadata) :
    Prop where
  length : ranges.length = count
  bounds : ∀ i range, ranges[i]? = some range →
    range.begin_.toNat = Spans.start size i ∧ range.end_.toNat + 1 = Spans.start size (i + 1)

namespace Shards

variable {size : Nat → Nat} {count : Nat} {ranges : List EmbeddingTableShardMetadata}

theorem nil : Shards size 0 [] where
  length := rfl
  bounds i range h := by cases h

theorem snoc (h : Shards size count ranges) {range : EmbeddingTableShardMetadata}
    (hBegin : range.begin_.toNat = Spans.start size count)
    (hEnd : range.end_.toNat + 1 = Spans.start size (count + 1)) :
    Shards size (count + 1) (ranges ++ [range]) where
  length := by rw [List.length_append, h.length, List.length_singleton]
  bounds i range' hAt := by
    rcases Nat.lt_trichotomy i count with hLt | rfl | hGt
    · rw [List.getElem?_append_left (by rw [h.length]; exact hLt)] at hAt
      exact h.bounds i range' hAt
    · rw [← h.length, List.getElem?_concat_length] at hAt
      cases hAt
      exact ⟨hBegin, hEnd⟩
    · rw [List.getElem?_eq_none (by rw [List.length_append, h.length]; exact hGt)] at hAt
      cases hAt

theorem contains_iff (h : Shards size count ranges) {i : Nat} {range : EmbeddingTableShardMetadata}
    (hAt : ranges[i]? = some range) (id : UInt64) :
    range.Contains id ↔ Spans.Owns size i id.toNat := by
  obtain ⟨hBegin, hEnd⟩ := h.bounds i range hAt
  rw [EmbeddingTableShardMetadata.Contains, Spans.Owns, UInt64.le_iff_toNat_le,
    UInt64.le_iff_toNat_le]
  omega

end Shards

namespace Worker

structure Adding (servers : Nat) (key rowCount : UInt64) (turns : Nat) (s : AddState) : Prop where
  serverNum : s.worker.serverNum = servers
  shards : Shards (Util.share servers rowCount.toNat) turns
    (s.worker.embeddingTableRanges.getD key [])
  begins : turns = 0 → s.begin_ = 0
  ends : 0 < turns →
    s.end_.toNat + 1 = Spans.start (Util.share servers rowCount.toNat) turns

variable {servers : Nat} {key rowCount : UInt64}

theorem start_le_rowCount {turns : Nat} (hTurns : turns ≤ servers) (hServers : 0 < servers) :
    Spans.start (Util.share servers rowCount.toNat) turns ≤ rowCount.toNat :=
  (Spans.start_mono hTurns).trans (Util.start_share hServers _).le

theorem Adding.step {turns : Nat} {s : AddState} (h : Adding servers key rowCount turns s)
    (hRows : 0 < rowCount.toNat) (hLt : rowCount.toNat < 2 ^ 63) (hTurns : turns < servers) :
    ∃ s', addShard key rowCount s turns = .ok s' ∧ Adding servers key rowCount (turns + 1) s' := by
  have hShard : Util.localShard (toInt64 rowCount) turns s.worker.serverNum =
      .ok (Util.share servers rowCount.toNat turns : Int) := by
    rw [toInt64_of_lt hLt, h.serverNum]
    exact Util.localShard_ok hRows hTurns
  have hStart := Spans.start_succ (Util.share servers rowCount.toNat) turns
  have hStop : Spans.start (Util.share servers rowCount.toNat) (turns + 1) ≤ rowCount.toNat :=
    start_le_rowCount hTurns (by omega)
  rw [addShard, hShard]
  refine ⟨_, rfl, ?_⟩
  obtain ⟨hBegin, hEnd⟩ :
      (if turns = 0 then s.begin_ else s.end_ + 1).toNat =
          Spans.start (Util.share servers rowCount.toNat) turns ∧
        (if turns = 0 then UInt64.ofInt ((Util.share servers rowCount.toNat turns : Int) - 1)
          else s.end_ + UInt64.ofInt (Util.share servers rowCount.toNat turns)).toNat + 1 =
          Spans.start (Util.share servers rowCount.toNat) (turns + 1) := by
    by_cases hFirst : turns = 0
    · subst hFirst
      have hPos : 0 < Util.share servers rowCount.toNat 0 := Util.share_pos hRows
      rw [Spans.start_zero] at hStart
      rw [if_pos rfl, if_pos rfl, h.begins rfl, hStart, Spans.start_zero]
      refine ⟨rfl, ?_⟩
      rw [show (Util.share servers rowCount.toNat 0 : Int) - 1 =
        (Util.share servers rowCount.toNat 0 - 1 : Nat) by omega, toNat_ofInt_natCast (by omega)]
      omega
    · have hEnds := h.ends (by omega)
      rw [if_neg hFirst, if_neg hFirst, UInt64.toNat_add, UInt64.toNat_add,
        toNat_ofInt_natCast (by omega)]
      change (s.end_.toNat + 1) % 2 ^ 64 = _ ∧ _
      omega
  refine ⟨h.serverNum, ?_, fun hZero => absurd hZero (by omega), fun _ => hEnd⟩
  change Shards _ _ (Table.getD (s.worker.embeddingTableRanges.insert key _) key [])
  rw [Table.getD_insert, if_pos rfl]
  exact h.shards.snoc hBegin hEnd

theorem adding_turns {w : Worker} (hServers : w.serverNum = servers)
    (hNew : w.embeddingTableRanges.lookup key = none) (hRows : 0 < rowCount.toNat)
    (hLt : rowCount.toNat < 2 ^ 63) {turns : Nat} (hTurns : turns ≤ servers) :
    ∃ s, (List.range turns).foldlM (addShard key rowCount) ⟨w, 0, 0⟩ = .ok s ∧
      Adding servers key rowCount turns s := by
  induction turns with
  | zero =>
    refine ⟨_, rfl, hServers, ?_, fun _ => rfl, fun hPos => absurd hPos (by omega)⟩
    change Shards _ 0 ((w.embeddingTableRanges.lookup key).getD [])
    rw [hNew]
    exact .nil
  | succ turns ih =>
    obtain ⟨s, hRun, hAdding⟩ := ih (by omega)
    obtain ⟨s', hStep, hAdding'⟩ := hAdding.step hRows hLt (by omega)
    exact ⟨s', foldlM_range_succ hRun hStep, hAdding'⟩

structure HasTable (w : Worker) (servers : Nat) (key rowCount : UInt64)
    (ranges : List EmbeddingTableShardMetadata) : Prop where
  serverNum : w.serverNum = servers
  lookup : w.embeddingTableRanges.lookup key = some ranges
  rows : w.embeddingRowCnt.lookup key = some rowCount
  shards : Shards (Util.share servers rowCount.toNat) servers ranges

theorem addEmbeddingTable_ok {w : Worker} (hServers : w.serverNum = servers) (hPos : 0 < servers)
    (hNew : w.embeddingTableRanges.lookup key = none) (hRows : 0 < rowCount.toNat)
    (hLt : rowCount.toNat < 2 ^ 63) :
    ∃ w' ranges, w.addEmbeddingTable key rowCount = .ok w' ∧
      w'.HasTable servers key rowCount ranges := by
  obtain ⟨s, hRun, hAdding⟩ := adding_turns hServers hNew hRows hLt (le_refl servers)
  rw [addEmbeddingTable, hServers, Int.toNat_natCast, hRun]
  have hShards := hAdding.shards
  obtain ⟨ranges, hRanges⟩ : ∃ ranges, s.worker.embeddingTableRanges.lookup key = some ranges := by
    cases hLookup : s.worker.embeddingTableRanges.lookup key with
    | some ranges => exact ⟨ranges, rfl⟩
    | none =>
      rw [Table.getD, hLookup] at hShards
      exact absurd hShards.length hPos.ne
  rw [Table.getD, hRanges] at hShards
  refine ⟨_, ranges, rfl, hAdding.serverNum, hRanges, ?_, hShards⟩
  exact AList.lookup_insert _

theorem HasTable.addOther {w w' : Worker} {ranges : List EmbeddingTableShardMetadata}
    (h : w.HasTable servers key rowCount ranges) {key' rowCount' : UInt64} (hKey : key' ≠ key)
    (hAdd : w.addEmbeddingTable key' rowCount' = .ok w') :
    w'.HasTable servers key rowCount ranges := by
  obtain ⟨s, hRun, hAdd⟩ := bind_eq_ok hAdd
  have hSame : s.worker.HasTable servers key rowCount ranges := by
    refine foldlM_invariant (P := fun s : AddState =>
      s.worker.HasTable servers key rowCount ranges) ?_ h hRun
    intro s i _ s' hTable hTurn
    obtain ⟨localRowCnt, _, hTurn⟩ := bind_eq_ok hTurn
    cases hTurn
    refine ⟨hTable.serverNum, ?_, hTable.rows, hTable.shards⟩
    exact (Table.lookup_insert _ _ _ _).trans ((if_neg hKey.symm).trans hTable.lookup)
  cases hAdd
  refine ⟨hSame.serverNum, hSame.lookup, ?_, hSame.shards⟩
  exact (Table.lookup_insert _ _ _ _).trans ((if_neg hKey.symm).trans hSame.rows)

def addEmbeddingTables (w : Worker) (tables : List (UInt64 × UInt64)) : Except Fault Worker :=
  tables.foldlM (fun w table => w.addEmbeddingTable table.1 table.2) w

theorem HasTable.addOthers {w w' : Worker} {ranges : List EmbeddingTableShardMetadata}
    (h : w.HasTable servers key rowCount ranges) {tables : List (UInt64 × UInt64)}
    (hKeys : ∀ table ∈ tables, table.1 ≠ key) (hAdd : w.addEmbeddingTables tables = .ok w') :
    w'.HasTable servers key rowCount ranges := by
  refine foldlM_invariant (P := fun w : Worker => w.HasTable servers key rowCount ranges) ?_ h hAdd
  intro w table hMem w' hTable hAdd
  exact hTable.addOther (hKeys table hMem) hAdd

end Worker

end PsRpc
