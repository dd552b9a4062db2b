import Mathlib.Algebra.BigOperators.Group.Finset.Piecewise
import Mathlib.Algebra.BigOperators.Ring.Finset
import Mathlib.Data.Int.CardIntervalMod
import Mathlib.Data.Nat.Count
import PsRpc.Library.Spans
import PsRpc.Library.Table
import PsRpc.Wire.Message

/-! # How many rows each server gets

`AllRankLocalShard` deals the rows of a table to the servers one after the other, round and round.
The counters are `int64_t`; the largest of them is the number of rows.
-/

namespace PsRpc

namespace Util

def zeroDims (serverNum : Int) : Table Int Int :=
  (List.range serverNum.toNat).foldl (fun dims (i : Nat) => dims.insert (i : Int) 0) ∅

/-- One turn of the second loop, on `server_index` and `shard_dims`. -/
def dealRow (serverNum : Int) (state : Int × Table Int Int) : Int × Table Int Int :=
  let serverIndex := (state.1 + 1).tmod serverNum
  (serverIndex, state.2.insert serverIndex (state.2.getD serverIndex 0 + 1))

def allRankLocalShard (firstDim rankId serverNum : Int) : Except Fault (Table Int Int) :=
  if firstDim ≤ 0 ∨ serverNum ≤ 0 ∨ rankId < 0 then .error (.exception "Input values are invalid.")
  else if serverNum ≤ rankId then
    .error (.exception ("The rank ID " ++ toString rankId ++
      " should be less than the number of servers " ++ toString serverNum))
  else
    let shardDims := zeroDims serverNum
    if serverNum ≠ shardDims.keys.length then
      .error (.exception ("Inconsistent server num " ++ toString serverNum ++
        " shard dims counter size " ++ toString shardDims.keys.length))
    else
      let dealt := (dealRow serverNum)^[firstDim.toNat] (-1, shardDims)
      if rankId ∉ dealt.2 then
        .error (.exception ("Invalid rank id " ++ toString rankId ++ ", total server num " ++
          toString serverNum))
      else .ok dealt.2

def localShard (firstDim rankId serverNum : Int) : Except Fault Int := do
  let shardDims ← allRankLocalShard firstDim rankId serverNum
  if rankId ∉ shardDims then .error (.exception ("Invalid rank id " ++ toString rankId))
  else .ok (shardDims.getD rankId 0)

/-! ## The share of a server -/

/-- The number of rows that fall to server `i` when `rows` rows are dealt to `servers` servers. -/
def share (servers rows i : Nat) : Nat := Nat.count (fun row => row % servers = i) rows

theorem share_succ (servers rows i : Nat) :
    share servers (rows + 1) i = share servers rows i + if rows % servers = i then 1 else 0 :=
  Nat.count_succ _ _

theorem share_le (servers rows i : Nat) : share servers rows i ≤ rows := Nat.count_le _

/-- No row is lost or dealt twice. -/
theorem start_share {servers : Nat} (hServers : 0 < servers) (rows : Nat) :
    Spans.start (share servers rows) servers = rows := by
  induction rows with
  | zero => simp [Spans.start, share]
  | succ rows ih =>
    rw [Spans.start] at ih ⊢
    simp only [share_succ, Finset.sum_add_distrib, ih, Finset.sum_ite_eq,
      Finset.mem_range, Nat.mod_lt rows hServers, if_true]

theorem share_pos {servers rows : Nat} (hRows : 0 < rows) : 0 < share servers rows 0 := by
  have hLt : Nat.count (fun row => row % servers = 0) 0 < share servers rows 0 :=
    Nat.count_strict_mono (Nat.zero_mod servers) hRows
  exact Nat.zero_lt_of_lt hLt

/-- Every full round gives each server one row, the last round only the first few. -/
theorem share_eq {servers rows i : Nat} (hServer : i < servers) :
    share servers rows i = rows / servers + if i < rows % servers then 1 else 0 := by
  have hCount := Nat.count_modEq_card rows (by omega : 0 < servers) i
  simpa only [share, Nat.ModEq, Nat.mod_eq_of_lt hServer] using hCount

/-! ## The loops -/

theorem lookup_zeroDims (servers : Nat) (i : Int) :
    (zeroDims servers).lookup i = if 0 ≤ i ∧ i < servers then some 0 else none := by
  rw [zeroDims, Int.toNat_natCast]
  induction servers with
  | zero =>
    rw [if_neg (by omega)]
    rfl
  | succ servers ih =>
    rw [List.range_succ, List.foldl_append, List.foldl_cons, List.foldl_nil, Table.lookup_insert,
      ih]
    by_cases hNew : i = servers
    · rw [if_pos hNew, if_pos (by omega)]
    · rw [if_neg hNew]
      exact if_congr (by omega) rfl rfl

theorem length_zeroDims (servers : Nat) : (zeroDims servers).keys.length = servers := by
  induction servers with
  | zero => rfl
  | succ servers ih =>
    have hNew : (servers : Int) ∉ (zeroDims servers).keys := by
      change (servers : Int) ∉ zeroDims servers
      rw [← AList.lookup_eq_none, lookup_zeroDims, if_neg (by omega)]
    have hStep : zeroDims (servers + 1 : Nat) = (zeroDims servers).insert (servers : Int) 0 := by
      rw [zeroDims, zeroDims, Int.toNat_natCast, Int.toNat_natCast, List.range_succ,
        List.foldl_append]
      rfl
    rw [hStep, AList.keys_insert, List.length_cons, List.erase_of_not_mem hNew, ih]

theorem dealt {servers : Nat} (hServers : 0 < servers) (rows : Nat) :
    ((((dealRow servers)^[rows] (-1, zeroDims servers)).1 + 1).tmod servers =
      (rows % servers : Nat)) ∧
    ∀ i : Int, ((dealRow servers)^[rows] (-1, zeroDims servers)).2.lookup i =
      if 0 ≤ i ∧ i < servers then some (share servers rows i.toNat : Int) else none := by
  induction rows with
  | zero =>
    constructor
    · rw [Nat.zero_mod]
      rfl
    · intro i
      exact lookup_zeroDims servers i
  | succ rows ih =>
    obtain ⟨hIndex, hDims⟩ := ih
    have hLt : rows % servers < servers := Nat.mod_lt rows hServers
    rw [Function.iterate_succ_apply', dealRow, hIndex]
    constructor
    · rw [← Nat.mod_add_mod, Int.natCast_mod, ← Int.tmod_eq_emod_of_nonneg (by omega)]
      rfl
    · intro i
      have hCount : Table.getD ((dealRow servers)^[rows] (-1, zeroDims servers)).2
          (rows % servers : Nat) 0 = (share servers rows (rows % servers) : Int) := by
        rw [Table.getD, hDims, if_pos (by omega), Int.toNat_natCast, Option.getD_some]
      rw [Table.lookup_insert, hCount, hDims, share_succ]
      by_cases hTurn : i = (rows % servers : Nat)
      · rw [if_pos hTurn, if_pos (by omega), hTurn, Int.toNat_natCast, if_pos rfl]
        rfl
      · rw [if_neg hTurn]
        split
        · rw [if_neg (by omega), Nat.add_zero]
        · rfl

theorem allRankLocalShard_dealt {servers rows rank : Nat} (hRows : 0 < rows)
    (hRank : rank < servers) :
    allRankLocalShard rows rank servers =
      .ok ((dealRow servers)^[rows] (-1, zeroDims servers)).2 := by
  obtain ⟨_, hDims⟩ := dealt (by omega : 0 < servers) rows
  rw [allRankLocalShard, if_neg (by omega), if_neg (by omega)]
  dsimp only
  rw [length_zeroDims, if_neg (by omega), Int.toNat_natCast, if_neg]
  rw [← AList.lookup_eq_none, hDims, if_pos (by omega)]
  exact Option.some_ne_none _

theorem allRankLocalShard_ok {servers rows rank : Nat} (hRows : 0 < rows) (hRank : rank < servers) :
    ∃ dims, allRankLocalShard rows rank servers = .ok dims ∧
      ∀ i : Int, dims.lookup i =
        if 0 ≤ i ∧ i < servers then some (share servers rows i.toNat : Int) else none := by
  exact ⟨_, allRankLocalShard_dealt hRows hRank, (dealt (by omega : 0 < servers) rows).2⟩

theorem localShard_ok {servers rows rank : Nat} (hRows : 0 < rows) (hRank : rank < servers) :
    localShard rows rank servers = .ok (share servers rows rank : Int) := by
  obtain ⟨dims, hOk, hDims⟩ := allRankLocalShard_ok hRows hRank
  have hLookup : dims.lookup (rank : Int) = some (share servers rows rank : Int) := by
    rw [hDims, if_pos (by omega), Int.toNat_natCast]
  have hMem : ¬(rank : Int) ∉ dims := by
    rw [← AList.lookup_eq_none, hLookup]
    exact Option.some_ne_none _
  rw [localShard, hOk]
  change (if (rank : Int) ∉ dims then _ else _) = _
  rw [if_neg hMem, Table.getD, hLookup, Option.getD_some]

/-! ## The closed form -/

theorem natCast_share {servers : Nat} (rows : Nat) {i : Int} (hServer : 0 ≤ i ∧ i < servers) :
    (share servers rows i.toNat : Int) =
      (rows : Int) / servers + if i < (rows : Int) % servers then 1 else 0 := by
  have hFew : i.toNat < rows % servers ↔ i < (rows : Int) % servers := by
    rw [← Int.natCast_mod]
    omega
  rw [share_eq (by omega), Nat.cast_add, Int.natCast_div, Nat.cast_ite, Nat.cast_one,
    Nat.cast_zero, if_congr hFew rfl rfl]

theorem sum_values {servers rows : Nat} (hServers : 0 < servers) {dims : Table Int Int}
    (hDims : ∀ i : Int, dims.lookup i =
      if 0 ≤ i ∧ i < servers then some (share servers rows i.toNat : Int) else none) :
    (dims.entries.map Sigma.snd).sum = rows := by
  have hNodup : ((List.range servers).map (Nat.cast : Nat → Int)).Nodup :=
    List.nodup_range.map Nat.cast_injective
  have hKeys : ∀ i : Int, i ∈ dims ↔ i ∈ (List.range servers).map (Nat.cast : Nat → Int) := by
    intro i
    rw [← AList.lookup_isSome, hDims]
    simp only [List.mem_map, List.mem_range]
    constructor
    · intro hSome
      refine ⟨i.toNat, ?_, ?_⟩ <;> split at hSome <;> grind
    · rintro ⟨server, hServer, rfl⟩
      rw [if_pos (by omega)]
      rfl
  have hValue : ∀ i ∈ List.range servers,
      dims.getD (i : Int) 0 = ((share servers rows i : Nat) : Int) := by
    intro i hMem
    rw [List.mem_range] at hMem
    rw [Table.getD, hDims, if_pos (by omega), Option.getD_some, Int.toNat_natCast]
  calc (dims.entries.map Sigma.snd).sum
      = (((List.range servers).map (Nat.cast : Nat → Int)).map fun i => dims.getD i 0).sum :=
        (Table.values_perm hNodup hKeys 0).sum_eq
    _ = ((List.range servers).map fun i => ((share servers rows i : Nat) : Int)).sum := by
        rw [List.map_map]
        exact congrArg List.sum (List.map_congr_left hValue)
    _ = (((List.range servers).map (share servers rows)).sum : Nat) := by
        rw [Nat.cast_list_sum, List.map_map]
        rfl
    _ = rows := by rw [Spans.sum_sizes, start_share hServers]

/-- The closed form of `AllRankLocalShard`: the keys, the values and their sum. The values do not
depend on the rank that asks, do not increase and differ by one at most. -/
theorem balanced_sharding (firstDim rankId serverNum : Int) (hDim : 1 ≤ firstDim)
    (hNum : 1 ≤ serverNum) (hRank : 0 ≤ rankId ∧ rankId < serverNum) :
    ∃ dims, allRankLocalShard firstDim rankId serverNum = .ok dims ∧
      (∀ other, 0 ≤ other ∧ other < serverNum →
        allRankLocalShard firstDim other serverNum = .ok dims) ∧
      (∀ i, i ∈ dims ↔ 0 ≤ i ∧ i < serverNum) ∧
      (∀ i, 0 ≤ i ∧ i < serverNum → dims.lookup i =
        some (firstDim / serverNum + if i < firstDim % serverNum then 1 else 0)) ∧
      (dims.entries.map Sigma.snd).sum = firstDim ∧
      (∀ i j a b, i ≤ j → dims.lookup i = some a → dims.lookup j = some b → b ≤ a) ∧
      (∀ i j a b, dims.lookup i = some a → dims.lookup j = some b → a ≤ b + 1) := by
  obtain ⟨rows, rfl⟩ := Int.eq_ofNat_of_zero_le (by omega : 0 ≤ firstDim)
  obtain ⟨servers, rfl⟩ := Int.eq_ofNat_of_zero_le (by omega : 0 ≤ serverNum)
  have hServers : 0 < servers := by omega
  have hOk : ∀ rank : Int, 0 ≤ rank ∧ rank < servers → allRankLocalShard rows rank servers =
      .ok ((dealRow servers)^[rows] (-1, zeroDims servers)).2 := by
    intro rank hRank
    obtain ⟨rank, rfl⟩ := Int.eq_ofNat_of_zero_le hRank.1
    exact allRankLocalShard_dealt (by omega) (by omega)
  obtain ⟨_, hShare⟩ := dealt hServers rows
  have hDims : ∀ i : Int, ((dealRow servers)^[rows] (-1, zeroDims servers)).2.lookup i =
      if 0 ≤ i ∧ i < servers then
        some ((rows : Int) / servers + if i < (rows : Int) % servers then 1 else 0)
      else none := by
    intro i
    rw [hShare]
    split
    · next hServer => rw [natCast_share rows hServer]
    · rfl
  refine ⟨_, hOk rankId hRank, hOk, ?_, ?_, sum_values hServers hShare, ?_, ?_⟩
  · intro i
    rw [← AList.lookup_isSome, hDims]
    split <;> simp_all
  · intro i hServer
    rw [hDims, if_pos hServer]
  · intro i j a b hLe hA hB
    rw [hDims] at hA hB
    grind
  · intro i j a b hA hB
    rw [hDims] at hA hB
    grind

theorem balanced_sharding_ten_of_three : (1 : Int) ≤ 10 ∧
    ∃ dims, allRankLocalShard 10 2 3 = .ok dims ∧
      dims.lookup 0 = some 4 ∧ dims.lookup 2 = some 3 := by
  obtain ⟨dims, hOk, _, _, hDims, _⟩ := balanced_sharding 10 2 3 (by decide) (by decide) (by decide)
  exact ⟨by decide, dims, hOk, hDims 0 (by decide), hDims 2 (by decide)⟩

end Util

end PsRpc
