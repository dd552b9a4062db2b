import PsRpc.Embedding.Shard

/-! # Embedding tables of a worker

`AddEmbeddingTable` and the three slicers that cut a message about a table into one message per
server. Fields of the types `int32_t` and `int64_t` are integers here, and `toInt32` and `toInt64`
are the conversions that can change a value. A slicer gets the vector `*sliced` as it was before the
call; the attributes are never read. `V` is the type of a value, `float` in the source.
-/

namespace PsRpc

def toInt64 (n : UInt64) : Int := (n.toNat : Int).bmod (2 ^ 64)

def toInt32 (n : UInt64) : Int := (n.toNat : Int).bmod (2 ^ 32)

/-- The rows of a shard are those from `begin_` to `end_`; `end_ + 1 = begin_` if there are none. -/
structure EmbeddingTableShardMetadata where
  begin_ : UInt64
  end_ : UInt64
deriving DecidableEq, Repr

def EmbeddingTableShardMetadata.Contains (range : EmbeddingTableShardMetadata) (id : UInt64) :
    Prop :=
  range.begin_ ≤ id ∧ id ≤ range.end_

instance (range : EmbeddingTableShardMetadata) (id : UInt64) : Decidable (range.Contains id) :=
  inferInstanceAs (Decidable (_ ∧ _))

structure EmbeddingTableLookup (V : Type) where
  key : UInt64 := 0
  keys : List Int := []
  values : List V := []
deriving DecidableEq, Repr

structure KVMessage (V : Type) where
  keys : List Int := []
  values : List V := []
  len : List Int := []
deriving DecidableEq, Repr

/-- How a slicer can end other than by returning; `at` raises `std::out_of_range`. -/
inductive WorkerFault where
  | fault (fault : Fault)
  | nullPointer (what : String)
  | divisionByZero
  | outOfRange (vector : String)
deriving DecidableEq, Repr

structure Worker where
  embeddingTableRanges : Table UInt64 (List EmbeddingTableShardMetadata)
  serverNum : Int
  embeddingRowCnt : Table UInt64 UInt64

namespace Worker

structure AddState where
  worker : Worker
  begin_ : UInt64
  end_ : UInt64

def addShard (key rowCount : UInt64) (s : AddState) (i : Nat) : Except Fault AddState := do
  let localRowCnt ← Util.localShard (toInt64 rowCount) i s.worker.serverNum
  let begin_ := if i = 0 then s.begin_ else s.end_ + 1
  let end_ :=
    if i = 0 then UInt64.ofInt (localRowCnt - 1) else s.end_ + UInt64.ofInt localRowCnt
  let ranges := s.worker.embeddingTableRanges.getD key []
  .ok
    { worker :=
        { s.worker with
          embeddingTableRanges :=
            s.worker.embeddingTableRanges.insert key (ranges ++ [⟨begin_, end_⟩]) }
      begin_ := begin_
      end_ := end_ }

def addEmbeddingTable (w : Worker) (key rowCount : UInt64) : Except Fault Worker := do
  let s ← (List.range w.serverNum.toNat).foldlM (addShard key rowCount) ⟨w, 0, 0⟩
  .ok { s.worker with embeddingRowCnt := s.worker.embeddingRowCnt.insert key rowCount }

/-! ## The slicers -/

def resize {α : Type} (count : Nat) (filler : α) (xs : List α) : List α :=
  xs.take count ++ List.replicate (count - xs.length) filler

def checkSliced {α : Type} (sliced : Option α) : Except WorkerFault α :=
  (exceptionIfNull "sliced" sliced).mapError .fault

/-- `*(embedding_table_ranges_[key])`, where `operator[]` makes a null pointer for a new key. -/
def ranges (w : Worker) (key : UInt64) : Except WorkerFault (List EmbeddingTableShardMetadata) :=
  match w.embeddingTableRanges.lookup key with
  | some ranges => .ok ranges
  | none => .error (.nullPointer "embedding_table_ranges_")

def firstKey {V : Type} (send : KVMessage V) : Except WorkerFault UInt64 :=
  match send.keys with
  | key :: _ => .ok (UInt64.ofInt key)
  | [] => .error (.fault (.outOfBounds "keys" 0))

def divide (dividend divisor : Nat) : Except WorkerFault Nat :=
  if divisor = 0 then .error .divisionByZero else .ok (dividend / divisor)

variable {V : Type}

/-- The ids come out of an `unordered_set`, so their order says nothing. -/
def lookupSlice (send : EmbeddingTableLookup V) (range : EmbeddingTableShardMetadata)
    (slot : Bool × EmbeddingTableLookup V) : Bool × EmbeddingTableLookup V :=
  let uniqueIds := (send.keys.filter fun lookupId => range.Contains (UInt64.ofInt lookupId)).dedup
  (!uniqueIds.isEmpty, { slot.2 with key := send.key, keys := uniqueIds })

def lookupIdSlicer (w : Worker) (send : EmbeddingTableLookup V)
    (sliced : Option (List (Bool × EmbeddingTableLookup V))) :
    Except WorkerFault (List (Bool × EmbeddingTableLookup V)) := do
  let sliced ← checkSliced sliced
  let ranges ← w.ranges send.key
  .ok (List.zipWith (lookupSlice send) ranges (resize ranges.length (false, {}) sliced))

def subrange (values : List V) (first last : Nat) : Except WorkerFault (List V) :=
  if first ≤ last ∧ last ≤ values.length then .ok ((values.drop first).take (last - first))
  else .error (.fault (.outOfBounds "vals" last))

def initSlice (send : KVMessage V) (colCnt : Nat) (range : EmbeddingTableShardMetadata) :
    Except WorkerFault (KVMessage V) := do
  let offsetBegin := range.begin_ * UInt64.ofNat colCnt
  let offsetEnd := (range.end_ + 1) * UInt64.ofNat colCnt
  let values ← subrange send.values offsetBegin.toNat offsetEnd.toNat
  .ok { keys := send.keys, values := values }

/-- The loop over the ranges; `sliced->at(i)` checks its index. -/
def initSlices (send : KVMessage V) (colCnt : Nat) :
    List EmbeddingTableShardMetadata → List (Bool × KVMessage V) →
      Except WorkerFault (List (Bool × KVMessage V))
  | [], slots => .ok slots
  | _ :: _, [] => .error (.outOfRange "sliced")
  | range :: ranges, _ :: slots => do
    let kvs ← initSlice send colCnt range
    let rest ← initSlices send colCnt ranges slots
    .ok ((true, kvs) :: rest)

def workerInitEmbeddingSlicer (w : Worker) (send : KVMessage V)
    (sliced : Option (List (Bool × KVMessage V))) :
    Except WorkerFault (List (Bool × KVMessage V)) := do
  let sliced ← checkSliced sliced
  let key ← firstKey send
  let colCnt ← divide send.values.length (w.embeddingRowCnt.getD key 0).toNat
  let ranges ← w.ranges key
  initSlices send colCnt ranges (resize w.serverNum.toNat (false, {}) sliced)

/-- The body of the loop over the ids. As `embeddingDim` is the quotient of the two sizes, the row
of an id lies within the values. -/
def putRow (embeddingDim : Nat) (values : List V) (range : EmbeddingTableShardMetadata)
    (kvs : KVMessage V) (entry : Int × Nat) : KVMessage V :=
  let lookupId := UInt64.ofInt entry.1
  if range.Contains lookupId then
    { kvs with
      keys := kvs.keys ++ [toInt32 lookupId]
      values := kvs.values ++ Spans.row embeddingDim values entry.2 }
  else kvs

def updateSlice (key : UInt64) (embeddingDim : Nat) (send : KVMessage V)
    (range : EmbeddingTableShardMetadata) (slot : Bool × KVMessage V) : Bool × KVMessage V :=
  let kvs := send.len.zipIdx.foldl (putRow embeddingDim send.values range)
    { slot.2 with keys := slot.2.keys ++ [toInt32 key] }
  (1 < kvs.keys.length, kvs)

def updateEmbeddingSlicer (w : Worker) (send : KVMessage V)
    (sliced : Option (List (Bool × KVMessage V))) :
    Except WorkerFault (List (Bool × KVMessage V)) := do
  let sliced ← checkSliced sliced
  let embeddingDim ← divide send.values.length send.len.length
  let key ← firstKey send
  let ranges ← w.ranges key
  .ok (List.zipWith (updateSlice key embeddingDim send) ranges
    (resize ranges.length (false, {}) sliced))

end Worker

end PsRpc
