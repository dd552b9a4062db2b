import PsRpc.Embedding.Slices
import PsRpc.Library.ProtobufPacked
import PsRpc.Wire.MetaCodec

/-! # The messages of a lookup

`DoPSEmbeddingLookup` cuts a list of ids into one message for each server and serialises those that
have an id. It calls `lookup_slicer_`, which is empty before `Initialize`, and drops the messages:
the call that would send them is commented out. The ids of a message come out of an
`unordered_set`, in the order `arrange`, of which nothing is known.
-/

namespace PsRpc

open Protobuf

variable {V : Type}

/-- The ids are `int32`, and the message is small enough to be serialised. -/
structure EmbeddingTableLookup.Fits (m : EmbeddingTableLookup V) : Prop where
  ids : ∀ id ∈ m.keys, FitsInt32 id
  size : m.keys.length * 10 + m.values.length * 4 + 60 < 2 ^ 31

abbrev LookupCodec (V : Type) := PayloadCodec (EmbeddingTableLookup V) EmbeddingTableLookup.Fits

/-- A worker with `lookup_slicer_`: whether it has been set. -/
structure LookupWorker extends Worker where
  lookupSlicer : Bool

def LookupWorker.initialize (w : LookupWorker) : LookupWorker := { w with lookupSlicer := true }

namespace Worker

def lookupTurn (codec : LookupCodec V) (arrange : List Int → List Int)
    (s : List UInt32 × List Bytes) (entry : (Bool × EmbeddingTableLookup V) × Nat) :
    List UInt32 × List Bytes :=
  let message := { entry.1.2 with keys := arrange entry.1.2.keys }
  if entry.1.1 then (s.1 ++ [UInt32.ofNat entry.2], s.2 ++ [codec.serializeAsString message])
  else s

structure AsksFor (key : UInt64) (lookupIds : List Int) (range : EmbeddingTableShardMetadata)
    (message : EmbeddingTableLookup V) : Prop where
  key : message.key = key
  values : message.values = []
  nonempty : message.keys ≠ []
  nodup : message.keys.Nodup
  ids : ∀ id, id ∈ message.keys ↔ id ∈ lookupIds ∧ range.Covers id

variable {w : Worker} {servers : Nat} {key rowCount : UInt64} {lookupIds : List Int}
  {ranges : List EmbeddingTableShardMetadata} {range : EmbeddingTableShardMetadata}
  {arrange : List Int → List Int} {codec : LookupCodec V}

def batchEntry (arrange : List Int → List Int)
    (entry : (Bool × EmbeddingTableLookup V) × Nat) : UInt32 × EmbeddingTableLookup V :=
  (UInt32.ofNat entry.2, { entry.1.2 with keys := arrange entry.1.2.keys })

def batch (arrange : List Int → List Int) (messages : List (Bool × EmbeddingTableLookup V)) :
    List (UInt32 × EmbeddingTableLookup V) :=
  (messages.zipIdx.filter fun entry => entry.1.1).map (batchEntry arrange)

theorem foldl_lookupTurn (codec : LookupCodec V) (arrange : List Int → List Int)
    (entries : List ((Bool × EmbeddingTableLookup V) × Nat)) (s : List UInt32 × List Bytes) :
    entries.foldl (lookupTurn codec arrange) s =
      (s.1 ++ ((entries.filter fun entry => entry.1.1).map (batchEntry arrange)).map Prod.fst,
        s.2 ++ ((entries.filter fun entry => entry.1.1).map (batchEntry arrange)).map
          fun sent => codec.serializeAsString sent.2) := by
  induction entries generalizing s with
  | nil => simp
  | cons entry entries ih =>
    rw [List.foldl_cons, ih]
    cases hFlag : entry.1.1 <;> simp [lookupTurn, batchEntry, hFlag]

def lookupSlices (key : UInt64) (lookupIds : List Int) (ranges : List EmbeddingTableShardMetadata) :
    List (Bool × EmbeddingTableLookup V) :=
  ranges.map fun range => lookupSlice { key := key, keys := lookupIds } range (false, {})

theorem zipWith_replicate {α β γ : Type} (f : α → β → γ) (xs : List α) (y : β) :
    List.zipWith f xs (List.replicate xs.length y) = xs.map fun x => f x y := by
  induction xs with
  | nil => rfl
  | cons x xs ih =>
    rw [List.length_cons, List.replicate_succ, List.zipWith_cons_cons, ih, List.map_cons]

theorem lookupIdSlicer_new (h : w.HasTable servers key rowCount ranges) (lookupIds : List Int) :
    w.lookupIdSlicer { key := key, keys := lookupIds } (some []) =
      .ok (lookupSlices (V := V) key lookupIds ranges) := by
  rw [lookupIdSlicer_eq h rfl, resize, lookupSlices, List.take_nil, List.nil_append,
    List.length_nil, Nat.sub_zero, zipWith_replicate]

theorem mem_batch {messages : List (Bool × EmbeddingTableLookup V)}
    {sent : UInt32 × EmbeddingTableLookup V} :
    sent ∈ batch arrange messages ↔ ∃ (i : Nat) (message : EmbeddingTableLookup V),
      messages[i]? = some (true, message) ∧
        sent = (UInt32.ofNat i, { message with keys := arrange message.keys }) := by
  simp only [batch, List.mem_map, List.mem_filter, List.mem_zipIdx_iff_getElem?]
  constructor
  · rintro ⟨⟨⟨flag, message⟩, i⟩, ⟨hAt, rfl⟩, rfl⟩
    exact ⟨i, message, hAt, rfl⟩
  · rintro ⟨i, message, hAt, rfl⟩
    exact ⟨((true, message), i), ⟨hAt, rfl⟩, rfl⟩

theorem mem_zip_serialize {sent : List (UInt32 × EmbeddingTableLookup V)} {rankId : UInt32}
    {bytes : Bytes} :
    (rankId, bytes) ∈ (sent.map Prod.fst).zip
        (sent.map fun entry => codec.serializeAsString entry.2) ↔
      ∃ message, (rankId, message) ∈ sent ∧ codec.serializeAsString message = bytes := by
  simp [List.zip_map']

theorem batch_pairwise {messages : List (Bool × EmbeddingTableLookup V)}
    (hLength : messages.length ≤ 2 ^ 32) :
    (batch arrange messages).Pairwise fun sent sent' => sent.1 < sent'.1 := by
  have hIndex : messages.zipIdx.Pairwise fun entry entry' => entry.2 < entry'.2 ∧
      entry'.2 < 2 ^ 32 := by
    rw [List.pairwise_iff_getElem]
    intro i j hi hj hLt
    rw [List.length_zipIdx] at hj
    simp only [List.getElem_zipIdx]
    omega
  rw [batch, List.pairwise_map]
  refine (hIndex.sublist List.filter_sublist).imp ?_
  rintro entry entry' ⟨hLt, hBound⟩
  rw [batchEntry, batchEntry, UInt32.lt_iff_toNat_lt, UInt32.toNat_ofNat_of_lt' hBound,
    UInt32.toNat_ofNat_of_lt' (Nat.lt_trans hLt hBound)]
  exact hLt

theorem AsksFor.fits {message : EmbeddingTableLookup V}
    (h : AsksFor key lookupIds range message) (hIds : ∀ id ∈ lookupIds, IsInt32 id)
    (hSize : lookupIds.length * 10 + 60 < 2 ^ 31) : message.Fits where
  ids id hMem := hIds id ((h.ids id).mp hMem).1
  size := by
    have hSubset : message.keys ⊆ lookupIds := fun id hMem => ((h.ids id).mp hMem).1
    have hLength := (List.subperm_of_subset h.nodup hSubset).length_le
    rw [h.values, List.length_nil]
    omega

section Slices

variable (hTable : w.HasTable servers key rowCount ranges) (hLt : rowCount.toNat < 2 ^ 63)
  (hArrange : ∀ ids, (arrange ids).Perm ids) (hIds : ∀ id ∈ lookupIds, IsInt32 id)
include hTable hLt hArrange hIds

theorem lookupSlice_asksFor {i : Nat} (hAt : ranges[i]? = some range)
    {message : EmbeddingTableLookup V}
    (hSlice : lookupSlice { key := key, keys := lookupIds } range (false, {}) = (true, message)) :
    AsksFor key lookupIds range { message with keys := arrange message.keys } := by
  have hOf : LookupSliceOf { key := key, keys := lookupIds } range (true, message) := by
    rw [← hSlice]
    exact lookupSlice_of hTable hLt hAt hIds _
  have hPerm := hArrange message.keys
  refine ⟨hOf.key, ?_, ?_, hPerm.nodup_iff.mpr hOf.nodup, ?_⟩
  · exact (congrArg (fun slice => slice.2.values) hSlice).symm
  · intro hNil
    exact hOf.flag.mp rfl (List.nil_perm.mp (hNil ▸ hPerm))
  · intro id
    exact hPerm.mem_iff.trans (hOf.ids id)

theorem asksFor_of_mem_batch {sent : UInt32 × EmbeddingTableLookup V}
    (hSent : sent ∈ batch arrange (lookupSlices key lookupIds ranges)) :
    ∃ (i : Nat) (range : EmbeddingTableShardMetadata), ranges[i]? = some range ∧
      sent.1 = UInt32.ofNat i ∧ AsksFor key lookupIds range sent.2 := by
  obtain ⟨i, message, hAt, rfl⟩ := mem_batch.mp hSent
  rw [lookupSlices, List.getElem?_map, Option.map_eq_some_iff] at hAt
  obtain ⟨range, hRange, hSlice⟩ := hAt
  exact ⟨i, range, hRange, rfl, lookupSlice_asksFor hTable hLt hArrange hIds hRange hSlice⟩

theorem exists_mem_batch {i : Nat} (hAt : ranges[i]? = some range) {id : Int}
    (hId : id ∈ lookupIds) (hCovers : range.Covers id) :
    ∃ message : EmbeddingTableLookup V,
      (UInt32.ofNat i, message) ∈ batch arrange (lookupSlices key lookupIds ranges) ∧
        AsksFor key lookupIds range message := by
  obtain ⟨flag, message, hSlice⟩ : ∃ (flag : Bool) (message : EmbeddingTableLookup V),
      lookupSlice { key := key, keys := lookupIds } range (false, {}) = (flag, message) :=
    ⟨_, _, (Prod.eta _).symm⟩
  have hOf : LookupSliceOf { key := key, keys := lookupIds } range (flag, message) := by
    rw [← hSlice]
    exact lookupSlice_of hTable hLt hAt hIds _
  obtain rfl : flag = true := by
    apply hOf.flag.mpr
    exact List.ne_nil_of_mem ((hOf.ids id).mpr ⟨hId, hCovers⟩)
  refine ⟨_, mem_batch.mpr ⟨i, message, ?_, rfl⟩,
    lookupSlice_asksFor hTable hLt hArrange hIds hAt hSlice⟩
  rw [lookupSlices, List.getElem?_map, hAt, Option.map_some, hSlice]

theorem parse_of_mem_batch (codec : LookupCodec V) (hServers : servers ≤ 2 ^ 32)
    (hSize : lookupIds.length * 10 + 60 < 2 ^ 31) {rankId : UInt32}
    {message : EmbeddingTableLookup V}
    (hSent : (rankId, message) ∈ batch arrange (lookupSlices key lookupIds ranges)) :
    codec.parseFromArray (codec.serializeAsString message) = message ∧
      ∃ range, ranges[rankId.toNat]? = some range ∧ AsksFor key lookupIds range message := by
  obtain ⟨i, range, hAt, rfl, hAsks⟩ := asksFor_of_mem_batch hTable hLt hArrange hIds hSent
  have hBound : i < servers := hTable.shards.lt_of_getElem? hAt
  have hRank : (UInt32.ofNat i).toNat = i :=
    UInt32.toNat_ofNat_of_lt' (Nat.lt_of_lt_of_le hBound hServers)
  refine ⟨codec.parse_serialize _ (hAsks.fits hIds hSize), range, ?_, hAsks⟩
  rw [hRank]
  exact hAt

end Slices

end Worker

namespace LookupWorker

/-- The vectors `rank_ids` and `data` at the end of the call; `lookup_result` is checked and not
written. -/
def doPSEmbeddingLookup (w : LookupWorker) (codec : LookupCodec V) (arrange : List Int → List Int)
    (key : UInt64) (lookupIds : List Int) (lookupResult : Option (List V)) :
    Except WorkerFault (List UInt32 × List Bytes) := do
  let _ ← (exceptionIfNull "lookup_result" lookupResult).mapError .fault
  if !w.lookupSlicer then .error (.fault (.exception "std::bad_function_call"))
  else
    let messages ← w.lookupIdSlicer { key := key, keys := lookupIds } (some [])
    .ok (messages.zipIdx.foldl (Worker.lookupTurn codec arrange) ([], []))

theorem initialize_doPSEmbeddingLookup {w : LookupWorker} {servers : Nat} {key rowCount : UInt64}
    {ranges : List EmbeddingTableShardMetadata} (h : w.HasTable servers key rowCount ranges)
    (codec : LookupCodec V) (arrange : List Int → List Int) (lookupIds : List Int)
    (lookupResult : List V) :
    w.initialize.doPSEmbeddingLookup codec arrange key lookupIds (some lookupResult) =
      .ok ((Worker.batch arrange (Worker.lookupSlices (V := V) key lookupIds ranges)).map Prod.fst,
        (Worker.batch arrange (Worker.lookupSlices key lookupIds ranges)).map
          fun sent => codec.serializeAsString sent.2) := by
  change (w.lookupIdSlicer _ (some [])).bind _ = _
  rw [Worker.lookupIdSlicer_new h]
  exact congrArg Except.ok (Worker.foldl_lookupTurn codec arrange _ _)

end LookupWorker

/-- Without `Initialize` the call raises. With it, for a table that was added once and in whatever
order the ids come out of the sets, the rank ids of the prepared messages increase, each message is
read back as a lookup of the distinct ids that lie in the range of its server, and each row that is
looked up is in one message. -/
theorem lookup_messages_complete (codec : LookupCodec V) (w : LookupWorker) (servers : Nat)
    (hPos : 1 ≤ servers) (hServers : servers ≤ 2 ^ 32) (key rowCount : UInt64)
    (hAdded : w.AddedOnce servers key rowCount) (arrange : List Int → List Int)
    (hArrange : ∀ ids, (arrange ids).Perm ids) (lookupIds : List Int)
    (hIds : ∀ id ∈ lookupIds, IsInt32 id) (hSize : lookupIds.length * 10 + 60 < 2 ^ 31)
    (lookupResult : List V) :
    (w.lookupSlicer = false →
      w.doPSEmbeddingLookup codec arrange key lookupIds (some lookupResult) =
        .error (.fault (.exception "std::bad_function_call"))) ∧
    ∃ ranges rankIds data, w.embeddingTableRanges.lookup key = some ranges ∧
      w.initialize.doPSEmbeddingLookup codec arrange key lookupIds (some lookupResult) =
        .ok (rankIds, data) ∧
      rankIds.length = data.length ∧ rankIds.Pairwise (· < ·) ∧
      (∀ rankId bytes, (rankId, bytes) ∈ rankIds.zip data → ∃ range,
        ranges[rankId.toNat]? = some range ∧
          Worker.AsksFor key lookupIds range (codec.parseFromArray bytes)) ∧
      ∀ id ∈ lookupIds, 0 ≤ id → id < rowCount.toNat →
        ∃! sent, sent ∈ rankIds.zip data ∧ id ∈ (codec.parseFromArray sent.2).keys := by
  refine ⟨fun hSlicer => by rw [LookupWorker.doPSEmbeddingLookup, hSlicer]; rfl, ?_⟩
  obtain ⟨_, hLt, ranges, hTable⟩ := hAdded.hasTable hPos
  have hSorted : (Worker.batch arrange (Worker.lookupSlices (V := V) key lookupIds ranges)).Pairwise
      fun sent sent' => sent.1 < sent'.1 := by
    apply Worker.batch_pairwise
    rwa [Worker.lookupSlices, List.length_map, hTable.shards.length]
  refine ⟨ranges, _, _, hTable.lookup,
    LookupWorker.initialize_doPSEmbeddingLookup hTable codec arrange lookupIds lookupResult,
    by simp,
    List.pairwise_map.mpr hSorted, ?_, ?_⟩
  · intro rankId bytes hMem
    obtain ⟨message, hSent, rfl⟩ := Worker.mem_zip_serialize.mp hMem
    obtain ⟨hParse, range, hAt, hAsks⟩ :=
      Worker.parse_of_mem_batch hTable hLt hArrange hIds codec hServers hSize hSent
    rw [hParse]
    exact ⟨range, hAt, hAsks⟩
  · intro id hId hNonneg hBelow
    obtain ⟨i, ⟨range, hAt, hCovers⟩, hUnique⟩ := hTable.existsUnique_covers hPos hNonneg hBelow
    obtain ⟨message, hSent, hAsks⟩ :=
      Worker.exists_mem_batch hTable hLt hArrange hIds hAt hId hCovers
    have hParse := (Worker.parse_of_mem_batch hTable hLt hArrange hIds codec hServers hSize hSent).1
    refine ⟨(UInt32.ofNat i, codec.serializeAsString message),
      ⟨Worker.mem_zip_serialize.mpr ⟨message, hSent, rfl⟩, ?_⟩, ?_⟩
    · rw [hParse]
      exact (hAsks.ids id).mpr ⟨hId, hCovers⟩
    · rintro ⟨rankId, bytes⟩ ⟨hMem, hId'⟩
      obtain ⟨message', hSent', rfl⟩ := Worker.mem_zip_serialize.mp hMem
      obtain ⟨hRead, range', hAt', hAsks'⟩ :=
        Worker.parse_of_mem_batch hTable hLt hArrange hIds codec hServers hSize hSent'
      have hMember : id ∈ message'.keys := by rwa [hRead] at hId'
      obtain rfl := hUnique rankId.toNat ⟨range', hAt', ((hAsks'.ids id).mp hMember).2⟩
      rw [UInt32.ofNat_toNat] at hSent ⊢
      have hNodup := List.pairwise_map.mpr (hSorted.imp fun hLess => UInt32.ne_of_lt hLess)
      cases List.inj_on_of_nodup_map hNodup hSent' hSent rfl
      rfl

/-! ## The wire format -/

theorem EmbeddingTableLookup.Fits.length_keys_lt {m : EmbeddingTableLookup UInt32} (h : m.Fits) :
    (int32Elements.pack m.keys).length < 2 ^ 31 := by
  have hPack : (int32Elements.pack m.keys).length ≤ m.keys.length * 10 :=
    ElementType.length_pack_le fun id _ => int32Elements_length_le id
  have hSize := h.size
  omega

theorem EmbeddingTableLookup.Fits.length_values_lt {m : EmbeddingTableLookup UInt32}
    (h : m.Fits) : (floatElements.pack m.values).length < 2 ^ 31 := by
  have hPack : (floatElements.pack m.values).length ≤ m.values.length * 4 :=
    ElementType.length_pack_le fun value _ => (ByteOrder.littleBytes_length 4 value.toNat).le
  have hSize := h.size
  omega

def EmbeddingTableLookup.merge (m : EmbeddingTableLookup UInt32) :
    Field → Option (EmbeddingTableLookup UInt32)
  | ⟨2, .varint number⟩ => some { m with key := UInt64.ofNat number }
  | ⟨3, .len payload⟩ =>
    (int32Elements.unpack payload).map fun keys => { m with keys := m.keys ++ keys }
  | ⟨3, .varint number⟩ => some { m with keys := m.keys ++ [readInt32 number] }
  | ⟨4, .len payload⟩ =>
    (floatElements.unpack payload).map fun values => { m with values := m.values ++ values }
  | ⟨4, .fixed32 bytes⟩ =>
    some { m with values := m.values ++ [UInt32.ofNat (ByteOrder.ofLittleBytes bytes)] }
  | _ => some m

def embeddingTableLookupType : MessageType (EmbeddingTableLookup UInt32) where
  empty := {}
  fields m :=
    scalar 2 m.key.toNat ++ (text 3 (int32Elements.pack m.keys) ++
      (text 4 (floatElements.pack m.values) ++ []))
  merge := EmbeddingTableLookup.merge
  Fits := EmbeddingTableLookup.Fits
  writable m h := by
    simp only [List.forall_mem_append]
    exact ⟨writable_scalar (by decide) m.key.toNat_lt,
      writable_text (by decide) h.length_keys_lt, writable_text (by decide) h.length_values_lt,
      by simp⟩
  merge_fields m h := by
    obtain ⟨key, keys, values⟩ := m
    have hKey : EmbeddingTableLookup.merge {} ⟨2, .varint key.toNat⟩ = some { key := key } := by
      simp [EmbeddingTableLookup.merge]
    have hUnpackKeys : int32Elements.unpack (int32Elements.pack keys) = some keys :=
      ElementType.unpack_pack h.ids
    have hUnpackValues : floatElements.unpack (floatElements.pack values) = some values :=
      ElementType.unpack_pack fun _ _ => trivial
    have hKeys : EmbeddingTableLookup.merge { key := key } ⟨3, .len (int32Elements.pack keys)⟩ =
        some { key := key, keys := keys } := by
      simp [EmbeddingTableLookup.merge, hUnpackKeys]
    have hValues : EmbeddingTableLookup.merge { key := key, keys := keys }
        ⟨4, .len (floatElements.pack values)⟩ = some ⟨key, keys, values⟩ := by
      simp [EmbeddingTableLookup.merge, hUnpackValues]
    rw [foldlM_scalar
      (fun hZero => by rw [UInt64.toNat_inj.mp (hZero.trans UInt64.toNat_zero.symm)])
        hKey,
      foldlM_text (fun hEmpty => by rw [ElementType.eq_nil_of_pack hEmpty]) hKeys,
      foldlM_text (fun hEmpty => by rw [ElementType.eq_nil_of_pack hEmpty]) hValues,
      List.foldlM_nil]
    rfl

theorem length_embeddingTableLookup {m : EmbeddingTableLookup UInt32} (h : m.Fits) :
    (embeddingTableLookupType.serialize m).length < 2 ^ 31 := by
  have hKey := length_scalar_le (show 2 < 2 ^ 29 by decide) m.key.toNat_lt
  have hKeys := length_text_le (show 3 < 2 ^ 29 by decide) h.length_keys_lt
  have hValues := length_text_le (show 4 < 2 ^ 29 by decide) h.length_values_lt
  have hPackKeys : (int32Elements.pack m.keys).length ≤ m.keys.length * 10 :=
    ElementType.length_pack_le fun id _ => int32Elements_length_le id
  have hPackValues : (floatElements.pack m.values).length ≤ m.values.length * 4 :=
    ElementType.length_pack_le fun value _ => (ByteOrder.littleBytes_length 4 value.toNat).le
  have hSize := h.size
  simp only [MessageType.serialize, embeddingTableLookupType, List.flatMap_append, List.flatMap_nil,
    List.length_append, List.length_nil]
  omega

/-- A `float` is given by its bits. -/
def lookupCodec : LookupCodec UInt32 :=
  payloadCodec embeddingTableLookupType (fun _ h => h) fun _ => length_embeddingTableLookup

/-- Ten rows on three servers, and sets that give their elements in the reverse order. -/
theorem lookup_messages_complete_ten_rows :
    ∃ w : LookupWorker, w.AddedOnce 3 1 10 ∧ ∃ rankIds data,
      w.initialize.doPSEmbeddingLookup lookupCodec List.reverse 1 [-1, 4, 9, 4, 12] (some []) =
        .ok (rankIds, data) ∧
      rankIds.Pairwise (· < ·) ∧
      ∃! sent, sent ∈ rankIds.zip data ∧ 4 ∈ (lookupCodec.parseFromArray sent.2).keys := by
  obtain ⟨worker, _, hAdded, _⟩ :=
    Worker.exists_addedOnce (show 0 < 3 by decide) 1 10 (by decide) (by decide)
  have hIds : ∀ id ∈ ([-1, 4, 9, 4, 12] : List Int), IsInt32 id := by simp [IsInt32]
  obtain ⟨_, _, rankIds, data, _, hCall, _, hSorted, _, hOnce⟩ :=
    lookup_messages_complete lookupCodec ⟨worker, false⟩ 3 (by decide) (by decide) 1 10 hAdded
      List.reverse List.reverse_perm [-1, 4, 9, 4, 12] hIds (by decide) []
  exact ⟨⟨worker, false⟩, hAdded, rankIds, data, hCall, hSorted,
    hOnce 4 (by simp) (by decide) (by decide)⟩

end PsRpc
