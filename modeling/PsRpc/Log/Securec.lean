import Mathlib.Data.Nat.Bitwise
import PsRpc.Library.Memory
import PsRpc.Wire.Message

/-! # The secure memory functions

`memcpy_s`, `memmove_s` and `memset_s` check their arguments before they write, and reset the
destination for some of the errors. Small blocks are copied and set without a call of the library,
and the macros with the suffix `sp` leave out checks for arguments that are known when they are
compiled. An address is a number, and 0 is `NULL`; no block goes beyond the last address.
-/

namespace PsRpc

namespace Securec

open Memory

abbrev Mem := Nat → UInt8

inductive ErrnoT where
  | eok
  | einval
  | einvalAndReset
  | erange
  | erangeAndReset
  | eoverlapAndReset
deriving DecidableEq, Repr

def ErrnoT.ofErrno : Errno → ErrnoT
  | .eok => .eok
  | .einval => .einval
  | .erange => .erange
  | .erangeAndReset => .erangeAndReset

def Apart (dest src count : Nat) : Prop := dest + count ≤ src ∨ src + count ≤ dest

instance (dest src count : Nat) : Decidable (Apart dest src count) :=
  inferInstanceAs (Decidable (_ ∨ _))

/-- `memcpy` of the library. What it does to blocks that overlap is not defined. -/
structure Libc where
  memcpy : Mem → Nat → Nat → Nat → Mem
  memcpy_apart : ∀ m dest src count, Apart dest src count →
    memcpy m dest src count = copy m dest src count

/-! ## memcpy_s -/

def MemoryNoOverlap (dest src count : Nat) : Prop :=
  src < dest ∧ src + count ≤ dest ∨ dest < src ∧ dest + count ≤ src

instance (dest src count : Nat) : Decidable (MemoryNoOverlap dest src count) :=
  inferInstanceAs (Decidable (_ ∨ _))

def addrAligned8 (addr : Nat) : Bool := addr &&& 7 == 0

def memcopyThresholdSize : Nat := 64

/-- `SECUREC_SMALL_MEM_COPY`: an assignment of a structure with a case for each size, or the cases
from that of `count` through all the smaller ones. -/
def smallMemCopy (m : Mem) (dest src count : Nat) : Mem :=
  if addrAligned8 dest && addrAligned8 src then
    if 1 ≤ count ∧ count ≤ 64 then copy m dest src count else m
  else
    if count ≤ 64 then copyUp count m dest src else m

def secDoMemcpyOpt (libc : Libc) (m : Mem) (dest src count : Nat) : Mem :=
  if memcopyThresholdSize < count then libc.memcpy m dest src count
  else smallMemCopy m dest src count

def MemcpyParamOk (dest destMax src count : Nat) : Prop :=
  count ≤ destMax ∧ dest ≠ 0 ∧ src ≠ 0 ∧ destMax ≤ securecMemMaxLen ∧ 0 < count ∧
    MemoryNoOverlap dest src count

instance (dest destMax src count : Nat) : Decidable (MemcpyParamOk dest destMax src count) :=
  inferInstanceAs (Decidable (_ ∧ _))

def secMemcpyError (m : Mem) (dest destMax src count : Nat) : ErrnoT × Mem :=
  if destMax = 0 ∨ securecMemMaxLen < destMax then (.erange, m)
  else if dest = 0 ∨ src = 0 then
    if dest ≠ 0 then (.einvalAndReset, fill m dest destMax 0) else (.einval, m)
  else if destMax < count then (.erangeAndReset, fill m dest destMax 0)
  else if dest = src then (.eok, m)
  else if src < dest ∧ dest < src + count ∨ dest < src ∧ src < dest + count then
    (.eoverlapAndReset, fill m dest destMax 0)
  else (.eok, m)

/-- `withPerformance` is `SECUREC_MEMCOPY_WITH_PERFORMANCE`. -/
def memcpyS (libc : Libc) (withPerformance : Bool) (m : Mem) (dest destMax src count : Nat) :
    ErrnoT × Mem :=
  if MemcpyParamOk dest destMax src count then
    (.eok, if withPerformance then secDoMemcpyOpt libc m dest src count
      else libc.memcpy m dest src count)
  else secMemcpyError m dest destMax src count

def memcpySOptAsm (libc : Libc) (m : Mem) (dest destMax src count : Nat) : ErrnoT × Mem :=
  if MemcpyParamOk dest destMax src count then (.eok, secDoMemcpyOpt libc m dest src count)
  else secMemcpyError m dest destMax src count

/-- Without the test of `destMax`. -/
def memcpySOptTc (libc : Libc) (m : Mem) (dest destMax src count : Nat) : ErrnoT × Mem :=
  if count ≤ destMax ∧ dest ≠ 0 ∧ src ≠ 0 ∧ 0 < count ∧
      (src < dest ∧ src + count ≤ dest ∨ dest < src ∧ dest + count ≤ src) then
    (.eok, secDoMemcpyOpt libc m dest src count)
  else secMemcpyError m dest destMax src count

/-- `destMax & (unsigned long long)(-2)`. -/
def maskedMax (destMax : Nat) : Nat := destMax &&& (2 ^ 64 - 2)

/-- `SECUREC_MEMCPY_SM`, which does not look for an overlap. -/
def memcpySm (libc : Libc) (withPerformance : Bool) (m : Mem) (dest destMax src count : Nat) :
    ErrnoT × Mem :=
  if ¬ (destMax = 0 ∨ securecMemMaxLen < maskedMax destMax ∨ destMax < count ∨ dest = 0 ∨ src = 0)
  then (.eok, libc.memcpy m dest src count)
  else memcpyS libc withPerformance m dest destMax src count

/-- `memcpy_sp`; the two flags say which of the sizes are constants. -/
def memcpySp (libc : Libc) (withPerformance constCount constDestMax : Bool) (m : Mem)
    (dest destMax src count : Nat) : ErrnoT × Mem :=
  if constCount then memcpySm libc withPerformance m dest destMax src count
  else if constDestMax then
    if 0 < destMax ∧ maskedMax destMax < securecMemMaxLen then
      memcpySOptTc libc m dest destMax src count
    else (.erange, m)
  else memcpySOptAsm libc m dest destMax src count

theorem smallMemCopy_eq_copy {m : Mem} {dest src count : Nat} (hCount : count ≤ 64)
    (hApart : Apart dest src count) : smallMemCopy m dest src count = copy m dest src count := by
  rw [smallMemCopy]
  split
  · rcases Nat.eq_zero_or_pos count with rfl | hPos
    · rw [if_neg (by omega), copy_zero]
    · rw [if_pos ⟨hPos, hCount⟩]
  · apply copyUp_eq_copy
    rcases hApart with hBelow | hAbove
    · exact .inl (by omega)
    · exact .inr hAbove

theorem secDoMemcpyOpt_eq_copy (libc : Libc) {m : Mem} {dest src count : Nat}
    (hApart : Apart dest src count) :
    secDoMemcpyOpt libc m dest src count = copy m dest src count := by
  rw [secDoMemcpyOpt]
  split
  · exact libc.memcpy_apart m dest src count hApart
  · next hSmall => exact smallMemCopy_eq_copy (Nat.le_of_not_lt hSmall) hApart

theorem MemcpyParamOk.apart {dest destMax src count : Nat}
    (h : MemcpyParamOk dest destMax src count) : Apart dest src count := by
  obtain ⟨_, _, _, _, _, hNone⟩ := h
  rcases hNone with ⟨_, hAbove⟩ | ⟨_, hBelow⟩
  · exact .inr hAbove
  · exact .inl hBelow

/-- What a call with this result has done to the memory. -/
def ErrnoT.effect (m : Mem) (dest destMax src count : Nat) : ErrnoT → Mem
  | .eok => copy m dest src count
  | .einvalAndReset => fill m dest destMax 0
  | .erangeAndReset => fill m dest destMax 0
  | .eoverlapAndReset => fill m dest destMax 0
  | .einval => m
  | .erange => m

/-- The result of `memcpy_s` as a function of its arguments. -/
def memcpyResult (dest destMax src count : Nat) : ErrnoT :=
  if destMax = 0 ∨ securecMemMaxLen < destMax then .erange
  else if dest = 0 then .einval
  else if src = 0 then .einvalAndReset
  else if destMax < count then .erangeAndReset
  else if dest = src ∨ Apart dest src count then .eok
  else .eoverlapAndReset

theorem memcpyResult_of_paramOk {dest destMax src count : Nat}
    (h : MemcpyParamOk dest destMax src count) : memcpyResult dest destMax src count = .eok := by
  have hApart := h.apart
  obtain ⟨hCount, hDest, hSrc, hMax, hPos, _⟩ := h
  rw [memcpyResult, if_neg (by omega), if_neg hDest, if_neg hSrc, if_neg (by omega),
    if_pos (.inr hApart)]

theorem memcpyResult_of_apart {dest destMax src count : Nat} (hDest : dest ≠ 0) (hSrc : src ≠ 0)
    (hApart : Apart dest src count) :
    memcpyResult dest destMax src count = .ofErrno (PsRpc.memcpyS destMax count) := by
  have hSame : dest = src ∨ Apart dest src count := .inr hApart
  rw [memcpyResult, if_neg hDest, if_neg hSrc, if_pos hSame, PsRpc.memcpyS]
  by_cases hRange : destMax = 0 ∨ securecMemMaxLen < destMax
  · rw [if_pos hRange, if_pos hRange, if_neg (by omega)]
    rfl
  by_cases hCount : destMax < count
  · rw [if_neg hRange, if_neg hRange, if_pos hCount, if_pos hCount, if_neg (by omega)]
    rfl
  · rw [if_neg hRange, if_neg hRange, if_neg hCount, if_neg hCount, ite_self]
    rfl

theorem secMemcpyError_eq (m : Mem) (dest destMax src count : Nat)
    (h : ¬ MemcpyParamOk dest destMax src count) :
    secMemcpyError m dest destMax src count = (memcpyResult dest destMax src count,
      (memcpyResult dest destMax src count).effect m dest destMax src count) := by
  rw [secMemcpyError, memcpyResult]
  split
  · rfl
  next hRange =>
  by_cases hDest : dest = 0
  · rw [if_pos (.inl hDest), if_neg (not_not_intro hDest), if_pos hDest]
    rfl
  by_cases hSrc : src = 0
  · rw [if_pos (.inr hSrc), if_pos hDest, if_neg hDest, if_pos hSrc]
    rfl
  rw [if_neg (by omega), if_neg hDest, if_neg hSrc]
  split
  · rfl
  next hCount =>
  rcases eq_or_ne dest src with rfl | hNe
  · rw [if_pos rfl, if_pos (.inl rfl), ErrnoT.effect, copy_self]
  rw [if_neg hNe]
  by_cases hApart : Apart dest src count
  · have hZero : count = 0 := by
      by_contra hPos
      apply h
      refine ⟨by omega, hDest, hSrc, by omega, by omega, ?_⟩
      rcases hApart with hBelow | hAbove
      · exact .inr ⟨by omega, hBelow⟩
      · exact .inl ⟨by omega, hAbove⟩
    rw [if_neg (by omega), if_pos (.inr hApart), hZero, ErrnoT.effect, copy_zero]
  · have hOverlap : src < dest ∧ dest < src + count ∨ dest < src ∧ src < dest + count := by
      rw [Apart] at hApart
      omega
    rw [if_pos hOverlap, if_neg (by simp [hNe, hApart])]
    rfl

theorem memcpyS_eq (libc : Libc) (withPerformance : Bool) (m : Mem) (dest destMax src count : Nat) :
    memcpyS libc withPerformance m dest destMax src count =
      (memcpyResult dest destMax src count,
        (memcpyResult dest destMax src count).effect m dest destMax src count) := by
  rw [memcpyS]
  split
  · next hOk =>
    rw [memcpyResult_of_paramOk hOk]
    congr 1
    split
    · exact secDoMemcpyOpt_eq_copy libc hOk.apart
    · exact libc.memcpy_apart m dest src count hOk.apart
  · next hError => exact secMemcpyError_eq m dest destMax src count hError

theorem memcpyResult_of_valid {dest destMax src count : Nat}
    (h : ¬ (destMax = 0 ∨ securecMemMaxLen < destMax ∨ destMax < count ∨ dest = 0 ∨ src = 0)) :
    memcpyResult dest destMax src count =
      if dest = src ∨ Apart dest src count then .eok else .eoverlapAndReset := by
  rw [memcpyResult, if_neg (by omega), if_neg (by omega), if_neg (by omega), if_neg (by omega)]

theorem memcpyResult_of_invalid {dest destMax src count : Nat}
    (h : destMax = 0 ∨ securecMemMaxLen < destMax ∨ destMax < count ∨ dest = 0 ∨ src = 0) :
    memcpyResult dest destMax src count ≠ .eoverlapAndReset := by
  rw [memcpyResult]
  split_ifs with hRange hDest hSrc hCount hSame
  · simp
  · simp
  · simp
  · simp
  · simp
  · omega

theorem maskedMax_eq {destMax : Nat} (h : destMax < 2 ^ 64) :
    maskedMax destMax = destMax / 2 * 2 := by
  apply Nat.eq_of_testBit_eq
  intro i
  rw [maskedMax, Nat.testBit_and]
  cases i with
  | zero => simp
  | succ i =>
    rw [Nat.testBit_succ, Nat.testBit_succ, Nat.testBit_succ, Nat.mul_div_cancel _ (by decide),
      show (2 ^ 64 - 2) / 2 = 2 ^ 63 - 1 by decide, Nat.testBit_two_pow_sub_one]
    by_cases hBit : i < 63
    · simp [hBit]
    · have hSmall : destMax / 2 < 2 ^ i :=
        Nat.lt_of_lt_of_le (by omega : destMax / 2 < 2 ^ 63)
          (Nat.pow_le_pow_right (by decide) (Nat.le_of_not_lt hBit))
      simp [Nat.testBit_lt_two_pow hSmall]

/-- The two tests with the mask are the test of `destMax` itself. -/
theorem maskedMax_lt_iff {destMax : Nat} (h : destMax < 2 ^ 64) :
    maskedMax destMax < securecMemMaxLen ↔ destMax ≤ securecMemMaxLen := by
  rw [maskedMax_eq h, securecMemMaxLen]
  omega

theorem lt_maskedMax_iff {destMax : Nat} (h : destMax < 2 ^ 64) :
    securecMemMaxLen < maskedMax destMax ↔ securecMemMaxLen < destMax := by
  rw [maskedMax_eq h, securecMemMaxLen]
  omega

variable (libc : Libc) (withPerformance : Bool) (m : Mem) {dest destMax src count : Nat}

theorem memcpySOptAsm_eq (dest destMax src count : Nat) :
    memcpySOptAsm libc m dest destMax src count =
      memcpyS libc withPerformance m dest destMax src count := by
  rw [memcpySOptAsm, memcpyS]
  split
  · next hOk =>
    rw [secDoMemcpyOpt_eq_copy libc hOk.apart, libc.memcpy_apart m dest src count hOk.apart,
      ite_self]
  · rfl

theorem memcpySOptTc_eq (hMax : destMax ≤ securecMemMaxLen) :
    memcpySOptTc libc m dest destMax src count =
      memcpyS libc withPerformance m dest destMax src count := by
  rw [← memcpySOptAsm_eq, memcpySOptTc, memcpySOptAsm]
  have hSame : MemcpyParamOk dest destMax src count ↔ count ≤ destMax ∧ dest ≠ 0 ∧ src ≠ 0 ∧
      0 < count ∧ (src < dest ∧ src + count ≤ dest ∨ dest < src ∧ dest + count ≤ src) := by
    rw [MemcpyParamOk, MemoryNoOverlap]
    simp only [hMax, true_and]
  simp only [hSame]

theorem memcpyS_erange (hRange : destMax = 0 ∨ securecMemMaxLen < destMax) :
    memcpyS libc withPerformance m dest destMax src count = (.erange, m) := by
  have hError : ¬ MemcpyParamOk dest destMax src count := by
    rintro ⟨hCount, _, _, hMax, hPos, _⟩
    omega
  rw [memcpyS, if_neg hError, secMemcpyError, if_pos hRange]

/-! ## memmove_s -/

/-- The loops that stand in for `memmove` of the library. -/
def secUtilMemmove (m : Mem) (dst src count : Nat) : Mem :=
  if dst ≤ src ∨ src + count ≤ dst then copyUp count m dst src else copyDown count m dst src

/-- `ownLoops` is `SECUREC_NOT_CALL_LIBC_CORE_API`; `memmove` of the library moves the block at
once. -/
def memmoveS (ownLoops : Bool) (m : Mem) (dest destMax src count : Nat) : ErrnoT × Mem :=
  if destMax = 0 ∨ securecMemMaxLen < destMax then (.erange, m)
  else if dest = 0 ∨ src = 0 then
    if dest ≠ 0 then (.einvalAndReset, fill m dest destMax 0) else (.einval, m)
  else if destMax < count then (.erangeAndReset, fill m dest destMax 0)
  else if dest = src then (.eok, m)
  else if 0 < count then
    (.eok, if ownLoops then secUtilMemmove m dest src count else copy m dest src count)
  else (.eok, m)

theorem secUtilMemmove_eq_copy (m : Mem) (dst src count : Nat) :
    secUtilMemmove m dst src count = copy m dst src count := by
  rw [secUtilMemmove]
  split
  · next hUp => exact copyUp_eq_copy hUp
  · next hDown => exact copyDown_eq_copy (.inl (by omega))

def memmoveResult (dest destMax src count : Nat) : ErrnoT :=
  if destMax = 0 ∨ securecMemMaxLen < destMax then .erange
  else if dest = 0 then .einval
  else if src = 0 then .einvalAndReset
  else if destMax < count then .erangeAndReset
  else .eok

theorem memmoveS_eq (ownLoops : Bool) (m : Mem) (dest destMax src count : Nat) :
    memmoveS ownLoops m dest destMax src count =
      (memmoveResult dest destMax src count,
        (memmoveResult dest destMax src count).effect m dest destMax src count) := by
  rw [memmoveS, memmoveResult]
  split
  · rfl
  by_cases hDest : dest = 0
  · rw [if_pos (.inl hDest), if_neg (not_not_intro hDest), if_pos hDest]
    rfl
  by_cases hSrc : src = 0
  · rw [if_pos (.inr hSrc), if_pos hDest, if_neg hDest, if_pos hSrc]
    rfl
  rw [if_neg (by omega), if_neg hDest, if_neg hSrc]
  split
  · rfl
  rcases eq_or_ne dest src with rfl | hNe
  · rw [if_pos rfl, ErrnoT.effect, copy_self]
  rw [if_neg hNe, secUtilMemmove_eq_copy, ite_self, ErrnoT.effect]
  split
  · rfl
  · next hCount =>
    obtain rfl : count = 0 := by omega
    rw [copy_zero]

theorem memmoveResult_ne_overlap (dest destMax src count : Nat) :
    memmoveResult dest destMax src count ≠ .eoverlapAndReset := by
  rw [memmoveResult]
  split_ifs <;> simp

/-- The overlap is all that the two tables differ in. -/
theorem memcpyResult_eq_memmoveResult {dest destMax src count : Nat}
    (h : memcpyResult dest destMax src count ≠ .eoverlapAndReset) :
    memcpyResult dest destMax src count = memmoveResult dest destMax src count := by
  rw [memcpyResult] at h ⊢
  rw [memmoveResult]
  split_ifs with hRange hDest hSrc hCount hSame
  · rfl
  · rfl
  · rfl
  · rfl
  · rfl
  · simp [hRange, hDest, hSrc, hCount, hSame] at h

/-! ## memset_s -/

def charOf (c : Int) : UInt8 := UInt8.ofInt c

def memsetThresholdSize : Nat := 32

/-- `SECUREC_UNALIGNED_SET`: from the case of `count` through all the smaller ones. -/
def unalignedSet (m : Mem) (dest : Nat) (c : Int) (count : Nat) : Mem :=
  if count ≤ 32 then fillUp (charOf c) count m dest else m

/-- `SECUREC_ALIGNED_SET_OPT_ZERO_FF`: the assignment of a part of `g_allZero` or `g_allFF`. -/
def alignedSetOptZeroFF (m : Mem) (dest : Nat) (c : Int) (count : Nat) : Mem :=
  if c = 0 then (if 1 ≤ count ∧ count ≤ 32 then fill m dest count 0 else m)
  else if c = 0xFF then (if 1 ≤ count ∧ count ≤ 32 then fill m dest count 0xFF else m)
  else unalignedSet m dest c count

def secDoMemsetOpt (m : Mem) (dest : Nat) (c : Int) (count : Nat) : Mem :=
  if memsetThresholdSize < count then fill m dest count (charOf c)
  else if addrAligned8 dest then alignedSetOptZeroFF m dest c count
  else unalignedSet m dest c count

def secMemsetError (m : Mem) (dest destMax : Nat) (c : Int) (count : Nat) : ErrnoT × Mem :=
  if destMax = 0 ∨ securecMemMaxLen < destMax then (.erange, m)
  else if dest = 0 then (.einval, m)
  else if destMax < count then (.erangeAndReset, fill m dest destMax (charOf c))
  else (.eok, m)

/-- The condition is `SECUREC_MEMSET_PARAM_OK`. -/
def memsetS (withPerformance : Bool) (m : Mem) (dest destMax : Nat) (c : Int) (count : Nat) :
    ErrnoT × Mem :=
  if count ≤ destMax ∧ dest ≠ 0 ∧ destMax ≤ securecMemMaxLen then
    (.eok, if withPerformance then secDoMemsetOpt m dest c count
      else fill m dest count (charOf c))
  else secMemsetError m dest destMax c count

def memsetSOptAsm (m : Mem) (dest destMax : Nat) (c : Int) (count : Nat) : ErrnoT × Mem :=
  if count ≤ destMax ∧ dest ≠ 0 ∧ destMax ≤ securecMemMaxLen then
    (.eok, secDoMemsetOpt m dest c count)
  else secMemsetError m dest destMax c count

def memsetSOptTc (m : Mem) (dest destMax : Nat) (c : Int) (count : Nat) : ErrnoT × Mem :=
  if count ≤ destMax ∧ dest ≠ 0 then (.eok, secDoMemsetOpt m dest c count)
  else secMemsetError m dest destMax c count

def memsetSm (withPerformance : Bool) (m : Mem) (dest destMax : Nat) (c : Int) (count : Nat) :
    ErrnoT × Mem :=
  if ¬ (destMax = 0 ∨ securecMemMaxLen < maskedMax destMax ∨ dest = 0 ∨ destMax < count) then
    (.eok, fill m dest count (charOf c))
  else memsetS withPerformance m dest destMax c count

def memsetSp (withPerformance constCount constDestMax : Bool) (m : Mem) (dest destMax : Nat)
    (c : Int) (count : Nat) : ErrnoT × Mem :=
  if constCount then memsetSm withPerformance m dest destMax c count
  else if constDestMax then
    if 0 < destMax ∧ maskedMax destMax < securecMemMaxLen then
      memsetSOptTc m dest destMax c count
    else (.erange, m)
  else memsetSOptAsm m dest destMax c count

theorem unalignedSet_eq_fill {count : Nat} (hCount : count ≤ 32) (m : Mem) (dest : Nat) (c : Int) :
    unalignedSet m dest c count = fill m dest count (charOf c) := by
  rw [unalignedSet, if_pos hCount, fillUp_eq_fill]

theorem alignedSetOptZeroFF_eq_fill {count : Nat} (hCount : count ≤ 32) (m : Mem) (dest : Nat)
    (c : Int) : alignedSetOptZeroFF m dest c count = fill m dest count (charOf c) := by
  have hFill (value : UInt8) :
      (if 1 ≤ count ∧ count ≤ 32 then fill m dest count value else m) =
      fill m dest count value := by
    rcases Nat.eq_zero_or_pos count with rfl | hPos
    · rw [if_neg (by omega), fill_zero]
    · rw [if_pos ⟨hPos, hCount⟩]
  rw [alignedSetOptZeroFF]
  split
  · next hZero => rw [hFill, hZero]; rfl
  split
  · next hFF => rw [hFill, hFF]; rfl
  · exact unalignedSet_eq_fill hCount m dest c

theorem secDoMemsetOpt_eq_fill (m : Mem) (dest : Nat) (c : Int) (count : Nat) :
    secDoMemsetOpt m dest c count = fill m dest count (charOf c) := by
  rw [secDoMemsetOpt]
  split
  · rfl
  next hSmall =>
  have hCount : count ≤ 32 := Nat.le_of_not_lt hSmall
  split
  · exact alignedSetOptZeroFF_eq_fill hCount m dest c
  · exact unalignedSet_eq_fill hCount m dest c

/-- A buffer of the size 0 can be set as long as no bytes are. -/
def memsetResult (dest destMax count : Nat) : ErrnoT :=
  if count ≤ destMax ∧ dest ≠ 0 ∧ destMax ≤ securecMemMaxLen then .eok
  else if destMax = 0 ∨ securecMemMaxLen < destMax then .erange
  else if dest = 0 then .einval
  else .erangeAndReset

theorem memsetS_of_ok {m : Mem} {dest destMax count : Nat} (withPerformance : Bool) (c : Int)
    (h : count ≤ destMax ∧ dest ≠ 0 ∧ destMax ≤ securecMemMaxLen) :
    memsetS withPerformance m dest destMax c count = (.eok, fill m dest count (charOf c)) := by
  rw [memsetS, if_pos h, secDoMemsetOpt_eq_fill, ite_self]

theorem memsetS_of_not_ok {m : Mem} {dest destMax count : Nat} (withPerformance : Bool) (c : Int)
    (h : ¬ (count ≤ destMax ∧ dest ≠ 0 ∧ destMax ≤ securecMemMaxLen)) :
    memsetS withPerformance m dest destMax c count =
      if destMax = 0 ∨ securecMemMaxLen < destMax then (.erange, m)
      else if dest = 0 then (.einval, m)
      else (.erangeAndReset, fill m dest destMax (charOf c)) := by
  rw [memsetS, if_neg h, secMemsetError]
  split_ifs with hRange hDest hCount
  · rfl
  · rfl
  · rfl
  · exact absurd ⟨by omega, hDest, by omega⟩ h

end Securec

open Securec Memory

/-- For all arguments, with and without the copies of small blocks: `memcpy_s` has the result of
the table; with `EOK` the block is at `dest` and nothing else has changed, with the errors that
reset `dest` its `destMax` bytes are 0, and with the others nothing is written. On buffers that are
there and do not overlap, the result is the one that the message handlers rely on. -/
theorem memcpy_s_effect (libc : Libc) (withPerformance : Bool) (m : Mem)
    (dest destMax src count : Nat) :
    Securec.memcpyS libc withPerformance m dest destMax src count =
      (memcpyResult dest destMax src count,
        (memcpyResult dest destMax src count).effect m dest destMax src count) ∧
    (dest ≠ 0 → src ≠ 0 → Apart dest src count →
      memcpyResult dest destMax src count = .ofErrno (PsRpc.memcpyS destMax count)) := by
  exact ⟨memcpyS_eq libc withPerformance m dest destMax src count, memcpyResult_of_apart⟩

/-- `memcpy_sp` is `memcpy_s`, whichever of the sizes are constants, as long as a constant number of
bytes is not copied between buffers that overlap. There it leaves it to `memcpy`, whose behaviour is
then undefined, and returns `EOK` where `memcpy_s` resets the destination. -/
theorem memcpy_sp_agrees (libc : Libc) (withPerformance constCount constDestMax : Bool) (m : Mem)
    (dest destMax src count : Nat) (hMax : destMax < 2 ^ 64) :
    ((constCount = true → Apart dest src count) →
      memcpySp libc withPerformance constCount constDestMax m dest destMax src count =
        Securec.memcpyS libc withPerformance m dest destMax src count) ∧
    ((memcpySp libc withPerformance constCount constDestMax m dest destMax src count).1 =
        (Securec.memcpyS libc withPerformance m dest destMax src count).1 ↔
      ¬ (constCount = true ∧ memcpyResult dest destMax src count = .eoverlapAndReset)) ∧
    (constCount = true → memcpyResult dest destMax src count = .eoverlapAndReset →
      (memcpySp libc withPerformance constCount constDestMax m dest destMax src count).1 =
        .eok) := by
  cases constCount with
  | true =>
    rw [memcpySp, if_pos rfl, memcpySm]
    split
    · next hValid =>
      rw [lt_maskedMax_iff hMax] at hValid
      rw [memcpyS_eq, memcpyResult_of_valid hValid]
      refine ⟨?_, ?_, fun _ _ => rfl⟩
      · intro hApart
        rw [if_pos (.inr (hApart rfl)), libc.memcpy_apart m dest src count (hApart rfl)]
        rfl
      · split
        · simp
        · simp
    · next hInvalid =>
      rw [lt_maskedMax_iff hMax] at hInvalid
      have hResult := memcpyResult_of_invalid (not_not.mp hInvalid)
      exact ⟨fun _ => rfl, by simp [hResult], fun _ hOverlap => absurd hOverlap hResult⟩
  | false =>
    have hSame : memcpySp libc withPerformance false constDestMax m dest destMax src count =
        Securec.memcpyS libc withPerformance m dest destMax src count := by
      rw [memcpySp, if_neg Bool.false_ne_true]
      split
      · split
        · next hGuard => exact memcpySOptTc_eq _ _ _ ((maskedMax_lt_iff hMax).mp hGuard.2)
        · next hGuard =>
          rw [maskedMax_lt_iff hMax] at hGuard
          rw [memcpyS_erange _ _ _ (by omega)]
      · exact memcpySOptAsm_eq _ _ _ _ _ _ _
    refine ⟨fun _ => hSame, ?_, nofun⟩
    rw [hSame]
    simp

/-- Four bytes are moved up by one. -/
theorem memcpy_sp_agrees_overlap :
    (memcpySp ⟨copy, fun _ _ _ _ _ => rfl⟩ false true false (fun _ => 1) 9 4 8 4).1 = .eok ∧
      (Securec.memcpyS ⟨copy, fun _ _ _ _ _ => rfl⟩ false (fun _ => 1) 9 4 8 4).1 ≠ .eok := by
  obtain ⟨_, hSame, hOk⟩ := memcpy_sp_agrees ⟨copy, fun _ _ _ _ _ => rfl⟩ false true false
    (fun _ => 1) 9 4 8 4 (by decide)
  have hReturned := hOk rfl (by decide)
  refine ⟨hReturned, ?_⟩
  intro hEok
  exact hSame.mp (hReturned.trans hEok.symm) ⟨rfl, by decide⟩

/-- For all arguments, overlapping buffers among them: `memmove_s` has the result of the table, and
with `EOK` the bytes that were at `src` are at `dest` and nothing else has changed. The loops of
`SecUtilMemmove` do what `memmove` of the library does. Where `memcpy_s` does not complain about an
overlap, the two functions do the same. -/
theorem memmove_s_effect (libc : Libc) (withPerformance ownLoops : Bool) (m : Mem)
    (dest destMax src count : Nat) :
    memmoveS ownLoops m dest destMax src count =
      (memmoveResult dest destMax src count,
        (memmoveResult dest destMax src count).effect m dest destMax src count) ∧
    (memmoveS ownLoops m dest destMax src count =
        Securec.memcpyS libc withPerformance m dest destMax src count ↔
      (Securec.memcpyS libc withPerformance m dest destMax src count).1 ≠ .eoverlapAndReset) := by
  refine ⟨memmoveS_eq ownLoops m dest destMax src count, ?_⟩
  rw [memmoveS_eq, memcpyS_eq]
  constructor
  · intro hSame
    rw [← congrArg Prod.fst hSame]
    exact memmoveResult_ne_overlap dest destMax src count
  · intro hResult
    rw [memcpyResult_eq_memmoveResult hResult]

/-- For all arguments, with and without the assignments of whole structures: `memset_s` has the
result of the table; with `EOK` the `count` bytes have the value and nothing else has changed, for
too many bytes the whole buffer gets the value, and otherwise nothing is written. -/
theorem memset_s_effect (withPerformance : Bool) (m : Mem) (dest destMax : Nat) (c : Int)
    (count : Nat) :
    memsetS withPerformance m dest destMax c count =
      (memsetResult dest destMax count,
        match memsetResult dest destMax count with
        | .eok => fill m dest count (charOf c)
        | .erangeAndReset => fill m dest destMax (charOf c)
        | _ => m) := by
  by_cases hOk : count ≤ destMax ∧ dest ≠ 0 ∧ destMax ≤ securecMemMaxLen
  · rw [memsetS_of_ok withPerformance c hOk, memsetResult, if_pos hOk]
  · rw [memsetS_of_not_ok withPerformance c hOk, memsetResult, if_neg hOk]
    split_ifs
    · rfl
    · rfl
    · rfl

/-- `memset_sp` is `memset_s`, whichever of the sizes are constants, but for one case: no bytes of a
buffer whose size is the constant 0. -/
theorem memset_sp_agrees (withPerformance constCount constDestMax : Bool) (m : Mem)
    (dest destMax : Nat) (c : Int) (count : Nat) (hMax : destMax < 2 ^ 64) :
    memsetSp withPerformance constCount constDestMax m dest destMax c count =
        memsetS withPerformance m dest destMax c count ↔
      ¬ (constCount = false ∧ constDestMax = true ∧ destMax = 0 ∧ count = 0 ∧ dest ≠ 0) := by
  cases constCount with
  | true =>
    refine iff_of_true ?_ (by simp)
    rw [memsetSp, if_pos rfl, memsetSm]
    split
    · next hValid =>
      rw [lt_maskedMax_iff hMax] at hValid
      rw [memsetS_of_ok withPerformance c (by omega)]
    · rfl
  | false =>
    rw [memsetSp, if_neg Bool.false_ne_true]
    cases constDestMax with
    | false =>
      refine iff_of_true ?_ (by simp)
      rw [if_neg Bool.false_ne_true, memsetSOptAsm, memsetS, secDoMemsetOpt_eq_fill, ite_self]
    | true =>
      rw [if_pos rfl]
      split
      · next hGuard =>
        rw [maskedMax_lt_iff hMax] at hGuard
        refine iff_of_true ?_ (by omega)
        rw [memsetSOptTc, memsetS, secDoMemsetOpt_eq_fill, ite_self]
        simp only [hGuard.2, and_true]
      · next hGuard =>
        rw [maskedMax_lt_iff hMax] at hGuard
        by_cases hOk : count ≤ destMax ∧ dest ≠ 0 ∧ destMax ≤ securecMemMaxLen
        · rw [memsetS_of_ok withPerformance c hOk]
          refine iff_of_false (by simp) ?_
          intro hOther
          exact hOther ⟨rfl, rfl, by omega, by omega, hOk.2.1⟩
        · rw [memsetS_of_not_ok withPerformance c hOk, if_pos (by omega)]
          refine iff_of_true rfl ?_
          rintro ⟨_, _, hZero, hNone, hDest⟩
          exact hOk ⟨by omega, hDest, by omega⟩

theorem memset_sp_agrees_empty :
    memsetSp false false true (fun _ => 1) 8 0 0 0 ≠ memsetS false (fun _ => 1) 8 0 0 0 := by
  intro hSame
  exact (memset_sp_agrees false false true _ 8 0 0 0 (by decide)).mp hSame
    ⟨rfl, rfl, rfl, rfl, by decide⟩

end PsRpc
