import Mathlib.Data.Nat.Log
import Mathlib.Algebra.Group.Nat.Basic

/-!
# Machine words of the per-CPU allocator

`rseq-percpu-alloc.c` is written for the two word sizes `RSEQ_BITS_PER_LONG` selects. Its
constants (`POOL_INDEX_BITS`, `POOL_INDEX_SHIFT`, `MAX_POOL_LEN_MASK`, the pool-set orders)
are functions of the `Abi` here. A handle is one `uintptr_t`: the pool index in the high
`POOL_INDEX_BITS` bits and the item offset in the low `POOL_INDEX_SHIFT` bits. The main
results are `handlePoolIndex_encodeAddr` and `handleItemOffset_encodeAddr`: decoding inverts
the encoding for every index below `MAX_NR_POOLS` and every offset below `MAX_POOL_LEN`.

The two shifts the source leaves undefined for some counts, `1UL << order` and the `int`
shift `1 << n`, return `none` there.
-/

namespace Librseq

/-- The two configurations of `RSEQ_BITS_PER_LONG` the source distinguishes. -/
inductive Abi
  | lp64
  | ilp32
deriving DecidableEq, Repr

namespace Abi

/-- `RSEQ_BITS_PER_LONG`, which is also `BIT_PER_ULONG`. -/
def bitsPerLong : Abi → Nat
  | lp64 => 64
  | ilp32 => 32

/-- `POOL_INDEX_BITS`. -/
def poolIndexBits : Abi → Nat
  | lp64 => 16
  | ilp32 => 8

/-- `POOL_SET_MIN_ENTRY`: the order of the smallest item, which holds one free-list pointer. -/
def poolSetMinEntry : Abi → Nat
  | lp64 => 3
  | ilp32 => 2

/-- `sizeof(void *)`. -/
def sizeofPtr : Abi → Nat
  | lp64 => 8
  | ilp32 => 4

/-- `POOL_INDEX_SHIFT`, which is also `POOL_SET_NR_ENTRIES`. -/
def poolIndexShift (abi : Abi) : Nat := abi.bitsPerLong - abi.poolIndexBits

/-- `POOL_SET_NR_ENTRIES`. -/
def poolSetNrEntries (abi : Abi) : Nat := abi.poolIndexShift

/-- `MAX_NR_POOLS`. -/
def maxNrPools (abi : Abi) : Nat := 2 ^ abi.poolIndexBits

/-- `MAX_POOL_LEN`. -/
def maxPoolLen (abi : Abi) : Nat := 2 ^ abi.poolIndexShift

/-- `MAX_POOL_LEN_MASK`. -/
def maxPoolLenMask (abi : Abi) : Nat := abi.maxPoolLen - 1

/-- The number of values of a `size_t`, `uintptr_t` or `unsigned long`. -/
def wordSize (abi : Abi) : Nat := 2 ^ abi.bitsPerLong

theorem poolIndexShift_add_poolIndexBits (abi : Abi) :
    abi.poolIndexShift + abi.poolIndexBits = abi.bitsPerLong := by
  cases abi <;> rfl

theorem wordSize_eq (abi : Abi) : abi.wordSize = abi.maxPoolLen * abi.maxNrPools := by
  rw [wordSize, maxPoolLen, maxNrPools, ← Nat.pow_add, poolIndexShift_add_poolIndexBits]

theorem sizeofPtr_eq (abi : Abi) : abi.sizeofPtr = 2 ^ abi.poolSetMinEntry := by
  cases abi <;> rfl

theorem sizeofPtr_pos (abi : Abi) : 0 < abi.sizeofPtr := by
  cases abi <;> decide

theorem maxNrPools_pos (abi : Abi) : 0 < abi.maxNrPools := Nat.two_pow_pos _

theorem maxPoolLen_pos (abi : Abi) : 0 < abi.maxPoolLen := Nat.two_pow_pos _

/-- Masking with `MAX_POOL_LEN_MASK` keeps the remainder modulo `MAX_POOL_LEN`. -/
theorem and_maxPoolLenMask (abi : Abi) (x : Nat) :
    x &&& abi.maxPoolLenMask = x % abi.maxPoolLen :=
  Nat.and_pow_two_sub_one_eq_mod _ _

theorem maxPoolLen_le_wordSize (abi : Abi) : abi.maxPoolLen ≤ abi.wordSize := by
  rw [wordSize_eq]
  exact Nat.le_mul_of_pos_right _ abi.maxNrPools_pos

/-- `UINTPTR_MAX >> POOL_INDEX_BITS` is the largest offset a handle can carry. -/
theorem uintptrMax_shiftRight (abi : Abi) :
    (abi.wordSize - 1) >>> abi.poolIndexBits = abi.maxPoolLen - 1 := by
  cases abi <;> decide

end Abi

/-- `FIRST_POOL`: index 0 is skipped so that no handle is the null pointer. -/
def firstPool : Nat := 1

/-- `x << n` on an `unsigned long`; `none` when `n` is at least the width, which C leaves
undefined. -/
def shiftLeftUlong (abi : Abi) (x n : Nat) : Option Nat :=
  if n < abi.bitsPerLong then some ((x <<< n) % abi.wordSize) else none

/-- `1UL << n` is `2 ^ n` for every count below the width. -/
theorem shiftLeftUlong_one {abi : Abi} {n v : Nat} :
    shiftLeftUlong abi 1 n = some v ↔ n < abi.bitsPerLong ∧ v = 2 ^ n := by
  unfold shiftLeftUlong
  split
  · rename_i h
    have hlt : 2 ^ n < abi.wordSize := Nat.pow_lt_pow_right Nat.one_lt_two h
    simp [Nat.one_shiftLeft, Nat.mod_eq_of_lt hlt, h, eq_comm]
  · simp [*]

/-- `x << n` on a 32-bit `int` holding `x ≥ 0`; `none` unless the count is below 32 and the
result is representable, the other cases being undefined in C. -/
def shiftLeftInt (x n : Nat) : Option Nat :=
  if n < 32 ∧ x <<< n < 2 ^ 31 then some (x <<< n) else none

/-- Modelled from the spec: `rseq_get_count_order_ulong` of `rseq-alloc-utils.h`, absent from
the sources, is the order of the next power of two, `⌈log₂ x⌉`, and `-1` for `x = 0` (the
value the callers' `order < 0` tests catch). -/
def rseqGetCountOrderUlong (x : Nat) : Int :=
  if x = 0 then -1 else Nat.clog 2 x

/-- The order of `x` is `k` exactly when `x` lies in `(2 ^ (k - 1), 2 ^ k]`. -/
theorem rseqGetCountOrderUlong_eq {x k : Nat} (hx : 0 < x) (hle : x ≤ 2 ^ k)
    (hlt : ∀ j < k, 2 ^ j < x) : rseqGetCountOrderUlong x = k := by
  rw [rseqGetCountOrderUlong, if_neg (Nat.pos_iff_ne_zero.1 hx)]
  have hup : Nat.clog 2 x ≤ k := (Nat.le_pow_iff_clog_le Nat.one_lt_two).1 hle
  have hdown : ¬ Nat.clog 2 x < k := fun h =>
    Nat.lt_irrefl _ (Nat.lt_of_lt_of_le (hlt _ h) (Nat.le_pow_clog Nat.one_lt_two x))
  exact congrArg _ (Nat.le_antisymm hup (Nat.not_lt.1 hdown))

/-- Modelled from the spec: `rseq_align` of `rseq-alloc-utils.h`, absent from the sources,
rounds `v` up to a multiple of `align`. -/
def rseqAlign (v align : Nat) : Nat := (v + align - 1) / align * align

/-- The handle `((uintptr_t) pool->index << POOL_INDEX_SHIFT) | item_offset` both allocation
paths of `__rseq_percpu_malloc` build. -/
def encodeAddr (abi : Abi) (index itemOffset : Nat) : Nat :=
  ((index <<< abi.poolIndexShift) % abi.wordSize) ||| itemOffset

/-- `ptr & MAX_POOL_LEN_MASK`: the item offset of a handle. -/
def handleItemOffset (abi : Abi) (ptr : Nat) : Nat := ptr &&& abi.maxPoolLenMask

/-- `ptr >> POOL_INDEX_SHIFT`: the pool index of a handle. -/
def handlePoolIndex (abi : Abi) (ptr : Nat) : Nat := ptr >>> abi.poolIndexShift

section Codec

variable {abi : Abi} {index itemOffset : Nat}

/-- For an index below `MAX_NR_POOLS` the shift does not wrap, and the `|` of an offset below
`MAX_POOL_LEN` is an addition. -/
theorem encodeAddr_eq (hindex : index < abi.maxNrPools) (hoffset : itemOffset < abi.maxPoolLen) :
    encodeAddr abi index itemOffset = abi.maxPoolLen * index + itemOffset := by
  have hlt : index * abi.maxPoolLen < abi.wordSize := by
    rw [Abi.wordSize_eq, Nat.mul_comm abi.maxPoolLen]
    exact Nat.mul_lt_mul_of_pos_right hindex (Nat.two_pow_pos _)
  rw [encodeAddr, Nat.shiftLeft_eq, ← Abi.maxPoolLen, Nat.mod_eq_of_lt hlt, Nat.mul_comm,
    Abi.maxPoolLen, Nat.mul_add_lt_is_or hoffset]

theorem handlePoolIndex_encodeAddr (hindex : index < abi.maxNrPools)
    (hoffset : itemOffset < abi.maxPoolLen) :
    handlePoolIndex abi (encodeAddr abi index itemOffset) = index := by
  rw [handlePoolIndex, encodeAddr_eq hindex hoffset, Nat.shiftRight_eq_div_pow, ← Abi.maxPoolLen,
    Nat.mul_add_div abi.maxPoolLen_pos, Nat.div_eq_of_lt hoffset, Nat.add_zero]

theorem handleItemOffset_encodeAddr (hindex : index < abi.maxNrPools)
    (hoffset : itemOffset < abi.maxPoolLen) :
    handleItemOffset abi (encodeAddr abi index itemOffset) = itemOffset := by
  rw [handleItemOffset, encodeAddr_eq hindex hoffset, Abi.and_maxPoolLenMask, Nat.mul_add_mod,
    Nat.mod_eq_of_lt hoffset]

/-- Every handle carries an offset below `MAX_POOL_LEN`. -/
theorem handleItemOffset_lt (abi : Abi) (ptr : Nat) :
    handleItemOffset abi ptr < abi.maxPoolLen := by
  rw [handleItemOffset, Abi.and_maxPoolLenMask]
  exact Nat.mod_lt _ abi.maxPoolLen_pos

/-- Index 0 is never used, so a handle is never the null pointer. -/
theorem encodeAddr_ne_zero (hpos : 0 < index) (hindex : index < abi.maxNrPools)
    (hoffset : itemOffset < abi.maxPoolLen) : encodeAddr abi index itemOffset ≠ 0 := by
  rw [encodeAddr_eq hindex hoffset]
  have := Nat.mul_le_mul_left abi.maxPoolLen hpos
  have := Nat.two_pow_pos abi.poolIndexShift
  rw [Abi.maxPoolLen] at *
  omega

end Codec

end Librseq
