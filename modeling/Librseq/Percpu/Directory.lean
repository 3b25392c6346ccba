import Mathlib.Data.Int.Bitwise
import Librseq.Percpu.FreeList

/-!
# The pool directory: `rseq_percpu_pool_create` and `rseq_percpu_pool_destroy`

Pools live in the static array `rseq_percpu_pool[MAX_NR_POOLS]`; a pool is live while its
`base` is non-`NULL`, and the directory slot of a pool is the index its handles carry. Create
scans from `FIRST_POOL` for a slot with a `NULL` base, maps `percpu_len * max_nr_cpus` bytes
with the user's `mmap_func` and fills in the slot; destroy unmaps the same length and clears
the whole slot. A handle reaches its pool through the directory alone: `rseq_percpu_free` and
`__rseq_percpu_ptr` decode the pool index and the item offset from the handle word.

The callbacks are inputs: `mmap_func` is a function of the requested length, and the outcome
of `calloc` for the robust bitmap is a flag.
-/

namespace Librseq

/-- Modelled from the spec: `RSEQ_POOL_ROBUST` of `rseq/percpu-alloc.h`, absent from the
sources, is the one flag bit a pool accepts; it enables the free bitmap. -/
def rseqPoolRobust : Int := 1

/-- `RSEQ_POOL_FLAGS`: the flags `rseq_percpu_pool_create` accepts. -/
def rseqPoolFlags : Int := rseqPoolRobust

theorem lnot_rseqPoolFlags : Int.lnot rseqPoolFlags = Int.negSucc 1 := rfl

/-- No flags pass the flags check of create. -/
@[simp] theorem land_zero_lnot_rseqPoolFlags : Int.land 0 (Int.lnot rseqPoolFlags) = 0 := by
  rw [lnot_rseqPoolFlags]
  show ((Nat.ldiff 0 1 : Nat) : Int) = 0
  simp [Nat.ldiff, Nat.bitwise_zero_left]

/-- `RSEQ_POOL_ROBUST` passes the flags check of create. -/
@[simp] theorem land_robust_lnot_rseqPoolFlags :
    Int.land rseqPoolRobust (Int.lnot rseqPoolFlags) = 0 := by
  rw [lnot_rseqPoolFlags]
  show ((Nat.ldiff 1 1 : Nat) : Int) = 0
  simp [Nat.ldiff, Nat.bitwise]

@[simp] theorem land_robust_robust : Int.land rseqPoolRobust rseqPoolRobust = 1 := rfl

@[simp] theorem land_robust_zero : Int.land rseqPoolRobust 0 = 0 := rfl

/-- One call of a `mmap_func` callback: the pointer it returns (`0` for `NULL`), the contents
of the memory there, and the `errno` it leaves. -/
structure MmapResult where
  base : Nat
  contents : Memory
  errno : Nat

/-- The array `rseq_percpu_pool[]`, each slot with the memory of its mapping. A pool pointer
`&rseq_percpu_pool[i]` is the index `i`. -/
structure Directory where
  slots : Nat → PoolState

namespace Directory

/-- Replace slot `i`. -/
def set (dir : Directory) (i : Nat) (s : PoolState) : Directory :=
  ⟨fun j => if j = i then s else dir.slots j⟩

/-- The zero-initialised static array, before any create. -/
def init (memory : Memory) : Directory := ⟨fun _ => ⟨Pool.zero, memory⟩⟩

@[simp] theorem set_slots_self (dir : Directory) (i : Nat) (s : PoolState) :
    (dir.set i s).slots i = s := if_pos rfl

@[simp] theorem set_slots_of_ne (dir : Directory) {i j : Nat} (s : PoolState) (h : j ≠ i) :
    (dir.set i s).slots j = dir.slots j := if_neg h

@[simp] theorem set_self (dir : Directory) (i : Nat) : dir.set i (dir.slots i) = dir :=
  congrArg Directory.mk (funext fun j => by by_cases h : j = i <;> simp [set, h])

end Directory

/-- The linear scan of `rseq_percpu_pool_create` for a slot with a `NULL` base, over the
`count` slots from index `i`. -/
def findEmptySlot (dir : Directory) (i : Nat) : Nat → Option Nat
  | 0 => none
  | count + 1 => if (dir.slots i).pool.base = 0 then some i else findEmptySlot dir (i + 1) count

/-- `rseq_percpu_pool_create(item_len, percpu_len, max_nr_cpus, mmap_attr, flags)`: the index
of the new pool, or `NULL` with `errno`. `page_len` is what `rseq_get_page_len()` returns. -/
def rseqPercpuPoolCreate (abi : Abi) (pageLen : Nat) (dir : Directory) (itemLen percpuLen : Nat)
    (maxNrCpus : Int) (mmapFunc : Nat → MmapResult) (flags : Int) (callocSucceeds : Bool) :
    Except Fault (Directory × Except Errno Nat) :=
  if Int.land flags (Int.lnot rseqPoolFlags) ≠ 0 then pure (dir, throw .EINVAL) else
  let itemLen := if itemLen < abi.sizeofPtr then abi.sizeofPtr else itemLen
  let order := rseqGetCountOrderUlong itemLen
  if order < 0 then pure (dir, throw .EINVAL) else
  match shiftLeftUlong abi 1 order.toNat with
  | none => throw .undefined
  | some itemLen =>
    let percpuLen := rseqAlign percpuLen pageLen
    if maxNrCpus < 0 ∨ percpuLen < itemLen ∨ (abi.wordSize - 1) >>> abi.poolIndexBits < percpuLen
    then pure (dir, throw .EINVAL) else
    match findEmptySlot dir firstPool (abi.maxNrPools - firstPool) with
    | none => pure (dir, throw .ENOMEM)
    | some i =>
      let mapped := mmapFunc (percpuLen * maxNrCpus.toNat % abi.wordSize)
      if mapped.base = 0 then pure (dir, throw (.callback mapped.errno)) else
      let old := (dir.slots i).pool
      let pool : Pool := { old with
        base := mapped.base, percpuLen := percpuLen, maxNrCpus := maxNrCpus.toNat, index := i,
        itemLen := itemLen, itemOrder := order.toNat,
        freeBitmap := if Int.land rseqPoolRobust flags ≠ 0 then
          createFreeBitmap abi (percpuLen >>> order.toNat) callocSucceeds else old.freeBitmap }
      pure (dir.set i ⟨pool, mapped.contents⟩, pure i)

/-- `rseq_percpu_pool_destroy(pool)` for the pool of slot `i`: the value returned, which is
`0` on every path since the function ends in `return 0`, and the `errno` set, if any.
`munmap_func` gives the value it returns and the `errno` it leaves. -/
def rseqPercpuPoolDestroy (abi : Abi) (dir : Directory) (i : Nat)
    (munmapFunc : Nat → Nat → Int × Nat) : Except Fault (Directory × Int × Option Errno) :=
  let s := dir.slots i
  if s.pool.base = 0 then pure (dir, 0, some .ENOENT) else
  let unmapped := munmapFunc s.pool.base (s.pool.percpuLen * s.pool.maxNrCpus % abi.wordSize)
  if unmapped.1 ≠ 0 then pure (dir, 0, some (.callback unmapped.2)) else do
  destroyFreeBitmap abi s.pool.freeBitmap (s.pool.percpuLen >>> s.pool.itemOrder)
  pure (dir.set i { s with pool := Pool.zero }, 0, none)

/-- `rseq_percpu_free(ptr)`: the handle names the directory slot and the item offset. -/
def rseqPercpuFree (abi : Abi) (dir : Directory) (ptr : Nat) : Except Fault Directory := do
  let i := handlePoolIndex abi ptr
  let s ← freeLocked abi (dir.slots i) (handleItemOffset abi ptr)
  pure (dir.set i s)

/-- `__rseq_percpu_ptr(ptr, cpu)`. -/
def rseqPercpuPtr (abi : Abi) (dir : Directory) (ptr cpu : Nat) : Nat :=
  rseqPoolPercpuPtr abi (dir.slots (handlePoolIndex abi ptr)).pool cpu (handleItemOffset abi ptr)

/-- A free that returns ran the locked section on the slot and offset the handle names. -/
theorem rseqPercpuFree_eq_ok {abi : Abi} {dir dir' : Directory} {ptr : Nat} :
    rseqPercpuFree abi dir ptr = .ok dir' ↔
      ∃ s', freeLocked abi (dir.slots (handlePoolIndex abi ptr)) (handleItemOffset abi ptr) =
        .ok s' ∧ dir' = dir.set (handlePoolIndex abi ptr) s' := by
  unfold rseqPercpuFree
  cases hf : freeLocked abi (dir.slots (handlePoolIndex abi ptr)) (handleItemOffset abi ptr) with
  | error e => simp [hf, bind, Except.bind]
  | ok s' =>
    simp only [hf, bind, Except.bind, pure, Except.pure, Except.ok.injEq]
    exact ⟨fun h => ⟨s', rfl, h.symm⟩, fun ⟨_, hs, h⟩ => by cases hs; exact h.symm⟩

section Scan

variable {dir : Directory}

/-- The scan finds the first slot with a `NULL` base in its range. -/
theorem findEmptySlot_eq_some {i count j : Nat} (h : findEmptySlot dir i count = some j) :
    i ≤ j ∧ j < i + count ∧ (dir.slots j).pool.base = 0 := by
  induction count generalizing i with
  | zero => cases h
  | succ count ih =>
    unfold findEmptySlot at h
    split at h
    · cases h
      exact ⟨Nat.le_refl _, by omega, ‹_›⟩
    · obtain ⟨h₁, h₂, h₃⟩ := ih h
      exact ⟨by omega, by omega, h₃⟩

end Scan

section Create

variable {abi : Abi} {pageLen itemLen percpuLen : Nat} {maxNrCpus flags : Int}
  {mmapFunc : Nat → MmapResult} {callocSucceeds : Bool} {dir dir' : Directory}

/-- Everything a create that returns a pool has done: the checks it passed, the slot it took,
and the pool it wrote there. -/
theorem rseqPercpuPoolCreate_eq_ok {i : Nat}
    (h : rseqPercpuPoolCreate abi pageLen dir itemLen percpuLen maxNrCpus mmapFunc flags
      callocSucceeds = .ok (dir', .ok i)) :
    let pool := (dir'.slots i).pool
    let mapped := mmapFunc (pool.percpuLen * pool.maxNrCpus % abi.wordSize)
    Int.land flags (Int.lnot rseqPoolFlags) = 0 ∧
    rseqGetCountOrderUlong (if itemLen < abi.sizeofPtr then abi.sizeofPtr else itemLen) =
      pool.itemOrder ∧
    pool.itemOrder < abi.bitsPerLong ∧ pool.itemLen = 2 ^ pool.itemOrder ∧
    pool.percpuLen = rseqAlign percpuLen pageLen ∧ 0 ≤ maxNrCpus ∧
    pool.maxNrCpus = maxNrCpus.toNat ∧ pool.itemLen ≤ pool.percpuLen ∧
    pool.percpuLen ≤ (abi.wordSize - 1) >>> abi.poolIndexBits ∧
    findEmptySlot dir firstPool (abi.maxNrPools - firstPool) = some i ∧
    pool.base = mapped.base ∧ pool.base ≠ 0 ∧ pool.index = i ∧
    pool.freeListHead = (dir.slots i).pool.freeListHead ∧
    pool.nextUnused = (dir.slots i).pool.nextUnused ∧
    pool.freeBitmap = (if Int.land rseqPoolRobust flags ≠ 0 then
      createFreeBitmap abi (pool.percpuLen >>> pool.itemOrder) callocSucceeds
      else (dir.slots i).pool.freeBitmap) ∧
    dir' = dir.set i ⟨pool, mapped.contents⟩ := by
  unfold rseqPercpuPoolCreate at h
  by_cases hflags : Int.land flags (Int.lnot rseqPoolFlags) ≠ 0
  · rw [if_pos hflags] at h
    cases h
  rw [if_neg hflags] at h
  dsimp only at h
  generalize (if itemLen < abi.sizeofPtr then abi.sizeofPtr else itemLen) = len at h ⊢
  by_cases horder : rseqGetCountOrderUlong len < 0
  · rw [if_pos horder] at h
    cases h
  rw [if_neg horder] at h
  rcases hv : shiftLeftUlong abi 1 (rseqGetCountOrderUlong len).toNat with _ | v
  · rw [hv] at h
    cases h
  rw [hv] at h
  obtain ⟨hbits, rfl⟩ := shiftLeftUlong_one.1 hv
  dsimp only at h
  split at h
  · cases h
  rename_i hcheck
  split at h
  · cases h
  rename_i j hj
  split at h
  · cases h
  rename_i hbase
  cases h
  simp only [not_or, not_lt] at hcheck
  obtain ⟨hcpus, hle, hmax⟩ := hcheck
  simp only [Directory.set_slots_self]
  exact ⟨not_not.1 hflags, (Int.toNat_of_nonneg (not_lt.1 horder)).symm, hbits, trivial, trivial,
    hcpus, trivial, hle, hmax, hj, trivial, hbase, trivial, trivial, trivial, trivial, trivial⟩

/-- The pool a create returns has a power-of-two item, of the order of the requested length
raised to a pointer's, between `sizeof(void *)` and `percpu_len`, so its order is one of the
pool-set classes. -/
theorem rseqPercpuPoolCreate_sizeClass {i : Nat}
    (h : rseqPercpuPoolCreate abi pageLen dir itemLen percpuLen maxNrCpus mmapFunc flags
      callocSucceeds = .ok (dir', .ok i)) :
    let pool := (dir'.slots i).pool
    pool.itemLen = 2 ^ pool.itemOrder ∧
    rseqGetCountOrderUlong (max itemLen abi.sizeofPtr) = pool.itemOrder ∧
    itemLen ≤ pool.itemLen ∧ abi.sizeofPtr ≤ pool.itemLen ∧ pool.itemLen ≤ pool.percpuLen ∧
    abi.poolSetMinEntry ≤ pool.itemOrder ∧ pool.itemOrder < abi.poolSetNrEntries := by
  obtain ⟨-, horder, -, hlen, -, -, -, hle, hmax, -⟩ := rseqPercpuPoolCreate_eq_ok h
  dsimp only at horder hlen hle hmax ⊢
  generalize (dir'.slots i).pool = pool at horder hlen hle hmax ⊢
  have hmaxeq : (if itemLen < abi.sizeofPtr then abi.sizeofPtr else itemLen) =
      max itemLen abi.sizeofPtr := by
    split <;> omega
  rw [hmaxeq] at horder
  have hpos : max itemLen abi.sizeofPtr ≠ 0 := by have := abi.sizeofPtr_pos; omega
  rw [rseqGetCountOrderUlong, if_neg hpos, Nat.cast_inj] at horder
  have hcover : max itemLen abi.sizeofPtr ≤ pool.itemLen :=
    hlen ▸ horder ▸ Nat.le_pow_clog Nat.one_lt_two _
  have hptr : 2 ^ abi.poolSetMinEntry ≤ 2 ^ pool.itemOrder := by
    rw [← Abi.sizeofPtr_eq, ← hlen]
    omega
  have hshift : 2 ^ pool.itemOrder < 2 ^ abi.poolSetNrEntries := by
    have := abi.uintptrMax_shiftRight
    have := abi.maxPoolLen_pos
    rw [Abi.poolSetNrEntries, ← Abi.maxPoolLen, ← hlen]
    omega
  refine ⟨hlen, by rw [rseqGetCountOrderUlong, if_neg hpos, horder], by omega, by omega, hle,
    (Nat.pow_le_pow_iff_right Nat.one_lt_two).1 hptr,
    (Nat.pow_lt_pow_iff_right Nat.one_lt_two).1 hshift⟩

/-- A create that returns a pool into a slot whose cursor is zero, as every empty slot's is,
returns a pool of the shape every later call keeps. -/
theorem rseqPercpuPoolCreate_shape {i : Nat}
    (h : rseqPercpuPoolCreate abi pageLen dir itemLen percpuLen maxNrCpus mmapFunc flags
      callocSucceeds = .ok (dir', .ok i))
    (hnext : (dir.slots i).pool.nextUnused = 0) : (dir'.slots i).pool.Shape abi := by
  obtain ⟨-, -, -, hlen, -, -, -, hle, hmax, hslot, -, hbase, hindex, -, hnext', -⟩ :=
    rseqPercpuPoolCreate_eq_ok h
  obtain ⟨-, -, -, hptr, -⟩ := rseqPercpuPoolCreate_sizeClass h
  obtain ⟨hlo, hhi, -⟩ := findEmptySlot_eq_some hslot
  have := abi.uintptrMax_shiftRight
  have := abi.maxPoolLen_pos
  have := abi.maxNrPools_pos
  exact ⟨Nat.pos_of_ne_zero hbase, by rw [hindex]; exact hlo,
    by rw [hindex]; unfold firstPool at hhi; omega, hlen, hptr, hle, by omega, by omega,
    by rw [hnext', hnext]; exact Nat.dvd_zero _⟩

/-- A create that fails with an `errno` leaves every slot as it was. -/
theorem rseqPercpuPoolCreate_eq_error {e : Errno}
    (h : rseqPercpuPoolCreate abi pageLen dir itemLen percpuLen maxNrCpus mmapFunc flags
      callocSucceeds = .ok (dir', .error e)) : dir' = dir := by
  unfold rseqPercpuPoolCreate at h
  by_cases hflags : Int.land flags (Int.lnot rseqPoolFlags) ≠ 0
  · rw [if_pos hflags] at h
    cases h
    rfl
  rw [if_neg hflags] at h
  dsimp only at h
  generalize (if itemLen < abi.sizeofPtr then abi.sizeofPtr else itemLen) = len at h
  by_cases horder : rseqGetCountOrderUlong len < 0
  · rw [if_pos horder] at h
    cases h
    rfl
  rw [if_neg horder] at h
  rcases hv : shiftLeftUlong abi 1 (rseqGetCountOrderUlong len).toNat with _ | v
  · rw [hv] at h
    cases h
  rw [hv] at h
  dsimp only at h
  split at h
  · cases h
    rfl
  split at h
  · cases h
    rfl
  split at h
  · cases h
    rfl
  · cases h

/-- An item length above half the word rounds up to the order `BITS_PER_LONG`, and the shift
`1UL << order` that follows is as wide as the word: create never reaches its `EINVAL` check. -/
theorem rseqPercpuPoolCreate_itemLen_overflow
    (hflags : Int.land flags (Int.lnot rseqPoolFlags) = 0) (hlo : abi.wordSize / 2 < itemLen)
    (hhi : itemLen < abi.wordSize) :
    rseqPercpuPoolCreate abi pageLen dir itemLen percpuLen maxNrCpus mmapFunc flags
      callocSucceeds = .error .undefined := by
  have hhalf : abi.wordSize / 2 = 2 ^ (abi.bitsPerLong - 1) := by cases abi <;> decide
  have hptr : ¬ itemLen < abi.sizeofPtr := by
    have : abi.sizeofPtr ≤ abi.wordSize / 2 := by cases abi <;> decide
    omega
  have horder : rseqGetCountOrderUlong itemLen = abi.bitsPerLong :=
    rseqGetCountOrderUlong_eq (by omega) hhi.le fun j hj => by
      have := Nat.pow_le_pow_right Nat.two_pos (Nat.le_sub_one_of_lt hj)
      omega
  have hshift : shiftLeftUlong abi 1 abi.bitsPerLong = none := by simp [shiftLeftUlong]
  have hneg : ¬ (abi.bitsPerLong : Int) < 0 := by omega
  simp [rseqPercpuPoolCreate, hflags, hptr, horder, hshift, hneg]
  rfl

/-- The failing input: `item_len = 2^63 + 1` on LP64, with no flags. -/
theorem rseqPercpuPoolCreate_itemLen_overflow_lp64 :
    rseqPercpuPoolCreate .lp64 4096 (Directory.init fun _ => .byte 0) (2 ^ 63 + 1) 65536 4
      (fun _ => ⟨4096, fun _ => .byte 0, 0⟩) 0 true = .error .undefined :=
  rseqPercpuPoolCreate_itemLen_overflow land_zero_lnot_rseqPoolFlags (by decide) (by decide)

/-- A pool of 16-byte items in one 4 KiB page on each of 4 CPUs, created first. -/
theorem rseqPercpuPoolCreate_lp64 :
    rseqPercpuPoolCreate .lp64 4096 (Directory.init fun _ => .byte 0) 16 4096 4
        (fun _ => ⟨4096, fun _ => .byte 0, 0⟩) 0 false =
      .ok ((Directory.init fun _ => .byte 0).set 1
        ⟨⟨4096, 1, 16, 4096, 4, 4, 0, 0, none⟩, fun _ => .byte 0⟩, .ok 1) := by
  have horder : rseqGetCountOrderUlong 16 = 4 :=
    rseqGetCountOrderUlong_eq (by decide) (by decide) (by decide)
  have hptr : ¬ (16 < Abi.lp64.sizeofPtr) := by decide
  simp only [rseqPercpuPoolCreate, land_zero_lnot_rseqPoolFlags, hptr, horder, if_false, ne_eq,
    not_true_eq_false]
  simp [shiftLeftUlong, findEmptySlot, Directory.init, Pool.zero, rseqAlign, Abi.bitsPerLong,
    Abi.wordSize, Abi.poolIndexBits, Abi.maxNrPools]
  rfl

/-- Pools whose mapping length wraps: `2^46`-byte items in `percpu_len = 13 * 2^44` on `cpus`
CPUs. Create accepts them for any CPU count; from 80661 CPUs on, `percpu_len * 80660` is
`2^64 + 2^46`, so CPU 80660's copy of each item lies in CPU 0's copy of the next, and the
mapping is the wrapped product: `17 * 2^44` bytes on 80661 CPUs, `43 * 2^44` on 80663. -/
theorem rseqPercpuPoolCreate_wrapping (cpus : Nat) :
    rseqPercpuPoolCreate .lp64 4096 (Directory.init fun _ => .byte 0) (2 ^ 46) (13 * 2 ^ 44) cpus
        (fun _ => ⟨4096, fun _ => .byte 0, 0⟩) 0 false =
      .ok ((Directory.init fun _ => .byte 0).set 1
        ⟨⟨4096, 1, 2 ^ 46, 13 * 2 ^ 44, 46, cpus, 0, 0, none⟩, fun _ => .byte 0⟩, .ok 1) := by
  have horder : rseqGetCountOrderUlong (2 ^ 46) = 46 :=
    rseqGetCountOrderUlong_eq (by decide) le_rfl fun j hj => Nat.pow_lt_pow_right Nat.one_lt_two hj
  have hptr : ¬ (2 ^ 46 < Abi.lp64.sizeofPtr) := by decide
  simp only [rseqPercpuPoolCreate, land_zero_lnot_rseqPoolFlags, hptr, horder, if_false, ne_eq,
    not_true_eq_false]
  simp [shiftLeftUlong, findEmptySlot, Directory.init, Pool.zero, rseqAlign, Abi.bitsPerLong,
    Abi.wordSize, Abi.poolIndexBits, Abi.maxNrPools]
  rfl

end Create

section Destroy

variable {abi : Abi} {dir dir' : Directory} {i : Nat} {munmapFunc : Nat → Nat → Int × Nat}
  {ret : Int} {err : Option Errno}

/-- Everything a destroy that returns does: with the slot empty it sets `ENOENT`, with
`munmap_func` failing it keeps the `errno` the callback left, and otherwise it checks the bitmap
and clears the slot; each path returns `0`. -/
theorem rseqPercpuPoolDestroy_eq_ok
    (h : rseqPercpuPoolDestroy abi dir i munmapFunc = .ok (dir', ret, err)) :
    let s := dir.slots i
    let unmapped := munmapFunc s.pool.base (s.pool.percpuLen * s.pool.maxNrCpus % abi.wordSize)
    ret = 0 ∧
    (s.pool.base = 0 ∧ dir' = dir ∧ err = some .ENOENT ∨
      s.pool.base ≠ 0 ∧ unmapped.1 ≠ 0 ∧ dir' = dir ∧ err = some (.callback unmapped.2) ∨
      s.pool.base ≠ 0 ∧ unmapped.1 = 0 ∧
        destroyFreeBitmap abi s.pool.freeBitmap (s.pool.percpuLen >>> s.pool.itemOrder) = .ok () ∧
        dir' = dir.set i { s with pool := Pool.zero } ∧ err = none) := by
  unfold rseqPercpuPoolDestroy at h
  dsimp only at h ⊢
  split at h
  · cases h
    exact ⟨rfl, .inl ⟨‹_›, rfl, rfl⟩⟩
  split at h
  · cases h
    exact ⟨rfl, .inr (.inl ⟨‹_›, ‹_›, rfl, rfl⟩)⟩
  cases hb : destroyFreeBitmap abi (dir.slots i).pool.freeBitmap
      ((dir.slots i).pool.percpuLen >>> (dir.slots i).pool.itemOrder) with
  | error f => simp [hb, bind, Except.bind] at h
  | ok u =>
    simp only [hb, bind, Except.bind, pure, Except.pure, Except.ok.injEq, Prod.mk.injEq] at h
    obtain ⟨rfl, rfl, rfl⟩ := h
    exact ⟨rfl, .inr (.inr ⟨‹_›, not_not.1 ‹_›, rfl, rfl, rfl⟩)⟩

/-- A destroy that sets `errno` leaves every slot as it was. -/
theorem rseqPercpuPoolDestroy_eq_error {e : Errno}
    (h : rseqPercpuPoolDestroy abi dir i munmapFunc = .ok (dir', ret, some e)) : dir' = dir := by
  obtain ⟨-, ⟨-, rfl, -⟩ | ⟨-, -, rfl, -⟩ | ⟨-, -, -, -, he⟩⟩ :=
    rseqPercpuPoolDestroy_eq_ok h
  · rfl
  · rfl
  · cases he

end Destroy

end Librseq
