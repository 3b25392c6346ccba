import Librseq.Percpu.Reuse

/-!
# The robust-mode bitmap

A pool created with `RSEQ_POOL_ROBUST` keeps one bit per item: `mask_free_slot` sets it when
the bump path of `__rseq_percpu_malloc` hands the item out, and `unmask_free_slot` asserts it
is set and clears it when `rseq_percpu_free` takes the item back. The free-list path of
`__rseq_percpu_malloc` sets no bit, so an item that comes back through the free list is held
with its bit clear, and freeing it fails the assertion (`free_malloc_free`). `unmask_free_slot`
also builds its mask as the `int` shift `1 << (item_index % BIT_PER_ULONG)`, which C leaves
undefined from bit 31 on (`unmaskFreeSlot_high_bit`).

Allocation itself is safe: every history keeps the bit of every item from `next_unused` on
clear (`Pool.BitmapFresh`), so `mask_free_slot` passes its assertion, and with a mapping length
that does not wrap the head's link always loads, so `rseq_percpu_malloc` and
`rseq_percpu_zmalloc` return a handle or `ENOMEM` along every history (`malloc_of_create`).

What the bitmap does detect: every set bit belongs to an item that a held handle names
(`Pool.BitmapHeld`), so a free of a pointer whose item no held handle names, a second free or a
pointer the pool never handed out, never succeeds (`free_unheld_of_create`).
-/

namespace Librseq

/-- The `int` mask `1 << n` is defined exactly below bit 31, where it is `2 ^ n`. -/
theorem shiftLeftInt_one {n : Nat} :
    shiftLeftInt 1 n = if n < 31 then some (2 ^ n) else none := by
  unfold shiftLeftInt
  rw [Nat.one_shiftLeft]
  by_cases hn : n < 31
  · have hlt : 2 ^ n < 2 ^ 31 := Nat.pow_lt_pow_right Nat.one_lt_two hn
    rw [if_pos ⟨by omega, hlt⟩, if_pos hn]
  · have hle : 2 ^ 31 ≤ 2 ^ n := Nat.pow_le_pow_right Nat.two_pos (by omega)
    rw [if_neg (by omega), if_neg hn]

/-- Bit `n` of the complement `ULONG_MAX - 2 ^ n` is clear. -/
theorem testBit_complement (abi : Abi) {n : Nat} (hn : n < 31) :
    (abi.wordSize - 1 - 2 ^ n).testBit n = false := by
  revert n
  cases abi <;> decide

/-- Clearing a bit with `word & ~mask` leaves it clear. -/
theorem and_complement_and (abi : Abi) (word : Nat) {n : Nat} (hn : n < 31) :
    word &&& (abi.wordSize - 1 - 2 ^ n) &&& 2 ^ n = 0 := by
  apply Nat.eq_of_testBit_eq
  intro i
  simp only [Nat.testBit_land, Nat.testBit_two_pow, Nat.zero_testBit]
  by_cases hi : n = i
  · subst hi
    simp [testBit_complement abi hn]
  · simp [hi]

/-- From bit 31 on, the mask of `unmask_free_slot` is undefined. -/
theorem unmaskFreeSlot_high_bit {abi : Abi} {words : List Nat} {itemIndex : Nat}
    (hbit : 31 ≤ itemIndex % abi.bitsPerLong) :
    unmaskFreeSlot abi (some words) itemIndex = .error .undefined := by
  simp [unmaskFreeSlot, shiftLeftInt_one, Nat.not_lt.2 hbit]
  rfl

/-- Once `unmask_free_slot` has cleared an item's bit, a second one for the item fails its
assertion. -/
theorem unmaskFreeSlot_twice {abi : Abi} {bitmap bitmap' : Option (List Nat)} {itemIndex : Nat}
    (hrobust : bitmap ≠ none) (h : unmaskFreeSlot abi bitmap itemIndex = .ok bitmap') :
    unmaskFreeSlot abi bitmap' itemIndex = .error .assertion := by
  obtain ⟨words, rfl⟩ := Option.ne_none_iff_exists'.1 hrobust
  unfold unmaskFreeSlot at h
  simp only [shiftLeftInt_one] at h
  split at h
  · rename_i mask word hmask hword
    split at h
    · cases h
      have hn : itemIndex % abi.bitsPerLong < 31 := by
        by_contra hn
        simp [hn] at hmask
      simp only [hn, if_true, Option.some.injEq] at hmask
      subst hmask
      have hlen : itemIndex / abi.bitsPerLong < words.length :=
        (List.get?_eq_some.1 hword).1
      rw [unmaskFreeSlot, shiftLeftInt_one, if_pos hn, List.get?_eq_getElem?,
        List.getElem?_set_self hlen]
      dsimp only
      rw [and_complement_and abi word hn, if_neg (Nat.two_pow_pos _).ne']
      rfl
    · cases h
  · cases h

/-- A free whose bitmap check fails returns that failure. -/
theorem freeLocked_of_unmask {abi : Abi} {s : PoolState} {itemOffset : Nat} {fault : Fault}
    (h : unmaskFreeSlot abi s.pool.freeBitmap (itemOffset >>> s.pool.itemOrder) = .error fault) :
    freeLocked abi s itemOffset = .error fault := by
  simp [freeLocked, h, bind, Except.bind]

/-- In a robust pool, a free followed by an allocation hands the freed item straight back from
the free list, without setting its bit; the handle is live again, and freeing it fails the
assertion of `unmask_free_slot`. For `zmalloc` the item's copies on all CPUs lie in the
mapping, so that the zeroing is defined. -/
theorem free_malloc_free {abi : Abi} {s s₁ : PoolState} {itemOffset : Nat}
    (hbase : 0 < s.pool.base) (hrobust : s.pool.freeBitmap ≠ none)
    (hfree : freeLocked abi s itemOffset = .ok s₁) (zeroed : Bool)
    (hzero : zeroed = true → ∀ cpu < s.pool.maxNrCpus,
      s.pool.InMapping abi (rseqPoolPercpuPtr abi s.pool cpu itemOffset) s.pool.itemLen) :
    ∃ s₂, rseqPercpuMallocImpl abi s₁ zeroed =
        .ok (s₂, .ok (encodeAddr abi s.pool.index itemOffset)) ∧
      freeLocked abi s₂ itemOffset = .error .assertion := by
  obtain ⟨s₂, hmalloc, hpool⟩ := rseqPercpuMallocImpl_after_free hbase hfree zeroed hzero
  refine ⟨s₂, hmalloc, freeLocked_of_unmask ?_⟩
  obtain ⟨bitmap, hunmask, -, rfl⟩ := freeLocked_eq_ok.1 hfree
  rw [hpool]
  exact unmaskFreeSlot_twice hrobust hunmask

/-- A robust pool of 16-byte items, created first. -/
theorem rseqPercpuPoolCreate_lp64_robust :
    rseqPercpuPoolCreate .lp64 4096 (Directory.init fun _ => .byte 0) 16 4096 4
        (fun _ => ⟨4096, fun _ => .byte 0, 0⟩) rseqPoolRobust true =
      .ok ((Directory.init fun _ => .byte 0).set 1
        ⟨⟨4096, 1, 16, 4096, 4, 4, 0, 0, some [0, 0, 0, 0]⟩, fun _ => .byte 0⟩, .ok 1) := by
  have horder : rseqGetCountOrderUlong 16 = 4 :=
    rseqGetCountOrderUlong_eq (by decide) (by decide) (by decide)
  have hptr : ¬ (16 < Abi.lp64.sizeofPtr) := by decide
  simp only [rseqPercpuPoolCreate, land_robust_lnot_rseqPoolFlags, land_robust_robust, hptr,
    horder, if_false, ne_eq, not_true_eq_false]
  simp [shiftLeftUlong, findEmptySlot, Directory.init, Pool.zero, rseqAlign, Abi.bitsPerLong,
    Abi.wordSize, Abi.poolIndexBits, Abi.maxNrPools, createFreeBitmap]
  rfl

/-- The failing input: in a fresh robust pool, `h = malloc(); free(h); malloc()` returns `h`
again, and `free(h)` then aborts. -/
theorem free_malloc_free_lp64 :
    ∃ dir' s live s₁ s₂, rseqPercpuPoolCreate .lp64 4096 (Directory.init fun _ => .byte 0) 16
        4096 4 (fun _ => ⟨4096, fun _ => .byte 0, 0⟩) rseqPoolRobust true = .ok (dir', .ok 1) ∧
      Relation.ReflTransGen (PoolStep .lp64) (dir'.slots 1, []) (s, live) ∧ 2 ^ 48 ∈ live ∧
      freeLocked .lp64 s 0 = .ok s₁ ∧
      rseqPercpuMallocImpl .lp64 s₁ false = .ok (s₂, .ok (2 ^ 48)) ∧
      freeLocked .lp64 s₂ 0 = .error .assertion := by
  have hrun : Relation.ReflTransGen (PoolStep .lp64)
      (((Directory.init fun _ => .byte 0).set 1
        ⟨⟨4096, 1, 16, 4096, 4, 4, 0, 0, some [0, 0, 0, 0]⟩, fun _ => .byte 0⟩).slots 1, [])
      (⟨⟨4096, 1, 16, 4096, 4, 4, 0, 16, some [1, 0, 0, 0]⟩, fun _ => .byte 0⟩, [2 ^ 48]) :=
    .single (.malloc false rfl)
  obtain ⟨s₁, hfree⟩ : ∃ s₁, freeLocked .lp64
      ⟨⟨4096, 1, 16, 4096, 4, 4, 0, 16, some [1, 0, 0, 0]⟩, fun _ => .byte 0⟩ 0 = .ok s₁ :=
    ⟨_, rfl⟩
  obtain ⟨s₂, hmalloc, hfail⟩ := free_malloc_free (by decide) (by decide) hfree false nofun
  exact ⟨_, _, _, _, s₂, rseqPercpuPoolCreate_lp64_robust, hrun, List.mem_singleton_self _,
    hfree, hmalloc, hfail⟩

/-! ### Allocation never faults -/

/-- Bit `j` of a bitmap: bit `j % BIT_PER_ULONG` of word `j / BIT_PER_ULONG`, the one
`mask_free_slot` and `unmask_free_slot` address for item `j`. -/
def Abi.bit (abi : Abi) (words : List Nat) (j : Nat) : Bool :=
  (words.getD (j / abi.bitsPerLong) 0).testBit (j % abi.bitsPerLong)

/-- An item below `count` has its word among the `⌈count / BIT_PER_ULONG⌉` words. -/
theorem Abi.div_bitsPerLong_lt (abi : Abi) {j count : Nat} (h : j < count) :
    j / abi.bitsPerLong < (count + abi.bitsPerLong - 1) / abi.bitsPerLong := by
  cases abi <;> simp only [Abi.bitsPerLong] <;> omega

theorem getD_set_of_lt {words : List Nat} {k j w : Nat} (hk : k < words.length) :
    (words.set k w).getD j 0 = if k = j then w else words.getD j 0 := by
  simp only [List.getD_eq_getElem?_getD, List.getElem?_set, hk, if_true]
  split <;> rfl

/-- Setting one word changes only the bits of that word. -/
theorem Abi.bit_set (abi : Abi) {words : List Nat} {k w : Nat} (hk : k < words.length)
    (j : Nat) : abi.bit (words.set k w) j =
      if j / abi.bitsPerLong = k then w.testBit (j % abi.bitsPerLong) else abi.bit words j := by
  unfold Abi.bit
  rw [getD_set_of_lt hk]
  by_cases h : j / abi.bitsPerLong = k
  · rw [if_pos h.symm, if_pos h]
  · rw [if_neg (Ne.symm h), if_neg h]

theorem get?_eq_getD {words : List Nat} {k : Nat} (hk : k < words.length) :
    words.get? k = some (words.getD k 0) := by
  simp [List.get?_eq_getElem?, List.getD_eq_getElem?_getD, hk]

/-- What `mask_free_slot` on a robust bitmap does when it passes its assertion: the item's word
is there with the item's bit clear, and the bit is set in it. -/
theorem maskFreeSlot_eq_ok {abi : Abi} {words : List Nat} {idx : Nat}
    {bitmap : Option (List Nat)} (h : maskFreeSlot abi (some words) idx = .ok bitmap) :
    ∃ word, words.get? (idx / abi.bitsPerLong) = some word ∧
      word &&& 2 ^ (idx % abi.bitsPerLong) = 0 ∧
      bitmap = some (words.set (idx / abi.bitsPerLong) (word ||| 2 ^ (idx % abi.bitsPerLong))) := by
  simp only [maskFreeSlot, Nat.one_shiftLeft] at h
  split at h
  · rename_i word hword
    split at h
    · cases h
      exact ⟨word, hword, ‹_›, rfl⟩
    · cases h
  · cases h

/-- What `unmask_free_slot` on a robust bitmap does when it passes its checks: the mask is below
bit 31, the item's word is there with the item's bit set, and `word & ~mask` replaces it. -/
theorem unmaskFreeSlot_eq_ok {abi : Abi} {words : List Nat} {idx : Nat}
    {bitmap : Option (List Nat)} (h : unmaskFreeSlot abi (some words) idx = .ok bitmap) :
    idx % abi.bitsPerLong < 31 ∧ ∃ word, words.get? (idx / abi.bitsPerLong) = some word ∧
      2 ^ (idx % abi.bitsPerLong) = word &&& 2 ^ (idx % abi.bitsPerLong) ∧
      bitmap = some (words.set (idx / abi.bitsPerLong)
        (word &&& (abi.wordSize - 1 - 2 ^ (idx % abi.bitsPerLong)))) := by
  have hn : idx % abi.bitsPerLong < 31 := Nat.lt_of_not_le fun hn => by
    rw [unmaskFreeSlot_high_bit hn] at h
    cases h
  cases hword : words.get? (idx / abi.bitsPerLong) with
  | none =>
    simp only [unmaskFreeSlot, shiftLeftInt_one, if_pos hn, hword] at h
    cases h
  | some word =>
    simp only [unmaskFreeSlot, shiftLeftInt_one, if_pos hn, hword] at h
    split at h
    · cases h
      exact ⟨hn, word, rfl, ‹_›, rfl⟩
    · cases h

/-- `mask_free_slot` on a clear bit passes its assertion and sets the bit, and only it. -/
theorem maskFreeSlot_of_bit {abi : Abi} {words : List Nat} {idx : Nat}
    (hk : idx / abi.bitsPerLong < words.length) (hbit : abi.bit words idx = false) :
    ∃ words', maskFreeSlot abi (some words) idx = .ok (some words') ∧
      words'.length = words.length ∧
      ∀ j, abi.bit words' j = (abi.bit words j || decide (j = idx)) := by
  refine ⟨words.set (idx / abi.bitsPerLong)
    (words.getD (idx / abi.bitsPerLong) 0 ||| 2 ^ (idx % abi.bitsPerLong)), ?_,
    List.length_set .., fun j => ?_⟩
  · unfold Abi.bit at hbit
    simp only [maskFreeSlot, get?_eq_getD hk, Nat.one_shiftLeft, Nat.and_two_pow, hbit,
      Bool.toNat_false, Nat.zero_mul, if_true]
    rfl
  · rw [abi.bit_set hk, Nat.testBit_or, Nat.testBit_two_pow]
    split
    · rename_i hq
      have hiff : idx % abi.bitsPerLong = j % abi.bitsPerLong ↔ j = idx :=
        ⟨fun hr => by
          rw [← Nat.div_add_mod j abi.bitsPerLong, ← Nat.div_add_mod idx abi.bitsPerLong,
            hq, hr],
          fun h => h ▸ rfl⟩
      unfold Abi.bit
      rw [hq, decide_eq_decide.2 hiff]
    · rename_i hq
      have : j ≠ idx := fun h => hq (h ▸ rfl)
      simp [this]

/-- `unmask_free_slot` that passes its checks only clears bits. -/
theorem unmaskFreeSlot_bits {abi : Abi} {words : List Nat} {idx : Nat}
    {bitmap : Option (List Nat)} (h : unmaskFreeSlot abi (some words) idx = .ok bitmap) :
    ∃ words', bitmap = some words' ∧ words'.length = words.length ∧
      ∀ j, abi.bit words' j = true → abi.bit words j = true := by
  obtain ⟨-, word, hword, -, rfl⟩ := unmaskFreeSlot_eq_ok h
  have hk := (List.get?_eq_some.1 hword).1
  refine ⟨_, rfl, List.length_set .., fun j hj => ?_⟩
  rw [abi.bit_set hk] at hj
  split at hj
  · rename_i hq
    rw [get?_eq_getD hk, Option.some.injEq] at hword
    rw [Nat.testBit_land, Bool.and_eq_true] at hj
    rw [Abi.bit, hq, hword]
    exact hj.1
  · exact hj

/-- What every history keeps of a pool's bitmap: the `⌈count / BIT_PER_ULONG⌉` words
`create_free_bitmap` allocated for its `percpu_len >> item_order` items, with the bit of every
item from `next_unused` on clear. -/
def Pool.BitmapFresh (abi : Abi) (pool : Pool) : Prop :=
  ∀ words, pool.freeBitmap = some words →
    words.length = (pool.percpuLen >>> pool.itemOrder + abi.bitsPerLong - 1) / abi.bitsPerLong ∧
    ∀ j, pool.nextUnused >>> pool.itemOrder ≤ j → j < pool.percpuLen >>> pool.itemOrder →
      abi.bit words j = false

namespace Pool.Shape

variable {abi : Abi} {pool : Pool} (hs : pool.Shape abi)
include hs

/-- Bumping `next_unused` by one item moves on to the next item index. -/
theorem shiftRight_bump :
    (pool.nextUnused + pool.itemLen) >>> pool.itemOrder =
      pool.nextUnused >>> pool.itemOrder + 1 := by
  rw [Nat.shiftRight_eq_div_pow, Nat.shiftRight_eq_div_pow, ← hs.itemLen_eq,
    Nat.add_div_right _ hs.itemLen_pos]

/-- The item the bump path hands out is one the bitmap has a bit for. -/
theorem index_lt_count (hfit : (pool.nextUnused + pool.itemLen) % abi.wordSize ≤ pool.percpuLen) :
    pool.nextUnused >>> pool.itemOrder < pool.percpuLen >>> pool.itemOrder := by
  rw [Nat.mod_eq_of_lt hs.nextUnused_add_lt] at hfit
  calc pool.nextUnused >>> pool.itemOrder
      < pool.nextUnused >>> pool.itemOrder + 1 := Nat.lt_succ_self _
    _ = (pool.nextUnused + pool.itemLen) >>> pool.itemOrder := hs.shiftRight_bump.symm
    _ ≤ pool.percpuLen >>> pool.itemOrder := by
      rw [Nat.shiftRight_eq_div_pow, Nat.shiftRight_eq_div_pow]
      exact Nat.div_le_div_right hfit

end Pool.Shape

namespace Pool.BitmapFresh

variable {abi : Abi} {pool : Pool}

/-- On the bump path `mask_free_slot` passes its assertion. -/
theorem maskFreeSlot_ok (hfresh : pool.BitmapFresh abi) (hs : pool.Shape abi)
    (hfit : (pool.nextUnused + pool.itemLen) % abi.wordSize ≤ pool.percpuLen) :
    ∃ bitmap,
      maskFreeSlot abi pool.freeBitmap (pool.nextUnused >>> pool.itemOrder) = .ok bitmap := by
  cases hb : pool.freeBitmap with
  | none => exact ⟨none, rfl⟩
  | some words =>
    obtain ⟨hlen, hbits⟩ := hfresh words hb
    have hidx := hs.index_lt_count hfit
    obtain ⟨words', hmask, -⟩ := maskFreeSlot_of_bit (hlen ▸ abi.div_bitsPerLong_lt hidx)
      (hbits _ le_rfl hidx)
    exact ⟨_, hmask⟩

/-- The bump path keeps the bitmap fresh. -/
theorem bump (hfresh : pool.BitmapFresh abi) (hs : pool.Shape abi) {bitmap : Option (List Nat)}
    (hfit : (pool.nextUnused + pool.itemLen) % abi.wordSize ≤ pool.percpuLen)
    (hmask : maskFreeSlot abi pool.freeBitmap (pool.nextUnused >>> pool.itemOrder) = .ok bitmap) :
    ({ pool with
      nextUnused := (pool.nextUnused + pool.itemLen) % abi.wordSize,
      freeBitmap := bitmap } : Pool).BitmapFresh abi := by
  intro words' hb'
  dsimp only at hb' ⊢
  rw [Nat.mod_eq_of_lt hs.nextUnused_add_lt, hs.shiftRight_bump]
  cases hb : pool.freeBitmap with
  | none =>
    rw [hb] at hmask
    cases hmask
    cases hb'
  | some words =>
    obtain ⟨hlen, hbits⟩ := hfresh words hb
    have hidx := hs.index_lt_count hfit
    obtain ⟨words₂, hmask', hlen', hset⟩ := maskFreeSlot_of_bit
      (hlen ▸ abi.div_bitsPerLong_lt hidx) (hbits _ le_rfl hidx)
    rw [hb, hmask'] at hmask
    cases hmask
    obtain rfl := Option.some.inj hb'
    refine ⟨hlen'.trans hlen, fun j hj hjc => ?_⟩
    rw [hset, hbits j (by omega) hjc, decide_eq_false (by omega)]
    rfl

/-- A free that passes its bitmap check keeps the bitmap fresh. -/
theorem unmask (hfresh : pool.BitmapFresh abi) {bitmap : Option (List Nat)} {idx head : Nat}
    (hunmask : unmaskFreeSlot abi pool.freeBitmap idx = .ok bitmap) :
    ({ pool with freeBitmap := bitmap, freeListHead := head } : Pool).BitmapFresh abi := by
  intro words' hb'
  cases hb : pool.freeBitmap with
  | none =>
    rw [hb] at hunmask
    cases hunmask
    cases hb'
  | some words =>
    obtain ⟨hlen, hbits⟩ := hfresh words hb
    rw [hb] at hunmask
    obtain ⟨words₂, rfl, hlen', hsub⟩ := unmaskFreeSlot_bits hunmask
    obtain rfl := Option.some.inj hb'
    refine ⟨hlen'.trans hlen, fun j hj hjc => ?_⟩
    cases hw : abi.bit words₂ j
    · rfl
    · exact absurd (hsub j hw) (by rw [hbits j hj hjc]; decide)

/-- Every step of a pool keeps its bitmap fresh. -/
theorem step {live live' : List Nat} {s s' : PoolState} (hfresh : s.pool.BitmapFresh abi)
    (hs : s.pool.Shape abi) (hstep : PoolStep abi (s, live) (s', live')) :
    s'.pool.BitmapFresh abi := by
  cases hstep with
  | malloc zeroed hcall =>
    obtain ⟨s₁, slot, hlock, ⟨-, -, hres⟩ | ⟨itemOffset, rfl, -, hs'⟩⟩ :=
      rseqPercpuMallocImpl_eq_ok hcall
    · cases hres
    have hfresh₁ : s₁.pool.BitmapFresh abi := by
      rcases mallocLocked_cases hlock with ⟨_, -, -, -, rfl, -⟩ | ⟨-, -, rfl, -⟩ |
        ⟨bitmap, -, hfit, hmask, rfl, -⟩
      · exact hfresh
      · exact hfresh
      · exact hfresh.bump hs hfit hmask
    rcases hs' with rfl | ⟨-, rfl⟩ <;> exact hfresh₁
  | full zeroed hcall => exact (rseqPercpuMallocImpl_eq_error hcall).1 ▸ hfresh
  | free hlive hcall _ =>
    obtain ⟨bitmap, hunmask, -, rfl⟩ := freeLocked_eq_ok.1 hcall
    exact hfresh.unmask hunmask
  | write => exact hfresh

/-- Every history of a pool whose mapping length does not wrap keeps its bitmap fresh. -/
theorem run {σ σ' : PoolState × List Nat} (hw : σ.1.pool.NoWrap abi)
    (hinv : FreeListInv abi σ.1 σ.2) (hfresh : σ.1.pool.BitmapFresh abi)
    (hrun : Relation.ReflTransGen (PoolStep abi) σ σ') : σ'.1.pool.BitmapFresh abi := by
  induction hrun with
  | refl => exact hfresh
  | tail hab hstep ih => exact ih.step (FreeListInv.run hw hinv hab).shape hstep

end Pool.BitmapFresh

/-- The locked section of an allocation on a pool whose mapping length does not wrap, keeping the
free-list invariant and a fresh bitmap, never faults: the head's link lies in the mapping and
loads, and `mask_free_slot` passes its assertion. -/
theorem mallocLocked_ok {abi : Abi} {s : PoolState} {live : List Nat} (hw : s.pool.NoWrap abi)
    (hinv : FreeListInv abi s live) (hfresh : s.pool.BitmapFresh abi) :
    ∃ r, mallocLocked abi s = .ok r := by
  obtain ⟨free, hc, -⟩ := hinv.chain
  by_cases hhead : s.pool.freeListHead = 0
  · by_cases hfull : s.pool.percpuLen < (s.pool.nextUnused + s.pool.itemLen) % abi.wordSize
    · exact ⟨_, by
        simp only [mallocLocked, hhead, hfull, ne_eq, not_true_eq_false, if_false, if_true]
        rfl⟩
    · obtain ⟨bitmap, hmask⟩ := hfresh.maskFreeSlot_ok hinv.shape (Nat.le_of_not_lt hfull)
      exact ⟨_, by simp [mallocLocked, hhead, hfull, hmask]; rfl⟩
  · obtain ⟨next, hload⟩ := Option.isSome_iff_exists.1 (hc.loadPtr_isSome hhead)
    exact ⟨_, mallocLocked_pop hhead (hinv.head_inMapping hw hhead) hload⟩

/-- A pool that create returns into a directory keeping the invariant has a fresh bitmap: none,
or the zeroed words `create_free_bitmap` allocated. -/
theorem DirInv.bitmapFresh {abi : Abi} {dir dir' : Directory} {held : Nat → List Nat}
    {pageLen itemLen percpuLen : Nat} {maxNrCpus flags : Int} {mmapFunc : Nat → MmapResult}
    {callocSucceeds : Bool} {i : Nat} (hinv : DirInv abi dir held)
    (hcall : rseqPercpuPoolCreate abi pageLen dir itemLen percpuLen maxNrCpus mmapFunc flags
      callocSucceeds = .ok (dir', .ok i)) :
    (dir'.slots i).pool.BitmapFresh abi := by
  obtain ⟨-, -, -, -, -, -, -, -, -, hslot, -, -, -, -, -, hbitmap, -⟩ :=
    rseqPercpuPoolCreate_eq_ok hcall
  obtain ⟨hzero, -⟩ := (hinv i).empty (findEmptySlot_eq_some hslot).2.2
  intro words hwords
  rw [hbitmap, hzero] at hwords
  split at hwords
  · cases callocSucceeds
    · cases hwords
    · cases hwords
      refine ⟨List.length_replicate .., fun j _ _ => ?_⟩
      simp only [Abi.bit, List.getD_eq_getElem?_getD, List.getElem?_replicate]
      split <;> exact Nat.zero_testBit _
  · cases hwords

/-- An allocation on a pool whose mapping length does not wrap, keeping the free-list invariant
and a fresh bitmap, never faults: the item it hands out lies in the mapping on every CPU, so
`zmalloc` may clear it. -/
theorem rseqPercpuMallocImpl_ok {abi : Abi} {s : PoolState} {live : List Nat}
    (hw : s.pool.NoWrap abi) (hinv : FreeListInv abi s live) (hfresh : s.pool.BitmapFresh abi)
    (zeroed : Bool) : ∃ s' result, rseqPercpuMallocImpl abi s zeroed = .ok (s', result) := by
  obtain ⟨⟨s₁, slot⟩, hlock⟩ := mallocLocked_ok hw hinv hfresh
  cases slot with
  | none => exact ⟨_, _, by simp only [rseqPercpuMallocImpl, hlock, bind, Except.bind]; rfl⟩
  | some itemOffset =>
    obtain ⟨s', hmalloc, -⟩ :=
      rseqPercpuMallocImpl_of_some hlock fun _ => hinv.mallocLocked_inMapping hw hlock
    exact ⟨s', _, hmalloc⟩

/-- Along every history of a pool that create returns in a reachable directory, with a mapping
length `percpu_len * max_nr_cpus` that fits in a `size_t`, `rseq_percpu_malloc` and
`rseq_percpu_zmalloc` neither abort nor do what C leaves undefined: they return a handle, or
`NULL` with `ENOMEM` and the pool unchanged. -/
theorem malloc_of_create {abi : Abi} {memory : Memory} {dir dir' : Directory}
    {held : Nat → List Nat} {pageLen itemLen percpuLen : Nat} {maxNrCpus flags : Int}
    {mmapFunc : Nat → MmapResult} {callocSucceeds : Bool} {i : Nat} {s : PoolState}
    {live : List Nat}
    (hdir : Relation.ReflTransGen (DirStep abi) (Directory.init memory, fun _ => []) (dir, held))
    (hcall : rseqPercpuPoolCreate abi pageLen dir itemLen percpuLen maxNrCpus mmapFunc flags
      callocSucceeds = .ok (dir', .ok i))
    (hw : (dir'.slots i).pool.NoWrap abi)
    (hrun : Relation.ReflTransGen (PoolStep abi) (dir'.slots i, []) (s, live)) (zeroed : Bool) :
    (∃ s' h, rseqPercpuMallocImpl abi s zeroed = .ok (s', .ok h)) ∨
      rseqPercpuMallocImpl abi s zeroed = .ok (s, .error .ENOMEM) := by
  have hdirInv := (DirInv.init memory).run hdir
  obtain ⟨hshape, hhead, hnext, -⟩ := hdirInv.created hcall
  have hinv₀ := FreeListInv.init hshape hhead hnext (dir'.slots i).memory
  have hfresh := Pool.BitmapFresh.run hw hinv₀ (hdirInv.bitmapFresh hcall) hrun
  obtain ⟨s', result, hmalloc⟩ :=
    rseqPercpuMallocImpl_ok ((Pool.noWrap_congr (PoolStep.run_geometry hrun)).2 hw)
      (FreeListInv.run hw hinv₀ hrun) hfresh zeroed
  cases result with
  | ok h => exact .inl ⟨s', h, hmalloc⟩
  | error e =>
    obtain ⟨rfl, rfl, -⟩ := rseqPercpuMallocImpl_eq_error hmalloc
    exact .inr hmalloc

/-- In a fresh robust pool of 16-byte items, after an allocation, its free and a second
allocation that takes the item back from the free list, `rseq_percpu_zmalloc` still returns. -/
theorem malloc_of_create_lp64 :
    ∃ dir' s live, rseqPercpuPoolCreate .lp64 4096 (Directory.init fun _ => .byte 0) 16 4096 4
        (fun _ => ⟨4096, fun _ => .byte 0, 0⟩) rseqPoolRobust true = .ok (dir', .ok 1) ∧
      Relation.ReflTransGen (PoolStep .lp64) (dir'.slots 1, []) (s, live) ∧
      ((∃ s' h, rseqPercpuMallocImpl .lp64 s true = .ok (s', .ok h)) ∨
        rseqPercpuMallocImpl .lp64 s true = .ok (s, .error .ENOMEM)) := by
  have hcall := rseqPercpuPoolCreate_lp64_robust
  have hw : (4096 * 4 : Nat) < Abi.lp64.wordSize := by decide
  have hrun : Relation.ReflTransGen (PoolStep .lp64)
      (((Directory.init fun _ => .byte 0).set 1
        ⟨⟨4096, 1, 16, 4096, 4, 4, 0, 0, some [0, 0, 0, 0]⟩, fun _ => .byte 0⟩).slots 1, []) _ :=
    .tail (.tail (.single (.malloc false rfl)) (.free (List.mem_singleton_self _) rfl (by decide)))
      (.malloc false rfl)
  exact ⟨_, _, _, hcall, hrun, malloc_of_create .refl hcall hw hrun true⟩

/-! ### Frees of items no handle holds -/

/-- Bit `n` of a word is set exactly when its `&` with the mask `2 ^ n` is not zero. -/
theorem testBit_iff_and_ne_zero (word n : Nat) : word.testBit n = true ↔ word &&& 2 ^ n ≠ 0 := by
  rw [Nat.and_two_pow]
  cases word.testBit n <;> simp

/-- `mask_free_slot` passes its assertion on a robust bitmap only at a clear bit that has a word,
and then sets that bit and no other. -/
theorem maskFreeSlot_ok_some {abi : Abi} {words : List Nat} {idx : Nat}
    {bitmap : Option (List Nat)} (h : maskFreeSlot abi (some words) idx = .ok bitmap) :
    ∃ words', bitmap = some words' ∧
      ∀ j, abi.bit words' j = (abi.bit words j || decide (j = idx)) := by
  obtain ⟨word, hword, hzero, -⟩ := maskFreeSlot_eq_ok h
  have hk := (List.get?_eq_some.1 hword).1
  rw [get?_eq_getD hk, Option.some.injEq] at hword
  obtain ⟨words', hmask, -, hset⟩ := maskFreeSlot_of_bit hk (by
    rwa [Abi.bit, hword, Bool.eq_false_iff, Ne, testBit_iff_and_ne_zero, not_not])
  rw [hmask] at h
  cases h
  exact ⟨words', rfl, hset⟩

/-- `unmask_free_slot` that passes its checks on a robust bitmap leaves the item's bit clear. -/
theorem unmaskFreeSlot_clears {abi : Abi} {words words' : List Nat} {idx : Nat}
    (h : unmaskFreeSlot abi (some words) idx = .ok (some words')) :
    abi.bit words' idx = false := by
  obtain ⟨hn, word, hword, -, ⟨⟩⟩ := unmaskFreeSlot_eq_ok h
  rw [abi.bit_set (List.get?_eq_some.1 hword).1, if_pos rfl, Bool.eq_false_iff, Ne,
    testBit_iff_and_ne_zero, not_not]
  exact and_complement_and abi word hn

/-- On a robust bitmap whose bit for the item is clear, `unmask_free_slot` fails its assertion,
or, when the mask is past bit 30 or the word past the bitmap, does what C leaves undefined. -/
theorem unmaskFreeSlot_of_clear {abi : Abi} {words : List Nat} {idx : Nat}
    (hbit : abi.bit words idx = false) :
    unmaskFreeSlot abi (some words) idx = .error
      (if idx % abi.bitsPerLong < 31 ∧ idx / abi.bitsPerLong < words.length then .assertion
       else .undefined) := by
  by_cases hn : idx % abi.bitsPerLong < 31
  · by_cases hk : idx / abi.bitsPerLong < words.length
    · have hzero : words.getD (idx / abi.bitsPerLong) 0 &&& 2 ^ (idx % abi.bitsPerLong) = 0 := by
        rwa [Abi.bit, Bool.eq_false_iff, Ne, testBit_iff_and_ne_zero, not_not] at hbit
      simp only [unmaskFreeSlot, shiftLeftInt_one, if_pos hn, get?_eq_getD hk, hzero,
        if_pos (And.intro hn hk), if_neg (Nat.two_pow_pos _).ne']
      rfl
    · simp only [unmaskFreeSlot, shiftLeftInt_one, if_pos hn,
        List.get?_eq_none.2 (Nat.le_of_not_lt hk), if_neg fun h : _ ∧ _ => hk h.2]
      rfl
  · rw [unmaskFreeSlot_high_bit (Nat.le_of_not_lt hn), if_neg fun h : _ ∧ _ => hn h.1]

/-- What a step does to the pool record and the held handles: nothing, pop the free list and
hand out its head, bump past an item whose bit `mask_free_slot` set and hand it out, or take a
held item back once `unmask_free_slot` has passed. -/
theorem PoolStep.pool_cases {abi : Abi} {s s' : PoolState} {live live' : List Nat}
    (hstep : PoolStep abi (s, live) (s', live')) :
    (s'.pool = s.pool ∧ live' = live) ∨
    (∃ next h, s'.pool = { s.pool with freeListHead := next } ∧ live' = h :: live) ∨
    (∃ bitmap, (s.pool.nextUnused + s.pool.itemLen) % abi.wordSize ≤ s.pool.percpuLen ∧
      maskFreeSlot abi s.pool.freeBitmap (s.pool.nextUnused >>> s.pool.itemOrder) = .ok bitmap ∧
      s'.pool = { s.pool with
        nextUnused := (s.pool.nextUnused + s.pool.itemLen) % abi.wordSize,
        freeBitmap := bitmap } ∧
      live' = encodeAddr abi s.pool.index s.pool.nextUnused :: live) ∨
    (∃ h ∈ live, ∃ bitmap, unmaskFreeSlot abi s.pool.freeBitmap
        (handleItemOffset abi h >>> s.pool.itemOrder) = .ok bitmap ∧
      s'.pool = { s.pool with
        freeBitmap := bitmap,
        freeListHead := rseqPoolPercpuPtr abi s.pool 0 (handleItemOffset abi h) } ∧
      live' = live.erase h) := by
  cases hstep with
  | malloc zeroed hcall =>
    obtain ⟨s₁, slot, hlock, ⟨-, -, hres⟩ | ⟨itemOffset, rfl, hres, hs'⟩⟩ :=
      rseqPercpuMallocImpl_eq_ok hcall
    · cases hres
    cases hres
    have hpool : s'.pool = s₁.pool := by rcases hs' with rfl | ⟨-, rfl⟩ <;> rfl
    rcases mallocLocked_cases hlock with ⟨next, -, -, -, rfl, -⟩ | ⟨-, -, -, hslot⟩ |
      ⟨bitmap, -, hfit, hmask, rfl, hslot⟩
    · exact .inr (.inl ⟨next, _, hpool, rfl⟩)
    · cases hslot
    · cases hslot
      exact .inr (.inr (.inl ⟨bitmap, hfit, hmask, hpool, rfl⟩))
  | full zeroed hcall =>
    exact .inl ⟨congrArg PoolState.pool (rseqPercpuMallocImpl_eq_error hcall).1, rfl⟩
  | free hlive hcall _ =>
    obtain ⟨bitmap, hunmask, -, rfl⟩ := freeLocked_eq_ok.1 hcall
    exact .inr (.inr (.inr ⟨_, hlive, bitmap, hunmask, rfl, rfl⟩))
  | write => exact .inl ⟨rfl, rfl⟩

/-- Every step keeps a pool's shape; unlike the free-list invariant, this needs no bound on the
mapping length. -/
theorem PoolStep.shape {abi : Abi} {s s' : PoolState} {live live' : List Nat}
    (hs : s.pool.Shape abi) (hstep : PoolStep abi (s, live) (s', live')) :
    s'.pool.Shape abi := by
  rcases hstep.pool_cases with ⟨hp, -⟩ | ⟨_, _, hp, -⟩ | ⟨bitmap, hfit, -, hp, -⟩ |
    ⟨_, -, _, -, hp, -⟩ <;> rw [hp]
  · exact hs
  · exact hs.congr rfl rfl
  · exact hs.bump hfit bitmap
  · exact hs.congr rfl rfl

/-- No step drops a robust pool's bitmap. -/
theorem PoolStep.robust {abi : Abi} {s s' : PoolState} {live live' : List Nat}
    (hb : s.pool.freeBitmap ≠ none) (hstep : PoolStep abi (s, live) (s', live')) :
    s'.pool.freeBitmap ≠ none := by
  obtain ⟨words, hw⟩ := Option.ne_none_iff_exists'.1 hb
  rcases hstep.pool_cases with ⟨hp, -⟩ | ⟨_, _, hp, -⟩ | ⟨bitmap, -, hmask, hp, -⟩ |
    ⟨_, -, bitmap, hunmask, hp, -⟩ <;> rw [hp]
  · exact hb
  · exact hb
  · rw [hw] at hmask
    obtain ⟨_, rfl, -⟩ := maskFreeSlot_ok_some hmask
    exact Option.some_ne_none _
  · rw [hw] at hunmask
    obtain ⟨_, rfl, -⟩ := unmaskFreeSlot_bits hunmask
    exact Option.some_ne_none _

/-- What a robust pool's bitmap records along every history: each set bit is the bit of an item
that a held handle names. -/
def Pool.BitmapHeld (abi : Abi) (pool : Pool) (live : List Nat) : Prop :=
  ∀ words, pool.freeBitmap = some words → ∀ j, abi.bit words j = true →
    ∃ h ∈ live, handleItemOffset abi h >>> pool.itemOrder = j

namespace Pool.BitmapHeld

variable {abi : Abi} {pool : Pool} {live : List Nat}

/-- Handing out one more handle keeps every bit held. -/
theorem cons (hheld : pool.BitmapHeld abi live) (h : Nat) : pool.BitmapHeld abi (h :: live) :=
  fun words hb j hj =>
    let ⟨h', hh, he⟩ := hheld words hb j hj
    ⟨h', List.mem_cons_of_mem _ hh, he⟩

/-- The bump path sets only the bit of the item whose handle it hands out. -/
theorem bump (hheld : pool.BitmapHeld abi live) (hs : pool.Shape abi)
    {bitmap : Option (List Nat)}
    (hfit : (pool.nextUnused + pool.itemLen) % abi.wordSize ≤ pool.percpuLen)
    (hmask : maskFreeSlot abi pool.freeBitmap (pool.nextUnused >>> pool.itemOrder) = .ok bitmap) :
    ({ pool with
      nextUnused := (pool.nextUnused + pool.itemLen) % abi.wordSize,
      freeBitmap := bitmap } : Pool).BitmapHeld abi
      (encodeAddr abi pool.index pool.nextUnused :: live) := by
  intro words' hb' j hj
  cases hb : pool.freeBitmap with
  | none =>
    rw [hb] at hmask
    cases hmask
    cases hb'
  | some words =>
    rw [hb] at hmask
    obtain ⟨words₂, rfl, hset⟩ := maskFreeSlot_ok_some hmask
    obtain rfl := Option.some.inj hb'
    rw [hset, Bool.or_eq_true, decide_eq_true_iff] at hj
    rcases hj with hj | rfl
    · exact (hheld.cons _) words hb j hj
    · exact ⟨_, List.mem_cons_self _ _,
        by rw [hs.handleItemOffset_encodeAddr (hs.bump_slot hfit none).1]⟩

/-- A free that passes its bitmap check clears the bit of the handle it drops, so every bit left
set keeps a holder. -/
theorem unmask (hheld : pool.BitmapHeld abi live) {h head : Nat} {bitmap : Option (List Nat)}
    (hunmask : unmaskFreeSlot abi pool.freeBitmap (handleItemOffset abi h >>> pool.itemOrder) =
      .ok bitmap) :
    ({ pool with freeBitmap := bitmap, freeListHead := head } : Pool).BitmapHeld abi
      (live.erase h) := by
  intro words' hb' j hj
  cases hb : pool.freeBitmap with
  | none =>
    rw [hb] at hunmask
    cases hunmask
    cases hb'
  | some words =>
    rw [hb] at hunmask
    obtain ⟨words₂, rfl, -, hsub⟩ := unmaskFreeSlot_bits hunmask
    obtain rfl := Option.some.inj hb'
    obtain ⟨h', hh', rfl⟩ := hheld words hb j (hsub j hj)
    refine ⟨h', (List.mem_erase_of_ne fun he => ?_).2 hh', rfl⟩
    subst he
    rw [unmaskFreeSlot_clears hunmask] at hj
    cases hj

/-- Every step from a pool of the right shape keeps each set bit held. -/
theorem step {s s' : PoolState} {live' : List Nat} (hheld : s.pool.BitmapHeld abi live)
    (hs : s.pool.Shape abi) (hstep : PoolStep abi (s, live) (s', live')) :
    s'.pool.BitmapHeld abi live' := by
  rcases hstep.pool_cases with ⟨hp, rfl⟩ | ⟨_, _, hp, rfl⟩ | ⟨_, hfit, hmask, hp, rfl⟩ |
    ⟨_, -, _, hunmask, hp, rfl⟩ <;> rw [hp]
  · exact hheld
  · exact hheld.cons _
  · exact hheld.bump hs hfit hmask
  · exact hheld.unmask hunmask

/-- Every history from a pool of the right shape keeps each set bit held. -/
theorem run {σ σ' : PoolState × List Nat} (hs : σ.1.pool.Shape abi)
    (hheld : σ.1.pool.BitmapHeld abi σ.2) (hrun : Relation.ReflTransGen (PoolStep abi) σ σ') :
    σ'.1.pool.BitmapHeld abi σ'.2 ∧ σ'.1.pool.Shape abi := by
  induction hrun with
  | refl => exact ⟨hheld, hs⟩
  | tail _ hstep ih => exact ⟨ih.1.step ih.2 hstep, PoolStep.shape ih.2 hstep⟩

end Pool.BitmapHeld

/-- A pool that create returns into a directory keeping the invariant has no bitmap, or the
zeroed words `create_free_bitmap` allocated for its items. -/
theorem DirInv.freeBitmap_created {abi : Abi} {dir dir' : Directory} {held : Nat → List Nat}
    {pageLen itemLen percpuLen : Nat} {maxNrCpus flags : Int} {mmapFunc : Nat → MmapResult}
    {callocSucceeds : Bool} {i : Nat} (hinv : DirInv abi dir held)
    (hcall : rseqPercpuPoolCreate abi pageLen dir itemLen percpuLen maxNrCpus mmapFunc flags
      callocSucceeds = .ok (dir', .ok i)) {words : List Nat}
    (hwords : (dir'.slots i).pool.freeBitmap = some words) :
    words = List.replicate (((dir'.slots i).pool.percpuLen >>> (dir'.slots i).pool.itemOrder +
      abi.bitsPerLong - 1) / abi.bitsPerLong) 0 := by
  obtain ⟨-, -, -, -, -, -, -, -, -, hslot, -, -, -, -, -, hbitmap, -⟩ :=
    rseqPercpuPoolCreate_eq_ok hcall
  obtain ⟨hzero, -⟩ := (hinv i).empty (findEmptySlot_eq_some hslot).2.2
  rw [hbitmap, hzero] at hwords
  split at hwords
  · cases callocSucceeds <;> cases hwords
    rfl
  · cases hwords

/-- A pool that create returns into a directory keeping the invariant has no bit set. -/
theorem DirInv.bitmapHeld {abi : Abi} {dir dir' : Directory} {held : Nat → List Nat}
    {pageLen itemLen percpuLen : Nat} {maxNrCpus flags : Int} {mmapFunc : Nat → MmapResult}
    {callocSucceeds : Bool} {i : Nat} (hinv : DirInv abi dir held)
    (hcall : rseqPercpuPoolCreate abi pageLen dir itemLen percpuLen maxNrCpus mmapFunc flags
      callocSucceeds = .ok (dir', .ok i)) :
    (dir'.slots i).pool.BitmapHeld abi [] := by
  intro words hwords j hj
  rw [hinv.freeBitmap_created hcall hwords] at hj
  simp only [Abi.bit, List.getD_eq_getElem?_getD, List.getElem?_replicate] at hj
  split at hj <;> simp at hj

/-- No history drops a robust pool's bitmap. -/
theorem PoolStep.run_robust {abi : Abi} {σ σ' : PoolState × List Nat}
    (hb : σ.1.pool.freeBitmap ≠ none) (hrun : Relation.ReflTransGen (PoolStep abi) σ σ') :
    σ'.1.pool.freeBitmap ≠ none := by
  induction hrun with
  | refl => exact hb
  | tail _ hstep ih => exact PoolStep.robust ih hstep

/-- In a robust pool that create returns in a reachable directory, along every history,
`rseq_percpu_free` of a pointer whose item no held handle names (a second free, or a pointer the
pool never handed out) never succeeds: `unmask_free_slot` fails its assertion or, past bit 30 of a
word or past the bitmap, does what C leaves undefined. -/
theorem free_unheld_of_create {abi : Abi} {memory : Memory} {dir dir' : Directory}
    {held : Nat → List Nat} {pageLen itemLen percpuLen : Nat} {maxNrCpus flags : Int}
    {mmapFunc : Nat → MmapResult} {callocSucceeds : Bool} {i : Nat} {s : PoolState}
    {live : List Nat}
    (hdir : Relation.ReflTransGen (DirStep abi) (Directory.init memory, fun _ => []) (dir, held))
    (hcall : rseqPercpuPoolCreate abi pageLen dir itemLen percpuLen maxNrCpus mmapFunc flags
      callocSucceeds = .ok (dir', .ok i))
    (hrobust : (dir'.slots i).pool.freeBitmap ≠ none)
    (hrun : Relation.ReflTransGen (PoolStep abi) (dir'.slots i, []) (s, live)) (ptr : Nat)
    (hunheld : ∀ h ∈ live, handleItemOffset abi h >>> s.pool.itemOrder ≠
      handleItemOffset abi ptr >>> s.pool.itemOrder) :
    freeLocked abi s (handleItemOffset abi ptr) = .error .assertion ∨
      freeLocked abi s (handleItemOffset abi ptr) = .error .undefined := by
  have hdirInv := (DirInv.init memory).run hdir
  obtain ⟨hheld, -⟩ :=
    Pool.BitmapHeld.run (hdirInv.created hcall).1 (hdirInv.bitmapHeld hcall) hrun
  obtain ⟨words, hwords⟩ := Option.ne_none_iff_exists'.1 (PoolStep.run_robust hrobust hrun)
  have hclear : abi.bit words (handleItemOffset abi ptr >>> s.pool.itemOrder) = false := by
    cases hb : abi.bit words _
    · rfl
    · obtain ⟨h, hh, he⟩ := hheld words hwords _ hb
      exact absurd he (hunheld h hh)
  rw [freeLocked_of_unmask (by rw [hwords]; exact unmaskFreeSlot_of_clear hclear)]
  split
  · exact .inl rfl
  · exact .inr rfl

/-- In a fresh robust pool of 16-byte items, after `h = malloc(); free(h)`, a second `free(h)`
aborts. -/
theorem free_unheld_of_create_lp64 :
    ∃ dir' s, rseqPercpuPoolCreate .lp64 4096 (Directory.init fun _ => .byte 0) 16 4096 4
        (fun _ => ⟨4096, fun _ => .byte 0, 0⟩) rseqPoolRobust true = .ok (dir', .ok 1) ∧
      (dir'.slots 1).pool.freeBitmap ≠ none ∧
      Relation.ReflTransGen (PoolStep .lp64) (dir'.slots 1, []) (s, []) ∧
      (freeLocked .lp64 s (handleItemOffset .lp64 (2 ^ 48)) = .error .assertion ∨
        freeLocked .lp64 s (handleItemOffset .lp64 (2 ^ 48)) = .error .undefined) := by
  have hcall := rseqPercpuPoolCreate_lp64_robust
  have hrun : Relation.ReflTransGen (PoolStep .lp64)
      (((Directory.init fun _ => .byte 0).set 1
        ⟨⟨4096, 1, 16, 4096, 4, 4, 0, 0, some [0, 0, 0, 0]⟩, fun _ => .byte 0⟩).slots 1, [])
      (_, []) :=
    .tail (.single (.malloc false rfl)) (.free (List.mem_singleton_self _) rfl (by decide))
  exact ⟨_, _, hcall, Option.some_ne_none _, hrun, free_unheld_of_create .refl hcall
    (Option.some_ne_none _) hrun _ fun _ h => absurd h (List.not_mem_nil _)⟩

end Librseq
