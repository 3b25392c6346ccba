import Librseq.Memory

/-!
# One per-CPU pool: `__rseq_percpu_malloc` and `rseq_percpu_free`

A pool is the record `struct rseq_percpu_pool` together with the contents of the mapping its
`base` points at. Allocation pops the intrusive free list, whose links live in CPU 0's copy of
each free item, or bumps `next_unused`; a freed item is pushed back. The robust mode keeps a
bitmap of handed-out items beside them (`mask_free_slot`, `unmask_free_slot`).

The memory of a pool is its mapping, the `percpu_len * max_nr_cpus` bytes (a `size_t`
product) from `base`: a link the allocator loads or stores, and a `memset` of the zeroing,
outside it is `Fault.undefined` (`Pool.InMapping`).

Each C function is one definition; the part under `pool->lock` is split from the zeroing that
`rseq_percpu_zmalloc` runs after dropping the lock, because the concurrent model interleaves
the two. `mallocLocked_cases` and `freeLocked_eq_ok` say everything one locked section can do;
later modules cite them and never unfold the definitions.
-/

namespace Librseq

/-- How a call ends the process instead of returning. -/
inductive Fault
  /-- An `assert` fails and the process aborts. -/
  | assertion
  /-- The call does something the C standard leaves undefined. -/
  | undefined
deriving DecidableEq, Repr

/-- The `errno` values the allocator sets; `callback` is one a user callback set. -/
inductive Errno
  | ENOMEM
  | EINVAL
  | EBUSY
  | ENOENT
  | callback (code : Nat)
deriving DecidableEq, Repr

/-- `struct rseq_percpu_pool` without its lock and its mapping callbacks, whose outcomes are
inputs of the calls that use them. Pointers are addresses and `0` is `NULL`; `free_bitmap` is
`none` for `NULL` and the words of the `calloc`ed array otherwise. -/
structure Pool where
  base : Nat
  index : Nat
  itemLen : Nat
  percpuLen : Nat
  itemOrder : Nat
  maxNrCpus : Nat
  freeListHead : Nat
  nextUnused : Nat
  freeBitmap : Option (List Nat)
deriving DecidableEq, Repr

/-- A slot of the zero-initialised `rseq_percpu_pool[]`, or one `memset` to zero by destroy. -/
def Pool.zero : Pool := ⟨0, 0, 0, 0, 0, 0, 0, 0, none⟩

/-- A pool and the memory of its mapping. -/
structure PoolState where
  pool : Pool
  memory : Memory

/-- `__rseq_pool_percpu_ptr(pool, cpu, item_offset)`: `percpu_len * cpu` is a `size_t`
product. -/
def rseqPoolPercpuPtr (abi : Abi) (pool : Pool) (cpu itemOffset : Nat) : Nat :=
  pool.base + pool.percpuLen * cpu % abi.wordSize + itemOffset

/-- The length of the pool's mapping: the `size_t` product `percpu_len * max_nr_cpus` that
create passes to `mmap_func` and destroy to `munmap_func`. -/
def Pool.mappingLen (abi : Abi) (pool : Pool) : Nat :=
  pool.percpuLen * pool.maxNrCpus % abi.wordSize

/-- The `len` bytes from `address` lie in the pool's mapping `[base, base + length)`. The
memory of a pool is that of its mapping: C leaves an access to any other byte undefined. -/
def Pool.InMapping (abi : Abi) (pool : Pool) (address len : Nat) : Prop :=
  pool.base ≤ address ∧ address + len ≤ pool.base + pool.mappingLen abi

instance (abi : Abi) (pool : Pool) (address len : Nat) :
    Decidable (pool.InMapping abi address len) :=
  inferInstanceAs (Decidable (_ ∧ _))

/-- The memory the loop of `rseq_percpu_zero_item` leaves after the CPUs below `cpus`, in
increasing order. -/
def zeroCpus (abi : Abi) (pool : Pool) (memory : Memory) (itemOffset : Nat) : Nat → Memory
  | 0 => memory
  | cpu + 1 =>
    (zeroCpus abi pool memory itemOffset cpu).memset (rseqPoolPercpuPtr abi pool cpu itemOffset) 0
      pool.itemLen

/-- `rseq_percpu_zero_item(pool, item_offset)`: one `memset` of the item per CPU. A `memset`
outside the mapping makes the call undefined whichever CPU it is for, so the call is undefined
exactly when some CPU's copy of the item leaves the mapping. -/
def rseqPercpuZeroItem (abi : Abi) (pool : Pool) (memory : Memory) (itemOffset : Nat) :
    Except Fault Memory :=
  if ∀ cpu < pool.maxNrCpus,
      pool.InMapping abi (rseqPoolPercpuPtr abi pool cpu itemOffset) pool.itemLen then
    pure (zeroCpus abi pool memory itemOffset pool.maxNrCpus)
  else throw .undefined

/-- `create_free_bitmap(count)`: `calloc` of `⌈count / BIT_PER_ULONG⌉` zero words, `none` when
`calloc` fails. -/
def createFreeBitmap (abi : Abi) (count : Nat) (callocSucceeds : Bool) : Option (List Nat) :=
  if callocSucceeds then
    some (List.replicate ((count + abi.bitsPerLong - 1) / abi.bitsPerLong) 0)
  else none

/-- `destroy_free_bitmap(bitmap, count)`: every word must be zero. -/
def destroyFreeBitmap (abi : Abi) (bitmap : Option (List Nat)) (count : Nat) :
    Except Fault Unit :=
  match bitmap with
  | none => pure ()
  | some words =>
    (List.range ((count + abi.bitsPerLong - 1) / abi.bitsPerLong)).forM fun k =>
      match words.get? k with
      | some word => if word = 0 then pure () else throw .assertion
      | none => throw .undefined

/-- `mask_free_slot(bitmap, item_index)`: the mask is `1ULL << (item_index % BIT_PER_ULONG)`. -/
def maskFreeSlot (abi : Abi) (bitmap : Option (List Nat)) (itemIndex : Nat) :
    Except Fault (Option (List Nat)) :=
  match bitmap with
  | none => pure none
  | some words =>
    let k := itemIndex / abi.bitsPerLong
    let mask := 1 <<< (itemIndex % abi.bitsPerLong)
    match words.get? k with
    | some word => if word &&& mask = 0 then pure (some (words.set k (word ||| mask)))
      else throw .assertion
    | none => throw .undefined

/-- `unmask_free_slot(bitmap, item_index)`: the mask is the `int` shift
`1 << (item_index % BIT_PER_ULONG)`, and `~mask` is the complement in an `unsigned long`. -/
def unmaskFreeSlot (abi : Abi) (bitmap : Option (List Nat)) (itemIndex : Nat) :
    Except Fault (Option (List Nat)) :=
  match bitmap with
  | none => pure none
  | some words =>
    let k := itemIndex / abi.bitsPerLong
    match shiftLeftInt 1 (itemIndex % abi.bitsPerLong), words.get? k with
    | some mask, some word =>
      if mask = word &&& mask then pure (some (words.set k (word &&& (abi.wordSize - 1 - mask))))
      else throw .assertion
    | _, _ => throw .undefined

/-- The section of `__rseq_percpu_malloc` under `pool->lock`: the item offset handed out,
`none` on the `ENOMEM` path, and the new state. The popped node's `next` is a pointer load
from the mapping; `item_offset >> item_order` is a plain shift since every pool has
`item_order` below the word width (`Pool.Shape`). -/
def mallocLocked (abi : Abi) (s : PoolState) : Except Fault (PoolState × Option Nat) :=
  if s.pool.freeListHead ≠ 0 then
    if s.pool.InMapping abi s.pool.freeListHead abi.sizeofPtr then
      match Memory.loadPtr abi s.memory s.pool.freeListHead with
      | some next =>
        pure ({ s with pool := { s.pool with freeListHead := next } },
          some (s.pool.freeListHead - s.pool.base))
      | none => throw .undefined
    else throw .undefined
  else if s.pool.percpuLen < (s.pool.nextUnused + s.pool.itemLen) % abi.wordSize then
    pure (s, none)
  else do
    let bitmap ← maskFreeSlot abi s.pool.freeBitmap (s.pool.nextUnused >>> s.pool.itemOrder)
    pure ({ s with pool := { s.pool with
        nextUnused := (s.pool.nextUnused + s.pool.itemLen) % abi.wordSize,
        freeBitmap := bitmap } },
      some s.pool.nextUnused)

/-- `__rseq_percpu_malloc(pool, zeroed)`: the handle, or `NULL` with `errno` `ENOMEM`. The
zeroing runs after the lock is dropped, for a non-`NULL` handle only. -/
def rseqPercpuMallocImpl (abi : Abi) (s : PoolState) (zeroed : Bool) :
    Except Fault (PoolState × Except Errno Nat) := do
  let (s', slot) ← mallocLocked abi s
  match slot with
  | none => pure (s', throw .ENOMEM)
  | some itemOffset =>
    let addr := encodeAddr abi s.pool.index itemOffset
    if zeroed ∧ addr ≠ 0 then
      let memory ← rseqPercpuZeroItem abi s'.pool s'.memory itemOffset
      pure ({ s' with memory := memory }, pure addr)
    else pure (s', pure addr)

/-- `rseq_percpu_malloc(pool)`. -/
def rseqPercpuMalloc (abi : Abi) (s : PoolState) : Except Fault (PoolState × Except Errno Nat) :=
  rseqPercpuMallocImpl abi s false

/-- `rseq_percpu_zmalloc(pool)`. -/
def rseqPercpuZmalloc (abi : Abi) (s : PoolState) : Except Fault (PoolState × Except Errno Nat) :=
  rseqPercpuMallocImpl abi s true

/-- The section of `rseq_percpu_free` under `pool->lock`, once the handle has named the pool
and the item offset: check the bitmap, then push the item's CPU-0 address, storing the old head
there in the mapping. -/
def freeLocked (abi : Abi) (s : PoolState) (itemOffset : Nat) : Except Fault PoolState := do
  let bitmap ← unmaskFreeSlot abi s.pool.freeBitmap (itemOffset >>> s.pool.itemOrder)
  let item := rseqPoolPercpuPtr abi s.pool 0 itemOffset
  if s.pool.InMapping abi item abi.sizeofPtr then
    pure { pool := { s.pool with freeBitmap := bitmap, freeListHead := item },
           memory := s.memory.storePtr abi item s.pool.freeListHead }
  else throw .undefined

section Spec

variable {abi : Abi} {s s' : PoolState} {slot : Option Nat}

/-- Everything the locked section of an allocation can do: pop the head of the free list, find
the pool full, or bump `next_unused` past a fresh item. -/
theorem mallocLocked_cases (h : mallocLocked abi s = .ok (s', slot)) :
    (∃ next, s.pool.freeListHead ≠ 0 ∧ s.pool.InMapping abi s.pool.freeListHead abi.sizeofPtr ∧
      Memory.loadPtr abi s.memory s.pool.freeListHead = some next ∧
      s' = { s with pool := { s.pool with freeListHead := next } } ∧
      slot = some (s.pool.freeListHead - s.pool.base)) ∨
    (s.pool.freeListHead = 0 ∧
      s.pool.percpuLen < (s.pool.nextUnused + s.pool.itemLen) % abi.wordSize ∧
      s' = s ∧ slot = none) ∨
    (∃ bitmap, s.pool.freeListHead = 0 ∧
      (s.pool.nextUnused + s.pool.itemLen) % abi.wordSize ≤ s.pool.percpuLen ∧
      maskFreeSlot abi s.pool.freeBitmap (s.pool.nextUnused >>> s.pool.itemOrder) = .ok bitmap ∧
      s' = { s with pool := { s.pool with
        nextUnused := (s.pool.nextUnused + s.pool.itemLen) % abi.wordSize,
        freeBitmap := bitmap } } ∧
      slot = some s.pool.nextUnused) := by
  unfold mallocLocked at h
  split at h
  · split at h
    · split at h
      · cases h
        exact .inl ⟨_, ‹_›, ‹_›, ‹_›, rfl, rfl⟩
      · cases h
    · cases h
  · split at h
    · cases h
      exact .inr (.inl ⟨by omega, ‹_›, rfl, rfl⟩)
    · cases hm : maskFreeSlot abi s.pool.freeBitmap (s.pool.nextUnused >>> s.pool.itemOrder) with
      | error e => simp [hm] at h
      | ok bitmap =>
        simp only [hm] at h
        cases h
        exact .inr (.inr ⟨bitmap, by omega, by omega, rfl, rfl, rfl⟩)

/-- With a non-`NULL` head in the mapping whose link loads, the locked section pops the head. -/
theorem mallocLocked_pop {next : Nat} (hhead : s.pool.freeListHead ≠ 0)
    (hmapped : s.pool.InMapping abi s.pool.freeListHead abi.sizeofPtr)
    (hload : Memory.loadPtr abi s.memory s.pool.freeListHead = some next) :
    mallocLocked abi s = .ok ({ s with pool := { s.pool with freeListHead := next } },
      some (s.pool.freeListHead - s.pool.base)) := by
  simp only [mallocLocked, ne_eq, hhead, not_false_eq_true, if_true, hmapped, hload]
  rfl

/-- With the free list empty and no room past the cursor, an allocation fails with `ENOMEM`
and changes nothing. -/
theorem rseqPercpuMallocImpl_full {zeroed : Bool} (hhead : s.pool.freeListHead = 0)
    (hfull : s.pool.percpuLen < (s.pool.nextUnused + s.pool.itemLen) % abi.wordSize) :
    rseqPercpuMallocImpl abi s zeroed = .ok (s, .error .ENOMEM) := by
  simp [rseqPercpuMallocImpl, mallocLocked, hhead, hfull, bind, Except.bind]
  rfl

/-- Zeroing an item returns exactly when every CPU's copy of it lies in the mapping, and then
leaves the memory of the loop. -/
theorem rseqPercpuZeroItem_eq_ok {pool : Pool} {memory memory' : Memory} {itemOffset : Nat} :
    rseqPercpuZeroItem abi pool memory itemOffset = .ok memory' ↔
      (∀ cpu < pool.maxNrCpus,
        pool.InMapping abi (rseqPoolPercpuPtr abi pool cpu itemOffset) pool.itemLen) ∧
      memory' = zeroCpus abi pool memory itemOffset pool.maxNrCpus := by
  unfold rseqPercpuZeroItem
  split <;> rename_i hmapped
  · simp only [pure, Except.pure, Except.ok.injEq]
    exact ⟨fun h => ⟨hmapped, h.symm⟩, fun h => h.2.symm⟩
  · simp only [throw, throwThe, MonadExceptOf.throw, reduceCtorEq, false_iff, not_and]
    exact fun h => absurd h hmapped

/-- A `zmalloc` whose locked section hands out an item with a non-`NULL` handle is undefined
when some CPU's copy of the item leaves the mapping. -/
theorem rseqPercpuMallocImpl_zero_undefined {s₁ : PoolState} {itemOffset cpu : Nat}
    (hlock : mallocLocked abi s = .ok (s₁, some itemOffset))
    (haddr : encodeAddr abi s.pool.index itemOffset ≠ 0) (hcpu : cpu < s₁.pool.maxNrCpus)
    (hout : ¬ s₁.pool.InMapping abi (rseqPoolPercpuPtr abi s₁.pool cpu itemOffset)
      s₁.pool.itemLen) :
    rseqPercpuMallocImpl abi s true = .error .undefined := by
  have hzero : rseqPercpuZeroItem abi s₁.pool s₁.memory itemOffset = .error .undefined :=
    if_neg fun h => hout (h cpu hcpu)
  simp only [rseqPercpuMallocImpl, hlock, bind, Except.bind, true_and, ne_eq, haddr,
    not_false_eq_true, if_true, hzero]

/-- An allocation whose locked section hands out an item returns the item's handle, provided
that for `zmalloc` every CPU's copy of the item lies in the mapping. -/
theorem rseqPercpuMallocImpl_of_some {s₁ : PoolState} {itemOffset : Nat}
    (hlock : mallocLocked abi s = .ok (s₁, some itemOffset)) {zeroed : Bool}
    (hzero : zeroed = true → ∀ cpu < s₁.pool.maxNrCpus,
      s₁.pool.InMapping abi (rseqPoolPercpuPtr abi s₁.pool cpu itemOffset) s₁.pool.itemLen) :
    ∃ s', rseqPercpuMallocImpl abi s zeroed =
      .ok (s', .ok (encodeAddr abi s.pool.index itemOffset)) ∧ s'.pool = s₁.pool := by
  simp only [rseqPercpuMallocImpl, hlock, bind, Except.bind]
  split
  · rw [rseqPercpuZeroItem_eq_ok.2 ⟨hzero ‹_ ∧ _›.1, rfl⟩]
    exact ⟨_, rfl, rfl⟩
  · exact ⟨_, rfl, rfl⟩

/-- An allocation that returns ran the locked section and then, for `zmalloc`, zeroed every
CPU's copy of the item it handed out. -/
theorem rseqPercpuMallocImpl_eq_ok {zeroed : Bool} {result : Except Errno Nat}
    (h : rseqPercpuMallocImpl abi s zeroed = .ok (s', result)) :
    ∃ s₁ slot, mallocLocked abi s = .ok (s₁, slot) ∧
      (slot = none ∧ s' = s₁ ∧ result = .error .ENOMEM ∨
        ∃ itemOffset, slot = some itemOffset ∧
          result = .ok (encodeAddr abi s.pool.index itemOffset) ∧
          (s' = s₁ ∨
            (∀ cpu < s₁.pool.maxNrCpus, s₁.pool.InMapping abi
              (rseqPoolPercpuPtr abi s₁.pool cpu itemOffset) s₁.pool.itemLen) ∧
            s' = { s₁ with
              memory := zeroCpus abi s₁.pool s₁.memory itemOffset s₁.pool.maxNrCpus })) := by
  unfold rseqPercpuMallocImpl at h
  cases hm : mallocLocked abi s with
  | error e => simp [hm, bind, Except.bind] at h
  | ok r =>
    obtain ⟨s₁, slot⟩ := r
    refine ⟨s₁, slot, rfl, ?_⟩
    simp only [hm, bind, Except.bind] at h
    cases slot with
    | none =>
      simp only [pure, Except.pure, Except.ok.injEq, Prod.mk.injEq] at h
      exact .inl ⟨rfl, h.1.symm, h.2.symm⟩
    | some itemOffset =>
      refine .inr ⟨itemOffset, rfl, ?_⟩
      dsimp only at h
      split at h
      · cases hz : rseqPercpuZeroItem abi s₁.pool s₁.memory itemOffset with
        | error e => simp [hz] at h
        | ok memory =>
          simp only [hz, pure, Except.pure, Except.ok.injEq, Prod.mk.injEq] at h
          obtain ⟨rfl, rfl⟩ := h
          obtain ⟨hmapped, rfl⟩ := rseqPercpuZeroItem_eq_ok.mp hz
          exact ⟨rfl, .inr ⟨hmapped, rfl⟩⟩
      · simp only [pure, Except.pure, Except.ok.injEq, Prod.mk.injEq] at h
        obtain ⟨rfl, rfl⟩ := h
        exact ⟨rfl, .inl rfl⟩

/-- An allocation that fails found the free list empty and no room for another item, and
changed nothing. -/
theorem rseqPercpuMallocImpl_eq_error {zeroed : Bool} {e : Errno}
    (h : rseqPercpuMallocImpl abi s zeroed = .ok (s', .error e)) :
    s' = s ∧ e = .ENOMEM ∧ s.pool.freeListHead = 0 ∧
      s.pool.percpuLen < (s.pool.nextUnused + s.pool.itemLen) % abi.wordSize := by
  obtain ⟨s₁, slot, hlock, ⟨rfl, rfl, he⟩ | ⟨_, _, hres, _⟩⟩ :=
    rseqPercpuMallocImpl_eq_ok h
  · cases he
    rcases mallocLocked_cases hlock with ⟨_, _, _, _, _, h⟩ | ⟨hhead, hfull, rfl, _⟩ |
      ⟨_, _, _, _, _, h⟩
    · cases h
    · exact ⟨rfl, rfl, hhead, hfull⟩
    · cases h
  · cases hres

/-- A free that returns has passed the bitmap check and pushed the item, whose CPU-0 link lies
in the mapping. -/
theorem freeLocked_eq_ok {itemOffset : Nat} :
    freeLocked abi s itemOffset = .ok s' ↔
      ∃ bitmap,
        unmaskFreeSlot abi s.pool.freeBitmap (itemOffset >>> s.pool.itemOrder) = .ok bitmap ∧
        s.pool.InMapping abi (rseqPoolPercpuPtr abi s.pool 0 itemOffset) abi.sizeofPtr ∧
        s' = { pool := { s.pool with
                 freeBitmap := bitmap, freeListHead := rseqPoolPercpuPtr abi s.pool 0 itemOffset },
               memory := s.memory.storePtr abi (rseqPoolPercpuPtr abi s.pool 0 itemOffset)
                 s.pool.freeListHead } := by
  unfold freeLocked
  cases unmaskFreeSlot abi s.pool.freeBitmap (itemOffset >>> s.pool.itemOrder) with
  | error e => simp [bind, Except.bind]
  | ok bitmap =>
    simp only [bind, Except.bind]
    split
    · simp only [pure, Except.pure, Except.ok.injEq]
      exact ⟨fun h => ⟨bitmap, rfl, ‹_›, h.symm⟩, fun ⟨_, hb, _, h⟩ => by cases hb; exact h.symm⟩
    · simp only [throw, throwThe, MonadExceptOf.throw, reduceCtorEq, false_iff, not_exists,
        not_and]
      exact fun _ _ h => absurd h ‹_›

end Spec

end Librseq
