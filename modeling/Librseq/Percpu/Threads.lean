import Librseq.Percpu.System

/-!
# Threads sharing one pool

The threads of a program call `rseq_percpu_malloc`, `rseq_percpu_zmalloc` and
`rseq_percpu_free` on one pool, and write into the items they hold. The section of each call
under `pool->lock` is one atomic step; `rseq_percpu_zmalloc` then zeroes its item outside the
lock, one CPU's copy per step of the loop of `rseq_percpu_zero_item`, while the other threads
go on. `ThreadStep abi t` is one step of thread `t`.

`ThreadsInv` holds along every interleaving from a pool create returns, when the mapping length
`percpu_len * max_nr_cpus` fits in a `size_t`: the free list keeps `FreeListInv` over every
handle the threads own, the ones their `zmalloc` calls will return included, and each such call
has kept zero the copies it has zeroed. The main result, `threads_of_create`, reads off the
contract: a step of a thread changes no byte of an item another thread owns, on any CPU, and a
`zmalloc` call returns an item that reads zero on every CPU.

The steps of one `zmalloc` call, run with no other thread between them, end where
`rseq_percpu_zmalloc` does (`ThreadStep.run_of_rseqPercpuZmalloc`): the loop the threads
interleave with is the loop of `rseq_percpu_zero_item`.

When the mapping length wraps, a high CPU's copy of an item lies in CPU 0's copy of another,
and the link `rseq_percpu_free` stores in the one overwrites the other, which another thread
holds (`threads_of_create_wrapping`).
-/

namespace Librseq

/-- A `rseq_percpu_zmalloc` call of `thread` past its locked section: the handle it will return,
the `item_offset` it zeroes, and the next CPU of the loop of `rseq_percpu_zero_item`. -/
structure Zeroing where
  thread : Nat
  handle : Nat
  itemOffset : Nat
  cpu : Nat
deriving DecidableEq

/-- One pool shared by the threads of a program: the pool and its memory, the handles the threads
hold, as `(thread, handle)`, and the `zmalloc` calls zeroing their item. -/
structure Threads where
  s : PoolState
  held : List (Nat × Nat)
  zeroing : List Zeroing

namespace Threads

/-- Thread `t` is between calls on the pool. -/
def Idle (σ : Threads) (t : Nat) : Prop := ∀ z ∈ σ.zeroing, z.thread ≠ t

/-- The handles the threads own: those they hold and those their `zmalloc` calls will return. -/
def live (σ : Threads) : List Nat := σ.held.map Prod.snd ++ σ.zeroing.map Zeroing.handle

/-- The items the threads own, each with its owner: the items of the handles they hold and the
items their `zmalloc` calls are zeroing. -/
def owners (abi : Abi) (σ : Threads) : List (Nat × Nat) :=
  σ.held.map (fun p => (p.1, handleItemOffset abi p.2)) ++
    σ.zeroing.map fun z => (z.thread, z.itemOffset)

theorem mem_owners_of_held {abi : Abi} {σ : Threads} {t h : Nat} (hheld : (t, h) ∈ σ.held) :
    (t, handleItemOffset abi h) ∈ σ.owners abi :=
  List.mem_append_left _
    (List.mem_map_of_mem (fun p : Nat × Nat => (p.1, handleItemOffset abi p.2)) hheld)

theorem mem_owners_of_zeroing {abi : Abi} {σ : Threads} {z : Zeroing} (hz : z ∈ σ.zeroing) :
    (z.thread, z.itemOffset) ∈ σ.owners abi :=
  List.mem_append_right _ (List.mem_map_of_mem (fun z : Zeroing => (z.thread, z.itemOffset)) hz)

end Threads

/-- Byte `a` lies in the item at `itemOffset` on one of the pool's CPUs. -/
def Pool.ItemByte (abi : Abi) (pool : Pool) (itemOffset a : Nat) : Prop :=
  ∃ cpu < pool.maxNrCpus, ∃ i < pool.itemLen, a = rseqPoolPercpuPtr abi pool cpu itemOffset + i

/-- One step of thread `t`: the locked section of `rseq_percpu_malloc`, or of
`rseq_percpu_zmalloc` with the item it will zero, one CPU's copy of that zeroing, the return of
the `zmalloc` call once every CPU is done, the locked section of `rseq_percpu_free` on a handle
the thread holds whose index bits name the pool, or a write of the thread into an item it
holds. The memory a step writes lies in the pool's mapping; a call that ends with `ENOMEM`
changes nothing and is left out. -/
inductive ThreadStep (abi : Abi) (t : Nat) : Threads → Threads → Prop
  | malloc {σ : Threads} {s₁ : PoolState} {itemOffset : Nat} (hidle : σ.Idle t)
      (hlock : mallocLocked abi σ.s = .ok (s₁, some itemOffset)) :
      ThreadStep abi t σ ⟨s₁, (t, encodeAddr abi σ.s.pool.index itemOffset) :: σ.held, σ.zeroing⟩
  | zmallocLocked {σ : Threads} {s₁ : PoolState} {itemOffset : Nat} (hidle : σ.Idle t)
      (hlock : mallocLocked abi σ.s = .ok (s₁, some itemOffset))
      (haddr : encodeAddr abi σ.s.pool.index itemOffset ≠ 0) :
      ThreadStep abi t σ ⟨s₁, σ.held,
        ⟨t, encodeAddr abi σ.s.pool.index itemOffset, itemOffset, 0⟩ :: σ.zeroing⟩
  | zero {σ : Threads} {z : Zeroing} (hz : z ∈ σ.zeroing) (ht : z.thread = t)
      (hcpu : z.cpu < σ.s.pool.maxNrCpus)
      (hmapped : σ.s.pool.InMapping abi (rseqPoolPercpuPtr abi σ.s.pool z.cpu z.itemOffset)
        σ.s.pool.itemLen) :
      ThreadStep abi t σ ⟨{ σ.s with
          memory := σ.s.memory.memset (rseqPoolPercpuPtr abi σ.s.pool z.cpu z.itemOffset) 0
            σ.s.pool.itemLen },
        σ.held, { z with cpu := z.cpu + 1 } :: σ.zeroing.erase z⟩
  | zmallocReturn {σ : Threads} {z : Zeroing} (hz : z ∈ σ.zeroing) (ht : z.thread = t)
      (hdone : σ.s.pool.maxNrCpus ≤ z.cpu) :
      ThreadStep abi t σ ⟨σ.s, (t, z.handle) :: σ.held, σ.zeroing.erase z⟩
  | free {σ : Threads} {h : Nat} {s' : PoolState} (hheld : (t, h) ∈ σ.held) (hidle : σ.Idle t)
      (hcall : freeLocked abi σ.s (handleItemOffset abi h) = .ok s')
      (hindex : handlePoolIndex abi h = σ.s.pool.index) :
      ThreadStep abi t σ ⟨s', σ.held.erase (t, h), σ.zeroing⟩
  | write {σ : Threads} {h cpu i : Nat} (value : MemVal) (hheld : (t, h) ∈ σ.held)
      (hidle : σ.Idle t) (hcpu : cpu < σ.s.pool.maxNrCpus) (hi : i < σ.s.pool.itemLen)
      (hmapped : σ.s.pool.InMapping abi
        (rseqPoolPercpuPtr abi σ.s.pool cpu (handleItemOffset abi h) + i) 1) :
      ThreadStep abi t σ ⟨{ σ.s with
          memory := σ.s.memory.set
            (rseqPoolPercpuPtr abi σ.s.pool cpu (handleItemOffset abi h) + i) value },
        σ.held, σ.zeroing⟩

/-- The threads' interleavings: any thread takes the next step. -/
def AnyThreadStep (abi : Abi) (σ σ' : Threads) : Prop := ∃ t, ThreadStep abi t σ σ'

/-! ### Frames -/

/-- Byte `a` lies in the item at `itemOffset` on CPU 0 or one of the pool's CPUs: where a step
of the item's owner may write. -/
def Pool.InItem (abi : Abi) (pool : Pool) (itemOffset a : Nat) : Prop :=
  ∃ cpu, (cpu < pool.maxNrCpus ∨ cpu = 0) ∧ ∃ i < pool.itemLen,
    a = rseqPoolPercpuPtr abi pool cpu itemOffset + i

/-- The pool's address of a byte of an item depends only on the pool's geometry. -/
theorem rseqPoolPercpuPtr_congr {abi : Abi} {pool pool' : Pool}
    (h : pool'.geometry = pool.geometry) (cpu itemOffset : Nat) :
    rseqPoolPercpuPtr abi pool' cpu itemOffset = rseqPoolPercpuPtr abi pool cpu itemOffset := by
  simp only [Pool.geometry, Prod.mk.injEq] at h
  simp only [rseqPoolPercpuPtr, h]

/-- The locked section of an allocation changes no byte of memory. -/
theorem mallocLocked_memory {abi : Abi} {s s₁ : PoolState} {slot : Option Nat}
    (h : mallocLocked abi s = .ok (s₁, slot)) : s₁.memory = s.memory := by
  rcases mallocLocked_cases h with ⟨_, _, _, _, rfl, _⟩ | ⟨_, _, rfl, _⟩ |
    ⟨_, _, _, _, rfl, _⟩ <;> rfl

/-- The geometry fixes the item length. -/
theorem Pool.itemLen_eq {pool pool' : Pool} (h : pool'.geometry = pool.geometry) :
    pool'.itemLen = pool.itemLen :=
  congrArg (fun g => g.2.2.1) h

/-- The geometry fixes the number of CPUs. -/
theorem Pool.maxNrCpus_eq {pool pool' : Pool} (h : pool'.geometry = pool.geometry) :
    pool'.maxNrCpus = pool.maxNrCpus :=
  congrArg (fun g => g.2.2.2.2.2) h

/-- Two bytes of items of a pool whose mapping does not wrap, on CPU 0 or CPUs below
`max_nr_cpus`, are the same byte only at the same CPU and item. -/
theorem Pool.Shape.byte_ne {abi : Abi} {pool : Pool} (hs : pool.Shape abi) (hw : pool.NoWrap abi)
    {off off' c c' i j : Nat} (hoff : off ∈ pool.slots) (hoff' : off' ∈ pool.slots)
    (hc : c < pool.maxNrCpus ∨ c = 0) (hc' : c' < pool.maxNrCpus ∨ c' = 0)
    (hne : c ≠ c' ∨ off ≠ off') (hi : i < pool.itemLen) (hj : j < pool.itemLen) :
    rseqPoolPercpuPtr abi pool c off + i ≠ rseqPoolPercpuPtr abi pool c' off' + j := by
  have := slot_bytes_ne (hs.add_itemLen_le_percpuLen hoff) (hs.add_itemLen_le_percpuLen hoff')
    ((hs.mem_slots).1 hoff).1 ((hs.mem_slots).1 hoff').1 hne hi hj
  rw [rseqPoolPercpuPtr, rseqPoolPercpuPtr, Pool.percpu_mod_eq hw hc, Pool.percpu_mod_eq hw hc']
  omega

/-- Renaming the owned handles keeps the free-list invariant. -/
theorem FreeListInv.perm {abi : Abi} {s : PoolState} {live live' : List Nat}
    (hinv : FreeListInv abi s live) (hp : live.Perm live') : FreeListInv abi s live' := by
  obtain ⟨free, hc, hslots⟩ := hinv.chain
  exact ⟨hinv.shape, hinv.cpus_pos, fun h hh => hinv.handles h (hp.symm.subset hh), free, hc,
    ((hp.map _).append_left free).symm.trans hslots⟩

/-! ### The invariant -/

/-- The copies of its item that a `zmalloc` call has zeroed, those of the CPUs below its loop
counter, read zero. -/
def Zeroing.Done (abi : Abi) (s : PoolState) (z : Zeroing) : Prop :=
  ∀ cpu < z.cpu, ∀ i < s.pool.itemLen,
    s.memory (rseqPoolPercpuPtr abi s.pool cpu z.itemOffset + i) = .byte 0

/-- What every interleaving keeps of a pool whose mapping length fits in a `size_t`: the free
list keeps its invariant over every handle the threads own, and each `zmalloc` call zeroes the
item of its handle, has not gone past the pool's CPUs, and finds zero the copies it has
zeroed. -/
structure ThreadsInv (abi : Abi) (σ : Threads) : Prop where
  noWrap : σ.s.pool.NoWrap abi
  freeList : FreeListInv abi σ.s σ.live
  decode : ∀ z ∈ σ.zeroing, handleItemOffset abi z.handle = z.itemOffset
  cpu_le : ∀ z ∈ σ.zeroing, z.cpu ≤ σ.s.pool.maxNrCpus
  done : ∀ z ∈ σ.zeroing, z.Done abi σ.s

section Done

variable {abi : Abi} {s s' : PoolState} {z : Zeroing}

/-- Done copies stay done through a call that keeps the geometry and the memory. -/
theorem Zeroing.Done.congr (hz : z.Done abi s) (hgeo : s'.pool.geometry = s.pool.geometry)
    (hmem : s'.memory = s.memory) : z.Done abi s' := by
  intro cpu hcpu i hi
  rw [hmem, rseqPoolPercpuPtr_congr hgeo]
  exact hz cpu hcpu i (Pool.itemLen_eq hgeo ▸ hi)

/-- Done copies stay done through a call that keeps the geometry and changes memory only within
another item. -/
theorem Zeroing.Done.frame (hz : z.Done abi s) (hs : s.pool.Shape abi) (hw : s.pool.NoWrap abi)
    (hzs : z.itemOffset ∈ s.pool.slots) (hle : z.cpu ≤ s.pool.maxNrCpus)
    (hgeo : s'.pool.geometry = s.pool.geometry) {off : Nat} (hoff : off ∈ s.pool.slots)
    (hne : off ≠ z.itemOffset)
    (hm : ∀ a, s'.memory a ≠ s.memory a → s.pool.InItem abi off a) :
    z.Done abi s' := by
  intro cpu hcpu i hi
  have hi' : i < s.pool.itemLen := Pool.itemLen_eq hgeo ▸ hi
  rw [rseqPoolPercpuPtr_congr hgeo]
  by_contra hchanged
  obtain ⟨c, hc, j, hj, ha⟩ := hm _ (fun h => hchanged (h.trans (hz cpu hcpu i hi')))
  exact hs.byte_ne hw hzs hoff (.inl (Nat.lt_of_lt_of_le hcpu hle)) hc (.inr hne.symm) hi' hj ha

end Done

namespace ThreadsInv

variable {abi : Abi} {σ σ' : Threads} {t : Nat}

/-- The owners list names the items of the owned handles. -/
theorem owners_snd (hinv : ThreadsInv abi σ) :
    (σ.owners abi).map Prod.snd = σ.live.map (handleItemOffset abi) := by
  simp only [Threads.owners, Threads.live, List.map_append, List.map_map]
  congr 1
  exact List.map_congr_left fun z hz => (hinv.decode z hz).symm

/-- Two owners of items own different items unless they are the same entry. -/
theorem owner_eq (hinv : ThreadsInv abi σ) {p q : Nat × Nat} (hp : p ∈ σ.owners abi)
    (hq : q ∈ σ.owners abi) (hpq : p.2 = q.2) : p = q := by
  have hnd := hinv.freeList.live_spec.1
  rw [← hinv.owners_snd] at hnd
  exact List.inj_on_of_nodup_map hnd hp hq hpq

/-- Every owned item is an item below `next_unused`. -/
theorem mem_slots (hinv : ThreadsInv abi σ) {p : Nat × Nat} (hp : p ∈ σ.owners abi) :
    p.2 ∈ σ.s.pool.slots := by
  have hmem : p.2 ∈ σ.live.map (handleItemOffset abi) :=
    hinv.owners_snd ▸ List.mem_map_of_mem _ hp
  obtain ⟨h, hh, heq⟩ := List.mem_map.1 hmem
  obtain ⟨hdvd, hle⟩ := hinv.freeList.live_spec.2 h hh
  have := hinv.freeList.shape.itemLen_pos
  exact (hinv.freeList.shape.mem_slots).2 ⟨heq ▸ hdvd, by omega⟩

/-- The items the threads own are distinct: those of held handles, then those being zeroed. -/
theorem offsets_nodup (hinv : ThreadsInv abi σ) :
    (σ.held.map (fun p => handleItemOffset abi p.2) ++
      σ.zeroing.map Zeroing.itemOffset).Nodup := by
  have hnd := hinv.freeList.live_spec.1
  rw [← hinv.owners_snd] at hnd
  simpa [Threads.owners, List.map_map, Function.comp_def] using hnd

/-- A held item is not an item being zeroed. -/
theorem held_ne_zeroing (hinv : ThreadsInv abi σ) {h : Nat} (hheld : (t, h) ∈ σ.held)
    {z : Zeroing} (hz : z ∈ σ.zeroing) : handleItemOffset abi h ≠ z.itemOffset := fun heq =>
  List.disjoint_of_nodup_append hinv.offsets_nodup
    (List.mem_map_of_mem (fun p => handleItemOffset abi p.2) hheld)
    (heq ▸ List.mem_map_of_mem Zeroing.itemOffset hz)

/-- Two `zmalloc` calls zero different items. -/
theorem zeroing_ne (hinv : ThreadsInv abi σ) {z z' : Zeroing} (hz : z ∈ σ.zeroing)
    (hz' : z' ∈ σ.zeroing.erase z) : z'.itemOffset ≠ z.itemOffset := fun heq => by
  have hnd := (List.nodup_append.1 hinv.offsets_nodup).2.1
  have hne := ((List.Nodup.of_map _ hnd).mem_erase_iff).1 hz'
  exact hne.1 (List.inj_on_of_nodup_map hnd hne.2 hz heq)

/-- The item of a held handle is an item below `next_unused`. -/
theorem held_mem_slots (hinv : ThreadsInv abi σ) {h : Nat} (hheld : (t, h) ∈ σ.held) :
    handleItemOffset abi h ∈ σ.s.pool.slots :=
  hinv.mem_slots (Threads.mem_owners_of_held hheld)

/-- The item a `zmalloc` call zeroes is an item below `next_unused`. -/
theorem zeroing_mem_slots (hinv : ThreadsInv abi σ) {z : Zeroing} (hz : z ∈ σ.zeroing) :
    z.itemOffset ∈ σ.s.pool.slots :=
  hinv.mem_slots (Threads.mem_owners_of_zeroing hz)

/-- The locked section of `rseq_percpu_malloc` keeps the invariant with its handle held. -/
theorem malloc (hinv : ThreadsInv abi σ) {s₁ : PoolState} {itemOffset : Nat}
    (hlock : mallocLocked abi σ.s = .ok (s₁, some itemOffset)) :
    ThreadsInv abi
      ⟨s₁, (t, encodeAddr abi σ.s.pool.index itemOffset) :: σ.held, σ.zeroing⟩ := by
  have hgeo := mallocLocked_geometry hlock
  exact ⟨(Pool.noWrap_congr hgeo).2 hinv.noWrap, (hinv.freeList.mallocLocked hlock).1,
    hinv.decode, fun z hz => Pool.maxNrCpus_eq hgeo ▸ hinv.cpu_le z hz,
    fun z hz => (hinv.done z hz).congr hgeo (mallocLocked_memory hlock)⟩

/-- The locked section of `rseq_percpu_zmalloc` keeps the invariant with its item to zero. -/
theorem zmallocLocked (hinv : ThreadsInv abi σ) {s₁ : PoolState} {itemOffset : Nat}
    (hlock : mallocLocked abi σ.s = .ok (s₁, some itemOffset)) :
    ThreadsInv abi ⟨s₁, σ.held,
      ⟨t, encodeAddr abi σ.s.pool.index itemOffset, itemOffset, 0⟩ :: σ.zeroing⟩ := by
  have hgeo := mallocLocked_geometry hlock
  obtain ⟨hfl, hdec⟩ := hinv.freeList.mallocLocked hlock
  refine ⟨(Pool.noWrap_congr hgeo).2 hinv.noWrap, hfl.perm List.perm_middle.symm, ?_, ?_, ?_⟩
  · rintro z (_ | ⟨_, hz⟩)
    · exact hdec
    · exact hinv.decode z hz
  · rintro z (_ | ⟨_, hz⟩)
    · exact Nat.zero_le _
    · exact Pool.maxNrCpus_eq hgeo ▸ hinv.cpu_le z hz
  · rintro z (_ | ⟨_, hz⟩)
    · exact fun cpu hcpu => absurd hcpu (Nat.not_lt_zero _)
    · exact (hinv.done z hz).congr hgeo (mallocLocked_memory hlock)

/-- Zeroing one CPU's copy of its item keeps the invariant, and that copy is done. -/
theorem zero (hinv : ThreadsInv abi σ) {z : Zeroing} (hz : z ∈ σ.zeroing)
    (hcpu : z.cpu < σ.s.pool.maxNrCpus) :
    ThreadsInv abi ⟨{ σ.s with
        memory := σ.s.memory.memset (rseqPoolPercpuPtr abi σ.s.pool z.cpu z.itemOffset) 0
          σ.s.pool.itemLen },
      σ.held, { z with cpu := z.cpu + 1 } :: σ.zeroing.erase z⟩ := by
  have hs := hinv.freeList.shape
  have hzs := hinv.zeroing_mem_slots hz
  have hperm : σ.live.Perm (σ.held.map Prod.snd ++
      ({ z with cpu := z.cpu + 1 } :: σ.zeroing.erase z).map Zeroing.handle) :=
    List.Perm.append_left _ ((List.perm_cons_erase hz).map Zeroing.handle)
  refine ⟨hinv.noWrap, (hinv.freeList.of_memory hinv.noWrap fun a ha => ?_).perm hperm,
    ?_, ?_, ?_⟩
  · obtain ⟨i, hi, rfl⟩ := Memory.exists_of_memset_ne ha
    exact ⟨z.handle, List.mem_append_right _ (List.mem_map_of_mem _ hz), z.cpu, hcpu, i, hi,
      by rw [hinv.decode z hz]⟩
  · rintro z' (_ | ⟨_, hz'⟩)
    · exact hinv.decode z hz
    · exact hinv.decode z' (List.mem_of_mem_erase hz')
  · rintro z' (_ | ⟨_, hz'⟩)
    · exact hcpu
    · exact hinv.cpu_le z' (List.mem_of_mem_erase hz')
  · rintro z' (_ | ⟨_, hz'⟩)
    · dsimp only [Zeroing.Done]
      intro cpu hcpu' i hi
      rw [Memory.memset_apply]
      by_cases hc : cpu = z.cpu
      · subst hc
        rw [if_pos ⟨by omega, by omega⟩]
      · have hlt : cpu < z.cpu := Nat.lt_of_le_of_ne (Nat.le_of_lt_succ hcpu') hc
        rw [if_neg, hinv.done z hz cpu hlt i hi]
        rintro ⟨h₁, h₂⟩
        exact hs.byte_ne hinv.noWrap hzs hzs (.inl (Nat.lt_trans hlt hcpu)) (.inl hcpu) (.inl hc)
          hi (Nat.sub_lt_left_of_lt_add h₁ h₂) (Nat.add_sub_cancel' h₁).symm
    · have hz'' := List.mem_of_mem_erase hz'
      exact (hinv.done z' hz'').frame hs hinv.noWrap (hinv.zeroing_mem_slots hz'')
        (hinv.cpu_le z' hz'') rfl hzs (hinv.zeroing_ne hz hz').symm fun a ha =>
          let ⟨i, hi, he⟩ := Memory.exists_of_memset_ne ha
          ⟨z.cpu, .inl hcpu, i, hi, he⟩

/-- The return of a `zmalloc` call keeps the invariant with its handle held. -/
theorem zmallocReturn (hinv : ThreadsInv abi σ) {z : Zeroing} (hz : z ∈ σ.zeroing) :
    ThreadsInv abi ⟨σ.s, (t, z.handle) :: σ.held, σ.zeroing.erase z⟩ := by
  have hperm : σ.live.Perm (z.handle :: (σ.held.map Prod.snd ++
      (σ.zeroing.erase z).map Zeroing.handle)) :=
    (List.Perm.append_left _ ((List.perm_cons_erase hz).map Zeroing.handle)).trans
      List.perm_middle
  exact ⟨hinv.noWrap, hinv.freeList.perm hperm,
    fun z' hz' => hinv.decode z' (List.mem_of_mem_erase hz'),
    fun z' hz' => hinv.cpu_le z' (List.mem_of_mem_erase hz'),
    fun z' hz' => hinv.done z' (List.mem_of_mem_erase hz')⟩

/-- The locked section of `rseq_percpu_free` on a held handle keeps the invariant with the
handle no longer held. -/
theorem free (hinv : ThreadsInv abi σ) {h : Nat} {s' : PoolState} (hheld : (t, h) ∈ σ.held)
    (hcall : freeLocked abi σ.s (handleItemOffset abi h) = .ok s')
    (hindex : handlePoolIndex abi h = σ.s.pool.index) :
    ThreadsInv abi ⟨s', σ.held.erase (t, h), σ.zeroing⟩ := by
  have hs := hinv.freeList.shape
  have hgeo := freeLocked_geometry hcall
  have hlive : h ∈ σ.live := List.mem_append_left _ (List.mem_map_of_mem Prod.snd hheld)
  have hperm : (σ.live.erase h).Perm ((σ.held.erase (t, h)).map Prod.snd ++
      σ.zeroing.map Zeroing.handle) := by
    obtain ⟨l₁, l₂, -, hl, he⟩ := List.exists_erase_eq hheld
    have hp :
        σ.live.Perm (h :: ((l₁ ++ l₂).map Prod.snd ++ σ.zeroing.map Zeroing.handle)) := by
      rw [Threads.live, hl, List.map_append, List.map_append, List.map_cons, List.append_assoc,
        List.append_assoc, List.cons_append]
      exact List.perm_middle
    rw [he]
    simpa only [List.erase_cons_head] using hp.erase h
  refine ⟨(Pool.noWrap_congr hgeo).2 hinv.noWrap,
    (hinv.freeList.step hinv.noWrap (.free hlive hcall hindex)).perm hperm, hinv.decode,
    fun z hz => Pool.maxNrCpus_eq hgeo ▸ hinv.cpu_le z hz, fun z hz => ?_⟩
  obtain ⟨bitmap, -, -, rfl⟩ := freeLocked_eq_ok.1 hcall
  refine (hinv.done z hz).frame hs hinv.noWrap (hinv.zeroing_mem_slots hz) (hinv.cpu_le z hz)
    hgeo (hinv.held_mem_slots hheld) (hinv.held_ne_zeroing hheld hz) fun a ha => ?_
  obtain ⟨i, hi, rfl⟩ := Memory.exists_of_storePtr_ne ha
  exact ⟨0, .inr rfl, i, Nat.lt_of_lt_of_le hi hs.sizeofPtr_le, rfl⟩

/-- A write of a thread into an item it holds keeps the invariant. -/
theorem write (hinv : ThreadsInv abi σ) {h cpu i : Nat} (value : MemVal)
    (hheld : (t, h) ∈ σ.held) (hcpu : cpu < σ.s.pool.maxNrCpus) (hi : i < σ.s.pool.itemLen) :
    ThreadsInv abi ⟨{ σ.s with
        memory := σ.s.memory.set
          (rseqPoolPercpuPtr abi σ.s.pool cpu (handleItemOffset abi h) + i) value },
      σ.held, σ.zeroing⟩ := by
  exact ⟨hinv.noWrap, hinv.freeList.of_memory hinv.noWrap fun a ha =>
      ⟨h, List.mem_append_left _ (List.mem_map_of_mem Prod.snd hheld), cpu, hcpu, i, hi,
        Memory.eq_of_set_ne ha⟩,
    hinv.decode, hinv.cpu_le, fun z hz => (hinv.done z hz).frame hinv.freeList.shape hinv.noWrap
      (hinv.zeroing_mem_slots hz) (hinv.cpu_le z hz) rfl (hinv.held_mem_slots hheld)
      (hinv.held_ne_zeroing hheld hz)
      fun a ha => ⟨cpu, .inl hcpu, i, hi, Memory.eq_of_set_ne ha⟩⟩

/-- Every step of every thread keeps the invariant. -/
theorem step (hinv : ThreadsInv abi σ) (hstep : ThreadStep abi t σ σ') : ThreadsInv abi σ' := by
  cases hstep with
  | malloc _ hlock => exact hinv.malloc hlock
  | zmallocLocked _ hlock _ => exact hinv.zmallocLocked hlock
  | zero hz _ hcpu _ => exact hinv.zero hz hcpu
  | zmallocReturn hz _ _ => exact hinv.zmallocReturn hz
  | free hheld _ hcall hindex => exact hinv.free hheld hcall hindex
  | write value hheld _ hcpu hi _ => exact hinv.write value hheld hcpu hi

/-- Every interleaving keeps the invariant. -/
theorem run (hinv : ThreadsInv abi σ) (hrun : Relation.ReflTransGen (AnyThreadStep abi) σ σ') :
    ThreadsInv abi σ' := by
  induction hrun with
  | refl => exact hinv
  | tail _ hstep ih => exact ih.step hstep.choose_spec

/-- A pool just created, with nothing held or being zeroed, satisfies the invariant when its
mapping length fits in a `size_t`. -/
theorem init {s : PoolState} (hs : s.pool.Shape abi) (hhead : s.pool.freeListHead = 0)
    (hnext : s.pool.nextUnused = 0) (hw : s.pool.NoWrap abi) : ThreadsInv abi ⟨s, [], []⟩ :=
  ⟨hw, FreeListInv.init hs hhead hnext s.memory, nofun, nofun, nofun⟩

/-- A byte a step of thread `t` changes lies in an item `t` owns, on CPU 0 or one of the pool's
CPUs: the link `rseq_percpu_free` stores, one CPU's copy of the item a `zmalloc` call zeroes,
or the byte the thread writes. -/
theorem footprint (hinv : ThreadsInv abi σ) (hstep : ThreadStep abi t σ σ') {a : Nat}
    (ha : σ'.s.memory a ≠ σ.s.memory a) :
    ∃ off, (t, off) ∈ σ.owners abi ∧ σ.s.pool.InItem abi off a := by
  cases hstep with
  | malloc _ hlock => exact absurd (congrFun (mallocLocked_memory hlock) a) ha
  | zmallocLocked _ hlock _ => exact absurd (congrFun (mallocLocked_memory hlock) a) ha
  | zero hz ht hcpu _ =>
    obtain ⟨i, hi, rfl⟩ := Memory.exists_of_memset_ne ha
    exact ⟨_, ht ▸ Threads.mem_owners_of_zeroing hz, _, .inl hcpu, i, hi, rfl⟩
  | zmallocReturn => exact absurd rfl ha
  | free hheld _ hcall _ =>
    obtain ⟨bitmap, -, -, rfl⟩ := freeLocked_eq_ok.1 hcall
    obtain ⟨i, hi, rfl⟩ := Memory.exists_of_storePtr_ne ha
    exact ⟨_, Threads.mem_owners_of_held hheld, 0, .inr rfl, i,
      Nat.lt_of_lt_of_le hi hinv.freeList.shape.sizeofPtr_le, rfl⟩
  | write value hheld _ hcpu hi _ =>
    exact ⟨_, Threads.mem_owners_of_held hheld, _, .inl hcpu, _, hi, Memory.eq_of_set_ne ha⟩

/-- A step of a thread changes no byte of an item another thread owns, on any of the pool's
CPUs. -/
theorem not_itemByte (hinv : ThreadsInv abi σ) (hstep : ThreadStep abi t σ σ') {a : Nat}
    (ha : σ'.s.memory a ≠ σ.s.memory a) {t' off' : Nat} (ht : t' ≠ t)
    (hown : (t', off') ∈ σ.owners abi) : ¬ σ.s.pool.ItemByte abi off' a := by
  rintro ⟨c', hc', j, hj, rfl⟩
  obtain ⟨off, hown', c, hc, i, hi, heq⟩ := hinv.footprint hstep ha
  have hne : off ≠ off' := fun h => ht (congrArg Prod.fst (hinv.owner_eq hown hown' h.symm))
  exact hinv.freeList.shape.byte_ne hinv.noWrap (hinv.mem_slots hown') (hinv.mem_slots hown) hc
    (.inl hc') (.inr hne) hi hj heq.symm

/-- A `zmalloc` call whose loop has run over every CPU finds the item of its handle zero on
every CPU. -/
theorem zeroed (hinv : ThreadsInv abi σ) {z : Zeroing} (hz : z ∈ σ.zeroing)
    (hdone : σ.s.pool.maxNrCpus ≤ z.cpu) {cpu i : Nat} (hcpu : cpu < σ.s.pool.maxNrCpus)
    (hi : i < σ.s.pool.itemLen) :
    σ.s.memory (rseqPoolPercpuPtr abi σ.s.pool cpu (handleItemOffset abi z.handle) + i) =
      .byte 0 := by
  rw [hinv.decode z hz]
  exact hinv.done z hz cpu (Nat.lt_of_lt_of_le hcpu hdone) i hi

end ThreadsInv

/-! ### The zeroing loop -/

section Loop

variable {abi : Abi} {t : Nat}

/-- Runs of one thread are interleavings. -/
theorem AnyThreadStep.of_thread {σ σ' : Threads}
    (h : Relation.ReflTransGen (ThreadStep abi t) σ σ') :
    Relation.ReflTransGen (AnyThreadStep abi) σ σ' :=
  h.mono fun _ _ hstep => ⟨t, hstep⟩

/-- One round of the loop of a `zmalloc` call at the head of the calls in progress. -/
theorem ThreadStep.zero_head {s : PoolState} {held : List (Nat × Nat)} {zeroing : List Zeroing}
    {z : Zeroing} (ht : z.thread = t) (hcpu : z.cpu < s.pool.maxNrCpus)
    (hmapped : s.pool.InMapping abi (rseqPoolPercpuPtr abi s.pool z.cpu z.itemOffset)
      s.pool.itemLen) :
    ThreadStep abi t ⟨s, held, z :: zeroing⟩ ⟨{ s with
        memory := s.memory.memset (rseqPoolPercpuPtr abi s.pool z.cpu z.itemOffset) 0
          s.pool.itemLen },
      held, { z with cpu := z.cpu + 1 } :: zeroing⟩ := by
  have hstep :=
    @ThreadStep.zero abi t ⟨s, held, z :: zeroing⟩ z (List.mem_cons_self _ _) ht hcpu hmapped
  rwa [List.erase_cons_head] at hstep

/-- The return of a `zmalloc` call at the head of the calls in progress. -/
theorem ThreadStep.zmallocReturn_head {s : PoolState} {held : List (Nat × Nat)}
    {zeroing : List Zeroing} {z : Zeroing} (ht : z.thread = t)
    (hdone : s.pool.maxNrCpus ≤ z.cpu) :
    ThreadStep abi t ⟨s, held, z :: zeroing⟩ ⟨s, (t, z.handle) :: held, zeroing⟩ := by
  have hstep :=
    @ThreadStep.zmallocReturn abi t ⟨s, held, z :: zeroing⟩ z (List.mem_cons_self _ _) ht hdone
  rwa [List.erase_cons_head] at hstep

/-- The first `n` steps of a `zmalloc` call's loop, over copies of the item in the mapping, leave
in memory what the first `n` rounds of the loop of `rseq_percpu_zero_item` do. -/
theorem ThreadStep.zero_run {s : PoolState} {held : List (Nat × Nat)} {zeroing : List Zeroing}
    {h itemOffset n : Nat} (hn : n ≤ s.pool.maxNrCpus)
    (hmapped : ∀ cpu < n,
      s.pool.InMapping abi (rseqPoolPercpuPtr abi s.pool cpu itemOffset) s.pool.itemLen) :
    Relation.ReflTransGen (ThreadStep abi t) ⟨s, held, ⟨t, h, itemOffset, 0⟩ :: zeroing⟩
      ⟨{ s with memory := zeroCpus abi s.pool s.memory itemOffset n }, held,
        ⟨t, h, itemOffset, n⟩ :: zeroing⟩ := by
  induction n with
  | zero => exact .refl
  | succ n ih =>
    exact .tail (ih (Nat.le_of_succ_le hn) fun cpu hcpu => hmapped cpu (Nat.lt_succ_of_lt hcpu))
      (ThreadStep.zero_head rfl hn (hmapped n (Nat.lt_succ_self n)))

/-- `rseq_percpu_zmalloc` once its locked section has handed out an item with a non-`NULL`
handle: the item zeroed on every CPU, when that zeroing is defined. -/
theorem rseqPercpuZmalloc_of_mallocLocked {s s₁ : PoolState} {itemOffset : Nat}
    (hlock : mallocLocked abi s = .ok (s₁, some itemOffset))
    (haddr : encodeAddr abi s.pool.index itemOffset ≠ 0) :
    rseqPercpuZmalloc abi s =
      (fun memory => ({ s₁ with memory := memory }, .ok (encodeAddr abi s.pool.index itemOffset)))
        <$> rseqPercpuZeroItem abi s₁.pool s₁.memory itemOffset := by
  simp only [rseqPercpuZmalloc, rseqPercpuMallocImpl, hlock, bind, Except.bind]
  rw [if_pos ⟨trivial, haddr⟩]
  cases rseqPercpuZeroItem abi s₁.pool s₁.memory itemOffset <;> rfl

/-- The steps of a `zmalloc` call of a thread, run with no other thread between them, end where
`rseq_percpu_zmalloc` does, with its handle held. -/
theorem ThreadStep.run_of_rseqPercpuZmalloc {σ : Threads} {s' : PoolState} {addr : Nat}
    (hidle : σ.Idle t) (h : rseqPercpuZmalloc abi σ.s = .ok (s', .ok addr)) (haddr : addr ≠ 0) :
    Relation.ReflTransGen (ThreadStep abi t) σ ⟨s', (t, addr) :: σ.held, σ.zeroing⟩ := by
  obtain ⟨s₁, slot, hlock, ⟨-, -, hres⟩ | ⟨itemOffset, rfl, hres, -⟩⟩ :=
    rseqPercpuMallocImpl_eq_ok h
  · cases hres
  cases hres
  rw [rseqPercpuZmalloc_of_mallocLocked hlock haddr] at h
  cases hz : rseqPercpuZeroItem abi s₁.pool s₁.memory itemOffset with
  | error e => simp [hz] at h
  | ok memory =>
    obtain ⟨hmapped, rfl⟩ := rseqPercpuZeroItem_eq_ok.1 hz
    simp only [hz, Functor.map, Except.map, Except.ok.injEq] at h
    cases h
    exact .head (.zmallocLocked hidle hlock haddr)
      (.tail (ThreadStep.zero_run le_rfl hmapped) (ThreadStep.zmallocReturn_head rfl le_rfl))

end Loop

/-! ### The contract -/

/-- Along every interleaving of the threads on a pool that create returns in a reachable
directory, with a mapping length `percpu_len * max_nr_cpus` that fits in a `size_t`: a step of
a thread (the allocator's link store and zeroing included) changes no byte of an item another
thread holds or is zeroing, on any of the pool's CPUs; and a `zmalloc` call whose loop has run
over every CPU returns a handle whose item reads zero on every CPU. -/
theorem threads_of_create {abi : Abi} {memory : Memory} {dir dir' : Directory}
    {held : Nat → List Nat} {pageLen itemLen percpuLen : Nat} {maxNrCpus flags : Int}
    {mmapFunc : Nat → MmapResult} {callocSucceeds : Bool} {i : Nat} {σ : Threads}
    (hdir : Relation.ReflTransGen (DirStep abi) (Directory.init memory, fun _ => []) (dir, held))
    (hcall : rseqPercpuPoolCreate abi pageLen dir itemLen percpuLen maxNrCpus mmapFunc flags
      callocSucceeds = .ok (dir', .ok i))
    (hw : (dir'.slots i).pool.NoWrap abi)
    (hrun : Relation.ReflTransGen (AnyThreadStep abi) ⟨dir'.slots i, [], []⟩ σ) :
    (∀ t σ', ThreadStep abi t σ σ' → ∀ a, σ'.s.memory a ≠ σ.s.memory a →
      ∀ t' off', t' ≠ t → (t', off') ∈ σ.owners abi → ¬ σ.s.pool.ItemByte abi off' a) ∧
    (∀ z ∈ σ.zeroing, σ.s.pool.maxNrCpus ≤ z.cpu → ∀ cpu < σ.s.pool.maxNrCpus,
      ∀ j < σ.s.pool.itemLen, σ.s.memory
        (rseqPoolPercpuPtr abi σ.s.pool cpu (handleItemOffset abi z.handle) + j) = .byte 0) := by
  obtain ⟨hshape, hhead, hnext, -⟩ := ((DirInv.init memory).run hdir).created hcall
  have hinv := (ThreadsInv.init hshape hhead hnext hw).run hrun
  exact ⟨fun _ _ hstep _ ha _ _ ht hown => hinv.not_itemByte hstep ha ht hown,
    fun _ hz hdone _ hcpu _ hj => hinv.zeroed hz hdone hcpu hj⟩

/-- A `zmalloc` call on a fresh pool of 16-byte items on 4 CPUs, its loop run over every CPU:
its item reads zero on every CPU. -/
theorem threads_of_create_lp64 :
    ∃ dir' σ, rseqPercpuPoolCreate .lp64 4096 (Directory.init fun _ => .byte 0) 16 4096 4
        (fun _ => ⟨4096, fun _ => .byte 0, 0⟩) 0 false = .ok (dir', .ok 1) ∧
      Relation.ReflTransGen (AnyThreadStep .lp64) ⟨dir'.slots 1, [], []⟩ σ ∧
      ∀ cpu < 4, ∀ j < 16, σ.s.memory (rseqPoolPercpuPtr .lp64 σ.s.pool cpu 0 + j) = .byte 0 := by
  have hcall := rseqPercpuPoolCreate_lp64
  have hw : (4096 * 4 : Nat) < Abi.lp64.wordSize := by decide
  have hlock : ThreadStep .lp64 1 ⟨((Directory.init fun _ => .byte 0).set 1
      ⟨⟨4096, 1, 16, 4096, 4, 4, 0, 0, none⟩, fun _ => .byte 0⟩).slots 1, [], []⟩ _ :=
    .zmallocLocked nofun rfl (by decide)
  have hrun := AnyThreadStep.of_thread
    (.head hlock (ThreadStep.zero_run (n := 4) (by decide) (by decide)))
  refine ⟨_, _, hcall, hrun, fun cpu hcpu j hj => ?_⟩
  exact (threads_of_create .refl hcall hw hrun).2 _ (List.mem_cons_self _ _) le_rfl cpu hcpu j hj

/-- In the wrapping pool, thread 1 allocates item 0 and thread 2 item `2 ^ 46`; thread 2 frees
its item, and `rseq_percpu_free` stores the link in CPU 0's copy of item `2 ^ 46`, which is
CPU 80660's copy of item 0, held by thread 1. -/
theorem threads_of_create_wrapping :
    ∃ dir' σ σ' a h, rseqPercpuPoolCreate .lp64 4096 (Directory.init fun _ => .byte 0) (2 ^ 46)
        (13 * 2 ^ 44) 80661 (fun _ => ⟨4096, fun _ => .byte 0, 0⟩) 0 false = .ok (dir', .ok 1) ∧
      Relation.ReflTransGen (AnyThreadStep .lp64) ⟨dir'.slots 1, [], []⟩ σ ∧
      ThreadStep .lp64 2 σ σ' ∧ (1, h) ∈ σ.held ∧
      σ.s.pool.ItemByte .lp64 (handleItemOffset .lp64 h) a ∧ σ'.s.memory a ≠ σ.s.memory a :=
  ⟨_, _, _, 4096 + 2 ^ 46, 2 ^ 48, rseqPercpuPoolCreate_wrapping 80661,
    .tail (.single ⟨1, .malloc nofun rfl⟩) ⟨2, .malloc nofun rfl⟩,
    .free (List.mem_cons_self _ _) nofun rfl (by decide), by decide,
    ⟨80660, by decide, 0, by decide, by decide⟩, by decide⟩

end Librseq
