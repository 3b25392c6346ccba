import Librseq.Percpu.Trail
import Librseq.Percpu.Directory

/-!
# The directory of pools over whole histories

`DirStep` is one call a program makes on the pool directory: a create or a destroy, with any
outcome of the user's `mmap_func` and `munmap_func`, or an allocation or a free on a live pool.
The state carries, beside the directory, the handles the program holds from each slot's pool,
and a free is of one of them.

`DirInv` holds of every reachable directory (`DirInv.run`): an empty slot is all-zero, as the
static array starts and as destroy leaves it, so a create that reuses it starts with a `NULL`
free list, a zero cursor and no bitmap; a live slot is at its own index, and its pool keeps
`TrailInv`. The main result, `dirInv_reachable`, collects what every reachable directory
satisfies: slot 0 is never live, failed calls change no slot, and every handle an allocation
returns is non-`NULL` and decodes, through `__rseq_percpu_ptr` and `rseq_percpu_free`, to the
pool and the item its locked section handed out.
-/

namespace Librseq

/-- One call on the directory or on one of its live pools. `held i` are the handles of the
pool of slot `i` that the program holds; a successful destroy drops them with the pool. -/
inductive DirStep (abi : Abi) : Directory × (Nat → List Nat) → Directory × (Nat → List Nat) → Prop
  | create {dir dir' : Directory} {held : Nat → List Nat} {result : Except Errno Nat}
      (pageLen itemLen percpuLen : Nat) (maxNrCpus flags : Int) (mmapFunc : Nat → MmapResult)
      (callocSucceeds : Bool)
      (hcall : rseqPercpuPoolCreate abi pageLen dir itemLen percpuLen maxNrCpus mmapFunc flags
        callocSucceeds = .ok (dir', result)) :
      DirStep abi (dir, held) (dir', held)
  | destroy {dir dir' : Directory} {held : Nat → List Nat} {i : Nat} {ret : Int}
      {err : Option Errno} (munmapFunc : Nat → Nat → Int × Nat)
      (hcall : rseqPercpuPoolDestroy abi dir i munmapFunc = .ok (dir', ret, err)) :
      DirStep abi (dir, held) (dir', if err = none then Function.update held i [] else held)
  | malloc {dir : Directory} {held : Nat → List Nat} {i h : Nat} {s' : PoolState}
      (zeroed : Bool) (hlive : (dir.slots i).pool.base ≠ 0)
      (hcall : rseqPercpuMallocImpl abi (dir.slots i) zeroed = .ok (s', .ok h)) :
      DirStep abi (dir, held) (dir.set i s', Function.update held i (h :: held i))
  | full {dir : Directory} {held : Nat → List Nat} {i : Nat} {s' : PoolState} {e : Errno}
      (zeroed : Bool) (hlive : (dir.slots i).pool.base ≠ 0)
      (hcall : rseqPercpuMallocImpl abi (dir.slots i) zeroed = .ok (s', .error e)) :
      DirStep abi (dir, held) (dir.set i s', held)
  | free {dir dir' : Directory} {held : Nat → List Nat} {i h : Nat} (hheld : h ∈ held i)
      (hcall : rseqPercpuFree abi dir h = .ok dir') :
      DirStep abi (dir, held) (dir', Function.update held i ((held i).erase h))

/-- What the directory keeps of slot `i`: empty, it is all-zero and nothing of it is held;
live, it is at its own index and its pool keeps the trail invariant. -/
structure SlotInv (abi : Abi) (i : Nat) (s : PoolState) (held : List Nat) : Prop where
  empty : s.pool.base = 0 → s.pool = Pool.zero ∧ held = []
  live : s.pool.base ≠ 0 → s.pool.index = i ∧ TrailInv abi s held

/-- The directory invariant: every slot keeps `SlotInv`. -/
def DirInv (abi : Abi) (dir : Directory) (held : Nat → List Nat) : Prop :=
  ∀ i, SlotInv abi i (dir.slots i) (held i)

namespace DirInv

variable {abi : Abi} {dir dir' : Directory} {held held' : Nat → List Nat}

/-- The zero-initialised array, with nothing held, keeps the invariant. -/
theorem init (memory : Memory) : DirInv abi (Directory.init memory) fun _ => [] :=
  fun _ => ⟨fun _ => ⟨rfl, rfl⟩, fun h => absurd rfl h⟩

/-- Replacing one slot by one that keeps `SlotInv` keeps the invariant. -/
theorem set (hinv : DirInv abi dir held) {i : Nat} {s : PoolState} {l : List Nat}
    (hslot : SlotInv abi i s l) : DirInv abi (dir.set i s) (Function.update held i l) := by
  intro j
  by_cases hj : j = i
  · subst hj
    simpa using hslot
  · simpa [hj] using hinv j

/-- Handing a slot's pool through a call that keeps its geometry and the trail invariant keeps
the slot invariant. -/
theorem slotInv_of_live (hinv : DirInv abi dir held) {i : Nat} {s' : PoolState} {l : List Nat}
    (hlive : (dir.slots i).pool.base ≠ 0) (hgeo : s'.pool.geometry = (dir.slots i).pool.geometry)
    (htrail : TrailInv abi s' l) : SlotInv abi i s' l := by
  simp only [Pool.geometry, Prod.mk.injEq] at hgeo
  obtain ⟨hbase, hindex, -⟩ := hgeo
  refine ⟨fun h => absurd (hbase ▸ h) hlive, fun _ => ⟨?_, htrail⟩⟩
  rw [hindex]
  exact ((hinv i).live hlive).1

/-- A held handle names a live slot, carries that slot's index, and decodes to an item of it. -/
theorem held_spec (hinv : DirInv abi dir held) {i h : Nat} (hheld : h ∈ held i) :
    (dir.slots i).pool.base ≠ 0 ∧ handlePoolIndex abi h = i ∧
      h = encodeAddr abi i (handleItemOffset abi h) := by
  have hlive : (dir.slots i).pool.base ≠ 0 := fun h0 => by
    rw [((hinv i).empty h0).2] at hheld
    cases hheld
  obtain ⟨hindex, htrail⟩ := (hinv i).live hlive
  have henc := htrail.handles h hheld
  rw [hindex] at henc
  refine ⟨hlive, ?_, henc⟩
  rw [henc, handlePoolIndex_encodeAddr (hindex ▸ htrail.shape.index_lt)
    (handleItemOffset_lt abi _)]

section Create

variable {pageLen itemLen percpuLen : Nat} {maxNrCpus flags : Int} {mmapFunc : Nat → MmapResult}
  {callocSucceeds : Bool}

/-- A pool that create returns into a directory keeping the invariant starts with the shape
every call keeps, an empty free list, a zero cursor and nothing held. -/
theorem created (hinv : DirInv abi dir held) {i : Nat}
    (hcall : rseqPercpuPoolCreate abi pageLen dir itemLen percpuLen maxNrCpus mmapFunc flags
      callocSucceeds = .ok (dir', .ok i)) :
    (dir'.slots i).pool.Shape abi ∧ (dir'.slots i).pool.freeListHead = 0 ∧
      (dir'.slots i).pool.nextUnused = 0 ∧ held i = [] := by
  obtain ⟨-, -, -, -, -, -, -, -, -, hslot, -, -, -, hhead, hnext, -⟩ :=
    rseqPercpuPoolCreate_eq_ok hcall
  obtain ⟨hzero, hnil⟩ := (hinv i).empty (findEmptySlot_eq_some hslot).2.2
  rw [hzero] at hhead hnext
  exact ⟨rseqPercpuPoolCreate_shape hcall (by rw [hzero]; rfl), hhead, hnext, hnil⟩

theorem create (hinv : DirInv abi dir held) {result : Except Errno Nat}
    (hcall : rseqPercpuPoolCreate abi pageLen dir itemLen percpuLen maxNrCpus mmapFunc flags
      callocSucceeds = .ok (dir', result)) : DirInv abi dir' held := by
  cases result with
  | error e => exact rseqPercpuPoolCreate_eq_error hcall ▸ hinv
  | ok i =>
    obtain ⟨-, -, -, -, -, -, -, -, -, -, -, hbase, hindex, -, -, -, hdir⟩ :=
      rseqPercpuPoolCreate_eq_ok hcall
    obtain ⟨hshape, hhead, -, hnil⟩ := hinv.created hcall
    have hslotInv : SlotInv abi i (dir'.slots i) (held i) :=
      ⟨fun h => absurd h hbase, fun _ => ⟨hindex, hnil ▸ TrailInv.init hshape hhead _⟩⟩
    have hset := hinv.set hslotInv
    rw [Function.update_eq_self] at hset
    rw [hdir] at hset ⊢
    simpa using hset

end Create

theorem destroy (hinv : DirInv abi dir held) {i : Nat} {munmapFunc : Nat → Nat → Int × Nat}
    {ret : Int} {err : Option Errno}
    (hcall : rseqPercpuPoolDestroy abi dir i munmapFunc = .ok (dir', ret, err)) :
    DirInv abi dir' (if err = none then Function.update held i [] else held) := by
  obtain ⟨-, ⟨-, rfl, rfl⟩ | ⟨-, -, rfl, rfl⟩ | ⟨-, -, -, rfl, rfl⟩⟩ :=
    rseqPercpuPoolDestroy_eq_ok hcall
  · exact hinv
  · exact hinv
  · exact hinv.set ⟨fun _ => ⟨rfl, rfl⟩, fun h => absurd rfl h⟩

theorem malloc (hinv : DirInv abi dir held) {i h : Nat} {s' : PoolState} {zeroed : Bool}
    (hlive : (dir.slots i).pool.base ≠ 0)
    (hcall : rseqPercpuMallocImpl abi (dir.slots i) zeroed = .ok (s', .ok h)) :
    DirInv abi (dir.set i s') (Function.update held i (h :: held i)) :=
  hinv.set (hinv.slotInv_of_live hlive (rseqPercpuMallocImpl_geometry hcall)
    (((hinv i).live hlive).2.malloc hcall).1)

theorem full (hinv : DirInv abi dir held) {i : Nat} {s' : PoolState} {zeroed : Bool}
    {e : Errno} (hcall : rseqPercpuMallocImpl abi (dir.slots i) zeroed = .ok (s', .error e)) :
    DirInv abi (dir.set i s') held := by
  obtain ⟨rfl, -⟩ := rseqPercpuMallocImpl_eq_error hcall
  have hset := hinv.set (hinv i)
  rwa [Function.update_eq_self] at hset

theorem free (hinv : DirInv abi dir held) {i h : Nat} (hheld : h ∈ held i)
    (hcall : rseqPercpuFree abi dir h = .ok dir') :
    DirInv abi dir' (Function.update held i ((held i).erase h)) := by
  obtain ⟨hlive, hindex, -⟩ := hinv.held_spec hheld
  obtain ⟨s', hlock, rfl⟩ := rseqPercpuFree_eq_ok.1 hcall
  rw [hindex] at hlock ⊢
  exact hinv.set (hinv.slotInv_of_live hlive (freeLocked_geometry hlock)
    (((hinv i).live hlive).2.free hheld hlock))

/-- A free of a held handle that returns is a step of the live pool of the handle's slot. -/
theorem free_poolStep (hinv : DirInv abi dir held) {i h : Nat} (hheld : h ∈ held i)
    (hcall : rseqPercpuFree abi dir h = .ok dir') :
    (dir.slots i).pool.base ≠ 0 ∧ ∃ s', dir' = dir.set i s' ∧
      PoolStep abi (dir.slots i, held i) (s', (held i).erase h) := by
  obtain ⟨hlive, hindex, -⟩ := hinv.held_spec hheld
  obtain ⟨s', hlock, rfl⟩ := rseqPercpuFree_eq_ok.1 hcall
  rw [hindex] at hlock ⊢
  exact ⟨hlive, s', rfl, .free hheld hlock (hindex.trans ((hinv i).live hlive).1.symm)⟩

/-- Every call keeps the invariant. -/
theorem step (hinv : DirInv abi dir held) (hstep : DirStep abi (dir, held) (dir', held')) :
    DirInv abi dir' held' := by
  cases hstep with
  | create _ _ _ _ _ _ _ hcall => exact hinv.create hcall
  | destroy _ hcall => exact hinv.destroy hcall
  | malloc _ hlive hcall => exact hinv.malloc hlive hcall
  | full _ _ hcall => exact hinv.full hcall
  | free hheld hcall => exact hinv.free hheld hcall

/-- Every history keeps the invariant. -/
theorem run {σ σ' : Directory × (Nat → List Nat)} (hinv : DirInv abi σ.1 σ.2)
    (hrun : Relation.ReflTransGen (DirStep abi) σ σ') : DirInv abi σ'.1 σ'.2 := by
  induction hrun with
  | refl => exact hinv
  | tail _ hstep ih => exact ih.step hstep

/-- An allocation on a live slot of a directory that keeps the invariant returns the handle of
the item its locked section hands out: non-`NULL`, carrying the pool's index, and reaching the
item through `__rseq_percpu_ptr` and `rseq_percpu_free`. -/
theorem malloc_handle (hinv : DirInv abi dir held) {i h : Nat} {s' : PoolState}
    {zeroed : Bool} (hlive : (dir.slots i).pool.base ≠ 0)
    (hcall : rseqPercpuMallocImpl abi (dir.slots i) zeroed = .ok (s', .ok h)) :
    ∃ s₁ itemOffset, mallocLocked abi (dir.slots i) = .ok (s₁, some itemOffset) ∧
      h = encodeAddr abi (dir.slots i).pool.index itemOffset ∧ h ≠ 0 ∧
      handlePoolIndex abi h = (dir.slots i).pool.index ∧ handleItemOffset abi h = itemOffset ∧
      (∀ cpu,
        rseqPercpuPtr abi (dir.set i s') h cpu = rseqPoolPercpuPtr abi s'.pool cpu itemOffset) ∧
      rseqPercpuFree abi (dir.set i s') h =
        (fun s'' => (dir.set i s').set i s'') <$> freeLocked abi s' itemOffset := by
  obtain ⟨hindex, htrail⟩ := (hinv i).live hlive
  obtain ⟨s₁, slot, hlock, ⟨-, -, hres⟩ | ⟨itemOffset, rfl, hres, -⟩⟩ :=
    rseqPercpuMallocImpl_eq_ok hcall <;> cases hres
  obtain ⟨-, hlt, hdec⟩ := htrail.mallocLocked hlock
  have hs := htrail.shape
  have hoff := hs.offset_lt_maxPoolLen hlt
  have hidx : handlePoolIndex abi (encodeAddr abi (dir.slots i).pool.index itemOffset) = i := by
    rw [handlePoolIndex_encodeAddr hs.index_lt hoff, hindex]
  refine ⟨s₁, itemOffset, hlock, rfl, encodeAddr_ne_zero hs.index_pos hs.index_lt hoff,
    hidx.trans hindex.symm, hdec, fun cpu => ?_, ?_⟩
  · rw [rseqPercpuPtr, hidx, hdec, Directory.set_slots_self]
  · unfold rseqPercpuFree
    dsimp only
    rw [hidx, hdec, Directory.set_slots_self]
    cases freeLocked abi s' itemOffset <;> rfl

end DirInv

/-- Every directory a history reaches: slot 0 is never live, a live slot sits at its own index,
an empty slot is all-zero, failed creates and destroys change no slot, and every handle an
allocation on a live pool returns is non-`NULL` and reaches its pool and the item the locked
section handed out through `__rseq_percpu_ptr` and `rseq_percpu_free`. -/
theorem dirInv_reachable {abi : Abi} {memory : Memory} {dir : Directory}
    {held : Nat → List Nat}
    (hrun : Relation.ReflTransGen (DirStep abi) (Directory.init memory, fun _ => []) (dir, held)) :
    (dir.slots 0).pool.base = 0 ∧
    (∀ i, (dir.slots i).pool.base ≠ 0 → (dir.slots i).pool.index = i) ∧
    (∀ i, (dir.slots i).pool.base = 0 → (dir.slots i).pool = Pool.zero) ∧
    (∀ pageLen itemLen percpuLen maxNrCpus mmapFunc flags callocSucceeds dir' e,
      rseqPercpuPoolCreate abi pageLen dir itemLen percpuLen maxNrCpus mmapFunc flags
        callocSucceeds = .ok (dir', .error e) → dir' = dir) ∧
    (∀ i munmapFunc dir' ret e,
      rseqPercpuPoolDestroy abi dir i munmapFunc = .ok (dir', ret, some e) → dir' = dir) ∧
    (∀ i zeroed s' h, (dir.slots i).pool.base ≠ 0 →
      rseqPercpuMallocImpl abi (dir.slots i) zeroed = .ok (s', .ok h) →
      ∃ s₁ itemOffset, mallocLocked abi (dir.slots i) = .ok (s₁, some itemOffset) ∧
        h = encodeAddr abi (dir.slots i).pool.index itemOffset ∧ h ≠ 0 ∧
        handlePoolIndex abi h = (dir.slots i).pool.index ∧ handleItemOffset abi h = itemOffset ∧
        (∀ cpu, rseqPercpuPtr abi (dir.set i s') h cpu =
          rseqPoolPercpuPtr abi s'.pool cpu itemOffset) ∧
        rseqPercpuFree abi (dir.set i s') h =
          (fun s'' => (dir.set i s').set i s'') <$> freeLocked abi s' itemOffset) := by
  have hinv : DirInv abi dir held := (DirInv.init memory).run hrun
  refine ⟨?_, fun i hlive => ((hinv i).live hlive).1, fun i h0 => ((hinv i).empty h0).1,
    fun _ _ _ _ _ _ _ _ _ hcall => rseqPercpuPoolCreate_eq_error hcall,
    fun _ _ _ _ _ hcall => rseqPercpuPoolDestroy_eq_error hcall,
    fun _ _ _ _ hlive hcall => hinv.malloc_handle hlive hcall⟩
  by_contra hlive
  obtain ⟨hindex, htrail⟩ := (hinv 0).live hlive
  exact absurd htrail.shape.index_pos (by rw [hindex]; exact Nat.lt_irrefl 0)

/-- The directory after one create of a pool of 16-byte items. -/
theorem dirInv_reachable_lp64 :
    Relation.ReflTransGen (DirStep .lp64) (Directory.init fun _ => .byte 0, fun _ => [])
      ((Directory.init fun _ => .byte 0).set 1
        ⟨⟨4096, 1, 16, 4096, 4, 4, 0, 0, none⟩, fun _ => .byte 0⟩, fun _ => []) ∧
    (((Directory.init fun _ => .byte 0).set 1
        ⟨⟨4096, 1, 16, 4096, 4, 4, 0, 0, none⟩, fun _ => .byte 0⟩).slots 0).pool.base = 0 :=
  ⟨.single (.create 4096 16 4096 4 0 _ false rseqPercpuPoolCreate_lp64),
    (dirInv_reachable (.single (.create 4096 16 4096 4 0 _ false rseqPercpuPoolCreate_lp64))).1⟩

/-- A pool that create returns in a reachable directory, with a mapping length that fits in a
`size_t`, keeps the free-list invariant along every history of allocations, frees, and writes
of the program into the items it holds. -/
theorem FreeListInv.of_create {abi : Abi} {memory : Memory} {dir dir' : Directory}
    {held : Nat → List Nat} {pageLen itemLen percpuLen : Nat} {maxNrCpus flags : Int}
    {mmapFunc : Nat → MmapResult} {callocSucceeds : Bool} {i : Nat} {s : PoolState}
    {live : List Nat}
    (hdir : Relation.ReflTransGen (DirStep abi) (Directory.init memory, fun _ => []) (dir, held))
    (hcall : rseqPercpuPoolCreate abi pageLen dir itemLen percpuLen maxNrCpus mmapFunc flags
      callocSucceeds = .ok (dir', .ok i))
    (hw : (dir'.slots i).pool.NoWrap abi)
    (hrun : Relation.ReflTransGen (PoolStep abi) (dir'.slots i, []) (s, live)) :
    FreeListInv abi s live := by
  obtain ⟨hshape, hhead, hnext, -⟩ := ((DirInv.init memory).run hdir).created hcall
  exact (FreeListInv.init hshape hhead hnext (dir'.slots i).memory).run hw hrun

/-- A pool that create returns in a reachable directory, with a mapping length that fits in a
`size_t`, keeps the contract's free list along every history of allocations, frees, and writes
of the program into the items it holds. -/
theorem freeList_of_create {abi : Abi} {memory : Memory} {dir dir' : Directory}
    {held : Nat → List Nat} {pageLen itemLen percpuLen : Nat} {maxNrCpus flags : Int}
    {mmapFunc : Nat → MmapResult} {callocSucceeds : Bool} {i : Nat} {s : PoolState}
    {live : List Nat}
    (hdir : Relation.ReflTransGen (DirStep abi) (Directory.init memory, fun _ => []) (dir, held))
    (hcall : rseqPercpuPoolCreate abi pageLen dir itemLen percpuLen maxNrCpus mmapFunc flags
      callocSucceeds = .ok (dir', .ok i))
    (hw : (dir'.slots i).pool.NoWrap abi)
    (hrun : Relation.ReflTransGen (PoolStep abi) (dir'.slots i, []) (s, live)) :
    FreeListSpec abi s live :=
  (FreeListInv.of_create hdir hcall hw hrun).spec

/-- A pool of 16-byte items in one 4 KiB page on each of 4 CPUs, after two allocations, the
free of the second handle and a write into the first item on CPU 3: the free list is the second
item and the cursor is past both. -/
theorem freeList_of_create_lp64 :
    ∃ dir' s, rseqPercpuPoolCreate .lp64 4096 (Directory.init fun _ => .byte 0) 16 4096 4
        (fun _ => ⟨4096, fun _ => .byte 0, 0⟩) 0 false = .ok (dir', .ok 1) ∧
      (dir'.slots 1).pool.NoWrap .lp64 ∧
      Relation.ReflTransGen (PoolStep .lp64) (dir'.slots 1, []) (s, [2 ^ 48]) ∧
      s.pool.freeListHead = 4096 + 16 ∧ s.pool.nextUnused = 32 ∧
      FreeListSpec .lp64 s [2 ^ 48] := by
  have hcall := rseqPercpuPoolCreate_lp64
  have hw : (4096 * 4 : Nat) < Abi.lp64.wordSize := by decide
  have hrun : Relation.ReflTransGen (PoolStep .lp64)
      (((Directory.init fun _ => .byte 0).set 1
        ⟨⟨4096, 1, 16, 4096, 4, 4, 0, 0, none⟩, fun _ => .byte 0⟩).slots 1, []) (_, [2 ^ 48]) :=
    .tail (.tail (.tail (.single (.malloc false rfl)) (.malloc false rfl))
      (.free (List.mem_cons_self _ _) rfl (by decide)))
      (.write (.byte 42) (List.mem_singleton_self _) (show 3 < 4 by decide)
        (show 5 < 16 by decide) (by decide))
  exact ⟨_, _, hcall, hw, hrun, rfl, rfl, freeList_of_create .refl hcall hw hrun⟩

/-- In the wrapping pool, after two allocations and the free of the second item, the program
writes the eight bytes of the integer 7 into the first item on CPU 80660, which is the link of
the free second item: the free list goes on to address 7, no item of the pool. -/
theorem freeList_of_create_wrapping :
    ∃ dir' s live, rseqPercpuPoolCreate .lp64 4096 (Directory.init fun _ => .byte 0) (2 ^ 46)
        (13 * 2 ^ 44) 80661 (fun _ => ⟨4096, fun _ => .byte 0, 0⟩) 0 false = .ok (dir', .ok 1) ∧
      Relation.ReflTransGen (PoolStep .lp64) (dir'.slots 1, []) (s, live) ∧
      ¬ FreeListSpec .lp64 s live := by
  refine ⟨_, _, _, rseqPercpuPoolCreate_wrapping 80661,
    .trans (.tail (.tail (.single (.malloc false rfl)) (.malloc false rfl))
      (.free (List.mem_cons_self _ _) rfl (by decide)))
      (PoolStep.write_int (i := 0) 7 (List.mem_singleton_self _)
        (show 80660 < 80661 by decide) rfl 8 (by decide) (by decide)),
    fun hspec => ?_⟩
  obtain ⟨nodes, hc, -, hmem⟩ := hspec.freeList
  have hnodes := hc.unique (.cons (by decide) (show _ = some 7 by decide)
    (.cons (by decide) (show _ = some 0 by decide) .null))
  obtain ⟨o, ho, -⟩ := (hmem 7).1 (hnodes ▸ List.mem_cons_of_mem _ (List.mem_singleton_self _))
  exact Nat.ne_of_lt (Nat.lt_add_right o (show 7 < 4096 by decide)) ho

/-- For a pool create returns with at least one CPU and a mapping length `percpu_len *
max_nr_cpus` that fits in a `size_t`: the length create passes to `mmap_func` is the exact
product, and the pool's base is what the callback returned for it; every access of the
allocator to an item within `percpu_len`, on every CPU below `max_nr_cpus` and on CPU 0, stays
inside the mapping; and along every history of the pool the base and the length destroy would
pass to `munmap_func` stay those of the mapping. -/
theorem rseqPercpuPoolCreate_mapping {abi : Abi} {pageLen itemLen percpuLen : Nat}
    {maxNrCpus flags : Int} {mmapFunc : Nat → MmapResult} {callocSucceeds : Bool}
    {dir dir' : Directory} {i : Nat}
    (hcall : rseqPercpuPoolCreate abi pageLen dir itemLen percpuLen maxNrCpus mmapFunc flags
      callocSucceeds = .ok (dir', .ok i))
    (hw : (dir'.slots i).pool.NoWrap abi) (hcpus : 0 < (dir'.slots i).pool.maxNrCpus) :
    let pool := (dir'.slots i).pool
    let mapLen := pool.percpuLen * pool.maxNrCpus % abi.wordSize
    mapLen = pool.percpuLen * pool.maxNrCpus ∧ pool.base = (mmapFunc mapLen).base ∧
    (∀ itemOffset cpu, itemOffset + pool.itemLen ≤ pool.percpuLen →
      cpu < pool.maxNrCpus ∨ cpu = 0 →
      pool.base ≤ rseqPoolPercpuPtr abi pool cpu itemOffset ∧
      rseqPoolPercpuPtr abi pool cpu itemOffset + pool.itemLen ≤ pool.base + mapLen) ∧
    ∀ live s live', Relation.ReflTransGen (PoolStep abi) (dir'.slots i, live) (s, live') →
      s.pool.base = pool.base ∧
      s.pool.percpuLen * s.pool.maxNrCpus % abi.wordSize = mapLen := by
  obtain ⟨-, -, -, -, -, -, -, -, -, -, hbase, -⟩ := rseqPercpuPoolCreate_eq_ok hcall
  dsimp only at hbase ⊢
  have hmap := Nat.mod_eq_of_lt hw
  refine ⟨hmap, hbase, fun itemOffset cpu hoff hcpu => ?_, fun live s live' hrun => ?_⟩
  · have hcpu' : cpu < (dir'.slots i).pool.maxNrCpus := hcpu.elim id fun h => h ▸ hcpus
    have hle := Nat.mul_le_mul_left (dir'.slots i).pool.percpuLen (Nat.succ_le_of_lt hcpu')
    rw [Nat.mul_succ] at hle
    rw [rseqPoolPercpuPtr, Pool.percpu_mod_eq hw (.inl hcpu'), hmap]
    omega
  · have hgeo := PoolStep.run_geometry hrun
    simp only [Pool.geometry, Prod.mk.injEq] at hgeo
    obtain ⟨hb, -, -, hp, -, hm⟩ := hgeo
    exact ⟨hb, by rw [hp, hm]⟩

/-- A pool of 16-byte items in one 4 KiB page on each of 4 CPUs, created first. -/
theorem rseqPercpuPoolCreate_mapping_lp64 :
    ∃ dir', rseqPercpuPoolCreate .lp64 4096 (Directory.init fun _ => .byte 0) 16 4096 4
        (fun _ => ⟨4096, fun _ => .byte 0, 0⟩) 0 false = .ok (dir', .ok 1) ∧
      (dir'.slots 1).pool.NoWrap .lp64 ∧ 0 < (dir'.slots 1).pool.maxNrCpus ∧
      (dir'.slots 1).pool.percpuLen * (dir'.slots 1).pool.maxNrCpus % Abi.lp64.wordSize =
        (dir'.slots 1).pool.percpuLen * (dir'.slots 1).pool.maxNrCpus := by
  have hcall := rseqPercpuPoolCreate_lp64
  have hw : (4096 * 4 : Nat) < Abi.lp64.wordSize := by decide
  exact ⟨_, hcall, hw, by decide, (rseqPercpuPoolCreate_mapping hcall hw (by decide)).1⟩

/-- In the wrapping pool the length passed to `mmap_func` is `17 * 2^44`, not the product
`13 * 2^44 * 80661`, and the second item on CPU 1 already ends past the mapping. -/
theorem rseqPercpuPoolCreate_mapping_wrapping :
    ∃ dir', rseqPercpuPoolCreate .lp64 4096 (Directory.init fun _ => .byte 0) (2 ^ 46)
        (13 * 2 ^ 44) 80661 (fun _ => ⟨4096, fun _ => .byte 0, 0⟩) 0 false = .ok (dir', .ok 1) ∧
      let pool := (dir'.slots 1).pool
      pool.percpuLen * pool.maxNrCpus % Abi.lp64.wordSize ≠ pool.percpuLen * pool.maxNrCpus ∧
      2 ^ 46 + pool.itemLen ≤ pool.percpuLen ∧
      pool.base + pool.percpuLen * pool.maxNrCpus % Abi.lp64.wordSize <
        rseqPoolPercpuPtr .lp64 pool 1 (2 ^ 46) + pool.itemLen :=
  ⟨_, rseqPercpuPoolCreate_wrapping 80661, by decide, by decide, by decide⟩

end Librseq
