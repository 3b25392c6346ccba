import Librseq.Percpu.System

/-!
# Reuse of freed items

`rseq_percpu_free` pushes the freed item on the free list and `__rseq_percpu_malloc` pops the
head first, so a free followed by an allocation hands the same item straight back
(`rseqPercpuMallocImpl_after_free`). Over the histories of a pool whose mapping length fits in a
`size_t`, `FreeListInv` then gives the two reuse laws: a free and an allocation undo each
other (`free_then_malloc`), and an allocation fails with `ENOMEM` exactly when every item the
pool has room for is held (`capacity_of_create`).

When the mapping length wraps, both laws fail. A high CPU's copy of an item lies in CPU 0's copy
of another, so a link the program overwrites on that CPU hands out a forged handle whose index
bits name another slot, and freeing that live handle is undefined (`free_then_malloc_wrapping`).
And the copies of an item on the higher CPUs lie past the wrapped mapping, so a `zmalloc` after a
free is undefined instead of returning a handle (`capacity_of_create_wrapping`).
-/

namespace Librseq

section AfterFree

variable {abi : Abi} {s s₁ : PoolState} {itemOffset : Nat}

/-- After a free, the locked section of an allocation pops the freed item and restores the
head the free replaced. -/
theorem mallocLocked_after_free (hbase : 0 < s.pool.base)
    (hfree : freeLocked abi s itemOffset = .ok s₁) :
    mallocLocked abi s₁ = .ok ({ s₁ with pool := { s₁.pool with
      freeListHead := s.pool.freeListHead } }, some itemOffset) := by
  obtain ⟨bitmap, -, hmapped, rfl⟩ := freeLocked_eq_ok.1 hfree
  rw [mallocLocked_pop (by dsimp only; rw [rseqPoolPercpuPtr_zero]; omega) hmapped
    (Memory.loadPtr_storePtr _ _)]
  simp only [rseqPoolPercpuPtr_zero, Nat.add_sub_cancel_left]

/-- After a free, an allocation returns the freed item's handle, and leaves the pool as before
the free but for the bitmap the free updated; for `zmalloc`, provided every CPU's copy of the
item lies in the mapping. -/
theorem rseqPercpuMallocImpl_after_free (hbase : 0 < s.pool.base)
    (hfree : freeLocked abi s itemOffset = .ok s₁) (zeroed : Bool)
    (hzero : zeroed = true → ∀ cpu < s.pool.maxNrCpus,
      s.pool.InMapping abi (rseqPoolPercpuPtr abi s.pool cpu itemOffset) s.pool.itemLen) :
    ∃ s₂, rseqPercpuMallocImpl abi s₁ zeroed =
        .ok (s₂, .ok (encodeAddr abi s.pool.index itemOffset)) ∧
      s₂.pool = { s₁.pool with freeListHead := s.pool.freeListHead } := by
  have hlock := mallocLocked_after_free hbase hfree
  obtain ⟨bitmap, -, -, rfl⟩ := freeLocked_eq_ok.1 hfree
  exact rseqPercpuMallocImpl_of_some hlock hzero

end AfterFree

/-- With the cursor on an item boundary within `percpu_len`, the items below it number at most
the capacity `percpu_len >> item_order`, and all of them exactly when no further item fits. -/
theorem Pool.Shape.full_iff {abi : Abi} {pool : Pool} (hs : pool.Shape abi) :
    pool.nextUnused / pool.itemLen ≤ pool.percpuLen >>> pool.itemOrder ∧
    (pool.percpuLen < pool.nextUnused + pool.itemLen ↔
      pool.nextUnused / pool.itemLen = pool.percpuLen >>> pool.itemOrder) := by
  obtain ⟨k, hk⟩ := hs.dvd_nextUnused
  have hpos := hs.itemLen_pos
  have hle := hs.nextUnused_le
  rw [Nat.shiftRight_eq_div_pow, ← hs.itemLen_eq, hk, Nat.mul_div_cancel_left _ hpos]
  rw [hk] at hle
  have hkle : k ≤ pool.percpuLen / pool.itemLen :=
    (Nat.le_div_iff_mul_le hpos).2 (by rw [Nat.mul_comm]; exact hle)
  have hlt : pool.percpuLen < pool.itemLen * k + pool.itemLen ↔
      pool.percpuLen / pool.itemLen < k + 1 := by
    rw [Nat.div_lt_iff_lt_mul hpos, Nat.succ_mul, Nat.mul_comm]
  rw [hlt]
  omega

namespace FreeListInv

variable {abi : Abi} {s : PoolState} {live : List Nat}

/-- The live handles number the items below the cursor, less the free ones, and all of them
exactly when the free list is empty. -/
theorem length_live (hinv : FreeListInv abi s live) :
    live.length ≤ s.pool.nextUnused / s.pool.itemLen ∧
    (live.length = s.pool.nextUnused / s.pool.itemLen ↔ s.pool.freeListHead = 0) := by
  obtain ⟨free, hc, hp⟩ := hinv.chain
  have hlen := hp.length_eq
  simp only [List.length_append, List.length_map, Pool.slots, List.length_range] at hlen
  refine ⟨by omega, ⟨fun h => ?_, fun h => ?_⟩⟩
  · have hnil : free = [] := List.length_eq_zero.1 (by omega)
    subst hnil
    exact hc.head_eq_zero
  · rw [h] at hc
    have hnil : free = [] := List.map_eq_nil_iff.1 hc.nil_of_head_eq_zero
    subst hnil
    simpa using hlen

end FreeListInv

/-- An allocation ends with `ENOMEM` exactly when the free list is empty and no further item
fits below `percpu_len`. -/
theorem rseqPercpuMallocImpl_enomem_iff {abi : Abi} {s : PoolState} {zeroed : Bool} :
    (∃ s', rseqPercpuMallocImpl abi s zeroed = .ok (s', .error .ENOMEM)) ↔
      s.pool.freeListHead = 0 ∧
        s.pool.percpuLen < (s.pool.nextUnused + s.pool.itemLen) % abi.wordSize := by
  constructor
  · rintro ⟨s', h⟩
    exact (rseqPercpuMallocImpl_eq_error h).2.2
  · rintro ⟨hhead, hfull⟩
    exact ⟨s, rseqPercpuMallocImpl_full hhead hfull⟩

section Created

variable {abi : Abi} {memory : Memory} {dir dir' : Directory} {held : Nat → List Nat}
  {pageLen itemLen percpuLen : Nat} {maxNrCpus flags : Int} {mmapFunc : Nat → MmapResult}
  {callocSucceeds : Bool} {i : Nat} {s : PoolState} {live : List Nat}
  (hdir : Relation.ReflTransGen (DirStep abi) (Directory.init memory, fun _ => []) (dir, held))
  (hcall : rseqPercpuPoolCreate abi pageLen dir itemLen percpuLen maxNrCpus mmapFunc flags
    callocSucceeds = .ok (dir', .ok i))
  (hw : (dir'.slots i).pool.NoWrap abi)
  (hrun : Relation.ReflTransGen (PoolStep abi) (dir'.slots i, []) (s, live))
include hdir hcall hw hrun

/-- In a pool that create returns in a reachable directory, with a mapping length that fits in
a `size_t`, freeing a live handle and allocating again, whenever the free returns, hands back
the same handle and restores the free-list head and the cursor as they were before the free. -/
theorem free_then_malloc {h : Nat} {s₁ : PoolState} (hlive : h ∈ live)
    (hfree : freeLocked abi s (handleItemOffset abi h) = .ok s₁) (zeroed : Bool) :
    ∃ s₂, rseqPercpuMallocImpl abi s₁ zeroed = .ok (s₂, .ok h) ∧
      s₂.pool.freeListHead = s.pool.freeListHead ∧ s₂.pool.nextUnused = s.pool.nextUnused := by
  have hinv := FreeListInv.of_create hdir hcall hw hrun
  obtain ⟨s₂, hmalloc, hpool⟩ :=
    rseqPercpuMallocImpl_after_free hinv.shape.base_pos hfree zeroed fun _ _ hcpu => by
      simpa using hinv.live_inMapping ((Pool.noWrap_congr (PoolStep.run_geometry hrun)).2 hw)
        hlive hcpu (i := 0) (Nat.zero_add _).le
  obtain ⟨bitmap, -, -, rfl⟩ := freeLocked_eq_ok.1 hfree
  rw [← hinv.handles h hlive] at hmalloc
  exact ⟨s₂, hmalloc, by rw [hpool], by rw [hpool]⟩

omit hdir hcall hw hrun in
/-- One allocation in a fresh pool of 16-byte items, and the free of its handle. -/
theorem free_then_malloc_lp64 :
    ∃ dir' s live s₁ s₂, rseqPercpuPoolCreate .lp64 4096 (Directory.init fun _ => .byte 0) 16
        4096 4 (fun _ => ⟨4096, fun _ => .byte 0, 0⟩) 0 false = .ok (dir', .ok 1) ∧
      Relation.ReflTransGen (PoolStep .lp64) (dir'.slots 1, []) (s, live) ∧ 2 ^ 48 ∈ live ∧
      freeLocked .lp64 s (handleItemOffset .lp64 (2 ^ 48)) = .ok s₁ ∧
      rseqPercpuMallocImpl .lp64 s₁ false = .ok (s₂, .ok (2 ^ 48)) := by
  obtain ⟨s₂, hmalloc, -⟩ := free_then_malloc .refl rseqPercpuPoolCreate_lp64
    (show 4096 * 4 < Abi.lp64.wordSize by decide) (.single (.malloc false rfl))
    (List.mem_singleton_self _) rfl false
  exact ⟨_, _, _, _, s₂, rseqPercpuPoolCreate_lp64, .single (.malloc false rfl),
    List.mem_singleton_self _, rfl, hmalloc⟩

omit hdir hcall hw hrun in
/-- In the pool of `2^46`-byte items on 80663 CPUs, whose wrapped mapping is `43 * 2^44` bytes,
the program writes the integer `4096 + 2^49` into its first item on CPU 80660, over the link of
the freed second item. Two allocations follow the forged link and hand out the handle
`3 * 2^48`, whose index bits name the empty slot 3: `rseq_percpu_free` of that live handle
stores its link at `NULL`. -/
theorem free_then_malloc_wrapping :
    ∃ dir' s live h, rseqPercpuPoolCreate .lp64 4096 (Directory.init fun _ => .byte 0)
        (2 ^ 46) (13 * 2 ^ 44) 80663 (fun _ => ⟨4096, fun _ => .byte 0, 0⟩) 0 false =
        .ok (dir', .ok 1) ∧
      Relation.ReflTransGen (PoolStep .lp64) (dir'.slots 1, []) (s, live) ∧ h ∈ live ∧
      handlePoolIndex .lp64 h = 3 ∧ rseqPercpuFree .lp64 (dir'.set 1 s) h = .error .undefined := by
  exact ⟨_, _, _, _, rseqPercpuPoolCreate_wrapping 80663,
    .tail (.tail (.trans (.tail (.tail (.single (.malloc false rfl)) (.malloc false rfl))
      (.free (List.mem_cons_self _ _) rfl (by decide)))
      (PoolStep.write_int (i := 0) (4096 + 2 ^ 49) (List.mem_singleton_self _)
        (show 80660 < 80663 by decide) rfl 8 (by decide) (by decide)))
      (.malloc false (by exact rfl))) (.malloc false (by exact rfl)),
    List.mem_cons_self _ _, by decide, by exact rfl⟩

/-- In a pool that create returns in a reachable directory, with a mapping length that fits in
a `size_t`: the live handles never outnumber the capacity `percpu_len >> item_order`; an
allocation ends with `ENOMEM` exactly when they reach it; and after any free of a live handle
that returns, the next allocation returns a handle. -/
theorem capacity_of_create (zeroed : Bool) :
    live.length ≤ s.pool.percpuLen >>> s.pool.itemOrder ∧
    ((∃ s', rseqPercpuMallocImpl abi s zeroed = .ok (s', .error .ENOMEM)) ↔
      live.length = s.pool.percpuLen >>> s.pool.itemOrder) ∧
    ∀ h ∈ live, ∀ s₁, freeLocked abi s (handleItemOffset abi h) = .ok s₁ →
      ∃ s₂ h', rseqPercpuMallocImpl abi s₁ zeroed = .ok (s₂, .ok h') := by
  have hinv := FreeListInv.of_create hdir hcall hw hrun
  have hs := hinv.shape
  obtain ⟨hcap, hfull⟩ := hs.full_iff
  obtain ⟨hlen, hhead⟩ := hinv.length_live
  refine ⟨Nat.le_trans hlen hcap, ?_, fun h hh s₁ hfree => ?_⟩
  · rw [rseqPercpuMallocImpl_enomem_iff, Nat.mod_eq_of_lt hs.nextUnused_add_lt, hfull, ← hhead]
    omega
  · obtain ⟨s₂, hmalloc, -⟩ := rseqPercpuMallocImpl_after_free hs.base_pos hfree zeroed
      fun _ _ hcpu => by
        simpa using hinv.live_inMapping ((Pool.noWrap_congr (PoolStep.run_geometry hrun)).2 hw)
          hh hcpu (i := 0) (Nat.zero_add _).le
    exact ⟨s₂, _, hmalloc⟩

omit hdir hcall hw hrun in
/-- A pool of 16-byte items in one 4 KiB page on each of 4 CPUs, after two allocations and the
free of the first handle: the one live handle is below the capacity of 256 items, so `zmalloc`
does not fail with `ENOMEM`, and after the free of the live handle `zmalloc` returns a
handle. -/
theorem capacity_of_create_lp64 :
    ∃ dir' s s₁, rseqPercpuPoolCreate .lp64 4096 (Directory.init fun _ => .byte 0) 16 4096 4
        (fun _ => ⟨4096, fun _ => .byte 0, 0⟩) 0 false = .ok (dir', .ok 1) ∧
      Relation.ReflTransGen (PoolStep .lp64) (dir'.slots 1, []) (s, [2 ^ 48 + 16]) ∧
      s.pool.percpuLen >>> s.pool.itemOrder = 256 ∧
      (¬ ∃ s', rseqPercpuMallocImpl .lp64 s true = .ok (s', .error .ENOMEM)) ∧
      freeLocked .lp64 s (handleItemOffset .lp64 (2 ^ 48 + 16)) = .ok s₁ ∧
      ∃ s₂ h', rseqPercpuMallocImpl .lp64 s₁ true = .ok (s₂, .ok h') := by
  have hcall := rseqPercpuPoolCreate_lp64
  have hw : (4096 * 4 : Nat) < Abi.lp64.wordSize := by decide
  have hrun : Relation.ReflTransGen (PoolStep .lp64)
      (((Directory.init fun _ => .byte 0).set 1
        ⟨⟨4096, 1, 16, 4096, 4, 4, 0, 0, none⟩, fun _ => .byte 0⟩).slots 1, [])
      (_, [2 ^ 48 + 16]) :=
    .tail (.tail (.single (.malloc false rfl)) (.malloc false rfl))
      (.free (List.mem_cons_of_mem _ (List.mem_singleton_self _)) rfl (by decide))
  obtain ⟨-, henomem, hfree⟩ := capacity_of_create .refl hcall hw hrun true
  exact ⟨_, _, _, hcall, hrun, rfl, fun h => absurd (henomem.1 h) (by decide), rfl,
    hfree _ (List.mem_singleton_self _) _ rfl⟩

omit hdir hcall hw hrun in
/-- In the wrapping pool, after one allocation and the free of its handle, `zmalloc` takes the
item back and clears it on every CPU: the copy on CPU 2 lies past the `17 * 2^44`-byte mapping,
so the call is undefined instead of returning a handle. -/
theorem capacity_of_create_wrapping :
    ∃ dir' s live h s₁, rseqPercpuPoolCreate .lp64 4096 (Directory.init fun _ => .byte 0)
        (2 ^ 46) (13 * 2 ^ 44) 80661 (fun _ => ⟨4096, fun _ => .byte 0, 0⟩) 0 false =
        .ok (dir', .ok 1) ∧
      Relation.ReflTransGen (PoolStep .lp64) (dir'.slots 1, []) (s, live) ∧ h ∈ live ∧
      freeLocked .lp64 s (handleItemOffset .lp64 h) = .ok s₁ ∧
      rseqPercpuMallocImpl .lp64 s₁ true = .error .undefined := by
  refine ⟨_, _, _, _, _, rseqPercpuPoolCreate_wrapping 80661, .single (.malloc false rfl),
    List.mem_singleton_self _, rfl, ?_⟩
  exact rseqPercpuMallocImpl_zero_undefined
    (mallocLocked_pop (by decide) (by decide) (show _ = some 0 by decide)) (by decide)
    (show 2 < 80661 by decide) (by decide)

end Created

end Librseq
