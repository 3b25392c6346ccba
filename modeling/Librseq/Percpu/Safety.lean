import Librseq.Percpu.Bitmap
import Librseq.Percpu.PoolSet

/-!
# Allocations that never fault

`malloc_of_create` follows one pool; `DirSafe` follows every pool of the directory at once.
Along every history of the directory, each live pool whose mapping length
`percpu_len * max_nr_cpus` fits in a `size_t` keeps the free-list invariant over the handles
the program holds from it and a fresh bitmap (`DirSafe.run`), so an allocation on it never
faults, and the pools of a set serve its allocations (`DirSafe.serves`). The main results carry
this to pool sets whose pools all have such a mapping: `poolSetMalloc_of_reachable`, that
`__rseq_percpu_pool_set_malloc` on a set any history reaches returns a handle or `ENOMEM`, and
`poolSet_reachable`, the whole law of the size classes. A set holding a pool whose mapping
length wraps has a `zmalloc` that is undefined (`poolSet_reachable_wrapping`).
-/

namespace Librseq

/-- What every history keeps of each live pool whose mapping length fits in a `size_t`: the
free-list invariant over the handles held from it, and a fresh bitmap. -/
def DirSafe (abi : Abi) (dir : Directory) (held : Nat → List Nat) : Prop :=
  ∀ i, (dir.slots i).pool.base ≠ 0 → (dir.slots i).pool.NoWrap abi →
    FreeListInv abi (dir.slots i) (held i) ∧ (dir.slots i).pool.BitmapFresh abi

namespace DirSafe

variable {abi : Abi} {dir dir' : Directory} {held held' : Nat → List Nat}

/-- The zero-initialised array has no live pool. -/
theorem init (memory : Memory) : DirSafe abi (Directory.init memory) fun _ => [] :=
  fun _ h => absurd rfl h

/-- Replacing one slot by one that keeps the property keeps it. -/
theorem set (hsafe : DirSafe abi dir held) {i : Nat} {s : PoolState} {l : List Nat}
    (hslot : s.pool.base ≠ 0 → s.pool.NoWrap abi →
      FreeListInv abi s l ∧ s.pool.BitmapFresh abi) :
    DirSafe abi (dir.set i s) (Function.update held i l) := by
  intro j
  by_cases hj : j = i
  · subst hj
    simpa using hslot
  · simpa [hj] using hsafe j

/-- A step of a live pool keeps the property. -/
theorem pool (hsafe : DirSafe abi dir held) {i : Nat} {s' : PoolState} {l : List Nat}
    (hlive : (dir.slots i).pool.base ≠ 0)
    (hstep : PoolStep abi (dir.slots i, held i) (s', l)) :
    DirSafe abi (dir.set i s') (Function.update held i l) := by
  refine hsafe.set fun _ hw' => ?_
  have hw := (Pool.noWrap_congr hstep.geometry).1 hw'
  obtain ⟨hinv, hfresh⟩ := hsafe i hlive hw
  exact ⟨hinv.step hw hstep, hfresh.step hinv.shape hstep⟩

/-- Every call on the directory keeps the property. -/
theorem step (hinv : DirInv abi dir held) (hsafe : DirSafe abi dir held)
    (hstep : DirStep abi (dir, held) (dir', held')) : DirSafe abi dir' held' := by
  cases hstep with
  | @create _ _ _ result _ _ _ _ _ _ _ hcall =>
    cases result with
    | error e => exact rseqPercpuPoolCreate_eq_error hcall ▸ hsafe
    | ok i =>
      obtain ⟨-, -, -, -, -, -, -, -, -, -, -, -, -, -, -, -, hdir⟩ :=
        rseqPercpuPoolCreate_eq_ok hcall
      obtain ⟨hshape, hhead, hnext, hnil⟩ := hinv.created hcall
      have hset := hsafe.set (i := i) (l := held i) fun _ _ =>
        ⟨hnil ▸ FreeListInv.init hshape hhead hnext _, hinv.bitmapFresh hcall⟩
      rw [Function.update_eq_self] at hset
      rw [hdir] at hset ⊢
      simpa using hset
  | destroy _ hcall =>
    obtain ⟨-, ⟨-, rfl, rfl⟩ | ⟨-, -, rfl, rfl⟩ | ⟨-, -, -, rfl, rfl⟩⟩ :=
      rseqPercpuPoolDestroy_eq_ok hcall
    · exact hsafe
    · exact hsafe
    · exact hsafe.set fun h => absurd rfl h
  | malloc zeroed hlive hcall => exact hsafe.pool hlive (.malloc zeroed hcall)
  | full zeroed hlive hcall =>
    have hset := hsafe.pool hlive (.full zeroed hcall)
    rwa [Function.update_eq_self] at hset
  | free hheld hcall =>
    obtain ⟨hlive, s', rfl, hstep⟩ := hinv.free_poolStep hheld hcall
    exact hsafe.pool hlive hstep

/-- Beside the directory invariant, the live pools of a set whose mapping lengths fit in a
`size_t` serve its allocations: one that is not full hands out a handle of its own slot. -/
theorem serves (hinv : DirInv abi dir held) (hsafe : DirSafe abi dir held) {set : PoolSet abi}
    (hsinv : PoolSetInv abi dir set)
    (hw : ∀ o p : Nat, set.entries[o]? = some (some p) → (dir.slots p).pool.NoWrap abi)
    (zeroed : Bool) : set.Serves abi dir zeroed := by
  intro o p hp hfull
  have hlive := (hsinv o p hp).1
  obtain ⟨hfl, hfresh⟩ := hsafe p hlive (hw o p hp)
  obtain ⟨s', r, hm⟩ := rseqPercpuMallocImpl_ok (hw o p hp) hfl hfresh zeroed
  cases r with
  | error e => exact absurd hm (rseqPercpuMallocImpl_ne_error hfl.shape hfull)
  | ok h =>
    obtain ⟨-, -, -, -, -, hidx, -⟩ := hinv.malloc_handle hlive hm
    exact ⟨s', h, hm, hidx.trans ((hinv p).live hlive).1⟩

/-- Every history of the directory keeps the property with the directory invariant. -/
theorem run {σ σ' : Directory × (Nat → List Nat)}
    (h : DirInv abi σ.1 σ.2 ∧ DirSafe abi σ.1 σ.2)
    (hrun : Relation.ReflTransGen (DirStep abi) σ σ') :
    DirInv abi σ'.1 σ'.2 ∧ DirSafe abi σ'.1 σ'.2 := by
  induction hrun with
  | refl => exact h
  | tail _ hstep ih => exact ⟨ih.1.step hstep, ih.2.step ih.1 hstep⟩

/-- Every history of a program's pool sets beside the directory keeps the property with the
directory invariant. -/
theorem setRun {τ τ' : (Directory × (Nat → List Nat)) × PoolSet abi}
    (h : DirInv abi τ.1.1 τ.1.2 ∧ DirSafe abi τ.1.1 τ.1.2)
    (hrun : Relation.ReflTransGen (SetStep abi) τ τ') :
    DirInv abi τ'.1.1 τ'.1.2 ∧ DirSafe abi τ'.1.1 τ'.1.2 := by
  induction hrun with
  | refl => exact h
  | tail _ hstep ih =>
    cases hstep with
    | dir hstep => exact ⟨ih.1.step hstep, ih.2.step ih.1 hstep⟩
    | addPool => exact ih

end DirSafe

/-- On a set any history builds beside a reachable directory, all of whose pools have a mapping
length that fits in a `size_t`, `__rseq_percpu_pool_set_malloc` allowed
`POOL_SET_NR_ENTRIES - POOL_SET_MIN_ENTRY` jumps back to `again` neither aborts nor does what C
leaves undefined: it returns a handle, or `NULL` with `ENOMEM` and the directory unchanged. -/
theorem poolSetMalloc_of_reachable {abi : Abi} {memory : Memory}
    {σ₀ : Directory × (Nat → List Nat)} {callocSucceeds : Bool} {set₀ set : PoolSet abi}
    {dir : Directory} {held : Nat → List Nat}
    (hdir : Relation.ReflTransGen (DirStep abi) (Directory.init memory, fun _ => []) σ₀)
    (hcreate : rseqPercpuPoolSetCreate abi callocSucceeds = some set₀)
    (hrun : Relation.ReflTransGen (SetStep abi) (σ₀, set₀) ((dir, held), set))
    (hw : ∀ o p : Nat, set.entries[o]? = some (some p) → (dir.slots p).pool.NoWrap abi)
    (len : Nat) (zeroed : Bool) {retries : Nat}
    (hretries : abi.poolSetNrEntries - abi.poolSetMinEntry ≤ retries) :
    (∃ dir' h,
      rseqPercpuPoolSetMallocImpl abi dir set len zeroed retries = some (.ok (dir', .ok h))) ∨
    rseqPercpuPoolSetMallocImpl abi dir set len zeroed retries =
      some (.ok (dir, .error .ENOMEM)) := by
  rw [rseqPercpuPoolSetCreate_eq_some hcreate] at hrun
  have h₀ := DirSafe.run ⟨DirInv.init memory, DirSafe.init memory⟩ hdir
  obtain ⟨hinv, hsinv⟩ := PoolSetInv.run h₀.1 (PoolSetInv.empty _) hrun
  have hsafe := (DirSafe.setRun h₀ hrun).2
  rcases rseqPercpuPoolSetMallocImpl_outcome (hsinv.classes hinv)
      (hsafe.serves hinv hsinv hw zeroed) len hretries with
    ⟨-, hres⟩ | ⟨_, _, _, h, -, -, -, -, -, -, -, hres⟩
  · exact .inr hres
  · exact .inl ⟨_, h, hres⟩

/-- The one pool of the LP64 set of `reachable_set_lp64` has a mapping length that fits in a
`size_t`. -/
theorem noWrap_of_set_lp64 :
    ∀ o p : Nat, ((PoolSet.empty .lp64).setEntry 4 (some 1)).entries[o]? = some (some p) →
      (((Directory.init fun _ => .byte 0).set 1
        ⟨⟨4096, 1, 16, 4096, 4, 4, 0, 0, none⟩, fun _ => .byte 0⟩).slots p).pool.NoWrap .lp64 := by
  intro o p hp
  simp [PoolSet.setEntry, PoolSet.empty, List.getElem?_set, List.getElem?_replicate] at hp
  split_ifs at hp <;> cases hp
  exact (by decide : 4096 * 4 < Abi.lp64.wordSize)

/-- An LP64 set holding one pool of 16-byte items, built by a history from the
zero-initialised array: a 10-byte allocation from it neither faults nor is undefined. -/
theorem poolSetMalloc_of_reachable_lp64 :
    ∃ σ₀ set,
      Relation.ReflTransGen (DirStep .lp64) (Directory.init fun _ => .byte 0, fun _ => []) σ₀ ∧
      Relation.ReflTransGen (SetStep .lp64) (σ₀, PoolSet.empty .lp64) (σ₀, set) ∧
      set.entries[4]? = some (some 1) ∧
      ((∃ dir' h, rseqPercpuPoolSetMallocImpl .lp64 σ₀.1 set 10 false 45 =
          some (.ok (dir', .ok h))) ∨
        rseqPercpuPoolSetMallocImpl .lp64 σ₀.1 set 10 false 45 =
          some (.ok (σ₀.1, .error .ENOMEM))) := by
  obtain ⟨hdir, hrun⟩ := reachable_set_lp64
  exact ⟨_, _, hdir, hrun, rfl, poolSetMalloc_of_reachable hdir
    (show rseqPercpuPoolSetCreate .lp64 true = some _ from rfl) hrun noWrap_of_set_lp64 10 false
    (by decide)⟩

/-- Every set a history builds from `rseq_percpu_pool_set_create`, beside a reachable directory,
all of whose pools have a mapping length that fits in a `size_t`: each entry is `NULL` or a live
pool of its own order, of items of `2 ^ o` bytes; adding a live pool fails with `EBUSY`, leaving
the set alone, exactly when the entry of its order is taken, and fills that entry otherwise; and
an allocation of any `len`, allowed `POOL_SET_NR_ENTRIES - POOL_SET_MIN_ENTRY` jumps back to
`again`, needs no more and returns a handle from the pool of the least order from `⌈log₂ len⌉`
and `POOL_SET_MIN_ENTRY` on that is non-`NULL` and not full, or `ENOMEM` exactly when every such
pool is full. -/
theorem poolSet_reachable {abi : Abi} {memory : Memory} {σ₀ : Directory × (Nat → List Nat)}
    {callocSucceeds : Bool} {set₀ set : PoolSet abi} {dir : Directory} {held : Nat → List Nat}
    (hdir : Relation.ReflTransGen (DirStep abi) (Directory.init memory, fun _ => []) σ₀)
    (hcreate : rseqPercpuPoolSetCreate abi callocSucceeds = some set₀)
    (hrun : Relation.ReflTransGen (SetStep abi) (σ₀, set₀) ((dir, held), set))
    (hw : ∀ o p : Nat, set.entries[o]? = some (some p) → (dir.slots p).pool.NoWrap abi) :
    (∀ o p : Nat, set.entries[o]? = some (some p) → (dir.slots p).pool.base ≠ 0 ∧
      (dir.slots p).pool.itemOrder = o ∧ (dir.slots p).pool.itemLen = 2 ^ o) ∧
    (∀ p, (dir.slots p).pool.base ≠ 0 →
      (∃ q, set.entries[(dir.slots p).pool.itemOrder]? = some (some q)) ∧
          rseqPercpuPoolSetAddPool abi dir set p = .ok (set, .error .EBUSY) ∨
        set.entries[(dir.slots p).pool.itemOrder]? = some none ∧
          rseqPercpuPoolSetAddPool abi dir set p =
            .ok (set.setEntry (dir.slots p).pool.itemOrder (some p), .ok ())) ∧
    (∀ len zeroed retries, abi.poolSetNrEntries - abi.poolSetMinEntry ≤ retries →
      set.MallocOutcome abi dir len (max (Nat.clog 2 len) abi.poolSetMinEntry) zeroed
        (rseqPercpuPoolSetMallocImpl abi dir set len zeroed retries)) := by
  rw [rseqPercpuPoolSetCreate_eq_some hcreate] at hrun
  have h₀ := DirSafe.run ⟨DirInv.init memory, DirSafe.init memory⟩ hdir
  obtain ⟨hinv, hsinv⟩ := PoolSetInv.run h₀.1 (PoolSetInv.empty _) hrun
  have hsafe := (DirSafe.setRun h₀ hrun).2
  have hcls := hsinv.classes hinv
  refine ⟨fun o p hp => ⟨(hsinv o p hp).1, (hcls o p hp).2, ?_⟩,
    fun p hlive => rseqPercpuPoolSetAddPool_eq ((hinv p).live hlive).2.shape.itemOrder_lt,
    fun len zeroed _ hretries =>
      rseqPercpuPoolSetMallocImpl_outcome hcls (hsafe.serves hinv hsinv hw zeroed) len hretries⟩
  rw [(hcls o p hp).1.itemLen_eq, (hcls o p hp).2]

/-- A set holding a pool of 16-byte items, created first, at order 4: a 10-byte allocation
from it returns a handle of that pool. -/
theorem poolSet_reachable_lp64 :
    ∃ σ₀ set, Relation.ReflTransGen (DirStep .lp64) (Directory.init fun _ => .byte 0, fun _ => [])
        σ₀ ∧ Relation.ReflTransGen (SetStep .lp64) (σ₀, PoolSet.empty .lp64) (σ₀, set) ∧
      set.entries[4]? = some (some 1) ∧
      set.MallocOutcome .lp64 σ₀.1 10 (max (Nat.clog 2 10) Abi.lp64.poolSetMinEntry) false
        (rseqPercpuPoolSetMallocImpl .lp64 σ₀.1 set 10 false 45) := by
  obtain ⟨hdir, hrun⟩ := reachable_set_lp64
  exact ⟨_, _, hdir, hrun, rfl,
    (poolSet_reachable hdir (show rseqPercpuPoolSetCreate .lp64 true = some _ from rfl)
      hrun noWrap_of_set_lp64).2.2 10 false 45 (by decide)⟩

/-- A set holding, at order 46, the pool of `2^46`-byte items on 80661 CPUs whose mapping length
wraps to `17 * 2^44` bytes: a `zmalloc` of `2^46` bytes takes a fresh item from it and clears
the item on every CPU, and the copy on CPU 2 lies past the mapping, so the call is undefined
instead of returning a handle or `ENOMEM`. -/
theorem poolSet_reachable_wrapping :
    ∃ σ₀ set, Relation.ReflTransGen (DirStep .lp64) (Directory.init fun _ => .byte 0, fun _ => [])
        σ₀ ∧ Relation.ReflTransGen (SetStep .lp64) (σ₀, PoolSet.empty .lp64) (σ₀, set) ∧
      set.entries[46]? = some (some 1) ∧
      rseqPercpuPoolSetZmalloc .lp64 σ₀.1 set (2 ^ 46) 45 = some (.error .undefined) := by
  have hm : rseqPercpuMallocImpl .lp64
      ⟨⟨4096, 1, 2 ^ 46, 13 * 2 ^ 44, 46, 80661, 0, 0, none⟩, fun _ => .byte 0⟩ true =
      .error .undefined :=
    rseqPercpuMallocImpl_zero_undefined rfl (by decide) (show 2 < 80661 by decide) (by decide)
  refine ⟨_, _, .single (.create 4096 (2 ^ 46) (13 * 2 ^ 44) 80661 0 _ false
      (rseqPercpuPoolCreate_wrapping 80661)),
    .single (.addPool (by decide) (show rseqPercpuPoolSetAddPool .lp64 _ _ 1 = _ from rfl)), rfl,
    ?_⟩
  unfold rseqPercpuPoolSetZmalloc rseqPercpuPoolSetMallocImpl
  dsimp only
  rw [poolSetMinOrder_eq, Nat.clog_pow 2 46 Nat.one_lt_two]
  exact poolSetMallocAgain_fault (o := 46) (p := 1) (by exact rfl) hm

end Librseq
