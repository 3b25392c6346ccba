import Librseq.Percpu.FreeList

/-!
# The free list when zeroing may reach it

When `percpu_len * max_nr_cpus` wraps, the `size_t` offset `percpu_len * cpu` of a high CPU
can land inside CPU 0's slice, so `rseq_percpu_zero_item` may clear bytes of free-list links.
The free list is then only a `Trail`: it may end early at a link that zeroing has cleared,
which loads as `NULL` when cleared whole and as no pointer at all when cleared in part
(`Memory.loadPtr_eq_zero_of_cleared`). Every node it still reaches is the CPU-0 address of a
distinct item below `next_unused` that no live handle names (`TrailInv`), so a popped node
always yields an item offset below `percpu_len`. This is what the directory needs of every
pool, whatever its mapping length.
-/

namespace Librseq

/-- The link bytes at `node` are fragments of `pointer`, except those zeroing has cleared. -/
def LinkBytes (abi : Abi) (memory : Memory) (node pointer : Nat) : Prop :=
  ∀ i < abi.sizeofPtr, memory (node + i) = .fragment pointer i ∨ memory (node + i) = .byte 0

/-- The free list from `head` as far as it can be followed: intact links, ending at `NULL` or
at a node whose link zeroing has reached. -/
inductive Trail (abi : Abi) (memory : Memory) : Nat → List Nat → Prop
  | null : Trail abi memory 0 []
  | cons {node next : Nat} {nodes : List Nat} (hnode : node ≠ 0)
      (hlink : ∀ i < abi.sizeofPtr, memory (node + i) = .fragment next i)
      (rest : Trail abi memory next nodes) : Trail abi memory node (node :: nodes)
  | cut {node pointer : Nat} (hnode : node ≠ 0) (hlink : LinkBytes abi memory node pointer)
      (hzero : ∃ i < abi.sizeofPtr, memory (node + i) = .byte 0) : Trail abi memory node [node]

namespace Trail

variable {abi : Abi} {memory memory' : Memory} {head : Nat} {nodes : List Nat}

/-- A trail survives any change of memory outside the links of its nodes. -/
theorem congr (hc : Trail abi memory head nodes)
    (h : ∀ node ∈ nodes, ∀ i < abi.sizeofPtr, memory' (node + i) = memory (node + i)) :
    Trail abi memory' head nodes := by
  induction hc with
  | null => exact .null
  | cons hnode hlink _ ih =>
    exact .cons hnode (fun i hi => (h _ (List.mem_cons_self _ _) i hi).trans (hlink i hi))
      (ih fun node hn => h node (List.mem_cons_of_mem _ hn))
  | cut hnode hlink hzero =>
    have hsame := h _ (List.mem_singleton_self _)
    obtain ⟨i, hi, hz⟩ := hzero
    exact .cut hnode (fun j hj => hsame j hj ▸ hlink j hj) ⟨i, hi, (hsame i hi).trans hz⟩

theorem nil_of_head_eq_zero (hc : Trail abi memory 0 nodes) : nodes = [] := by
  cases hc with
  | null => rfl
  | cons hnode => exact absurd rfl hnode
  | cut hnode => exact absurd rfl hnode

theorem head_eq_zero (hc : Trail abi memory head []) : head = 0 := by
  cases hc
  rfl

/-- Following the head's link, when it loads, leads to the rest of the trail. -/
theorem pop {node next : Nat} (hc : Trail abi memory head (node :: nodes))
    (hload : memory.loadPtr abi head = some next) :
    head = node ∧ node ≠ 0 ∧ Trail abi memory next nodes := by
  cases hc with
  | cons hnode hlink rest =>
    rw [Memory.loadPtr_of_fragments hlink, Option.some.injEq] at hload
    exact ⟨rfl, hnode, hload ▸ rest⟩
  | cut hnode hlink hzero =>
    cases Memory.loadPtr_eq_zero_of_cleared hlink hzero hload
    exact ⟨rfl, hnode, .null⟩

/-- Storing the old head at a new node whose link bytes are disjoint from the trail's pushes
the node. -/
theorem push {node : Nat} (hc : Trail abi memory head nodes) (hnode : node ≠ 0)
    (hdisj : ∀ other ∈ nodes, ∀ i < abi.sizeofPtr, ∀ j < abi.sizeofPtr,
      node + j ≠ other + i) :
    Trail abi (memory.storePtr abi node head) node (node :: nodes) := by
  refine .cons hnode (fun i hi => ?_)
    (hc.congr fun other ho i hi => Memory.storePtr_of_ne _ (hdisj other ho i hi))
  rw [Memory.storePtr_apply, if_pos (by omega), Nat.add_sub_cancel_left]

/-- Zeroing any range leaves a prefix of the trail: a link it reaches is cut there. -/
theorem memset_zero (hc : Trail abi memory head nodes) (p len : Nat) :
    ∃ nodes', nodes' <+: nodes ∧ Trail abi (memory.memset p 0 len) head nodes' := by
  induction hc with
  | null => exact ⟨[], List.prefix_refl _, .null⟩
  | @cons node next nodes hnode hlink _ ih =>
    obtain ⟨nodes', hpre, hrest⟩ := ih
    by_cases hall : ∀ i < abi.sizeofPtr, memory.memset p 0 len (node + i) = memory (node + i)
    · exact ⟨node :: nodes', List.cons_prefix_cons.2 ⟨rfl, hpre⟩,
        .cons hnode (fun i hi => (hall i hi).trans (hlink i hi)) hrest⟩
    · push_neg at hall
      obtain ⟨i, hi, hne⟩ := hall
      refine ⟨[node], List.cons_prefix_cons.2 ⟨rfl, List.nil_prefix⟩,
        @Trail.cut _ _ _ next hnode (fun j hj => ?_) ⟨i, hi, ?_⟩⟩
      · rcases Memory.memset_eq_or p (node + j) 0 len with h | h
        · exact .inl (h.trans (hlink j hj))
        · exact .inr h
      · exact (Memory.memset_eq_or p (node + i) 0 len).resolve_left hne
  | @cut node pointer hnode hlink hzero =>
    obtain ⟨i, hi, hz⟩ := hzero
    refine ⟨_, List.prefix_refl _,
      @Trail.cut _ _ _ pointer hnode (fun j hj => ?_) ⟨i, hi, ?_⟩⟩
    · rcases Memory.memset_eq_or p (_ + j) 0 len with h | h
      · exact h ▸ hlink j hj
      · exact .inr h
    · rcases Memory.memset_eq_or p (_ + i) 0 len with h | h
      · exact h.trans hz
      · exact h

/-- The zeroing loop of `rseq_percpu_zero_item` leaves a prefix of the trail. -/
theorem zeroCpus (hc : Trail abi memory head nodes) (pool : Pool) (itemOffset cpus : Nat) :
    ∃ nodes', nodes' <+: nodes ∧
      Trail abi (Librseq.zeroCpus abi pool memory itemOffset cpus) head nodes' := by
  induction cpus with
  | zero => exact ⟨nodes, List.prefix_refl _, hc⟩
  | succ cpus ih =>
    obtain ⟨nodes', hpre, hc'⟩ := ih
    obtain ⟨nodes'', hpre', hc''⟩ :=
      hc'.memset_zero (rseqPoolPercpuPtr abi pool cpus itemOffset) pool.itemLen
    exact ⟨nodes'', hpre'.trans hpre, hc''⟩

end Trail

/-- What every live pool of the directory keeps, whatever its mapping length: the trail of
the free list reaches only CPU-0 addresses of distinct items below `next_unused` that no live
handle names, and every live handle encodes its item with the pool's index. -/
structure TrailInv (abi : Abi) (s : PoolState) (live : List Nat) : Prop where
  shape : s.pool.Shape abi
  handles : ∀ h ∈ live, h = encodeAddr abi s.pool.index (handleItemOffset abi h)
  trail : ∃ free, Trail abi s.memory s.pool.freeListHead (free.map (s.pool.base + ·)) ∧
    (free ++ live.map (handleItemOffset abi)).Nodup ∧
    ∀ o ∈ free ++ live.map (handleItemOffset abi), o ∈ s.pool.slots

namespace TrailInv

variable {abi : Abi} {s s' s₁ : PoolState} {live : List Nat}

/-- A fresh pool, with an empty free list and nothing handed out, satisfies the invariant. -/
theorem init {pool : Pool} (hs : pool.Shape abi) (hhead : pool.freeListHead = 0)
    (memory : Memory) : TrailInv abi ⟨pool, memory⟩ [] :=
  ⟨hs, by simp, [], by simpa [hhead] using Trail.null, by simp, by simp⟩

/-- Zeroing any item on any CPUs keeps the invariant: the free list may only get shorter. -/
theorem zero (hinv : TrailInv abi s live) (pool : Pool) (itemOffset cpus : Nat) :
    TrailInv abi { s with memory := zeroCpus abi pool s.memory itemOffset cpus } live := by
  obtain ⟨free, hc, hnd, hsub⟩ := hinv.trail
  obtain ⟨nodes, hpre, hc'⟩ := hc.zeroCpus pool itemOffset cpus
  have hnodes : nodes = (free.take nodes.length).map (s.pool.base + ·) := by
    rw [List.map_take]
    exact List.prefix_iff_eq_take.1 hpre
  have hsl : (free.take nodes.length ++ live.map (handleItemOffset abi)).Sublist
      (free ++ live.map (handleItemOffset abi)) :=
    (List.take_sublist _ _).append_right _
  exact ⟨hinv.shape, hinv.handles, _, hnodes ▸ hc', hnd.sublist hsl,
    fun o ho => hsub o (hsl.subset ho)⟩

/-- The locked section of an allocation that hands out an item keeps the invariant with the
new handle live; the item lies below `percpu_len` and the handle decodes to it. -/
theorem mallocLocked (hinv : TrailInv abi s live) {itemOffset : Nat}
    (hlock : Librseq.mallocLocked abi s = .ok (s₁, some itemOffset)) :
    TrailInv abi s₁ (encodeAddr abi s.pool.index itemOffset :: live) ∧
      itemOffset < s.pool.percpuLen ∧
      handleItemOffset abi (encodeAddr abi s.pool.index itemOffset) = itemOffset := by
  have hs := hinv.shape
  obtain ⟨free, hc, hnd, hsub⟩ := hinv.trail
  rcases mallocLocked_cases hlock with
    ⟨next, hhead, -, hload, rfl, hslot⟩ | ⟨_, _, _, hslot⟩ | ⟨bitmap, hhead, hfit, -, rfl, hslot⟩
  · cases free with
    | nil => exact absurd hc.head_eq_zero hhead
    | cons o free' =>
      obtain ⟨hho, -, hc'⟩ := hc.pop hload
      rw [hho, Nat.add_sub_cancel_left, Option.some.injEq] at hslot
      subst hslot
      have ho := hs.lt_percpuLen (hsub _ (List.mem_cons_self _ _))
      have hdec := hs.handleItemOffset_encodeAddr ho
      have hperm : (free' ++ (encodeAddr abi s.pool.index itemOffset :: live).map
          (handleItemOffset abi)).Perm
          (itemOffset :: free' ++ live.map (handleItemOffset abi)) := by
        simp [hdec]
      exact ⟨⟨hs.congr rfl rfl, handles_cons hdec hinv.handles, free', hc',
        hperm.nodup_iff.2 hnd, fun o ho => hsub o (hperm.subset ho)⟩, ho, hdec⟩
  · cases hslot
  · rw [Option.some.injEq] at hslot
    subst hslot
    rw [hhead] at hc
    have hfree : free = [] := List.map_eq_nil_iff.1 hc.nil_of_head_eq_zero
    subst hfree
    obtain ⟨ho, hslots⟩ := hs.bump_slot hfit bitmap
    have hdec := hs.handleItemOffset_encodeAddr ho
    have hfresh : s.pool.nextUnused ∉ live.map (handleItemOffset abi) := fun hmem =>
      Nat.lt_irrefl _ ((hs.mem_slots).1 (hsub _ (List.mem_append_right _ hmem))).2
    refine ⟨⟨hs.bump hfit bitmap, handles_cons hdec hinv.handles, [], ?_, ?_, ?_⟩, ho, hdec⟩
    · simpa [hhead] using Trail.null
    · simpa [hdec, hfresh] using hnd
    · dsimp only
      rw [hslots, List.map_cons, hdec, List.nil_append]
      rintro o (_ | ⟨_, ho⟩)
      · exact List.mem_append_right _ (List.mem_singleton_self _)
      · exact List.mem_append_left _ (hsub o ho)

/-- An allocation that returns a handle keeps the invariant with the handle live, whether or
not it zeroed the item; the handle encodes the pool's index and an item below `percpu_len`. -/
theorem malloc (hinv : TrailInv abi s live) {zeroed : Bool} {h : Nat}
    (hcall : rseqPercpuMallocImpl abi s zeroed = .ok (s', .ok h)) :
    TrailInv abi s' (h :: live) ∧ h = encodeAddr abi s.pool.index (handleItemOffset abi h) ∧
      handleItemOffset abi h < s.pool.percpuLen := by
  obtain ⟨s₁, slot, hlock, ⟨-, -, hres⟩ | ⟨itemOffset, rfl, hres, hs'⟩⟩ :=
    rseqPercpuMallocImpl_eq_ok hcall <;> cases hres
  obtain ⟨hinv₁, ho, hdec⟩ := hinv.mallocLocked hlock
  refine ⟨?_, by rw [hdec], by rwa [hdec]⟩
  rcases hs' with rfl | ⟨-, rfl⟩
  · exact hinv₁
  · exact hinv₁.zero _ _ _

/-- A free of a live handle keeps the invariant with the handle no longer live. -/
theorem free (hinv : TrailInv abi s live) {h : Nat} (hlive : h ∈ live)
    (hcall : freeLocked abi s (handleItemOffset abi h) = .ok s') :
    TrailInv abi s' (live.erase h) := by
  obtain ⟨bitmap, -, -, rfl⟩ := freeLocked_eq_ok.1 hcall
  have hs := hinv.shape
  obtain ⟨free, hc, hnd, hsub⟩ := hinv.trail
  have hoff := List.mem_map_of_mem (handleItemOffset abi) hlive
  have hslot := hsub _ (List.mem_append_right _ hoff)
  have hperm : (handleItemOffset abi h :: free ++ (live.erase h).map (handleItemOffset abi)).Perm
      (free ++ live.map (handleItemOffset abi)) :=
    List.perm_middle.symm.trans
      (List.Perm.append_left free ((List.perm_cons_erase hlive).map _).symm)
  refine ⟨hs.congr rfl rfl, fun h' hh => hinv.handles h' (List.mem_of_mem_erase hh), _, ?_,
    hperm.nodup_iff.2 hnd, fun o ho => hsub o (hperm.subset ho)⟩
  rw [rseqPoolPercpuPtr_zero]
  refine hc.push (by have := hs.base_pos; omega) ?_
  simp only [List.mem_map]
  rintro _ ⟨o, ho, rfl⟩
  exact hs.link_bytes_ne (hsub _ (List.mem_append_left _ ho)) hslot
    fun heq => List.disjoint_of_nodup_append hnd ho (heq ▸ hoff)

end TrailInv

end Librseq
