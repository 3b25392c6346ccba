import Mathlib.Data.List.Nodup
import Mathlib.Logic.Relation
import Librseq.Percpu.Pool

/-!
# The free-list invariant

Every item of a pool below `next_unused` is either held by the application or on the free
list, never both: the free list, followed through the pointers stored in CPU 0's copy of each
free item, visits exactly the free items once each and ends at `NULL`. `FreeListInv` states
this with the list of free item offsets as a witness: its nodes form a `Chain` in memory, and
together with the offsets of the live handles it is a permutation of `Pool.slots`.

The links sit in the same bytes the application writes into its items on other CPUs and that
`rseq_percpu_zmalloc` clears on every CPU. They are safe as long as `percpu_len * cpu` does
not wrap for the CPUs of the pool (`Pool.NoWrap`), since distinct items on distinct CPUs then
occupy disjoint bytes (`slot_bytes_ne`). `FreeListInv.step` shows that every step of
`PoolStep` keeps the invariant.
-/

namespace Librseq

/-- What `rseq_percpu_pool_create` establishes of a pool and every call keeps: a non-`NULL`
mapping, an index a handle can carry, a power-of-two item large enough for a pointer and no
larger than `percpu_len`, and a bump cursor on an item boundary within `percpu_len`. -/
structure Pool.Shape (abi : Abi) (pool : Pool) : Prop where
  base_pos : 0 < pool.base
  index_pos : 0 < pool.index
  index_lt : pool.index < abi.maxNrPools
  itemLen_eq : pool.itemLen = 2 ^ pool.itemOrder
  sizeofPtr_le : abi.sizeofPtr ≤ pool.itemLen
  itemLen_le : pool.itemLen ≤ pool.percpuLen
  percpuLen_lt : pool.percpuLen < abi.maxPoolLen
  nextUnused_le : pool.nextUnused ≤ pool.percpuLen
  dvd_nextUnused : pool.itemLen ∣ pool.nextUnused

/-- The mapping length `percpu_len * max_nr_cpus` fits in a `size_t`, so no per-CPU offset
`percpu_len * cpu` of the pool wraps. `rseq_percpu_pool_create` does not check this. -/
def Pool.NoWrap (abi : Abi) (pool : Pool) : Prop := pool.percpuLen * pool.maxNrCpus < abi.wordSize

/-- The offsets of the items below `next_unused`: those handed out at least once. -/
def Pool.slots (pool : Pool) : List Nat :=
  (List.range (pool.nextUnused / pool.itemLen)).map (· * pool.itemLen)

/-- The fields `rseq_percpu_pool_create` sets once and no later call changes. -/
def Pool.geometry (pool : Pool) : Nat × Nat × Nat × Nat × Nat × Nat :=
  (pool.base, pool.index, pool.itemLen, pool.percpuLen, pool.itemOrder, pool.maxNrCpus)

namespace Pool.Shape

variable {abi : Abi} {pool : Pool} (hs : pool.Shape abi)
include hs

/-- `Shape` reads only the geometry and the bump cursor. -/
theorem congr {pool' : Pool} (hg : pool'.geometry = pool.geometry)
    (hn : pool'.nextUnused = pool.nextUnused) : pool'.Shape abi := by
  simp only [Pool.geometry, Prod.mk.injEq] at hg
  obtain ⟨hb, hi, hl, hp, ho, -⟩ := hg
  exact ⟨hb ▸ hs.base_pos, hi ▸ hs.index_pos, hi ▸ hs.index_lt, hl ▸ ho ▸ hs.itemLen_eq,
    hl ▸ hs.sizeofPtr_le, hl ▸ hp ▸ hs.itemLen_le, hp ▸ hs.percpuLen_lt,
    hn ▸ hp ▸ hs.nextUnused_le, hn ▸ hl ▸ hs.dvd_nextUnused⟩

theorem itemLen_pos : 0 < pool.itemLen := Nat.lt_of_lt_of_le abi.sizeofPtr_pos hs.sizeofPtr_le

/-- Bumping `next_unused` never wraps. -/
theorem nextUnused_add_lt : pool.nextUnused + pool.itemLen < abi.wordSize := by
  have htwo : 2 * abi.maxPoolLen ≤ abi.wordSize := by
    rw [Abi.wordSize_eq, Nat.mul_comm]
    exact Nat.mul_le_mul_left _ (by cases abi <;> decide)
  have := hs.percpuLen_lt
  have := hs.nextUnused_le
  have := hs.itemLen_le
  omega

theorem mem_slots {itemOffset : Nat} :
    itemOffset ∈ pool.slots ↔ pool.itemLen ∣ itemOffset ∧ itemOffset < pool.nextUnused := by
  obtain ⟨n, hn⟩ := hs.dvd_nextUnused
  have hpos := hs.itemLen_pos
  simp only [Pool.slots, List.mem_map, List.mem_range, hn, Nat.mul_div_cancel_left _ hpos]
  constructor
  · rintro ⟨k, hk, rfl⟩
    exact ⟨Nat.dvd_mul_left _ _, by rw [Nat.mul_comm]; exact Nat.mul_lt_mul_of_pos_left hk hpos⟩
  · rintro ⟨⟨k, rfl⟩, hk⟩
    exact ⟨k, Nat.lt_of_mul_lt_mul_left hk, Nat.mul_comm _ _⟩

theorem slots_nodup : pool.slots.Nodup :=
  List.Nodup.map (fun _ _ h => Nat.eq_of_mul_eq_mul_right hs.itemLen_pos h) (List.nodup_range _)

/-- A slot lies whole below `next_unused`. -/
theorem add_itemLen_le {itemOffset : Nat} (h : itemOffset ∈ pool.slots) :
    itemOffset + pool.itemLen ≤ pool.nextUnused := by
  obtain ⟨⟨k, rfl⟩, hk⟩ := (hs.mem_slots).1 h
  obtain ⟨n, hn⟩ := hs.dvd_nextUnused
  rw [hn] at hk ⊢
  have : k < n := Nat.lt_of_mul_lt_mul_left hk
  have := Nat.mul_le_mul_left pool.itemLen this
  rw [Nat.mul_succ] at this
  exact this

/-- A slot lies whole below `percpu_len`. -/
theorem add_itemLen_le_percpuLen {itemOffset : Nat} (h : itemOffset ∈ pool.slots) :
    itemOffset + pool.itemLen ≤ pool.percpuLen :=
  Nat.le_trans (hs.add_itemLen_le h) hs.nextUnused_le

theorem lt_percpuLen {itemOffset : Nat} (h : itemOffset ∈ pool.slots) :
    itemOffset < pool.percpuLen :=
  Nat.lt_of_lt_of_le ((hs.mem_slots).1 h).2 hs.nextUnused_le

/-- An offset below `percpu_len`, in particular the offset of any slot, survives the handle
encoding. -/
theorem offset_lt_maxPoolLen {itemOffset : Nat} (h : itemOffset < pool.percpuLen) :
    itemOffset < abi.maxPoolLen := Nat.lt_trans h hs.percpuLen_lt

/-- The handle of an item below `percpu_len` decodes to the item. -/
theorem handleItemOffset_encodeAddr {itemOffset : Nat} (h : itemOffset < pool.percpuLen) :
    handleItemOffset abi (encodeAddr abi pool.index itemOffset) = itemOffset :=
  Librseq.handleItemOffset_encodeAddr hs.index_lt (hs.offset_lt_maxPoolLen h)

/-- Bumping `next_unused` by one item appends that item's offset to the slots. -/
theorem slots_of_bump {pool' : Pool} (hl : pool'.itemLen = pool.itemLen)
    (hn : pool'.nextUnused = pool.nextUnused + pool.itemLen) :
    pool'.slots = pool.slots ++ [pool.nextUnused] := by
  rw [Pool.slots, Pool.slots, hl, hn, Nat.add_div_right _ hs.itemLen_pos, List.range_succ,
    List.map_append, List.map_singleton, Nat.div_mul_cancel hs.dvd_nextUnused]

/-- The bump path hands out `next_unused`, an item below `percpu_len`, and appends it to the
slots. -/
theorem bump_slot (hfit : (pool.nextUnused + pool.itemLen) % abi.wordSize ≤ pool.percpuLen)
    (bitmap : Option (List Nat)) :
    pool.nextUnused < pool.percpuLen ∧ ({ pool with
      nextUnused := (pool.nextUnused + pool.itemLen) % abi.wordSize,
      freeBitmap := bitmap } : Pool).slots = pool.slots ++ [pool.nextUnused] := by
  have hsum := Nat.mod_eq_of_lt hs.nextUnused_add_lt
  have := hs.itemLen_pos
  exact ⟨by omega, hs.slots_of_bump rfl hsum⟩

/-- Bumping `next_unused` past an item that fits keeps the shape. -/
theorem bump (hfit : (pool.nextUnused + pool.itemLen) % abi.wordSize ≤ pool.percpuLen)
    (bitmap : Option (List Nat)) :
    ({ pool with
      nextUnused := (pool.nextUnused + pool.itemLen) % abi.wordSize,
      freeBitmap := bitmap } : Pool).Shape abi := by
  have hsum := Nat.mod_eq_of_lt hs.nextUnused_add_lt
  exact ⟨hs.base_pos, hs.index_pos, hs.index_lt, hs.itemLen_eq, hs.sizeofPtr_le, hs.itemLen_le,
    hs.percpuLen_lt, hfit,
    by simpa only [hsum] using Nat.dvd_add hs.dvd_nextUnused (Nat.dvd_refl _)⟩

end Pool.Shape

/-- A handle that decodes to its item joins the live handles that do. -/
theorem handles_cons {abi : Abi} {index itemOffset : Nat} {live : List Nat}
    (hdec : handleItemOffset abi (encodeAddr abi index itemOffset) = itemOffset)
    (handles : ∀ h ∈ live, h = encodeAddr abi index (handleItemOffset abi h)) :
    ∀ h ∈ encodeAddr abi index itemOffset :: live,
      h = encodeAddr abi index (handleItemOffset abi h) := by
  rintro h (_ | ⟨_, hh⟩)
  · exact congrArg _ hdec.symm
  · exact handles h hh

/-- The bytes of two different items, or of one item on two different CPUs, are different
bytes, as long as the per-CPU offsets do not wrap. -/
theorem slot_bytes_ne {percpuLen itemLen off₁ off₂ c₁ c₂ i j : Nat}
    (h₁ : off₁ + itemLen ≤ percpuLen) (h₂ : off₂ + itemLen ≤ percpuLen)
    (d₁ : itemLen ∣ off₁) (d₂ : itemLen ∣ off₂) (hne : c₁ ≠ c₂ ∨ off₁ ≠ off₂)
    (hi : i < itemLen) (hj : j < itemLen) :
    percpuLen * c₁ + off₁ + i ≠ percpuLen * c₂ + off₂ + j := by
  obtain ⟨x, rfl⟩ := d₁
  obtain ⟨y, rfl⟩ := d₂
  rcases Nat.lt_trichotomy c₁ c₂ with hc | rfl | hc
  · have := Nat.mul_le_mul_left percpuLen (Nat.succ_le_of_lt hc)
    rw [Nat.mul_succ] at this
    omega
  · have hxy : x ≠ y := fun h => by subst h; simp at hne
    rcases Nat.lt_or_gt_of_ne hxy with hxy | hxy
    · have := Nat.mul_le_mul_left itemLen (Nat.succ_le_of_lt hxy)
      rw [Nat.mul_succ] at this
      omega
    · have := Nat.mul_le_mul_left itemLen (Nat.succ_le_of_lt hxy)
      rw [Nat.mul_succ] at this
      omega
  · have := Nat.mul_le_mul_left percpuLen (Nat.succ_le_of_lt hc)
    rw [Nat.mul_succ] at this
    omega

/-- For CPU 0, and for every CPU of a pool whose mapping length does not wrap, the `size_t`
product `percpu_len * cpu` is exact. -/
theorem Pool.percpu_mod_eq {abi : Abi} {pool : Pool} {cpu : Nat} (hw : pool.NoWrap abi)
    (hcpu : cpu < pool.maxNrCpus ∨ cpu = 0) :
    pool.percpuLen * cpu % abi.wordSize = pool.percpuLen * cpu := by
  rcases hcpu with hcpu | rfl
  · exact Nat.mod_eq_of_lt (Nat.lt_of_le_of_lt (Nat.mul_le_mul_left _ hcpu.le) hw)
  · simp

/-- In a pool whose mapping length does not wrap, the bytes of an item within `percpu_len`, on
any of the pool's CPUs, lie in the mapping. -/
theorem Pool.inMapping_of_noWrap {abi : Abi} {pool : Pool} {cpu itemOffset i len : Nat}
    (hw : pool.NoWrap abi) (hcpu : cpu < pool.maxNrCpus)
    (hoff : itemOffset + pool.itemLen ≤ pool.percpuLen) (hi : i + len ≤ pool.itemLen) :
    pool.InMapping abi (rseqPoolPercpuPtr abi pool cpu itemOffset + i) len := by
  have hcpu' : pool.percpuLen * cpu + pool.percpuLen ≤ pool.percpuLen * pool.maxNrCpus :=
    Nat.mul_succ _ cpu ▸ Nat.mul_le_mul_left _ hcpu
  simp only [Pool.InMapping, Pool.mappingLen, rseqPoolPercpuPtr, Nat.mod_eq_of_lt hw,
    Pool.percpu_mod_eq hw (.inl hcpu)]
  omega

/-- A mapping holds a byte only when the pool has a CPU. -/
theorem Pool.cpus_pos_of_inMapping {abi : Abi} {pool : Pool} {address len : Nat}
    (h : pool.InMapping abi address len) (hlen : 0 < len) : 0 < pool.maxNrCpus := by
  refine Nat.pos_of_ne_zero fun hz => ?_
  simp only [Pool.InMapping, Pool.mappingLen, hz, Nat.mul_zero, Nat.zero_mod] at h
  omega

/-- The free list from `head`: `nodes` in order, each storing a pointer to the next, and the
last one storing `NULL`. -/
inductive Chain (abi : Abi) (memory : Memory) : Nat → List Nat → Prop
  | null : Chain abi memory 0 []
  | cons {node next : Nat} {nodes : List Nat} (hnode : node ≠ 0)
      (hlink : memory.loadPtr abi node = some next) (rest : Chain abi memory next nodes) :
      Chain abi memory node (node :: nodes)

namespace Chain

variable {abi : Abi} {memory memory' : Memory} {head : Nat} {nodes : List Nat}

/-- A chain survives any change of memory outside the links of its nodes. -/
theorem congr (hc : Chain abi memory head nodes)
    (h : ∀ node ∈ nodes, ∀ i < abi.sizeofPtr, memory' (node + i) = memory (node + i)) :
    Chain abi memory' head nodes := by
  induction hc with
  | null => exact .null
  | cons hnode hlink _ ih =>
    refine .cons hnode ?_ (ih fun node hn => h node (List.mem_cons_of_mem _ hn))
    rw [Memory.loadPtr_congr (h _ (List.mem_cons_self _ _)), hlink]

theorem head_eq_zero (hc : Chain abi memory head []) : head = 0 := by
  cases hc
  rfl

theorem nil_of_head_eq_zero (hc : Chain abi memory 0 nodes) : nodes = [] := by
  cases hc with
  | null => rfl
  | cons hnode => exact absurd rfl hnode

/-- The links in memory fix the nodes of a chain from a given head. -/
theorem unique {nodes' : List Nat} (hc : Chain abi memory head nodes)
    (hc' : Chain abi memory head nodes') : nodes = nodes' := by
  induction hc generalizing nodes' with
  | null => exact hc'.nil_of_head_eq_zero.symm
  | cons hnode hlink _ ih =>
    cases hc' with
    | null => exact absurd rfl hnode
    | cons _ hlink' rest' =>
      cases hlink.symm.trans hlink'
      rw [ih rest']

/-- A chain from a non-`NULL` head loads a pointer there. -/
theorem loadPtr_isSome (hc : Chain abi memory head nodes) (hhead : head ≠ 0) :
    (memory.loadPtr abi head).isSome := by
  cases hc with
  | null => exact absurd rfl hhead
  | cons _ hlink _ => rw [hlink]; rfl

/-- The first node of a nonempty chain is its head, and its link leads to the rest. -/
theorem cons_inv {node : Nat} (hc : Chain abi memory head (node :: nodes)) :
    head = node ∧ node ≠ 0 ∧ ∃ next, memory.loadPtr abi node = some next ∧
      Chain abi memory next nodes := by
  cases hc with
  | cons hnode hlink rest => exact ⟨rfl, hnode, _, hlink, rest⟩

/-- Storing the old head at a new node whose link bytes are disjoint from the chain's pushes
the node. -/
theorem push {node : Nat} (hc : Chain abi memory head nodes) (hnode : node ≠ 0)
    (hdisj : ∀ other ∈ nodes, ∀ i < abi.sizeofPtr, ∀ j < abi.sizeofPtr,
      node + j ≠ other + i) :
    Chain abi (memory.storePtr abi node head) node (node :: nodes) :=
  .cons hnode (Memory.loadPtr_storePtr _ _)
    (hc.congr fun other ho i hi => Memory.storePtr_of_ne _ (hdisj other ho i hi))

end Chain

theorem Pool.noWrap_congr {abi : Abi} {pool pool' : Pool} (h : pool'.geometry = pool.geometry) :
    pool'.NoWrap abi ↔ pool.NoWrap abi := by
  simp only [Pool.geometry, Prod.mk.injEq] at h
  simp only [Pool.NoWrap, h]

theorem mallocLocked_geometry {abi : Abi} {s s' : PoolState} {slot : Option Nat}
    (h : mallocLocked abi s = .ok (s', slot)) : s'.pool.geometry = s.pool.geometry := by
  rcases mallocLocked_cases h with ⟨_, _, _, _, rfl, _⟩ | ⟨_, _, rfl, _⟩ |
    ⟨_, _, _, _, rfl, _⟩ <;> rfl

theorem rseqPercpuMallocImpl_geometry {abi : Abi} {s s' : PoolState} {zeroed : Bool}
    {result : Except Errno Nat} (h : rseqPercpuMallocImpl abi s zeroed = .ok (s', result)) :
    s'.pool.geometry = s.pool.geometry := by
  obtain ⟨s₁, _, hlock, ⟨-, rfl, -⟩ | ⟨_, _, _, rfl | ⟨-, rfl⟩⟩⟩ :=
    rseqPercpuMallocImpl_eq_ok h <;> exact (mallocLocked_geometry hlock :)

theorem freeLocked_geometry {abi : Abi} {s s' : PoolState} {itemOffset : Nat}
    (h : freeLocked abi s itemOffset = .ok s') : s'.pool.geometry = s.pool.geometry := by
  obtain ⟨_, _, _, rfl⟩ := freeLocked_eq_ok.1 h
  rfl

/-- The zeroing loop writes only the bytes of the item on the CPUs it has run for. -/
theorem zeroCpus_of_ne {abi : Abi} {pool : Pool} {memory : Memory} {itemOffset a : Nat}
    {cpus : Nat}
    (h : ∀ cpu < cpus, ∀ i < pool.itemLen,
      rseqPoolPercpuPtr abi pool cpu itemOffset + i ≠ a) :
    zeroCpus abi pool memory itemOffset cpus a = memory a := by
  induction cpus with
  | zero => rfl
  | succ cpus ih =>
    rw [zeroCpus, Memory.memset_of_ne _ (h cpus (Nat.lt_succ_self _)),
      ih fun cpu hcpu => h cpu (Nat.lt_succ_of_lt hcpu)]

/-- A changed byte of the zeroing loop lies in the item on one of the CPUs it has run for. -/
theorem zeroCpus_changed {abi : Abi} {pool : Pool} {memory : Memory} {itemOffset a cpus : Nat}
    (h : zeroCpus abi pool memory itemOffset cpus a ≠ memory a) :
    ∃ cpu < cpus, ∃ i < pool.itemLen, a = rseqPoolPercpuPtr abi pool cpu itemOffset + i := by
  by_contra hc
  exact h (zeroCpus_of_ne fun cpu hcpu i hi ha => hc ⟨cpu, hcpu, i, hi, ha.symm⟩)

/-- Every byte of the item on a CPU the zeroing loop has run for reads zero. -/
theorem zeroCpus_of_mem {abi : Abi} {pool : Pool} {memory : Memory} {itemOffset cpus cpu i : Nat}
    (hcpu : cpu < cpus) (hi : i < pool.itemLen) :
    zeroCpus abi pool memory itemOffset cpus (rseqPoolPercpuPtr abi pool cpu itemOffset + i) =
      .byte 0 := by
  induction cpus with
  | zero => exact absurd hcpu (Nat.not_lt_zero _)
  | succ cpus ih =>
    rw [zeroCpus, Memory.memset_apply]
    split
    · rfl
    · rcases Nat.lt_succ_iff_lt_or_eq.1 hcpu with hlt | rfl
      · exact ih hlt
      · omega

/-- A byte of an item, on a CPU whose offset `percpu_len * cpu` does not wrap, is never a
link byte of another item. -/
theorem Pool.Shape.item_byte_ne {abi : Abi} {pool : Pool} (hs : pool.Shape abi)
    {o off cpu i k : Nat} (ho : o ∈ pool.slots) (hoff : off ∈ pool.slots) (hne : off ≠ o)
    (hmod : pool.percpuLen * cpu % abi.wordSize = pool.percpuLen * cpu) (hi : i < pool.itemLen)
    (hk : k < pool.itemLen) :
    rseqPoolPercpuPtr abi pool cpu off + i ≠ pool.base + o + k := by
  have := @slot_bytes_ne pool.percpuLen pool.itemLen off o cpu 0 i k
    (hs.add_itemLen_le_percpuLen hoff) (hs.add_itemLen_le_percpuLen ho)
    ((hs.mem_slots).1 hoff).1 ((hs.mem_slots).1 ho).1 (.inr hne) hi hk
  rw [rseqPoolPercpuPtr, hmod]
  rw [Nat.mul_zero, Nat.zero_add] at this
  omega

/-- The CPU-0 address of an item is the pool base plus its offset. -/
theorem rseqPoolPercpuPtr_zero (abi : Abi) (pool : Pool) (itemOffset : Nat) :
    rseqPoolPercpuPtr abi pool 0 itemOffset = pool.base + itemOffset := by
  simp [rseqPoolPercpuPtr]

/-- The CPU-0 links of two different items never share a byte. -/
theorem Pool.Shape.link_bytes_ne {abi : Abi} {pool : Pool} (hs : pool.Shape abi)
    {o off : Nat} (ho : o ∈ pool.slots) (hoff : off ∈ pool.slots) (hne : off ≠ o) :
    ∀ i < abi.sizeofPtr, ∀ j < abi.sizeofPtr, pool.base + off + j ≠ pool.base + o + i := by
  intro i hi j hj
  have := hs.item_byte_ne ho hoff hne
    (show pool.percpuLen * 0 % abi.wordSize = pool.percpuLen * 0 by simp)
    (Nat.lt_of_lt_of_le hj hs.sizeofPtr_le) (Nat.lt_of_lt_of_le hi hs.sizeofPtr_le)
  rwa [rseqPoolPercpuPtr_zero] at this

/-- The free-list invariant of a pool whose application holds the handles `live`: the free
list is a `NULL`-terminated chain through the CPU-0 copies of exactly the items below
`next_unused` that no live handle names, each once. -/
structure FreeListInv (abi : Abi) (s : PoolState) (live : List Nat) : Prop where
  shape : s.pool.Shape abi
  cpus_pos : s.pool.freeListHead ≠ 0 → 0 < s.pool.maxNrCpus
  handles : ∀ h ∈ live, h = encodeAddr abi s.pool.index (handleItemOffset abi h)
  chain : ∃ free, Chain abi s.memory s.pool.freeListHead (free.map (s.pool.base + ·)) ∧
    (free ++ live.map (handleItemOffset abi)).Perm s.pool.slots

/-- The free list and the live handles as the allocator's contract states them: the cursor is
on an item boundary within `percpu_len`; the free list is a `NULL`-terminated chain without
repeated nodes through the CPU-0 addresses of exactly the items below `next_unused` that no live
handle names; and the live handles name distinct items, each whole within `percpu_len`. -/
structure FreeListSpec (abi : Abi) (s : PoolState) (live : List Nat) : Prop where
  cursor : s.pool.itemLen ∣ s.pool.nextUnused ∧ s.pool.nextUnused ≤ s.pool.percpuLen
  freeList : ∃ nodes, Chain abi s.memory s.pool.freeListHead nodes ∧ nodes.Nodup ∧
    ∀ node, node ∈ nodes ↔ ∃ itemOffset, node = s.pool.base + itemOffset ∧
      s.pool.itemLen ∣ itemOffset ∧ itemOffset < s.pool.nextUnused ∧
      ∀ h ∈ live, handleItemOffset abi h ≠ itemOffset
  live : (live.map (handleItemOffset abi)).Nodup ∧ ∀ h ∈ live,
    s.pool.itemLen ∣ handleItemOffset abi h ∧
    handleItemOffset abi h + s.pool.itemLen ≤ s.pool.percpuLen

/-- One call on a pool, or one write of the application into an item it holds, in the pool's
mapping. The state carries the handles the application holds; `rseq_percpu_free` reaches the
pool only with a handle whose index bits name it. -/
inductive PoolStep (abi : Abi) : PoolState × List Nat → PoolState × List Nat → Prop
  | malloc {s s' : PoolState} {live : List Nat} {h : Nat} (zeroed : Bool)
      (hcall : rseqPercpuMallocImpl abi s zeroed = .ok (s', .ok h)) :
      PoolStep abi (s, live) (s', h :: live)
  | full {s s' : PoolState} {live : List Nat} {e : Errno} (zeroed : Bool)
      (hcall : rseqPercpuMallocImpl abi s zeroed = .ok (s', .error e)) :
      PoolStep abi (s, live) (s', live)
  | free {s s' : PoolState} {live : List Nat} {h : Nat} (hlive : h ∈ live)
      (hcall : freeLocked abi s (handleItemOffset abi h) = .ok s')
      (hindex : handlePoolIndex abi h = s.pool.index) :
      PoolStep abi (s, live) (s', live.erase h)
  | write {s : PoolState} {live : List Nat} {h cpu i : Nat} (value : MemVal) (hlive : h ∈ live)
      (hcpu : cpu < s.pool.maxNrCpus) (hi : i < s.pool.itemLen)
      (hmapped : s.pool.InMapping abi
        (rseqPoolPercpuPtr abi s.pool cpu (handleItemOffset abi h) + i) 1) :
      PoolStep abi (s, live) ({ s with
        memory := s.memory.set (rseqPoolPercpuPtr abi s.pool cpu (handleItemOffset abi h) + i)
          value }, live)

namespace FreeListInv

variable {abi : Abi} {s s' s₁ : PoolState} {live live' : List Nat}

/-- A change of memory only inside the items of live handles, on the pool's CPUs, keeps the
invariant. -/
theorem of_memory (hw : s.pool.NoWrap abi) (hinv : FreeListInv abi s live) {memory : Memory}
    (hm : ∀ a, memory a ≠ s.memory a → ∃ h ∈ live, ∃ cpu < s.pool.maxNrCpus,
      ∃ i < s.pool.itemLen, a = rseqPoolPercpuPtr abi s.pool cpu (handleItemOffset abi h) + i) :
    FreeListInv abi { s with memory := memory } live := by
  obtain ⟨free, hc, hp⟩ := hinv.chain
  have hnd := hp.nodup_iff.2 hinv.shape.slots_nodup
  refine ⟨hinv.shape, hinv.cpus_pos, hinv.handles, free, hc.congr ?_, hp⟩
  simp only [List.mem_map]
  rintro _ ⟨o, ho, rfl⟩ k hk
  by_contra hne
  obtain ⟨h, hlive, cpu, hcpu, i, hi, ha⟩ := hm _ hne
  have hoff : handleItemOffset abi h ∈ live.map (handleItemOffset abi) :=
    List.mem_map_of_mem _ hlive
  refine hinv.shape.item_byte_ne (hp.subset (List.mem_append_left _ ho))
    (hp.subset (List.mem_append_right _ hoff)) (fun heq => List.disjoint_of_nodup_append hnd ho
      (heq ▸ hoff)) (Pool.percpu_mod_eq hw (.inl hcpu)) hi
    (Nat.lt_of_lt_of_le hk hinv.shape.sizeofPtr_le) ha.symm

/-- The locked section of an allocation that hands out an item keeps the invariant with the
new handle live, and the handle decodes to the item. -/
theorem mallocLocked (hinv : FreeListInv abi s live) {itemOffset : Nat}
    (hlock : Librseq.mallocLocked abi s = .ok (s₁, some itemOffset)) :
    FreeListInv abi s₁ (encodeAddr abi s.pool.index itemOffset :: live) ∧
      handleItemOffset abi (encodeAddr abi s.pool.index itemOffset) = itemOffset := by
  have hs := hinv.shape
  obtain ⟨free, hc, hp⟩ := hinv.chain
  rcases mallocLocked_cases hlock with
    ⟨next, hhead, -, hload, rfl, hslot⟩ | ⟨_, _, _, hslot⟩ | ⟨bitmap, hhead, hfit, -, rfl, hslot⟩
  · cases free with
    | nil => exact absurd hc.head_eq_zero hhead
    | cons o free' =>
      obtain ⟨hho, -, next', hl', hc'⟩ := hc.cons_inv
      rw [hho, hl', Option.some.injEq] at hload
      rw [hho, Nat.add_sub_cancel_left, Option.some.injEq] at hslot
      subst hload hslot
      have hdec := hs.handleItemOffset_encodeAddr
        (hs.lt_percpuLen (hp.subset (List.mem_cons_self _ _)))
      refine ⟨⟨hs.congr rfl rfl, fun _ => hinv.cpus_pos hhead, handles_cons hdec hinv.handles,
        free', hc', ?_⟩, hdec⟩
      simpa [hdec] using List.perm_middle.trans hp
  · cases hslot
  · rw [Option.some.injEq] at hslot
    subst hslot
    rw [hhead] at hc
    have hfree : free = [] := List.map_eq_nil_iff.1 hc.nil_of_head_eq_zero
    subst hfree
    obtain ⟨ho, hslots⟩ := hs.bump_slot hfit bitmap
    have hdec := hs.handleItemOffset_encodeAddr ho
    refine ⟨⟨hs.bump hfit bitmap, fun h => absurd hhead h, handles_cons hdec hinv.handles, [],
      ?_, ?_⟩, hdec⟩
    · simpa [hhead] using Chain.null
    · dsimp only
      rw [hslots]
      simpa [hdec] using (hp.cons _).trans (List.perm_append_singleton _ _).symm

/-- Every step keeps the invariant, for a pool whose mapping length does not wrap. -/
theorem step (hw : s.pool.NoWrap abi) (hinv : FreeListInv abi s live)
    (hstep : PoolStep abi (s, live) (s', live')) : FreeListInv abi s' live' := by
  cases hstep with
  | malloc zeroed hcall =>
    obtain ⟨s₁, slot, hlock, ⟨-, -, hres⟩ | ⟨itemOffset, rfl, hres, rfl | ⟨-, rfl⟩⟩⟩ :=
      rseqPercpuMallocImpl_eq_ok hcall <;> cases hres
    · exact (hinv.mallocLocked hlock).1
    · obtain ⟨hinv₁, hdec⟩ := hinv.mallocLocked hlock
      refine hinv₁.of_memory ((Pool.noWrap_congr (mallocLocked_geometry hlock)).2 hw)
        fun a ha => ?_
      obtain ⟨cpu, hcpu, i, hi, rfl⟩ := zeroCpus_changed ha
      exact ⟨_, List.mem_cons_self _ _, cpu, hcpu, i, hi, by rw [hdec]⟩
  | full zeroed hcall => exact (rseqPercpuMallocImpl_eq_error hcall).1 ▸ hinv
  | @free _ _ _ h hlive hcall =>
    obtain ⟨bitmap, -, hmapped, rfl⟩ := freeLocked_eq_ok.1 hcall
    have hs := hinv.shape
    obtain ⟨free, hc, hp⟩ := hinv.chain
    have hnd := hp.nodup_iff.2 hs.slots_nodup
    have hoff := List.mem_map_of_mem (handleItemOffset abi) hlive
    have hslot := hp.subset (List.mem_append_right _ hoff)
    have hptr := rseqPoolPercpuPtr_zero abi s.pool (handleItemOffset abi h)
    refine ⟨hs.congr rfl rfl, fun _ => Pool.cpus_pos_of_inMapping hmapped abi.sizeofPtr_pos,
      fun h' hh => hinv.handles h' (List.mem_of_mem_erase hh), handleItemOffset abi h :: free, ?_,
      ?_⟩
    · rw [hptr]
      refine hc.push (by have := hs.base_pos; omega) ?_
      simp only [List.mem_map]
      rintro _ ⟨o, ho, rfl⟩
      exact hs.link_bytes_ne (hp.subset (List.mem_append_left _ ho)) hslot
        fun heq => List.disjoint_of_nodup_append hnd ho (heq ▸ hoff)
    · have hperm := ((List.perm_cons_erase hlive).map (handleItemOffset abi))
      exact (List.perm_middle.symm.trans (List.Perm.append_left free hperm.symm)).trans hp
  | write value hlive hcpu hi _ =>
    exact hinv.of_memory hw fun a ha => ⟨_, hlive, _, hcpu, _, hi, by
      by_contra hne
      exact ha (Memory.set_of_ne value (Ne.symm hne))⟩

/-- The head of a nonempty free list in a pool whose mapping length does not wrap is a link
in the mapping. -/
theorem head_inMapping (hw : s.pool.NoWrap abi) (hinv : FreeListInv abi s live)
    (hhead : s.pool.freeListHead ≠ 0) :
    s.pool.InMapping abi s.pool.freeListHead abi.sizeofPtr := by
  obtain ⟨free, hc, hp⟩ := hinv.chain
  cases free with
  | nil => exact absurd hc.head_eq_zero hhead
  | cons o free' =>
    have hmapped := Pool.inMapping_of_noWrap hw (hinv.cpus_pos hhead)
      (hinv.shape.add_itemLen_le_percpuLen (hp.subset (List.mem_cons_self _ _)))
      (show 0 + abi.sizeofPtr ≤ s.pool.itemLen by simpa using hinv.shape.sizeofPtr_le)
    rw [rseqPoolPercpuPtr_zero, Nat.add_zero] at hmapped
    rwa [hc.cons_inv.1]

/-- A fresh pool, with an empty free list and nothing handed out, satisfies the invariant. -/
theorem init {pool : Pool} (hs : pool.Shape abi) (hhead : pool.freeListHead = 0)
    (hnext : pool.nextUnused = 0) (memory : Memory) :
    FreeListInv abi ⟨pool, memory⟩ [] := by
  refine ⟨hs, fun h => absurd hhead h, by simp, [], ?_, ?_⟩
  · simpa [hhead] using Chain.null
  · simp [Pool.slots, hnext]

/-- The free list as a set of addresses: a `NULL`-terminated chain without repeated nodes,
whose nodes are the CPU-0 addresses of exactly the items below `next_unused` that no live
handle names. -/
theorem nodes_spec (hinv : FreeListInv abi s live) :
    ∃ nodes, Chain abi s.memory s.pool.freeListHead nodes ∧ nodes.Nodup ∧
      ∀ node, node ∈ nodes ↔ ∃ itemOffset, node = s.pool.base + itemOffset ∧
        s.pool.itemLen ∣ itemOffset ∧ itemOffset < s.pool.nextUnused ∧
        ∀ h ∈ live, handleItemOffset abi h ≠ itemOffset := by
  obtain ⟨free, hc, hp⟩ := hinv.chain
  have hnd := hp.nodup_iff.2 hinv.shape.slots_nodup
  refine ⟨_, hc, (List.nodup_append.1 hnd).1.map fun _ _ => Nat.add_left_cancel, fun node => ?_⟩
  simp only [List.mem_map]
  constructor
  · rintro ⟨o, ho, rfl⟩
    obtain ⟨hdvd, hlt⟩ := (hinv.shape.mem_slots).1 (hp.subset (List.mem_append_left _ ho))
    exact ⟨o, rfl, hdvd, hlt, fun h hh heq => List.disjoint_of_nodup_append hnd ho
      (heq ▸ List.mem_map_of_mem _ hh)⟩
  · rintro ⟨o, rfl, hdvd, hlt, hfree⟩
    have hslot := hp.symm.subset ((hinv.shape.mem_slots).2 ⟨hdvd, hlt⟩)
    rcases List.mem_append.1 hslot with ho | ho
    · exact ⟨o, ho, rfl⟩
    · obtain ⟨h, hh, rfl⟩ := List.mem_map.1 ho
      exact absurd rfl (hfree h hh)

/-- The live handles name distinct items, each whole inside the first `next_unused` bytes. -/
theorem live_spec (hinv : FreeListInv abi s live) :
    (live.map (handleItemOffset abi)).Nodup ∧ ∀ h ∈ live,
      s.pool.itemLen ∣ handleItemOffset abi h ∧
      handleItemOffset abi h + s.pool.itemLen ≤ s.pool.nextUnused := by
  obtain ⟨free, -, hp⟩ := hinv.chain
  refine ⟨(List.nodup_append.1 (hp.nodup_iff.2 hinv.shape.slots_nodup)).2.1, fun h hh => ?_⟩
  have hslot := hp.subset (List.mem_append_right _ (List.mem_map_of_mem _ hh))
  exact ⟨((hinv.shape.mem_slots).1 hslot).1, hinv.shape.add_itemLen_le hslot⟩

/-- The bytes of a live handle's item, on any of the pool's CPUs, lie in the mapping of a pool
whose mapping length does not wrap. -/
theorem live_inMapping (hw : s.pool.NoWrap abi) (hinv : FreeListInv abi s live) {h cpu i len : Nat}
    (hh : h ∈ live) (hcpu : cpu < s.pool.maxNrCpus) (hi : i + len ≤ s.pool.itemLen) :
    s.pool.InMapping abi (rseqPoolPercpuPtr abi s.pool cpu (handleItemOffset abi h) + i) len :=
  Pool.inMapping_of_noWrap hw hcpu
    (Nat.le_trans (hinv.live_spec.2 h hh).2 hinv.shape.nextUnused_le) hi

/-- Every CPU's copy of the item the locked section of an allocation hands out lies in the
mapping of a pool whose mapping length does not wrap, so `zmalloc` may clear it. -/
theorem mallocLocked_inMapping (hw : s.pool.NoWrap abi) (hinv : FreeListInv abi s live)
    {itemOffset : Nat} (hlock : Librseq.mallocLocked abi s = .ok (s₁, some itemOffset)) :
    ∀ cpu < s₁.pool.maxNrCpus,
      s₁.pool.InMapping abi (rseqPoolPercpuPtr abi s₁.pool cpu itemOffset) s₁.pool.itemLen := by
  obtain ⟨hinv₁, hdec⟩ := hinv.mallocLocked hlock
  intro cpu hcpu
  have hmapped := hinv₁.live_inMapping ((Pool.noWrap_congr (mallocLocked_geometry hlock)).2 hw)
    (List.mem_cons_self _ _) hcpu (i := 0) (Nat.zero_add _).le
  rwa [hdec, Nat.add_zero] at hmapped

/-- The invariant gives the contract's view of the free list. -/
theorem spec (hinv : FreeListInv abi s live) : FreeListSpec abi s live :=
  ⟨⟨hinv.shape.dvd_nextUnused, hinv.shape.nextUnused_le⟩, hinv.nodes_spec,
    hinv.live_spec.1, fun h hh => ⟨(hinv.live_spec.2 h hh).1,
      Nat.le_trans (hinv.live_spec.2 h hh).2 hinv.shape.nextUnused_le⟩⟩

end FreeListInv

/-- No step changes the geometry of the pool. -/
theorem PoolStep.geometry {abi : Abi} {σ σ' : PoolState × List Nat}
    (hstep : PoolStep abi σ σ') :
    σ'.1.pool.geometry = σ.1.pool.geometry := by
  cases hstep with
  | malloc _ hcall | full _ hcall => exact rseqPercpuMallocImpl_geometry hcall
  | free _ hcall _ => exact freeLocked_geometry hcall
  | write => rfl

/-- No history changes the geometry of the pool. -/
theorem PoolStep.run_geometry {abi : Abi} {σ σ' : PoolState × List Nat}
    (hrun : Relation.ReflTransGen (PoolStep abi) σ σ') :
    σ'.1.pool.geometry = σ.1.pool.geometry := by
  induction hrun with
  | refl => rfl
  | tail _ hstep ih => exact (PoolStep.geometry hstep).trans ih

/-- The program stores the `len` low bytes of the integer `v`, least significant first, at
`p`, byte `i` of a live item on one CPU, one byte write at a time. -/
theorem PoolStep.write_int {abi : Abi} {s : PoolState} {live : List Nat} {h cpu i p : Nat}
    (v : Nat) (hlive : h ∈ live) (hcpu : cpu < s.pool.maxNrCpus)
    (hp : rseqPoolPercpuPtr abi s.pool cpu (handleItemOffset abi h) + i = p) :
    ∀ len, i + len ≤ s.pool.itemLen → (∀ j < len, s.pool.InMapping abi (p + j) 1) →
      Relation.ReflTransGen (PoolStep abi) (s, live) ({ s with
        memory := fun a => if p ≤ a ∧ a < p + len then .byte (UInt8.ofNat (v >>> (8 * (a - p))))
          else s.memory a }, live)
  | 0, _, _ => by
    have hm : (fun a => if p ≤ a ∧ a < p + 0 then MemVal.byte (UInt8.ofNat (v >>> (8 * (a - p))))
        else s.memory a) = s.memory := funext fun a => if_neg (by omega)
    rw [hm]
  | len + 1, hlen, hmapped => by
    refine .tail (write_int v hlive hcpu hp len (by omega) fun j hj => hmapped j (by omega)) ?_
    have hstep := PoolStep.write (s := { s with
        memory := fun a => if p ≤ a ∧ a < p + len then .byte (UInt8.ofNat (v >>> (8 * (a - p))))
          else s.memory a }) (i := i + len)
      (.byte (UInt8.ofNat (v >>> (8 * len)))) hlive hcpu (by dsimp only; omega)
      (by dsimp only; rw [← Nat.add_assoc, hp]; exact hmapped len (Nat.lt_succ_self _))
    convert hstep using 3
    funext a
    rw [Memory.set_apply]
    dsimp only
    split_ifs <;> first | rfl | omega | rw [show a - p = len by omega]

/-- Along every history of a pool whose mapping length does not wrap, the invariant holds. -/
theorem FreeListInv.run {abi : Abi} {σ σ' : PoolState × List Nat} (hw : σ.1.pool.NoWrap abi)
    (hinv : FreeListInv abi σ.1 σ.2) (hrun : Relation.ReflTransGen (PoolStep abi) σ σ') :
    FreeListInv abi σ'.1 σ'.2 := by
  induction hrun with
  | refl => exact hinv
  | @tail σ₁ _ hrun₁ hstep ih =>
    exact ih.step ((Pool.noWrap_congr (PoolStep.run_geometry hrun₁)).2 hw) hstep

end Librseq
