import Librseq.Percpu.System

/-!
# Pool sets

A pool set holds at most one pool per size class: `entries[o]` is `NULL` or a pool of items of
`2 ^ o` bytes. `__rseq_percpu_pool_set_malloc` scans, under the set's lock, for the first
non-`NULL` entry from the order of `len` on, allocates from that pool, and on `ENOMEM` jumps back
to `again` to scan from the next order. The model bounds the jumps back by a `retries` budget and
answers `none` when the budget runs out.

On a set of size classes whose pools that are not full hand out handles (`PoolSet.Serves`), an
allocation of any `len` needs at most `POOL_SET_NR_ENTRIES - POOL_SET_MIN_ENTRY` jumps back and
answers with a handle from the pool of the least order, from `⌈log₂ len⌉` and
`POOL_SET_MIN_ENTRY` on, that is non-`NULL` and not full, or with `ENOMEM` when every such pool
is full (`rseqPercpuPoolSetMallocImpl_outcome`).

`SetStep` is a program's history around one set: calls on the directory that leave the set's
pools live, and additions of live pools. Each entry stays `NULL` or a live pool of its own order
(`PoolSetInv.run`), and an addition fails with `EBUSY`, leaving the set alone, exactly when the
entry of its order is taken. The safety module shows that the pools of a reachable set serve
their allocations and states the whole law, `poolSet_reachable`.
-/

namespace Librseq

/-- `struct rseq_percpu_pool_set` without its lock: `entries[o]` is the directory slot of the
pool of order `o`, `none` for `NULL`, in an array of `POOL_SET_NR_ENTRIES` entries. -/
structure PoolSet (abi : Abi) where
  entries : List (Option Nat)
  length_entries : entries.length = abi.poolSetNrEntries

namespace PoolSet

/-- The set `calloc` returns, every entry `NULL`. -/
def empty (abi : Abi) : PoolSet abi :=
  ⟨List.replicate abi.poolSetNrEntries none, List.length_replicate _ _⟩

/-- `pool_set->entries[o] = entry`. -/
def setEntry {abi : Abi} (set : PoolSet abi) (o : Nat) (entry : Option Nat) : PoolSet abi :=
  ⟨set.entries.set o entry, (List.length_set _ _ _).trans set.length_entries⟩

end PoolSet

/-- `rseq_percpu_pool_set_create()`: `NULL` when `calloc` fails. -/
def rseqPercpuPoolSetCreate (abi : Abi) (callocSucceeds : Bool) : Option (PoolSet abi) :=
  if callocSucceeds then some (PoolSet.empty abi) else none

/-- A set `rseq_percpu_pool_set_create` returns has no entry. -/
theorem rseqPercpuPoolSetCreate_eq_some {abi : Abi} {callocSucceeds : Bool} {set : PoolSet abi}
    (h : rseqPercpuPoolSetCreate abi callocSucceeds = some set) : set = PoolSet.empty abi := by
  cases callocSucceeds <;> simp_all [rseqPercpuPoolSetCreate]

/-- `rseq_percpu_pool_set_add_pool(pool_set, pool)` for the pool of slot `p`: `EBUSY` when the
entry of the pool's order is taken. Indexing past the array is undefined. -/
def rseqPercpuPoolSetAddPool (abi : Abi) (dir : Directory) (set : PoolSet abi) (p : Nat) :
    Except Fault (PoolSet abi × Except Errno Unit) :=
  let itemOrder := (dir.slots p).pool.itemOrder
  match set.entries[itemOrder]? with
  | none => throw .undefined
  | some (some _) => pure (set, throw .EBUSY)
  | some none => pure (set.setEntry itemOrder (some p), pure ())

/-- The loop of `__rseq_percpu_pool_set_malloc` under the set's lock, over the `count` orders
from `order`: the first order whose entry is a pool with `item_len >= len`, and that pool. -/
def poolSetScan (dir : Directory) (entries : List (Option Nat)) (len order : Nat) :
    Nat → Option (Nat × Nat)
  | 0 => none
  | count + 1 =>
    match entries[order]? with
    | some (some p) =>
      if len ≤ (dir.slots p).pool.itemLen then some (order, p)
      else poolSetScan dir entries len (order + 1) count
    | _ => poolSetScan dir entries len (order + 1) count

/-- `__rseq_percpu_pool_set_malloc` from the label `again` with `min_order`, allowed `retries`
more jumps back to it; `none` when the call would jump back once more. The allocation from the
pool found runs after the set's lock is dropped. -/
def poolSetMallocAgain (abi : Abi) (set : PoolSet abi) (len : Nat) (zeroed : Bool) :
    Nat → Nat → Directory → Option (Except Fault (Directory × Except Errno Nat))
  | retries, minOrder, dir =>
    match poolSetScan dir set.entries len minOrder (abi.poolSetNrEntries - minOrder) with
    | none => some (pure (dir, throw .ENOMEM))
    | some (order, p) =>
      match rseqPercpuMallocImpl abi (dir.slots p) zeroed with
      | .error fault => some (throw fault)
      | .ok (s', .error .ENOMEM) =>
        match retries with
        | 0 => none
        | retries + 1 => poolSetMallocAgain abi set len zeroed retries (order + 1) (dir.set p s')
      | .ok (s', result) => some (pure (dir.set p s', result))

/-- `__rseq_percpu_pool_set_malloc(pool_set, len, zeroed)`, allowed `retries` jumps back to
`again`: the first scan starts at the order of `len`, and at `POOL_SET_MIN_ENTRY` at least. -/
def rseqPercpuPoolSetMallocImpl (abi : Abi) (dir : Directory) (set : PoolSet abi) (len : Nat)
    (zeroed : Bool) (retries : Nat) : Option (Except Fault (Directory × Except Errno Nat)) :=
  let order := rseqGetCountOrderUlong len
  let minOrder := if (abi.poolSetMinEntry : Int) < order then order.toNat else abi.poolSetMinEntry
  poolSetMallocAgain abi set len zeroed retries minOrder dir

/-- `rseq_percpu_pool_set_malloc(pool_set, len)`. -/
def rseqPercpuPoolSetMalloc (abi : Abi) (dir : Directory) (set : PoolSet abi) (len : Nat)
    (retries : Nat) : Option (Except Fault (Directory × Except Errno Nat)) :=
  rseqPercpuPoolSetMallocImpl abi dir set len false retries

/-- `rseq_percpu_pool_set_zmalloc(pool_set, len)`. -/
def rseqPercpuPoolSetZmalloc (abi : Abi) (dir : Directory) (set : PoolSet abi) (len : Nat)
    (retries : Nat) : Option (Except Fault (Directory × Except Errno Nat)) :=
  rseqPercpuPoolSetMallocImpl abi dir set len true retries

/-! ### Full pools -/

/-- A pool with nothing to hand out: its free list is empty and no item fits past the cursor. -/
def Pool.Full (pool : Pool) : Prop :=
  pool.freeListHead = 0 ∧ pool.percpuLen < pool.nextUnused + pool.itemLen

instance (pool : Pool) : Decidable pool.Full := inferInstanceAs (Decidable (_ ∧ _))

section Full

variable {abi : Abi} {s s' : PoolState} {zeroed : Bool}

/-- An allocation from a full pool fails with `ENOMEM` and changes nothing. -/
theorem rseqPercpuMallocImpl_of_full (hs : s.pool.Shape abi) (hfull : s.pool.Full) :
    rseqPercpuMallocImpl abi s zeroed = .ok (s, .error .ENOMEM) :=
  rseqPercpuMallocImpl_full hfull.1 (by rw [Nat.mod_eq_of_lt hs.nextUnused_add_lt]; exact hfull.2)

/-- An allocation from a pool that is not full never reports an error. -/
theorem rseqPercpuMallocImpl_ne_error (hs : s.pool.Shape abi) (hfull : ¬ s.pool.Full) {e : Errno} :
    rseqPercpuMallocImpl abi s zeroed ≠ .ok (s', .error e) := fun h => by
  obtain ⟨-, -, hhead, hlt⟩ := rseqPercpuMallocImpl_eq_error h
  rw [Nat.mod_eq_of_lt hs.nextUnused_add_lt] at hlt
  exact hfull ⟨hhead, hlt⟩

end Full

/-- Every pool of the set that is not full answers an allocation with a handle that carries its
own slot. -/
def PoolSet.Serves (abi : Abi) (dir : Directory) (set : PoolSet abi) (zeroed : Bool) : Prop :=
  ∀ o p : Nat, set.entries[o]? = some (some p) → ¬ (dir.slots p).pool.Full →
    ∃ s' h, rseqPercpuMallocImpl abi (dir.slots p) zeroed = .ok (s', .ok h) ∧
      handlePoolIndex abi h = p

/-! ### The scan and the retries -/

/-- The set's pools of orders in `[lo, hi)` are all full. -/
def PoolSet.FullBetween {abi : Abi} (dir : Directory) (set : PoolSet abi) (lo hi : Nat) : Prop :=
  ∀ o p, lo ≤ o → o < hi → set.entries[o]? = some (some p) → (dir.slots p).pool.Full

/-- Every entry of the set is `NULL` or a pool of its own order with the shape every pool keeps. -/
def PoolSet.Classes {abi : Abi} (dir : Directory) (set : PoolSet abi) : Prop :=
  ∀ o p : Nat, set.entries[o]? = some (some p) →
    (dir.slots p).pool.Shape abi ∧ (dir.slots p).pool.itemOrder = o

section Scan

variable {dir : Directory} {entries : List (Option Nat)} {len : Nat}

/-- The scan finds the first order of its range whose entry is a pool of items of `len` bytes
at least. -/
theorem poolSetScan_eq_some {order count o p : Nat}
    (h : poolSetScan dir entries len order count = some (o, p)) :
    order ≤ o ∧ o < order + count ∧ entries[o]? = some (some p) ∧
      len ≤ (dir.slots p).pool.itemLen ∧
      ∀ o' p', order ≤ o' → o' < o → entries[o']? = some (some p') →
        (dir.slots p').pool.itemLen < len := by
  induction count generalizing order with
  | zero => cases h
  | succ count ih =>
    unfold poolSetScan at h
    split at h
    · rename_i q hq
      split at h
      · cases h
        refine ⟨Nat.le_refl _, by omega, hq, ‹_›, fun o' p' h₁ h₂ => by omega⟩
      · obtain ⟨h₁, h₂, h₃, h₄, h₅⟩ := ih h
        refine ⟨by omega, by omega, h₃, h₄, fun o' p' ho₁ ho₂ ho => ?_⟩
        rcases Nat.eq_or_lt_of_le ho₁ with rfl | ho₁
        · rw [hq, Option.some.injEq, Option.some.injEq] at ho
          subst ho
          omega
        · exact h₅ o' p' ho₁ ho₂ ho
    · rename_i hq
      obtain ⟨h₁, h₂, h₃, h₄, h₅⟩ := ih h
      refine ⟨by omega, by omega, h₃, h₄, fun o' p' ho₁ ho₂ ho => ?_⟩
      rcases Nat.eq_or_lt_of_le ho₁ with rfl | ho₁
      · exact absurd ho (hq p')
      · exact h₅ o' p' ho₁ ho₂ ho

/-- A scan that finds nothing has met no pool of items of `len` bytes at least in its range. -/
theorem poolSetScan_eq_none {order count : Nat}
    (h : poolSetScan dir entries len order count = none) :
    ∀ o p, order ≤ o → o < order + count → entries[o]? = some (some p) →
      (dir.slots p).pool.itemLen < len := by
  induction count generalizing order with
  | zero => intro o p h₁ h₂; omega
  | succ count ih =>
    unfold poolSetScan at h
    intro o p h₁ h₂ ho
    rcases Nat.eq_or_lt_of_le h₁ with rfl | h₁
    · rw [ho] at h
      dsimp only at h
      split at h
      · cases h
      · omega
    · split at h
      · split at h
        · cases h
        · exact ih h o p h₁ (by omega) ho
      · exact ih h o p h₁ (by omega) ho

end Scan

section Again

variable {abi : Abi} {dir : Directory} {set : PoolSet abi} {len : Nat} {zeroed : Bool}

/-- An entry of an order the set has room for is within the array. -/
theorem PoolSet.lt_of_getElem? {o p : Nat} (h : set.entries[o]? = some (some p)) :
    o < abi.poolSetNrEntries :=
  set.length_entries ▸ (List.getElem?_eq_some_iff.1 h).1

/-- From an order whose items hold `len` bytes, the scan of a set of size classes stops at the
first non-`NULL` entry. -/
theorem poolSetScan_classes (hset : set.Classes dir) {minOrder : Nat}
    (hlen : len ≤ 2 ^ minOrder) :
    match poolSetScan dir set.entries len minOrder (abi.poolSetNrEntries - minOrder) with
    | none => ∀ o p, minOrder ≤ o → set.entries[o]? = some (some p) → False
    | some (o, p) => minOrder ≤ o ∧ set.entries[o]? = some (some p) ∧
        len ≤ (dir.slots p).pool.itemLen ∧
        ∀ o' p', minOrder ≤ o' → o' < o → set.entries[o']? = some (some p') → False := by
  have hfits : ∀ o p, minOrder ≤ o → set.entries[o]? = some (some p) →
      len ≤ (dir.slots p).pool.itemLen := fun o p ho hp => by
    obtain ⟨hs, hord⟩ := hset o p hp
    rw [hs.itemLen_eq, hord]
    exact hlen.trans (Nat.pow_le_pow_right Nat.two_pos ho)
  split
  · rename_i hscan
    intro o p ho hp
    exact Nat.lt_irrefl _ (Nat.lt_of_le_of_lt (hfits o p ho hp)
      (poolSetScan_eq_none hscan o p ho (by have := set.lt_of_getElem? hp; omega) hp))
  · rename_i o p hscan
    obtain ⟨h₁, -, h₃, h₄, h₅⟩ := poolSetScan_eq_some hscan
    exact ⟨h₁, h₃, h₄, fun o' p' ho₁ ho₂ ho =>
      Nat.lt_irrefl _ (Nat.lt_of_le_of_lt (hfits o' p' ho₁ ho) (h₅ o' p' ho₁ ho₂ ho))⟩

/-- The outcome of an allocation from a set from order `lo` on, in the words of the set's pools:
every pool is full and the answer is `ENOMEM`, or the pool of the least order that is not full,
whose items hold `len` bytes, hands out a handle carrying its slot, and that handle is the
set's answer. -/
def PoolSet.MallocOutcome (abi : Abi) (dir : Directory) (set : PoolSet abi) (len lo : Nat)
    (zeroed : Bool) (result : Option (Except Fault (Directory × Except Errno Nat))) : Prop :=
  (set.FullBetween dir lo abi.poolSetNrEntries ∧ result = some (.ok (dir, .error .ENOMEM))) ∨
  ∃ o p s' h, lo ≤ o ∧ set.entries[o]? = some (some p) ∧ ¬ (dir.slots p).pool.Full ∧
    set.FullBetween dir lo o ∧ len ≤ (dir.slots p).pool.itemLen ∧
    rseqPercpuMallocImpl abi (dir.slots p) zeroed = .ok (s', .ok h) ∧
    handlePoolIndex abi h = p ∧ result = some (.ok (dir.set p s', .ok h))

/-- A pool that hands out a handle answers the set's allocation with it. -/
theorem poolSetMallocAgain_ok {retries minOrder o p : Nat} {s' : PoolState} {h : Nat}
    (hscan : poolSetScan dir set.entries len minOrder (abi.poolSetNrEntries - minOrder) =
      some (o, p)) (hm : rseqPercpuMallocImpl abi (dir.slots p) zeroed = .ok (s', .ok h)) :
    poolSetMallocAgain abi set len zeroed retries minOrder dir =
      some (.ok (dir.set p s', .ok h)) := by
  rw [poolSetMallocAgain, hscan]
  dsimp only
  rw [hm]
  rfl

/-- A pool whose allocation faults makes the set's allocation fault. -/
theorem poolSetMallocAgain_fault {retries minOrder o p : Nat} {fault : Fault}
    (hscan : poolSetScan dir set.entries len minOrder (abi.poolSetNrEntries - minOrder) =
      some (o, p)) (hm : rseqPercpuMallocImpl abi (dir.slots p) zeroed = .error fault) :
    poolSetMallocAgain abi set len zeroed retries minOrder dir = some (.error fault) := by
  rw [poolSetMallocAgain, hscan]
  dsimp only
  rw [hm]
  rfl

/-- A full pool sends the set's allocation back to `again`, past its order. -/
theorem poolSetMallocAgain_full (hset : set.Classes dir) {retries minOrder o p : Nat}
    (hscan : poolSetScan dir set.entries len minOrder (abi.poolSetNrEntries - minOrder) =
      some (o, p)) (hfull : (dir.slots p).pool.Full) :
    poolSetMallocAgain abi set len zeroed (retries + 1) minOrder dir =
      poolSetMallocAgain abi set len zeroed retries (o + 1) dir := by
  have hs := (hset o p (poolSetScan_eq_some hscan).2.2.1).1
  rw [poolSetMallocAgain, hscan]
  dsimp only
  rw [rseqPercpuMallocImpl_of_full hs hfull]
  dsimp only
  rw [Directory.set_self]

/-- Entries of orders in `[lo, o)` are `NULL` and the pool of order `o` is full: the pools full
from `o + 1` on are those full from `lo` on. -/
theorem PoolSet.FullBetween.extend {lo o p hi : Nat} (h : set.FullBetween dir (o + 1) hi)
    (hnull : ∀ o' p', lo ≤ o' → o' < o → set.entries[o']? = some (some p') → False)
    (hp : set.entries[o]? = some (some p)) (hfull : (dir.slots p).pool.Full) :
    set.FullBetween dir lo hi := by
  intro o' p' h₁ h₂ hp'
  rcases Nat.lt_trichotomy o' o with hlt | rfl | hgt
  · exact (hnull o' p' h₁ hlt hp').elim
  · rw [hp, Option.some.injEq, Option.some.injEq] at hp'
    exact hp' ▸ hfull
  · exact h o' p' hgt h₂ hp'

/-- The outcome from the order past a full pool, with only `NULL` entries below it from `lo`, is
the outcome from `lo`. -/
theorem PoolSet.MallocOutcome.extend {lo o p : Nat}
    {result : Option (Except Fault (Directory × Except Errno Nat))}
    (h : set.MallocOutcome abi dir len (o + 1) zeroed result) (ho : lo ≤ o)
    (hnull : ∀ o' p', lo ≤ o' → o' < o → set.entries[o']? = some (some p') → False)
    (hp : set.entries[o]? = some (some p)) (hfull : (dir.slots p).pool.Full) :
    set.MallocOutcome abi dir len lo zeroed result := by
  rcases h with ⟨hall, hres⟩ | ⟨o', p', s', h', ho', hp', hnf, hbelow, hfit, hm, hidx, hres⟩
  · exact .inl ⟨hall.extend hnull hp hfull, hres⟩
  · exact .inr ⟨o', p', s', h', by omega, hp', hnf, hbelow.extend hnull hp hfull, hfit, hm, hidx,
      hres⟩

/-- With a budget of one jump back per order left, the set's allocation ends with the outcome its
pools call for. -/
theorem poolSetMallocAgain_outcome (hset : set.Classes dir) (hserve : set.Serves abi dir zeroed)
    {retries minOrder : Nat}
    (hlen : len ≤ 2 ^ minOrder) (hretries : abi.poolSetNrEntries - minOrder ≤ retries) :
    set.MallocOutcome abi dir len minOrder zeroed
      (poolSetMallocAgain abi set len zeroed retries minOrder dir) := by
  induction retries generalizing minOrder with
  | zero =>
    have hcount : abi.poolSetNrEntries - minOrder = 0 := Nat.le_zero.1 hretries
    refine .inl ⟨fun o p h₁ h₂ _ => absurd h₂ (by omega), ?_⟩
    rw [poolSetMallocAgain, hcount]
    rfl
  | succ retries ih =>
    have hcls := poolSetScan_classes hset hlen
    revert hcls
    rcases hscan : poolSetScan dir set.entries len minOrder (abi.poolSetNrEntries - minOrder) with
      _ | ⟨o, p⟩ <;> intro hcls
    · refine .inl ⟨fun o p h₁ _ hp => (hcls o p h₁ hp).elim, ?_⟩
      rw [poolSetMallocAgain, hscan]
      rfl
    · obtain ⟨ho, hp, hfit, hnull⟩ := hcls
      by_cases hfull : (dir.slots p).pool.Full
      · have hlt := set.lt_of_getElem? hp
        rw [poolSetMallocAgain_full hset hscan hfull]
        exact (ih (hlen.trans (Nat.pow_le_pow_right Nat.two_pos (by omega))) (by omega)).extend
          ho hnull hp hfull
      · obtain ⟨s', h, hm, hidx⟩ := hserve o p hp hfull
        exact .inr ⟨o, p, s', h, ho, hp, hfull, fun o' p' h₁ h₂ h => (hnull o' p' h₁ h₂ h).elim,
          hfit, hm, hidx, poolSetMallocAgain_ok hscan hm⟩

/-- The first scan starts at `⌈log₂ len⌉`, and at `POOL_SET_MIN_ENTRY` at least. -/
theorem poolSetMinOrder_eq (abi : Abi) (len : Nat) :
    (if (abi.poolSetMinEntry : Int) < rseqGetCountOrderUlong len
      then (rseqGetCountOrderUlong len).toNat else abi.poolSetMinEntry) =
      max (Nat.clog 2 len) abi.poolSetMinEntry := by
  unfold rseqGetCountOrderUlong
  split
  · subst len
    rw [Nat.clog_zero_right]
    split <;> omega
  · split <;> omega

/-- With a budget of `POOL_SET_NR_ENTRIES - POOL_SET_MIN_ENTRY` jumps back, an allocation from a
set of size classes whose pools serve it ends with the outcome its pools call for, from the order
of `len` on. -/
theorem rseqPercpuPoolSetMallocImpl_outcome (hset : set.Classes dir)
    (hserve : set.Serves abi dir zeroed) (len : Nat) {retries : Nat}
    (hretries : abi.poolSetNrEntries - abi.poolSetMinEntry ≤ retries) :
    set.MallocOutcome abi dir len (max (Nat.clog 2 len) abi.poolSetMinEntry) zeroed
      (rseqPercpuPoolSetMallocImpl abi dir set len zeroed retries) := by
  unfold rseqPercpuPoolSetMallocImpl
  dsimp only
  rw [poolSetMinOrder_eq]
  exact poolSetMallocAgain_outcome hset hserve
    ((Nat.le_pow_clog Nat.one_lt_two len).trans
      (Nat.pow_le_pow_right Nat.two_pos (le_max_left _ _))) (by omega)

end Again

/-! ### Sets over whole histories -/

/-- A pool's order is one of the set's classes. -/
theorem Pool.Shape.itemOrder_lt {abi : Abi} {pool : Pool} (hs : pool.Shape abi) :
    pool.itemOrder < abi.poolSetNrEntries := by
  have hlt : 2 ^ pool.itemOrder < 2 ^ abi.poolIndexShift :=
    hs.itemLen_eq ▸ Nat.lt_of_le_of_lt hs.itemLen_le hs.percpuLen_lt
  exact (Nat.pow_lt_pow_iff_right Nat.one_lt_two).1 hlt

/-- An addition of a pool whose order is within the array either finds the entry taken and
fails with `EBUSY`, leaving the set alone, or fills the entry. -/
theorem rseqPercpuPoolSetAddPool_eq {abi : Abi} {dir : Directory} {set : PoolSet abi} {p : Nat}
    (hlt : (dir.slots p).pool.itemOrder < abi.poolSetNrEntries) :
    (∃ q, set.entries[(dir.slots p).pool.itemOrder]? = some (some q)) ∧
        rseqPercpuPoolSetAddPool abi dir set p = .ok (set, .error .EBUSY) ∨
      set.entries[(dir.slots p).pool.itemOrder]? = some none ∧
        rseqPercpuPoolSetAddPool abi dir set p =
          .ok (set.setEntry (dir.slots p).pool.itemOrder (some p), .ok ()) := by
  obtain ⟨e, he⟩ : ∃ e, set.entries[(dir.slots p).pool.itemOrder]? = some e :=
    ⟨_, List.getElem?_eq_getElem (by rw [set.length_entries]; exact hlt)⟩
  unfold rseqPercpuPoolSetAddPool
  dsimp only
  rw [he]
  cases e with
  | none => exact .inr ⟨rfl, rfl⟩
  | some q => exact .inl ⟨⟨q, rfl⟩, rfl⟩

/-- Replacing a slot by a pool of the same geometry leaves the geometry of every slot alone. -/
theorem Directory.set_geometry {dir : Directory} {i p : Nat} {s : PoolState}
    (h : s.pool.geometry = (dir.slots i).pool.geometry) :
    ((dir.set i s).slots p).pool.geometry = (dir.slots p).pool.geometry := by
  by_cases hpi : p = i
  · subst hpi
    simpa using h
  · rw [Directory.set_slots_of_ne _ _ hpi]

/-- A call on the directory keeps the geometry of every slot live before it and after it. -/
theorem DirStep.geometry_of_live {abi : Abi} {σ σ' : Directory × (Nat → List Nat)}
    (hstep : DirStep abi σ σ') {p : Nat} (hlive : (σ.1.slots p).pool.base ≠ 0)
    (hlive' : (σ'.1.slots p).pool.base ≠ 0) :
    (σ'.1.slots p).pool.geometry = (σ.1.slots p).pool.geometry := by
  cases hstep with
  | @create dir _ _ result _ _ _ _ _ _ _ hcall =>
    cases result with
    | error e => rw [rseqPercpuPoolCreate_eq_error hcall]
    | ok i =>
      obtain ⟨-, -, -, -, -, -, -, -, -, hslot, -, -, -, -, -, -, hdir⟩ :=
        rseqPercpuPoolCreate_eq_ok hcall
      have hpi : p ≠ i := fun h => hlive (h ▸ (findEmptySlot_eq_some hslot).2.2)
      dsimp only
      rw [hdir, Directory.set_slots_of_ne _ _ hpi]
  | destroy _ hcall =>
    obtain ⟨-, ⟨-, rfl, -⟩ | ⟨-, -, rfl, -⟩ | ⟨-, -, -, hdir, -⟩⟩ :=
      rseqPercpuPoolDestroy_eq_ok hcall
    · rfl
    · rfl
    · rename_i i _ _ _
      dsimp only at hlive' ⊢
      rw [hdir] at hlive' ⊢
      by_cases hpi : p = i
      · subst hpi
        simp [Pool.zero] at hlive'
      · rw [Directory.set_slots_of_ne _ _ hpi]
  | malloc _ _ hcall => exact Directory.set_geometry (rseqPercpuMallocImpl_geometry hcall)
  | full _ _ hcall => exact Directory.set_geometry (rseqPercpuMallocImpl_geometry hcall)
  | free _ hcall =>
    obtain ⟨s', hlock, rfl⟩ := rseqPercpuFree_eq_ok.1 hcall
    exact Directory.set_geometry (freeLocked_geometry hlock)

/-- One call a program makes around its pool set: a call on the directory that leaves every
pool of the set live, since the set owns its pools, or the addition of a live pool. -/
inductive SetStep (abi : Abi) :
    (Directory × (Nat → List Nat)) × PoolSet abi → (Directory × (Nat → List Nat)) × PoolSet abi →
      Prop
  | dir {σ σ' : Directory × (Nat → List Nat)} {set : PoolSet abi} (hstep : DirStep abi σ σ')
      (hkeep : ∀ o p : Nat, set.entries[o]? = some (some p) → (σ'.1.slots p).pool.base ≠ 0) :
      SetStep abi (σ, set) (σ', set)
  | addPool {σ : Directory × (Nat → List Nat)} {set set' : PoolSet abi} {p : Nat}
      {result : Except Errno Unit} (hlive : (σ.1.slots p).pool.base ≠ 0)
      (hcall : rseqPercpuPoolSetAddPool abi σ.1 set p = .ok (set', result)) :
      SetStep abi (σ, set) (σ, set')

/-- What a set keeps over its history: each entry is `NULL` or a live pool of its own order. -/
def PoolSetInv (abi : Abi) (dir : Directory) (set : PoolSet abi) : Prop :=
  ∀ o p : Nat, set.entries[o]? = some (some p) →
    (dir.slots p).pool.base ≠ 0 ∧ (dir.slots p).pool.itemOrder = o

namespace PoolSetInv

variable {abi : Abi} {dir : Directory} {held : Nat → List Nat} {set : PoolSet abi}

/-- A set `calloc` returns has no entry. -/
theorem empty (dir : Directory) : PoolSetInv abi dir (PoolSet.empty abi) := fun o p h => by
  simp [PoolSet.empty, List.getElem?_replicate] at h

/-- Beside the directory invariant, a set of live pools of their own orders is a set of size
classes. -/
theorem classes (hdir : DirInv abi dir held) (hinv : PoolSetInv abi dir set) :
    set.Classes dir := fun o p hp =>
  ⟨((hdir p).live (hinv o p hp).1).2.shape, (hinv o p hp).2⟩

/-- Every step keeps the invariant with the directory's. -/
theorem step {τ τ' : (Directory × (Nat → List Nat)) × PoolSet abi}
    (hdir : DirInv abi τ.1.1 τ.1.2) (hinv : PoolSetInv abi τ.1.1 τ.2)
    (hstep : SetStep abi τ τ') : DirInv abi τ'.1.1 τ'.1.2 ∧ PoolSetInv abi τ'.1.1 τ'.2 := by
  cases hstep with
  | dir hstep hkeep =>
    refine ⟨hdir.step hstep, fun o p hp => ?_⟩
    have hgeo := hstep.geometry_of_live (hinv o p hp).1 (hkeep o p hp)
    simp only [Pool.geometry, Prod.mk.injEq] at hgeo
    exact ⟨hkeep o p hp, hgeo.2.2.2.2.1.trans (hinv o p hp).2⟩
  | @addPool _ set _ p _ hlive hcall =>
    refine ⟨hdir, ?_⟩
    have hlt := ((hdir p).live hlive).2.shape.itemOrder_lt
    rcases rseqPercpuPoolSetAddPool_eq hlt with ⟨-, hadd⟩ | ⟨-, hadd⟩ <;>
      rw [hadd, Except.ok.injEq, Prod.mk.injEq] at hcall <;> obtain ⟨rfl, -⟩ := hcall
    · exact hinv
    · intro o q hq
      simp only [PoolSet.setEntry, List.getElem?_set] at hq
      split at hq
      · obtain ⟨-, rfl⟩ : _ ∧ p = q := by simpa using hq
        exact ⟨hlive, ‹_›⟩
      · exact hinv o q hq

/-- Every history keeps the invariant with the directory's. -/
theorem run {τ τ' : (Directory × (Nat → List Nat)) × PoolSet abi}
    (hdir : DirInv abi τ.1.1 τ.1.2) (hinv : PoolSetInv abi τ.1.1 τ.2)
    (hrun : Relation.ReflTransGen (SetStep abi) τ τ') :
    DirInv abi τ'.1.1 τ'.1.2 ∧ PoolSetInv abi τ'.1.1 τ'.2 := by
  induction hrun with
  | refl => exact ⟨hdir, hinv⟩
  | tail _ hstep ih => exact step ih.1 ih.2 hstep

end PoolSetInv

/-- The LP64 pool of 16-byte items created first, into slot 1, and added to a new set at
order 4. -/
theorem reachable_set_lp64 :
    Relation.ReflTransGen (DirStep .lp64) (Directory.init fun _ => .byte 0, fun _ => [])
      ((Directory.init fun _ => .byte 0).set 1
        ⟨⟨4096, 1, 16, 4096, 4, 4, 0, 0, none⟩, fun _ => .byte 0⟩, fun _ => []) ∧
    Relation.ReflTransGen (SetStep .lp64)
      (((Directory.init fun _ => .byte 0).set 1
        ⟨⟨4096, 1, 16, 4096, 4, 4, 0, 0, none⟩, fun _ => .byte 0⟩, fun _ => []),
        PoolSet.empty .lp64)
      (((Directory.init fun _ => .byte 0).set 1
        ⟨⟨4096, 1, 16, 4096, 4, 4, 0, 0, none⟩, fun _ => .byte 0⟩, fun _ => []),
        (PoolSet.empty .lp64).setEntry 4 (some 1)) :=
  ⟨.single (.create 4096 16 4096 4 0 _ false rseqPercpuPoolCreate_lp64),
    .single (.addPool (by decide) (show rseqPercpuPoolSetAddPool .lp64 _ _ 1 = _ from rfl))⟩

end Librseq
