import Librseq.Percpu.Bitmap
import Librseq.Percpu.Destroy

/-!
# The leak check of destroy

`rseq_percpu_pool_destroy` of a robust pool asserts, in `destroy_free_bitmap`, that every word
of the bitmap is zero: that every item handed out has been freed. Every history keeps the
bitmap `create_free_bitmap` allocated, `⌈count / BIT_PER_ULONG⌉` words that each fit in an
`unsigned long` (`Pool.BitmapWords`), and each bit set in it is held (`Pool.BitmapHeld`). So the
check passes on every pool the program holds no handle of.

The main result, `destroy_unheld_of_reachable`, says this of every directory a history of
creates, destroys, allocations and frees reaches: destroying a pool the program holds nothing
of returns `0` and leaves its slot destroyed, and destroying a set whose pools are all such
returns.
-/

namespace Librseq

/-- The words `create_free_bitmap` allocated for a pool's items: `⌈count / BIT_PER_ULONG⌉` of
them, each an `unsigned long`. -/
def Pool.BitmapWords (abi : Abi) (pool : Pool) : Prop :=
  ∀ words, pool.freeBitmap = some words →
    words.length = (pool.percpuLen >>> pool.itemOrder + abi.bitsPerLong - 1) / abi.bitsPerLong ∧
    ∀ w ∈ words, w < abi.wordSize

theorem Abi.bitsPerLong_pos (abi : Abi) : 0 < abi.bitsPerLong := by
  cases abi <;> decide

/-- Setting one word to an `unsigned long` keeps every word one. -/
theorem lt_wordSize_of_mem_set {abi : Abi} {words : List Nat} {k w : Nat} (hw : w < abi.wordSize)
    (hlt : ∀ x ∈ words, x < abi.wordSize) : ∀ x ∈ words.set k w, x < abi.wordSize := fun x hx =>
  (List.mem_or_eq_of_mem_set hx).elim (hlt x) (· ▸ hw)

/-- `mask_free_slot` that passes its assertion keeps the number of words, and keeps every word
an `unsigned long`. -/
theorem maskFreeSlot_words {abi : Abi} {bitmap bitmap' : Option (List Nat)} {idx : Nat}
    (h : maskFreeSlot abi bitmap idx = .ok bitmap') {words' : List Nat}
    (hb' : bitmap' = some words') :
    ∃ words, bitmap = some words ∧ words'.length = words.length ∧
      ((∀ w ∈ words, w < abi.wordSize) → ∀ w ∈ words', w < abi.wordSize) := by
  subst hb'
  cases bitmap with
  | none => cases h
  | some words =>
    obtain ⟨word, hword, -, ⟨⟩⟩ := maskFreeSlot_eq_ok h
    refine ⟨words, rfl, List.length_set .., fun hlt => lt_wordSize_of_mem_set ?_ hlt⟩
    exact Nat.or_lt_two_pow (hlt word (List.get?_mem hword))
      (Nat.pow_lt_pow_right Nat.one_lt_two (Nat.mod_lt _ abi.bitsPerLong_pos))

/-- `unmask_free_slot` that passes its checks keeps the number of words, and keeps every word an
`unsigned long`. -/
theorem unmaskFreeSlot_words {abi : Abi} {bitmap bitmap' : Option (List Nat)} {idx : Nat}
    (h : unmaskFreeSlot abi bitmap idx = .ok bitmap') {words' : List Nat}
    (hb' : bitmap' = some words') :
    ∃ words, bitmap = some words ∧ words'.length = words.length ∧
      ((∀ w ∈ words, w < abi.wordSize) → ∀ w ∈ words', w < abi.wordSize) := by
  subst hb'
  cases bitmap with
  | none => cases h
  | some words =>
    obtain ⟨-, word, hword, -, ⟨⟩⟩ := unmaskFreeSlot_eq_ok h
    exact ⟨words, rfl, List.length_set .., fun hlt => lt_wordSize_of_mem_set
      (Nat.lt_of_le_of_lt Nat.and_le_left (hlt word (List.get?_mem hword))) hlt⟩

/-- Every step keeps a pool's bitmap the words `create_free_bitmap` allocated. -/
theorem Pool.BitmapWords.step {abi : Abi} {s s' : PoolState} {live live' : List Nat}
    (hwords : s.pool.BitmapWords abi) (hstep : PoolStep abi (s, live) (s', live')) :
    s'.pool.BitmapWords abi := by
  rcases hstep.pool_cases with ⟨hp, -⟩ | ⟨_, _, hp, -⟩ | ⟨_, -, hmask, hp, -⟩ |
    ⟨_, -, _, hunmask, hp, -⟩ <;> rw [hp]
  · exact hwords
  · exact hwords
  · intro words' hb'
    obtain ⟨words, hb, hlen, hlt⟩ := maskFreeSlot_words hmask hb'
    obtain ⟨hlen₀, hlt₀⟩ := hwords words hb
    exact ⟨hlen.trans hlen₀, hlt hlt₀⟩
  · intro words' hb'
    obtain ⟨words, hb, hlen, hlt⟩ := unmaskFreeSlot_words hunmask hb'
    obtain ⟨hlen₀, hlt₀⟩ := hwords words hb
    exact ⟨hlen.trans hlen₀, hlt hlt₀⟩

/-- `destroy_free_bitmap` passes on a bitmap of the words `create_free_bitmap` allocated with no
bit set. -/
theorem destroyFreeBitmap_of_clear {abi : Abi} {words : List Nat} {count : Nat}
    (hlen : words.length = (count + abi.bitsPerLong - 1) / abi.bitsPerLong)
    (hlt : ∀ w ∈ words, w < abi.wordSize) (hclear : ∀ j, abi.bit words j = false) :
    destroyFreeBitmap abi (some words) count = .ok () := by
  have hzero : ∀ k < words.length, words.get? k = some 0 := by
    intro k hk
    rw [get?_eq_getD hk, List.getD_eq_getElem _ _ hk]
    congr 1
    apply Nat.eq_of_testBit_eq
    intro b
    rw [Nat.zero_testBit]
    by_cases hb : b < abi.bitsPerLong
    · have hbit := hclear (b + abi.bitsPerLong * k)
      rwa [Abi.bit, Nat.add_mul_div_left _ _ abi.bitsPerLong_pos, Nat.div_eq_of_lt hb,
        Nat.zero_add, Nat.add_mul_mod_self_left, Nat.mod_eq_of_lt hb,
        List.getD_eq_getElem _ _ hk] at hbit
    · exact Nat.testBit_eq_false_of_lt (Nat.lt_of_lt_of_le (hlt _ (List.getElem_mem hk))
        (Nat.pow_le_pow_right Nat.two_pos (Nat.le_of_not_lt hb)))
  unfold destroyFreeBitmap
  rw [← hlen]
  suffices ∀ ks : List Nat, (∀ k ∈ ks, k < words.length) →
      ks.forM (fun k => match words.get? k with
        | some word => if word = 0 then pure () else throw .assertion
        | none => throw .undefined) = (.ok () : Except Fault Unit) from
    this _ fun _ hk => List.mem_range.1 hk
  intro ks hks
  induction ks with
  | nil => rfl
  | cons k ks ih =>
    rw [List.forM.eq_2, hzero k (hks k (List.mem_cons_self _ _))]
    exact ih fun k hk => hks k (List.mem_cons_of_mem _ hk)

/-- A pool the program holds no handle of passes the leak check of `destroy_free_bitmap`. -/
theorem Pool.BitmapHeld.bitmapClear {abi : Abi} {s : PoolState}
    (hheld : s.pool.BitmapHeld abi []) (hwords : s.pool.BitmapWords abi) :
    s.BitmapClear abi := by
  unfold PoolState.BitmapClear
  cases hb : s.pool.freeBitmap with
  | none => rfl
  | some words =>
    obtain ⟨hlen, hlt⟩ := hwords words hb
    refine destroyFreeBitmap_of_clear hlen hlt fun j => ?_
    cases hj : abi.bit words j
    · rfl
    · obtain ⟨_, hh, -⟩ := hheld words hb j hj
      cases hh

/-- A pool that create returns into a directory keeping the invariant has the words
`create_free_bitmap` allocated, all zero. -/
theorem DirInv.bitmapWords {abi : Abi} {dir dir' : Directory} {held : Nat → List Nat}
    {pageLen itemLen percpuLen : Nat} {maxNrCpus flags : Int} {mmapFunc : Nat → MmapResult}
    {callocSucceeds : Bool} {i : Nat} (hinv : DirInv abi dir held)
    (hcall : rseqPercpuPoolCreate abi pageLen dir itemLen percpuLen maxNrCpus mmapFunc flags
      callocSucceeds = .ok (dir', .ok i)) :
    (dir'.slots i).pool.BitmapWords abi := fun words hwords => by
  rw [hinv.freeBitmap_created hcall hwords]
  refine ⟨List.length_replicate .., fun w hw => ?_⟩
  rw [List.eq_of_mem_replicate hw]
  exact Nat.two_pow_pos _

/-! ### Along directory histories -/

/-- What every directory history keeps of each slot's bitmap: the words `create_free_bitmap`
allocated, with each set bit held. -/
def DirBitmapInv (abi : Abi) (dir : Directory) (held : Nat → List Nat) : Prop :=
  ∀ i, (dir.slots i).pool.BitmapWords abi ∧ (dir.slots i).pool.BitmapHeld abi (held i)

namespace DirBitmapInv

variable {abi : Abi} {dir dir' : Directory} {held held' : Nat → List Nat}

/-- The zero-initialised array has no bitmap. -/
theorem init (memory : Memory) : DirBitmapInv abi (Directory.init memory) fun _ => [] :=
  fun _ => ⟨fun _ h => (by cases h), fun _ h => (by cases h)⟩

/-- Replacing one slot by one that keeps its bitmap invariant keeps the invariant. -/
theorem set (hinv : DirBitmapInv abi dir held) {i : Nat} {s : PoolState} {l : List Nat}
    (hslot : s.pool.BitmapWords abi ∧ s.pool.BitmapHeld abi l) :
    DirBitmapInv abi (dir.set i s) (Function.update held i l) := by
  intro j
  by_cases hj : j = i
  · subst hj
    simpa using hslot
  · simpa [hj] using hinv j

/-- A pool step on a slot of the right shape keeps the invariant. -/
theorem pool (hinv : DirBitmapInv abi dir held) {i : Nat} {s' : PoolState} {l' : List Nat}
    (hs : (dir.slots i).pool.Shape abi) (hstep : PoolStep abi (dir.slots i, held i) (s', l')) :
    DirBitmapInv abi (dir.set i s') (Function.update held i l') :=
  hinv.set ⟨(hinv i).1.step hstep, (hinv i).2.step hs hstep⟩

/-- Every step of a directory keeping the directory invariant keeps the bitmap invariant. -/
theorem step (hdir : DirInv abi dir held) (hinv : DirBitmapInv abi dir held)
    (hstep : DirStep abi (dir, held) (dir', held')) : DirBitmapInv abi dir' held' := by
  cases hstep with
  | @create _ _ _ result _ _ _ _ _ _ _ hcall =>
    cases result with
    | error e => exact rseqPercpuPoolCreate_eq_error hcall ▸ hinv
    | ok i =>
      obtain ⟨-, -, -, hnil⟩ := hdir.created hcall
      obtain ⟨-, -, -, -, -, -, -, -, -, -, -, -, -, -, -, -, hdir'⟩ :=
        rseqPercpuPoolCreate_eq_ok hcall
      have hset := hinv.set (i := i) ⟨hdir.bitmapWords hcall, hnil ▸ hdir.bitmapHeld hcall⟩
      rw [Function.update_eq_self] at hset
      rw [hdir'] at hset ⊢
      simpa using hset
  | @destroy _ _ _ i _ err munmapFunc hcall =>
    obtain ⟨-, rfl, herr⟩ := rseqPercpuPoolDestroy_destroyed hcall
    unfold PoolState.destroyed
    by_cases hu : (dir.slots i).Unmaps abi munmapFunc
    · rw [if_pos (herr.2 hu), if_pos hu]
      exact hinv.set ⟨fun _ h => (by cases h), fun _ h => (by cases h)⟩
    · rw [if_neg (mt herr.1 hu), if_neg hu, Directory.set_self]
      exact hinv
  | malloc zeroed hlive hcall =>
    exact hinv.pool ((hdir _).live hlive).2.shape (.malloc zeroed hcall)
  | full zeroed hlive hcall =>
    simpa using hinv.pool ((hdir _).live hlive).2.shape (.full zeroed hcall)
  | free hheld hcall =>
    obtain ⟨hlive, s', rfl, hstep⟩ := hdir.free_poolStep hheld hcall
    exact hinv.pool ((hdir _).live hlive).2.shape hstep

/-- Every directory history keeps the bitmap invariant. -/
theorem run {σ σ' : Directory × (Nat → List Nat)} (hdir : DirInv abi σ.1 σ.2)
    (hinv : DirBitmapInv abi σ.1 σ.2) (hrun : Relation.ReflTransGen (DirStep abi) σ σ') :
    DirBitmapInv abi σ'.1 σ'.2 := by
  induction hrun with
  | refl => exact hinv
  | tail hab hstep ih => exact ih.step (hdir.run hab) hstep

end DirBitmapInv

/-- On every directory a history of creates, destroys, allocations and frees reaches from the
zero-initialised array, the leak check of `destroy_free_bitmap` passes on every pool the
program holds no handle of: `rseq_percpu_pool_destroy` of it returns `0` and leaves its slot
destroyed, and `rseq_percpu_pool_set_destroy` of a set whose pools are all such returns. -/
theorem destroy_unheld_of_reachable {abi : Abi} {memory : Memory} {dir : Directory}
    {held : Nat → List Nat}
    (hdir : Relation.ReflTransGen (DirStep abi) (Directory.init memory, fun _ => []) (dir, held)) :
    (∀ i, held i = [] → ∀ munmapFunc, ∃ err, rseqPercpuPoolDestroy abi dir i munmapFunc =
      .ok (dir.set i ((dir.slots i).destroyed abi munmapFunc), 0, err)) ∧
    ∀ set : PoolSet abi, (∀ q, set.Holds q → held q = []) → ∀ munmapFunc,
      ∃ r, rseqPercpuPoolSetDestroy abi dir set munmapFunc = .ok r := by
  have hclear : ∀ i, held i = [] → (dir.slots i).BitmapClear abi := fun i hi => by
    obtain ⟨hwords, hheld⟩ : (dir.slots i).pool.BitmapWords abi ∧
        (dir.slots i).pool.BitmapHeld abi (held i) :=
      (DirBitmapInv.init memory).run (DirInv.init memory) hdir i
    rw [hi] at hheld
    exact hheld.bitmapClear hwords
  refine ⟨fun i hi munmapFunc => ?_, fun set hset munmapFunc =>
    rseqPercpuPoolSetDestroy_ok_iff.2 fun q hq _ => hclear q (hset q hq)⟩
  obtain ⟨⟨dir', ret, err⟩, hcall⟩ := rseqPercpuPoolDestroy_ok_iff.2 fun _ => hclear i hi
  obtain ⟨rfl, rfl, -⟩ := rseqPercpuPoolDestroy_destroyed hcall
  exact ⟨err, hcall⟩

/-- A robust LP64 pool of 16-byte items, created, with one item allocated and freed: nothing of
it is held, its bitmap is zero again, and destroying it returns `0`. -/
theorem destroy_unheld_of_reachable_lp64 :
    ∃ dir held, Relation.ReflTransGen (DirStep .lp64)
        (Directory.init fun _ => .byte 0, fun _ => []) (dir, held) ∧
      (dir.slots 1).pool.freeBitmap = some [0, 0, 0, 0] ∧ held 1 = [] ∧
      ∃ err, rseqPercpuPoolDestroy .lp64 dir 1 (fun _ _ => (0, 0)) =
        .ok (dir.set 1 ((dir.slots 1).destroyed .lp64 fun _ _ => (0, 0)), 0, err) := by
  have hmalloc : Relation.ReflTransGen (DirStep .lp64)
      (Directory.init fun _ => .byte 0, fun _ => [])
      (((Directory.init fun _ => .byte 0).set 1
          ⟨⟨4096, 1, 16, 4096, 4, 4, 0, 0, some [0, 0, 0, 0]⟩, fun _ => .byte 0⟩).set 1
          ⟨⟨4096, 1, 16, 4096, 4, 4, 0, 16, some [1, 0, 0, 0]⟩, fun _ => .byte 0⟩,
        Function.update (fun _ => []) 1 [2 ^ 48]) :=
    .tail (.single (.create 4096 16 4096 4 rseqPoolRobust _ true
      rseqPercpuPoolCreate_lp64_robust)) (.malloc false (by decide) rfl)
  have hrun := hmalloc.tail (.free (i := 1) (List.mem_singleton_self _)
    (rseqPercpuFree_eq_ok.2 ⟨_, rfl, rfl⟩))
  exact ⟨_, _, hrun, rfl, rfl, (destroy_unheld_of_reachable hrun).1 1 rfl _⟩

end Librseq
