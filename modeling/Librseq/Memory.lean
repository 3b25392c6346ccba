import Librseq.Word

/-!
# Bytes and stored pointers

The allocator keeps its free list inside the pool's mapping: `rseq_percpu_free` stores a
`struct free_list_node *` at the CPU-0 address of the freed item, `__rseq_percpu_malloc`
loads it back, and `rseq_percpu_zero_item` and the application overwrite the same bytes with
plain data. The memory here is the byte-level one of the C abstract machine: a stored pointer
occupies `sizeof(void *)` bytes as its fragments and loads back as that pointer only while
all of them are in place (`loadPtr_storePtr`), and plain bytes load as the integer they
spell. Any other mixture, the fragments of a stored pointer with some of them overwritten by
plain bytes or fragments of two pointers, loads as `none`: such bytes hold no pointer value the
program made, and the allocator, which only dereferences the links it loads, has no defined use
for them. The model makes the load itself undefined, not the dereference that follows.

Every operation comes with its frame lemma: a byte outside the written range is untouched.
-/

namespace Librseq

/-- A byte of memory: a plain byte, or byte `index` of the stored pointer `pointer`. -/
inductive MemVal
  | byte (value : UInt8)
  | fragment (pointer index : Nat)
deriving DecidableEq, Repr

/-- The contents of memory, by address. -/
abbrev Memory := Nat → MemVal

namespace Memory

/-- Write one byte (or one pointer fragment) at `address`. -/
def set (memory : Memory) (address : Nat) (value : MemVal) : Memory :=
  fun a => if a = address then value else memory a

/-- `memset(p, value, len)`. -/
def memset (memory : Memory) (p : Nat) (value : UInt8) (len : Nat) : Memory :=
  fun a => if p ≤ a ∧ a < p + len then .byte value else memory a

/-- Store the pointer `pointer` at `address`: its `sizeof(void *)` bytes become its
fragments. -/
def storePtr (abi : Abi) (memory : Memory) (address pointer : Nat) : Memory :=
  fun a => if address ≤ a ∧ a < address + abi.sizeofPtr then .fragment pointer (a - address)
    else memory a

/-- The little-endian value of `len` bytes from `address`, when they are all plain bytes. -/
def loadBytes (memory : Memory) (address : Nat) : Nat → Option Nat
  | 0 => some 0
  | len + 1 =>
    match memory address, loadBytes memory (address + 1) len with
    | .byte b, some rest => some (b.toNat + 256 * rest)
    | _, _ => none

/-- Load a pointer: the pointer whose fragments fill the `sizeof(void *)` bytes in order, or
the integer the plain bytes spell, and `none` for any other mixture. -/
def loadPtr (abi : Abi) (memory : Memory) (address : Nat) : Option Nat :=
  match memory address with
  | .fragment pointer 0 =>
    if ∀ i < abi.sizeofPtr, memory (address + i) = .fragment pointer i then some pointer
    else none
  | .byte _ => loadBytes memory address abi.sizeofPtr
  | .fragment _ _ => none

variable {abi : Abi} {memory : Memory}

theorem set_apply (address a : Nat) (value : MemVal) :
    memory.set address value a = if a = address then value else memory a := rfl

theorem memset_apply (p a : Nat) (value : UInt8) (len : Nat) :
    memory.memset p value len a =
      if p ≤ a ∧ a < p + len then .byte value else memory a := rfl

theorem storePtr_apply (address pointer a : Nat) :
    memory.storePtr abi address pointer a =
      if address ≤ a ∧ a < address + abi.sizeofPtr then .fragment pointer (a - address)
      else memory a := rfl

/-- A byte outside the written range is untouched by `memset`. -/
theorem memset_of_not_mem {p a len : Nat} (value : UInt8) (h : a < p ∨ p + len ≤ a) :
    memory.memset p value len a = memory a := by
  rw [memset_apply, if_neg (by omega)]

/-- A byte outside the pointer's bytes is untouched by `storePtr`. -/
theorem storePtr_of_not_mem {address a : Nat} (pointer : Nat)
    (h : a < address ∨ address + abi.sizeofPtr ≤ a) :
    memory.storePtr abi address pointer a = memory a := by
  rw [storePtr_apply, if_neg (by omega)]

/-- The `≠` form of the frame lemmas: an address no written byte reaches is untouched. -/
theorem memset_of_ne {p a len : Nat} (value : UInt8) (h : ∀ i < len, p + i ≠ a) :
    memory.memset p value len a = memory a :=
  memset_of_not_mem value (by
    by_contra hc
    exact h (a - p) (by omega) (by omega))

theorem storePtr_of_ne {address a : Nat} (pointer : Nat)
    (h : ∀ i < abi.sizeofPtr, address + i ≠ a) :
    memory.storePtr abi address pointer a = memory a :=
  storePtr_of_not_mem pointer (by
    by_contra hc
    exact h (a - address) (by omega) (by omega))

theorem set_of_ne {address a : Nat} (value : MemVal) (h : address ≠ a) :
    memory.set address value a = memory a := by
  rw [set_apply, if_neg (Ne.symm h)]

/-- The converse of the frame lemmas: a byte a write changes is one of the bytes it writes. -/
theorem exists_of_memset_ne {p a len : Nat} {value : UInt8}
    (h : memory.memset p value len a ≠ memory a) : ∃ i < len, a = p + i := by
  by_contra hn
  exact h (memset_of_ne value fun i hi he => hn ⟨i, hi, he.symm⟩)

theorem exists_of_storePtr_ne {address pointer a : Nat}
    (h : memory.storePtr abi address pointer a ≠ memory a) :
    ∃ i < abi.sizeofPtr, a = address + i := by
  by_contra hn
  exact h (storePtr_of_ne pointer fun i hi he => hn ⟨i, hi, he.symm⟩)

theorem eq_of_set_ne {address a : Nat} {value : MemVal}
    (h : memory.set address value a ≠ memory a) :
    a = address := by
  by_contra hn
  exact h (set_of_ne value (Ne.symm hn))

theorem loadBytes_congr {memory' : Memory} {address len : Nat}
    (h : ∀ i < len, memory' (address + i) = memory (address + i)) :
    loadBytes memory' address len = loadBytes memory address len := by
  induction len generalizing address with
  | zero => rfl
  | succ len ih =>
    have hhead := h 0 (Nat.succ_pos _)
    rw [Nat.add_zero] at hhead
    have htail := @ih (address + 1) fun i hi => by
      simpa only [Nat.add_assoc, Nat.add_comm 1] using h (i + 1) (by omega)
    simp only [loadBytes, hhead, htail]

/-- A load sees only the `sizeof(void *)` bytes at its address. -/
theorem loadPtr_congr {memory' : Memory} {address : Nat}
    (h : ∀ i < abi.sizeofPtr, memory' (address + i) = memory (address + i)) :
    loadPtr abi memory' address = loadPtr abi memory address := by
  have hhead : memory' address = memory address := by
    simpa using h 0 abi.sizeofPtr_pos
  have hall (pointer : Nat) :
      (∀ i < abi.sizeofPtr, memory' (address + i) = .fragment pointer i) ↔
        (∀ i < abi.sizeofPtr, memory (address + i) = .fragment pointer i) :=
    forall₂_congr fun i hi => by rw [h i hi]
  unfold loadPtr
  rw [hhead]
  split
  · simp only [hall]
  · exact loadBytes_congr h
  · rfl


/-- The fragments of a pointer, all in place, load as that pointer. -/
theorem loadPtr_of_fragments {address pointer : Nat}
    (h : ∀ i < abi.sizeofPtr, memory (address + i) = .fragment pointer i) :
    loadPtr abi memory address = some pointer := by
  have hhead := h 0 abi.sizeofPtr_pos
  rw [Nat.add_zero] at hhead
  simp only [loadPtr, hhead, if_pos h]

/-- A stored pointer loads back. -/
theorem loadPtr_storePtr (address pointer : Nat) :
    loadPtr abi (memory.storePtr abi address pointer) address = some pointer :=
  loadPtr_of_fragments fun i hi => by
    rw [storePtr_apply, if_pos (by omega), Nat.add_sub_cancel_left]

/-- A byte after a `memset` is the byte before it or the value set. -/
theorem memset_eq_or (p a : Nat) (value : UInt8) (len : Nat) :
    memory.memset p value len a = memory a ∨ memory.memset p value len a = .byte value := by
  rw [memset_apply]
  split
  · exact .inr rfl
  · exact .inl rfl

/-- Bytes that are zeros or pointer fragments spell the integer zero or nothing. -/
theorem loadBytes_zero_or_none {address len : Nat}
    (h : ∀ i < len,
      memory (address + i) = .byte 0 ∨ ∃ p j, memory (address + i) = .fragment p j) :
    loadBytes memory address len = some 0 ∨ loadBytes memory address len = none := by
  induction len generalizing address with
  | zero => exact .inl rfl
  | succ len ih =>
    have hhead := h 0 (Nat.succ_pos _)
    rw [Nat.add_zero] at hhead
    have htail := @ih (address + 1) fun i hi => by
      simpa only [Nat.add_assoc, Nat.add_comm 1] using h (i + 1) (by omega)
    rcases hhead with hhead | ⟨p, j, hhead⟩ <;> rcases htail with htail | htail <;>
      simp [loadBytes, hhead, htail]

/-- A pointer whose bytes zeroing has partly cleared loads, if at all, as `NULL`. -/
theorem loadPtr_eq_zero_of_cleared {address pointer value : Nat}
    (hbytes : ∀ i < abi.sizeofPtr, memory (address + i) = .fragment pointer i ∨
      memory (address + i) = .byte 0)
    (hzero : ∃ i < abi.sizeofPtr, memory (address + i) = .byte 0)
    (hload : loadPtr abi memory address = some value) : value = 0 := by
  obtain ⟨k, hk, hkz⟩ := hzero
  have hbytes' : ∀ i < abi.sizeofPtr, memory (address + i) = .byte 0 ∨
      ∃ p j, memory (address + i) = .fragment p j := fun i hi =>
    (hbytes i hi).elim (fun h => .inr ⟨_, _, h⟩) .inl
  unfold loadPtr at hload
  split at hload
  · split at hload
    · rename_i hall
      rw [hall k hk] at hkz
      cases hkz
    · cases hload
  · rcases loadBytes_zero_or_none hbytes' with h | h <;> rw [h] at hload
    · exact (Option.some.inj hload).symm
    · cases hload
  · cases hload

end Memory

end Librseq
