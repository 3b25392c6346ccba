import Librseq.Word

/-!
# The critical-section descriptors of the MIPS header

The MIPS header emits the descriptor of each critical section as assembler data: two `.word`s
for the version and the flags, then three pointers, each stored in a 64-bit slot. With
`_MIPS_SZLONG` 64 a pointer is one `.dword`; with 32 it is one `.word` padded by a zero
`.word` (`RSEQ_ASM_U32_U64_PAD`), the zero first when `__BIG_ENDIAN` is defined. The kernel reads
the descriptor as `struct rseq_cs`: two `__u32` and three `__u64` fields in the target's byte
order (`RseqCs.image`; the struct is the kernel's ABI, outside the sources).

The main result, `rseqAsmDefine_image`, says what the kernel reads. It reads the pointers
themselves when `_MIPS_SZLONG` is 64, or when `__BIG_ENDIAN` is defined exactly on big-endian
targets. Otherwise it reads each 32-bit pointer shifted left by 32. The `break 0x350` signature
of `__RSEQ_ASM_DEFINE_ABORT` is, in either byte order, the ISA's break instruction
(`rseqSig_bytes`).
-/

namespace Librseq

/-! ### Bytes -/

/-- The `n` bytes of `x`, least significant first. -/
def bytesLE : Nat → Nat → List Nat
  | 0, _ => []
  | n + 1, x => x % 256 :: bytesLE n (x / 256)

/-- The `n` bytes a store of `x` writes in the given byte order. -/
def storeBytes (bigEndian : Bool) (n x : Nat) : List Nat :=
  if bigEndian then (bytesLE n x).reverse else bytesLE n x

/-- The bytes of `x` below `256 ^ m` first, then those of the rest. -/
theorem bytesLE_add (m n x : Nat) :
    bytesLE (m + n) x = bytesLE m x ++ bytesLE n (x / 256 ^ m) := by
  induction m generalizing x with
  | zero => simp [bytesLE]
  | succ m ih =>
    rw [Nat.add_right_comm, bytesLE, ih, Nat.div_div_eq_div_mul, Nat.pow_succ, Nat.mul_comm]
    rfl

/-- Only the value modulo `256 ^ n` is stored. -/
theorem bytesLE_mod (n x : Nat) : bytesLE n (x % 256 ^ n) = bytesLE n x := by
  induction n generalizing x with
  | zero => rfl
  | succ n ih =>
    rw [bytesLE, bytesLE, Nat.pow_succ', Nat.mod_mul_right_mod, Nat.mod_mul_right_div_self, ih]

/-! ### The target and the directives -/

/-- What the header's preprocessor tests see of a MIPS target: whether `_MIPS_SZLONG` is 64
(else 32; other values stop the build), whether `__BIG_ENDIAN` is defined, and the byte order
the target stores data in. -/
structure MipsTarget where
  szlong64 : Bool
  bigEndianDefined : Bool
  bigEndian : Bool
deriving DecidableEq, Repr

/-- An assembler data directive and its operands, evaluated. -/
inductive Directive
  | word (values : List Nat)
  | dword (values : List Nat)
deriving DecidableEq, Repr

/-- The bytes a data directive emits in the given byte order. -/
def Directive.bytes (bigEndian : Bool) : Directive → List Nat
  | .word values => values.flatMap (storeBytes bigEndian 4)
  | .dword values => values.flatMap (storeBytes bigEndian 8)

/-- The bytes of a sequence of data directives. -/
def assemble (bigEndian : Bool) (ds : List Directive) : List Nat :=
  ds.flatMap (Directive.bytes bigEndian)

/-- The MIPS instruction sets the header's `#if` chain tells apart, in its order. -/
inductive MipsIsa
  | nanomips
  | micromips
  | mips
deriving DecidableEq, Repr

/-- `RSEQ_SIG` of an instruction set, on a little-endian target (`__MIPSEL__`) or not. -/
def rseqSig : MipsIsa → Bool → Nat
  | .nanomips, mipsel => if mipsel then 0x03500010 else 0x00100350
  | .micromips, mipsel => if mipsel then 0xd4070000 else 0x0000d407
  | .mips, _ => 0x0350000d

/-- The `break 0x350` instruction of an instruction set as the header's comment gives it, in the
target's byte order: one 32-bit word on MIPS; on nanoMIPS and microMIPS two 16-bit halfwords,
the first one first. -/
def breakInsnBytes (isa : MipsIsa) (bigEndian : Bool) : List Nat :=
  match isa with
  | .nanomips => storeBytes bigEndian 2 0x0010 ++ storeBytes bigEndian 2 0x0350
  | .micromips => storeBytes bigEndian 2 0x0000 ++ storeBytes bigEndian 2 0xd407
  | .mips => storeBytes bigEndian 4 0x0350000d

/-- The signature word is the instruction set's `break 0x350` in either byte order: swapping the
halfwords of the 16-bit instruction streams on little-endian targets makes it so. -/
theorem rseqSig_bytes (isa : MipsIsa) (bigEndian : Bool) :
    (Directive.word [rseqSig isa !bigEndian]).bytes bigEndian = breakInsnBytes isa bigEndian := by
  cases isa <;> cases bigEndian <;> rfl

namespace MipsTarget

variable (t : MipsTarget)

/-- `RSEQ_ASM_LONG`. -/
def rseqAsmLong (values : List Nat) : Directive :=
  if t.szlong64 then .dword values else .word values

/-- `RSEQ_ASM_U32_U64_PAD(x)`. -/
def rseqAsmU32U64Pad (x : Nat) : List Nat :=
  if t.szlong64 then [x] else if t.bigEndianDefined then [0, x] else [x, 0]

/-- One pointer in a 64-bit slot: `RSEQ_ASM_LONG " " RSEQ_ASM_U32_U64_PAD(x)`. -/
def longSlot (x : Nat) : Directive := t.rseqAsmLong (t.rseqAsmU32U64Pad x)

/-- The four lines of a descriptor that `__RSEQ_ASM_DEFINE_TABLE` and `__RSEQ_ASM_DEFINE_ABORT`
both emit after `.balign 32` and the descriptor's label. -/
def rseqAsmDescriptor (version flags startIp postCommitOffset abortIp : Nat) : List Directive :=
  [.word [version, flags], t.longSlot startIp, t.longSlot postCommitOffset, t.longSlot abortIp]

/-- The data `__RSEQ_ASM_DEFINE_TABLE` places at its label in `__rseq_cs`, and the entry it adds
to `__rseq_cs_ptr_array`. -/
def rseqAsmDefineTable (label version flags startIp postCommitOffset abortIp : Nat) :
    List Directive × List Directive :=
  (t.rseqAsmDescriptor version flags startIp postCommitOffset abortIp, [t.longSlot label])

/-- `RSEQ_ASM_DEFINE_TABLE(label, start_ip, post_commit_ip, abort_ip)`: version 0, no flags,
and the offset `post_commit_ip - start_ip`. -/
def rseqAsmDefineTableV0 (label startIp postCommitIp abortIp : Nat) :
    List Directive × List Directive :=
  t.rseqAsmDefineTable label 0 0 startIp (postCommitIp - startIp) abortIp

/-- The data `RSEQ_ASM_DEFINE_EXIT_POINT` adds to `__rseq_exit_point_array`. -/
def rseqAsmDefineExitPoint (startIp exitIp : Nat) : List Directive :=
  [t.longSlot startIp, t.longSlot exitIp]

/-- What `__RSEQ_ASM_DEFINE_ABORT` places from its table label, after `.balign 32`, up to its
abort label: a copy of the descriptor, then the signature word. The teardown and the branch
follow the label. -/
def rseqAsmDefineAbort (isa : MipsIsa) (version flags startIp postCommitOffset abortIp : Nat) :
    List Directive :=
  t.rseqAsmDescriptor version flags startIp postCommitOffset abortIp ++
    [.word [rseqSig isa !t.bigEndian]]

/-- `RSEQ_ASM_DEFINE_ABORT`: version 0, no flags, and the offset `post_commit_ip - start_ip`. -/
def rseqAsmDefineAbortV0 (isa : MipsIsa) (startIp postCommitIp abortIp : Nat) : List Directive :=
  t.rseqAsmDefineAbort isa 0 0 startIp (postCommitIp - startIp) abortIp

/-- The largest pointer plus one: `2 ^ _MIPS_SZLONG`. -/
def longBound : Nat := if t.szlong64 then 2 ^ 64 else 2 ^ 32

/-- The factor the kernel reads a stored pointer with: `1` unless a 32-bit target pads on the
wrong side, when it reads the pointer shifted left by 32. -/
def padShift : Nat :=
  if t.szlong64 = true ∨ t.bigEndianDefined = t.bigEndian then 1 else 2 ^ 32

end MipsTarget

/-- The fields of `struct rseq_cs`, the kernel's descriptor of a critical section. -/
structure RseqCs where
  version : Nat
  flags : Nat
  startIp : Nat
  postCommitOffset : Nat
  abortIp : Nat
deriving DecidableEq, Repr

/-- The memory image of a `struct rseq_cs`: `__u32 version, flags` and `__u64 start_ip,
post_commit_offset, abort_ip`, in the given byte order. -/
def RseqCs.image (bigEndian : Bool) (cs : RseqCs) : List Nat :=
  storeBytes bigEndian 4 cs.version ++ storeBytes bigEndian 4 cs.flags ++
    storeBytes bigEndian 8 cs.startIp ++ storeBytes bigEndian 8 cs.postCommitOffset ++
    storeBytes bigEndian 8 cs.abortIp

/-! ### What the kernel reads -/

namespace MipsTarget

variable {t : MipsTarget}

/-- A pointer of the target stored in a 64-bit slot is the `__u64` pointer, shifted left by 32
when a 32-bit target pads on the wrong side. -/
theorem assemble_longSlot {x : Nat} (hx : x < t.longBound) :
    assemble t.bigEndian [t.longSlot x] = storeBytes t.bigEndian 8 (x * t.padShift) := by
  obtain ⟨szlong64, defined, be⟩ := t
  cases szlong64
  case true => cases be <;> simp [assemble, longSlot, rseqAsmLong, rseqAsmU32U64Pad, padShift,
    Directive.bytes]
  have h32 : (256 : Nat) ^ 4 = 2 ^ 32 := rfl
  have hlow : bytesLE 4 x ++ bytesLE 4 0 = bytesLE 8 x := by
    rw [bytesLE_add 4 4 x, h32, Nat.div_eq_of_lt (show x < 2 ^ 32 from hx)]
  have hhigh : bytesLE 4 0 ++ bytesLE 4 x = bytesLE 8 (x * 2 ^ 32) := by
    rw [bytesLE_add 4 4, h32, ← bytesLE_mod 4 (x * 2 ^ 32), h32, Nat.mul_mod_left,
      Nat.mul_div_cancel _ (Nat.two_pow_pos 32)]
  cases defined <;> cases be <;>
    simp [assemble, longSlot, rseqAsmLong, rseqAsmU32U64Pad, padShift, Directive.bytes,
      storeBytes, hlow, hhigh, ← List.reverse_append]

/-- The bytes of a descriptor are a `struct rseq_cs` with the given fields, each pointer read
with the target's `padShift`. -/
theorem assemble_rseqAsmDescriptor (version flags : Nat) {startIp postCommitOffset abortIp : Nat}
    (hstart : startIp < t.longBound) (hoffset : postCommitOffset < t.longBound)
    (habort : abortIp < t.longBound) :
    assemble t.bigEndian (t.rseqAsmDescriptor version flags startIp postCommitOffset abortIp) =
      RseqCs.image t.bigEndian ⟨version, flags, startIp * t.padShift,
        postCommitOffset * t.padShift, abortIp * t.padShift⟩ := by
  have hslot := fun x (hx : x < t.longBound) =>
    (List.flatMap_singleton _ _).symm.trans (assemble_longSlot hx)
  simp only [assemble, rseqAsmDescriptor, List.flatMap_cons, List.flatMap_nil, List.append_nil,
    Directive.bytes, RseqCs.image, List.append_assoc] at hslot ⊢
  rw [hslot _ hstart, hslot _ hoffset, hslot _ habort]

/-- For every MIPS target and instruction set, and every label, start, post-commit, abort and
exit address below `2 ^ _MIPS_SZLONG` with the start not past the post-commit address, the
kernel reads each stored pointer times the target's `padShift`:
* `RSEQ_ASM_DEFINE_TABLE` places in `__rseq_cs` the image of the `struct rseq_cs` of version 0
  with no flags, the start, the offset `post_commit_ip - start_ip` and the abort address; it
  places the label's address in `__rseq_cs_ptr_array`;
* `RSEQ_ASM_DEFINE_ABORT` places the same descriptor before its abort label, with the
  instruction set's `break 0x350` in the four bytes right before the label;
* `RSEQ_ASM_DEFINE_EXIT_POINT` places the start and the exit address. -/
theorem rseqAsmDefine_image (t : MipsTarget) (isa : MipsIsa)
    (label startIp postCommitIp abortIp exitIp : Nat) (hlabel : label < t.longBound)
    (hle : startIp ≤ postCommitIp) (hpost : postCommitIp < t.longBound)
    (habort : abortIp < t.longBound) (hexit : exitIp < t.longBound) :
    let cs : RseqCs := ⟨0, 0, startIp * t.padShift, (postCommitIp - startIp) * t.padShift,
      abortIp * t.padShift⟩
    assemble t.bigEndian (t.rseqAsmDefineTableV0 label startIp postCommitIp abortIp).1 =
      cs.image t.bigEndian ∧
    assemble t.bigEndian (t.rseqAsmDefineTableV0 label startIp postCommitIp abortIp).2 =
      storeBytes t.bigEndian 8 (label * t.padShift) ∧
    assemble t.bigEndian (t.rseqAsmDefineAbortV0 isa startIp postCommitIp abortIp) =
      cs.image t.bigEndian ++ breakInsnBytes isa t.bigEndian ∧
    assemble t.bigEndian (t.rseqAsmDefineExitPoint startIp exitIp) =
      storeBytes t.bigEndian 8 (startIp * t.padShift) ++
        storeBytes t.bigEndian 8 (exitIp * t.padShift) := by
  have hstart : startIp < t.longBound := Nat.lt_of_le_of_lt hle hpost
  have hoffset : postCommitIp - startIp < t.longBound := Nat.lt_of_le_of_lt (Nat.sub_le _ _) hpost
  have hcs := assemble_rseqAsmDescriptor 0 0 hstart hoffset habort
  refine ⟨hcs, assemble_longSlot hlabel, ?_, ?_⟩
  · rw [rseqAsmDefineAbortV0, rseqAsmDefineAbort, assemble, List.flatMap_append, ← assemble,
      hcs, List.flatMap_singleton, rseqSig_bytes]
  · rw [rseqAsmDefineExitPoint, assemble, List.flatMap_cons, List.flatMap_singleton,
      ← List.flatMap_singleton (Directive.bytes t.bigEndian), ← assemble,
      assemble_longSlot hstart, ← List.flatMap_singleton (Directive.bytes t.bigEndian),
      ← assemble, assemble_longSlot hexit]

/-- On a little-endian 32-bit target with `__BIG_ENDIAN` defined, the zero word comes first and
the kernel reads the descriptor's start address `0x400000` as `0x400000 * 2 ^ 32`. -/
theorem rseqAsmDefine_image_mipsel32 :
    (0x400000 : Nat) < (MipsTarget.mk false true false).longBound ∧
      (assemble false ((MipsTarget.mk false true false).rseqAsmDefineTableV0 0x400100 0x400000
        0x400010 0x400020).1 =
        RseqCs.image false ⟨0, 0, 0x400000 * 2 ^ 32, 0x10 * 2 ^ 32, 0x400020 * 2 ^ 32⟩) :=
  ⟨by decide, (rseqAsmDefine_image (MipsTarget.mk false true false) .mips 0x400100 0x400000
    0x400010 0x400020 0 (by decide) (by decide) (by decide) (by decide) (by decide)).1⟩

end MipsTarget

end Librseq
