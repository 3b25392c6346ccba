import Librseq.Percpu.Pool

/-!
# Per-thread registration

`rseq_register_current_thread` and `rseq_unregister_current_thread` share one registration of
the thread's `__lib_rseq_abi` among its users through the `__u32` field `refcount`: a register
call that finds it at `0` makes the registration system call, an unregister call that brings it
to `0` makes the unregistration one. A failed registration restores the count; a failed
unregistration does not.

`RegStep` is one call of the thread, with any outcome of the system call it may make; it counts
the calls that returned `0` and the failed unregistrations. Along every history
(`refcount_reachable`) `refcount` stays a `__u32` and is the register calls that returned `0`
less the unregister calls that returned `0` and less the failed unregistrations, modulo
`2 ^ 32`, and each call makes its system call exactly when it finds the count at `0` (register)
or at `1` (unregister). A failed unregistration thus leaves the count one below the number of
outstanding registrations: it drops to `0` while one is outstanding, and the next unregister
call wraps it to `2 ^ 32 - 1` (`refcount_failed_unregister`).

The model assumes that the kernel writes no byte of `refcount`.
-/

namespace Librseq

/-- What the library knows of the `cpu_id` field: as initialised, as set after a failed
registration, or as the kernel last wrote it. -/
inductive CpuIdState
  /-- `RSEQ_CPU_ID_UNINITIALIZED`, the value `__lib_rseq_abi` is initialised with. -/
  | uninitialized
  /-- `RSEQ_CPU_ID_REGISTRATION_FAILED`, written after a registration failing otherwise than
  with `EBUSY`. -/
  | registrationFailed
  /-- A value the kernel wrote. -/
  | kernel
deriving DecidableEq, Repr

/-- The fields of the thread's `__lib_rseq_abi` that the registration code touches. -/
structure LibRseqAbi where
  cpuId : CpuIdState
  refcount : Nat
deriving DecidableEq, Repr

/-- `__lib_rseq_abi` as every thread starts with it. -/
def LibRseqAbi.init : LibRseqAbi := ⟨.uninitialized, 0⟩

/-- The `__u32` increment `refcount + 1`. -/
def u32Inc (x : Nat) : Nat := (x + 1) % 2 ^ 32

/-- The `__u32` decrement `refcount - 1`. -/
def u32Dec (x : Nat) : Nat := (x + 2 ^ 32 - 1) % 2 ^ 32

/-- `rseq_register_current_thread()`, with `sysRseq` the outcome of the registration system call
should the call make it: `none` when it returns `0`, the `errno` otherwise. The result is the new
fields, the value returned and whether the system call was made. -/
def rseqRegisterCurrentThread (abi : LibRseqAbi) (sysRseq : Option Errno) :
    LibRseqAbi × Int × Bool :=
  let old := abi.refcount
  let abi := { abi with refcount := u32Inc old }
  if old ≠ 0 then (abi, 0, false) else
  match sysRseq with
  | none => (abi, 0, true)
  | some e =>
    let abi := if e ≠ .EBUSY then { abi with cpuId := .registrationFailed } else abi
    ({ abi with refcount := u32Dec abi.refcount }, -1, true)

/-- `rseq_unregister_current_thread()`, with `sysRseq` the outcome of the unregistration system
call should the call make it. -/
def rseqUnregisterCurrentThread (abi : LibRseqAbi) (sysRseq : Option Errno) :
    LibRseqAbi × Int × Bool :=
  let abi := { abi with refcount := u32Dec abi.refcount }
  if abi.refcount ≠ 0 then (abi, 0, false) else
  match sysRseq with
  | none => (abi, 0, true)
  | some _ => (abi, -1, true)

section Calls

variable {abi abi' : LibRseqAbi} {sysRseq : Option Errno} {ret : Int} {issued : Bool}

/-- A register call makes the system call exactly when it finds the count at `0`; it returns `0`
with the count one up, or `-1` with the count as it was. -/
theorem rseqRegisterCurrentThread_eq
    (h : rseqRegisterCurrentThread abi sysRseq = (abi', ret, issued)) :
    (issued ↔ abi.refcount = 0) ∧
      (ret = 0 ∧ abi'.refcount = u32Inc abi.refcount ∨
        ret = -1 ∧ abi'.refcount = abi.refcount ∧ sysRseq ≠ none) := by
  unfold rseqRegisterCurrentThread at h
  dsimp only at h
  split at h
  · cases h
    exact ⟨by simpa, .inl ⟨rfl, rfl⟩⟩
  · rename_i hold
    have hzero : abi.refcount = 0 := not_not.1 hold
    cases sysRseq with
    | none =>
      cases h
      exact ⟨by simpa, .inl ⟨rfl, rfl⟩⟩
    | some e =>
      simp only [Prod.mk.injEq] at h
      obtain ⟨rfl, rfl, rfl⟩ := h
      refine ⟨by simpa, .inr ⟨rfl, ?_, Option.some_ne_none _⟩⟩
      split <;> simp [hzero, u32Inc, u32Dec]

/-- An unregister call makes the system call exactly when it finds the count at `1`, and always
takes one off the count; it returns `-1` exactly when that system call fails. -/
theorem rseqUnregisterCurrentThread_eq
    (h : rseqUnregisterCurrentThread abi sysRseq = (abi', ret, issued))
    (hlt : abi.refcount < 2 ^ 32) :
    (issued ↔ abi.refcount = 1) ∧ abi'.refcount = u32Dec abi.refcount ∧
      (ret = -1 ↔ issued ∧ sysRseq ≠ none) := by
  have hone : u32Dec abi.refcount = 0 ↔ abi.refcount = 1 := by
    unfold u32Dec
    omega
  unfold rseqUnregisterCurrentThread at h
  dsimp only at h
  split at h
  · cases h
    rename_i hne
    exact ⟨by simpa [hone] using hne, rfl, by simp⟩
  · rename_i hzero
    cases sysRseq <;> cases h <;> simp_all

end Calls

/-- A thread's registration fields with the counts the contract speaks of: `net` is the register
calls that returned `0` less the unregister calls that returned `0`, and `failed` is the
unregister calls whose system call failed. -/
structure RegState where
  abi : LibRseqAbi
  net : Nat
  failed : Nat

/-- One call of the thread, with any outcome of the system call it may make; an unregister call
is made only while more register calls than unregister calls have returned `0`. -/
inductive RegStep : RegState → RegState → Prop
  | register {σ : RegState} {abi' : LibRseqAbi} {ret : Int} {issued : Bool}
      (sysRseq : Option Errno) (h : rseqRegisterCurrentThread σ.abi sysRseq = (abi', ret, issued)) :
      RegStep σ ⟨abi', if ret = 0 then σ.net + 1 else σ.net, σ.failed⟩
  | unregister {σ : RegState} {abi' : LibRseqAbi} {ret : Int} {issued : Bool}
      (sysRseq : Option Errno) (hnet : 0 < σ.net)
      (h : rseqUnregisterCurrentThread σ.abi sysRseq = (abi', ret, issued)) :
      RegStep σ ⟨abi', if ret = 0 then σ.net - 1 else σ.net,
        if ret = 0 then σ.failed else σ.failed + 1⟩

/-- What every history keeps: `refcount` is a `__u32`, and adding the failed unregistrations to
it gives `net` modulo `2 ^ 32`. -/
def RegInv (σ : RegState) : Prop :=
  σ.abi.refcount < 2 ^ 32 ∧ (σ.abi.refcount + σ.failed) % 2 ^ 32 = σ.net % 2 ^ 32

/-- Every call keeps the invariant. -/
theorem RegInv.step {σ σ' : RegState} (hinv : RegInv σ) (hstep : RegStep σ σ') :
    RegInv σ' := by
  obtain ⟨hlt, hmod⟩ := hinv
  cases hstep with
  | register sysRseq h =>
    obtain ⟨-, ⟨rfl, hinc⟩ | ⟨rfl, hsame, -⟩⟩ := rseqRegisterCurrentThread_eq h
    · simp only [RegInv, hinc, u32Inc, if_pos]
      refine ⟨Nat.mod_lt _ (Nat.two_pow_pos 32), ?_⟩
      rw [Nat.mod_add_mod, Nat.add_right_comm, Nat.add_mod, hmod, ← Nat.add_mod]
    · simp only [RegInv, hsame]
      exact ⟨hlt, hmod⟩
  | unregister sysRseq hnet h =>
    obtain ⟨-, hdec, -⟩ := rseqUnregisterCurrentThread_eq h hlt
    simp only [RegInv, hdec, u32Dec]
    split <;> omega

/-- Along every history of the thread: `refcount` stays below `2 ^ 32` and is the register calls
that returned `0` less the unregister calls that returned `0` and less the failed
unregistrations, modulo `2 ^ 32`; a register call makes the registration system call exactly when
it finds `refcount` at `0`, and leaves it as it was when it returns `-1`; an unregister call
makes the unregistration system call exactly when it finds `refcount` at `1`; so with no failed
unregistration and fewer than `2 ^ 32` registrations outstanding, `refcount` is the number of
outstanding registrations. -/
theorem refcount_reachable {σ : RegState}
    (hrun : Relation.ReflTransGen RegStep ⟨LibRseqAbi.init, 0, 0⟩ σ) :
    σ.abi.refcount < 2 ^ 32 ∧ (σ.abi.refcount + σ.failed) % 2 ^ 32 = σ.net % 2 ^ 32 ∧
    (∀ sysRseq abi' ret issued,
      rseqRegisterCurrentThread σ.abi sysRseq = (abi', ret, issued) →
        (issued ↔ σ.abi.refcount = 0) ∧ (ret = -1 → abi'.refcount = σ.abi.refcount)) ∧
    (∀ sysRseq abi' ret issued,
      rseqUnregisterCurrentThread σ.abi sysRseq = (abi', ret, issued) →
        (issued ↔ σ.abi.refcount = 1)) ∧
    (σ.failed = 0 → σ.net < 2 ^ 32 → σ.abi.refcount = σ.net) := by
  have hinv : RegInv σ := by
    induction hrun with
    | refl => exact ⟨by decide, rfl⟩
    | tail _ hstep ih => exact ih.step hstep
  obtain ⟨hlt, hmod⟩ := hinv
  refine ⟨hlt, hmod, fun _ _ _ _ h => ?_,
    fun _ _ _ _ h => (rseqUnregisterCurrentThread_eq h hlt).1, fun hfailed hnet => ?_⟩
  · obtain ⟨hissued, ⟨rfl, -⟩ | ⟨-, hsame, -⟩⟩ := rseqRegisterCurrentThread_eq h
    · exact ⟨hissued, fun h => absurd h (by decide)⟩
    · exact ⟨hissued, fun _ => hsame⟩
  · rw [hfailed, Nat.add_zero, Nat.mod_eq_of_lt hlt, Nat.mod_eq_of_lt hnet] at hmod
    exact hmod

/-- From every state a history reaches with one registration outstanding and no failed
unregistration, an unregister call whose system call fails, with any `errno`, returns `-1` but,
unlike a failed register call, leaves `refcount` taken down to `0` while the registration is
still outstanding; the next unregister call then makes no system call, whatever it would do,
returns `0` and wraps `refcount` to `2 ^ 32 - 1`. -/
theorem refcount_failed_unregister {σ : RegState}
    (hrun : Relation.ReflTransGen RegStep ⟨LibRseqAbi.init, 0, 0⟩ σ) (hfailed : σ.failed = 0)
    (hnet : σ.net = 1) (e : Errno) :
    ∃ σ₁ σ₂, RegStep σ σ₁ ∧ RegStep σ₁ σ₂ ∧
      rseqUnregisterCurrentThread σ.abi (some e) = (σ₁.abi, -1, true) ∧
      σ₁.abi.refcount = 0 ∧ σ₁.net = 1 ∧
      (∀ sysRseq, rseqUnregisterCurrentThread σ₁.abi sysRseq = (σ₂.abi, 0, false)) ∧
      σ₂.abi.refcount = 2 ^ 32 - 1 ∧ σ₂.net = 0 := by
  have hone : σ.abi.refcount = 1 :=
    hnet ▸ (refcount_reachable hrun).2.2.2.2 hfailed (by rw [hnet]; decide)
  have hfail : rseqUnregisterCurrentThread σ.abi (some e) = (⟨σ.abi.cpuId, 0⟩, -1, true) := by
    simp [rseqUnregisterCurrentThread, hone, u32Dec]
  have hwrap : ∀ sysRseq, rseqUnregisterCurrentThread ⟨σ.abi.cpuId, 0⟩ sysRseq =
      (⟨σ.abi.cpuId, 2 ^ 32 - 1⟩, 0, false) := fun _ => by
    simp [rseqUnregisterCurrentThread, u32Dec]
  exact ⟨_, _, .unregister (some e) (by rw [hnet]; decide) hfail,
    .unregister none (by simp [hnet]) (hwrap none), hfail, rfl, by simp [hnet], hwrap, rfl,
    by simp [hnet]⟩

/-- The failing input: one registration, then an unregistration whose system call fails with
`EINVAL`. -/
theorem refcount_failed_unregister_once :
    Relation.ReflTransGen RegStep ⟨LibRseqAbi.init, 0, 0⟩ ⟨⟨.uninitialized, 1⟩, 1, 0⟩ ∧
    ∃ σ₁ σ₂, RegStep ⟨⟨.uninitialized, 1⟩, 1, 0⟩ σ₁ ∧ RegStep σ₁ σ₂ ∧
      rseqUnregisterCurrentThread ⟨.uninitialized, 1⟩ (some .EINVAL) = (σ₁.abi, -1, true) ∧
      σ₁.abi.refcount = 0 ∧ σ₁.net = 1 ∧
      (∀ sysRseq, rseqUnregisterCurrentThread σ₁.abi sysRseq = (σ₂.abi, 0, false)) ∧
      σ₂.abi.refcount = 2 ^ 32 - 1 ∧ σ₂.net = 0 :=
  ⟨.single (.register none rfl),
    refcount_failed_unregister (.single (.register none rfl)) rfl rfl .EINVAL⟩

end Librseq
