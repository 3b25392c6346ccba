import Librseq.Percpu.PoolSet

/-!
# Destroying pools and pool sets

`rseq_percpu_pool_destroy` sets `errno` to `ENOENT` for a slot with no pool and keeps the
`errno` of a failing `munmap_func`, but every path ends at the label `end` and returns `0`.
`rseq_percpu_pool_set_destroy` stops at the first destroy that returns non-zero, so it never
stops: it destroys the pool of every entry from `POOL_SET_MIN_ENTRY` on, frees the set and
returns `0`, and a pool whose `munmap_func` fails stays live in the directory.

A slot a destroy leaves is `PoolState.destroyed`: cleared when its pool `Unmaps`, as it was
otherwise. The loop lemma `poolSetDestroyLoop_eq_ok` follows the loop over any range of orders,
so that a slot two entries name ends as one destroy leaves it. The main result,
`destroy_returns_zero`, says what both calls do for every directory, set and outcome of the
callbacks.
-/

namespace Librseq

/-- The pool of `s` is live and `munmap_func` returns `0` on its mapping: a destroy removes it. -/
def PoolState.Unmaps (abi : Abi) (s : PoolState) (munmapFunc : Nat → Nat → Int × Nat) : Prop :=
  s.pool.base ≠ 0 ∧
    (munmapFunc s.pool.base (s.pool.percpuLen * s.pool.maxNrCpus % abi.wordSize)).1 = 0

instance (abi : Abi) (s : PoolState) (munmapFunc : Nat → Nat → Int × Nat) :
    Decidable (s.Unmaps abi munmapFunc) :=
  inferInstanceAs (Decidable (_ ∧ _))

/-- The slot a destroy that returns leaves: cleared when its pool unmaps, as it was otherwise. -/
def PoolState.destroyed (abi : Abi) (s : PoolState) (munmapFunc : Nat → Nat → Int × Nat) :
    PoolState :=
  if s.Unmaps abi munmapFunc then { s with pool := Pool.zero } else s

/-- The check `destroy_free_bitmap` makes of the pool's bitmap passes. -/
def PoolState.BitmapClear (abi : Abi) (s : PoolState) : Prop :=
  destroyFreeBitmap abi s.pool.freeBitmap (s.pool.percpuLen >>> s.pool.itemOrder) = .ok ()

/-- The loop of `rseq_percpu_pool_set_destroy` over the `count` orders from `order`, the pool of
slot `p` destroyed with `munmapFunc p`: the directory, the set, the `errno` the last destroy
that set one left, and the value returned from inside the loop, if any. -/
def poolSetDestroyLoop {abi : Abi} (munmapFunc : Nat → Nat → Nat → Int × Nat) :
    Directory → PoolSet abi → Option Errno → Nat → Nat →
      Except Fault (Directory × PoolSet abi × Option Errno × Option Int)
  | dir, set, errno, _, 0 => pure (dir, set, errno, none)
  | dir, set, errno, order, count + 1 =>
    match set.entries[order]? with
    | some (some p) => do
      let (dir', ret, err) ← rseqPercpuPoolDestroy abi dir p (munmapFunc p)
      if ret ≠ 0 then pure (dir', set, err.or errno, some ret) else
      poolSetDestroyLoop munmapFunc dir' (set.setEntry order none) (err.or errno) (order + 1)
        count
    | _ => poolSetDestroyLoop munmapFunc dir set errno (order + 1) count

/-- `rseq_percpu_pool_set_destroy(pool_set)`, the pool of slot `p` destroyed with
`munmapFunc p`: the directory, the set when it is not freed, the value returned, and the `errno`
set, if any. -/
def rseqPercpuPoolSetDestroy (abi : Abi) (dir : Directory) (set : PoolSet abi)
    (munmapFunc : Nat → Nat → Nat → Int × Nat) :
    Except Fault (Directory × Option (PoolSet abi) × Int × Option Errno) := do
  let (dir', set', errno, early) ← poolSetDestroyLoop munmapFunc dir set none
    abi.poolSetMinEntry (abi.poolSetNrEntries - abi.poolSetMinEntry)
  match early with
  | some ret => pure (dir', some set', ret, errno)
  | none => pure (dir', none, 0, errno)

/-- Slot `q` holds the pool of an entry of the set from `POOL_SET_MIN_ENTRY` on. -/
def PoolSet.Holds {abi : Abi} (set : PoolSet abi) (q : Nat) : Prop :=
  ∃ o, abi.poolSetMinEntry ≤ o ∧ set.entries[o]? = some (some q)

/-- Slot `q` holds the pool of one of the `count` entries of the set from `order`. -/
def PoolSet.HoldsIn {abi : Abi} (set : PoolSet abi) (order count q : Nat) : Prop :=
  ∃ o, order ≤ o ∧ o < order + count ∧ set.entries[o]? = some (some q)

section Destroyed

variable {abi : Abi} {s : PoolState} {munmapFunc : Nat → Nat → Int × Nat}

/-- A slot a destroy leaves has no pool left to unmap. -/
theorem PoolState.not_unmaps_destroyed : ¬ (s.destroyed abi munmapFunc).Unmaps abi munmapFunc := by
  unfold PoolState.destroyed
  split_ifs with hu
  · exact fun h => h.1 rfl
  · exact hu

/-- Destroying a slot twice leaves it as once. -/
@[simp] theorem PoolState.destroyed_destroyed :
    (s.destroyed abi munmapFunc).destroyed abi munmapFunc = s.destroyed abi munmapFunc :=
  if_neg PoolState.not_unmaps_destroyed

/-- A destroy that returns returns `0`, leaves its slot destroyed, and sets no `errno` exactly
when the pool unmaps. -/
theorem rseqPercpuPoolDestroy_destroyed {dir dir' : Directory} {i : Nat} {ret : Int}
    {err : Option Errno} (h : rseqPercpuPoolDestroy abi dir i munmapFunc = .ok (dir', ret, err)) :
    ret = 0 ∧ dir' = dir.set i ((dir.slots i).destroyed abi munmapFunc) ∧
      (err = none ↔ (dir.slots i).Unmaps abi munmapFunc) := by
  obtain ⟨rfl, ⟨hb, hdir, rfl⟩ | ⟨hb, hm, hdir, rfl⟩ | ⟨hb, hm, -, rfl, rfl⟩⟩ :=
    rseqPercpuPoolDestroy_eq_ok h
  · subst dir'
    have hn : ¬ (dir.slots i).Unmaps abi munmapFunc := fun hu => hu.1 hb
    simp [PoolState.destroyed, hn]
  · subst dir'
    have hn : ¬ (dir.slots i).Unmaps abi munmapFunc := fun hu => hm hu.2
    simp [PoolState.destroyed, hn]
  · have hu : (dir.slots i).Unmaps abi munmapFunc := ⟨hb, hm⟩
    simp [PoolState.destroyed, hu]

/-- A destroy returns unless the pool unmaps and its bitmap fails the check. -/
theorem rseqPercpuPoolDestroy_ok_iff {dir : Directory} {i : Nat} :
    (∃ r, rseqPercpuPoolDestroy abi dir i munmapFunc = .ok r) ↔
      ((dir.slots i).Unmaps abi munmapFunc → (dir.slots i).BitmapClear abi) := by
  constructor
  · rintro ⟨⟨dir', ret, err⟩, h⟩ hu
    obtain ⟨-, ⟨hb, -⟩ | ⟨-, hm, -⟩ | ⟨-, -, hclear, -⟩⟩ := rseqPercpuPoolDestroy_eq_ok h
    · exact absurd hb hu.1
    · exact absurd hu.2 hm
    · exact hclear
  · intro hclear
    unfold rseqPercpuPoolDestroy
    dsimp only
    split
    · exact ⟨_, rfl⟩
    split
    · exact ⟨_, rfl⟩
    rename_i hb hm
    rw [hclear ⟨hb, not_not.1 hm⟩]
    exact ⟨_, rfl⟩

end Destroyed

section Loop

variable {abi : Abi} {set : PoolSet abi} {order count q : Nat}
  {munmapFunc : Nat → Nat → Nat → Int × Nat}

theorem PoolSet.not_holdsIn_zero : ¬ set.HoldsIn order 0 q :=
  fun ⟨_, h₁, h₂, _⟩ => by omega

/-- An entry the loop skips names no slot. -/
theorem PoolSet.holdsIn_skip (hskip : ∀ p, set.entries[order]? ≠ some (some p)) :
    set.HoldsIn order (count + 1) q ↔ set.HoldsIn (order + 1) count q := by
  constructor
  · rintro ⟨o, h₁, h₂, he⟩
    rcases Nat.eq_or_lt_of_le h₁ with rfl | hlt
    · exact absurd he (hskip q)
    · exact ⟨o, hlt, by omega, he⟩
  · rintro ⟨o, h₁, h₂, he⟩
    exact ⟨o, by omega, by omega, he⟩

/-- The entry the loop destroys names its pool's slot, and clearing it leaves the later ones. -/
theorem PoolSet.holdsIn_step {p : Nat} (hp : set.entries[order]? = some (some p)) :
    set.HoldsIn order (count + 1) q ↔
      q = p ∨ (set.setEntry order none).HoldsIn (order + 1) count q := by
  have hlater : ∀ o, order + 1 ≤ o → (set.setEntry order none).entries[o]? = set.entries[o]? :=
    fun o ho => List.getElem?_set_ne (by omega)
  constructor
  · rintro ⟨o, h₁, h₂, he⟩
    rcases Nat.eq_or_lt_of_le h₁ with rfl | hlt
    · rw [hp] at he
      exact .inl (Option.some.inj (Option.some.inj he)).symm
    · exact .inr ⟨o, hlt, by omega, (hlater o hlt).trans he⟩
  · rintro (rfl | ⟨o, h₁, h₂, he⟩)
    · exact ⟨order, le_rfl, by omega, hp⟩
    · exact ⟨o, by omega, by omega, (hlater o h₁).symm.trans he⟩

/-- Every entry from `POOL_SET_MIN_ENTRY` on is one of the loop's. -/
theorem PoolSet.holds_iff_holdsIn :
    set.Holds q ↔ set.HoldsIn abi.poolSetMinEntry (abi.poolSetNrEntries - abi.poolSetMinEntry) q :=
  ⟨fun ⟨o, h₁, he⟩ => ⟨o, h₁, by have := set.lt_of_getElem? he; omega, he⟩,
    fun ⟨o, h₁, _, he⟩ => ⟨o, h₁, he⟩⟩

/-- A loop that returns never returns from inside, since every destroy returns `0`. Each slot
an entry it visits names ends as one destroy leaves it and every other slot as it was; with no
`errno` set, every pool it visits was live and unmapped. -/
theorem poolSetDestroyLoop_eq_ok :
    ∀ {dir dir' : Directory} {set set' : PoolSet abi} {errno errno' : Option Errno}
      {order : Nat} {early : Option Int},
    poolSetDestroyLoop munmapFunc dir set errno order count = .ok (dir', set', errno', early) →
      early = none ∧
      (∀ q, set.HoldsIn order count q →
        dir'.slots q = (dir.slots q).destroyed abi (munmapFunc q)) ∧
      (∀ q, ¬ set.HoldsIn order count q → dir'.slots q = dir.slots q) ∧
      (errno' = none → errno = none ∧
        ∀ q, set.HoldsIn order count q → (dir.slots q).Unmaps abi (munmapFunc q)) := by
  induction count with
  | zero =>
    intro dir dir' set set' errno errno' order early h
    cases h
    exact ⟨rfl, fun _ hq => absurd hq PoolSet.not_holdsIn_zero, fun _ _ => rfl,
      fun hn => ⟨hn, fun _ hq => absurd hq PoolSet.not_holdsIn_zero⟩⟩
  | succ count ih =>
    intro dir dir' set set' errno errno' order early h
    unfold poolSetDestroyLoop at h
    split at h
    · rename_i p hp
      cases hd : rseqPercpuPoolDestroy abi dir p (munmapFunc p) with
      | error f =>
        rw [hd] at h
        cases h
      | ok r =>
        obtain ⟨dir₁, ret, err⟩ := r
        obtain ⟨rfl, rfl, herr⟩ := rseqPercpuPoolDestroy_destroyed hd
        rw [hd] at h
        obtain ⟨hearly, hvisit, hother, herrno⟩ := ih h
        refine ⟨hearly, fun q hq => ?_, fun q hq => ?_, fun hn => ?_⟩
        · by_cases hrest : (set.setEntry order none).HoldsIn (order + 1) count q
          · rw [hvisit q hrest]
            by_cases hqp : q = p
            · subst hqp
              rw [Directory.set_slots_self, PoolState.destroyed_destroyed]
            · rw [Directory.set_slots_of_ne _ _ hqp]
          · obtain rfl := ((PoolSet.holdsIn_step hp).1 hq).resolve_right hrest
            rw [hother q hrest, Directory.set_slots_self]
        · rw [hother q fun h' => hq ((PoolSet.holdsIn_step hp).2 (.inr h')),
            Directory.set_slots_of_ne _ _ fun hqp => hq ((PoolSet.holdsIn_step hp).2 (.inl hqp))]
        · obtain ⟨hor, hrest⟩ := herrno hn
          rw [Option.or_eq_none] at hor
          refine ⟨hor.2, fun q hq => ?_⟩
          by_cases hqp : q = p
          · subst hqp
            exact herr.1 hor.1
          · have := hrest q (((PoolSet.holdsIn_step hp).1 hq).resolve_left hqp)
            rwa [Directory.set_slots_of_ne _ _ hqp] at this
    · rename_i hskip
      obtain ⟨hearly, hvisit, hother, herrno⟩ := ih h
      exact ⟨hearly, fun q hq => hvisit q ((PoolSet.holdsIn_skip hskip).1 hq),
        fun q hq => hother q (mt (PoolSet.holdsIn_skip hskip).2 hq),
        fun hn => ⟨(herrno hn).1, fun q hq => (herrno hn).2 q ((PoolSet.holdsIn_skip hskip).1 hq)⟩⟩

/-- The loop returns unless a pool it unmaps fails the bitmap check: the slot of an entry
destroyed before has no pool left to unmap. -/
theorem poolSetDestroyLoop_ok_iff :
    ∀ {dir : Directory} {set : PoolSet abi} {errno : Option Errno} {order : Nat},
    (∃ r, poolSetDestroyLoop munmapFunc dir set errno order count = .ok r) ↔
      ∀ q, set.HoldsIn order count q → (dir.slots q).Unmaps abi (munmapFunc q) →
        (dir.slots q).BitmapClear abi := by
  induction count with
  | zero =>
    intro dir set errno order
    exact ⟨fun _ _ hq => absurd hq PoolSet.not_holdsIn_zero, fun _ => ⟨_, rfl⟩⟩
  | succ count ih =>
    intro dir set errno order
    unfold poolSetDestroyLoop
    split
    · rename_i p hp
      cases hd : rseqPercpuPoolDestroy abi dir p (munmapFunc p) with
      | error f =>
        have hfail : ¬ ((dir.slots p).Unmaps abi (munmapFunc p) → (dir.slots p).BitmapClear abi) :=
          fun h => by
            obtain ⟨_, h'⟩ := rseqPercpuPoolDestroy_ok_iff.2 h
            rw [hd] at h'
            cases h'
        exact iff_of_false (fun ⟨_, h⟩ => by cases h)
          fun hall => hfail (hall p ((PoolSet.holdsIn_step hp).2 (.inl rfl)))
      | ok r =>
        obtain ⟨dir₁, ret, err⟩ := r
        have hpool := rseqPercpuPoolDestroy_ok_iff.1 ⟨_, hd⟩
        obtain ⟨rfl, rfl, -⟩ := rseqPercpuPoolDestroy_destroyed hd
        show (∃ r, poolSetDestroyLoop munmapFunc _ _ _ _ _ = _) ↔ _
        rw [ih]
        constructor
        · intro hrest q hq hu
          by_cases hqp : q = p
          · subst hqp
            exact hpool hu
          · have := hrest q (((PoolSet.holdsIn_step hp).1 hq).resolve_left hqp)
            rw [Directory.set_slots_of_ne _ _ hqp] at this
            exact this hu
        · intro hall q hq hu
          by_cases hqp : q = p
          · subst hqp
            rw [Directory.set_slots_self] at hu
            exact absurd hu PoolState.not_unmaps_destroyed
          · rw [Directory.set_slots_of_ne _ _ hqp] at hu ⊢
            exact hall q ((PoolSet.holdsIn_step hp).2 (.inr hq)) hu
    · rename_i hskip
      rw [ih]
      exact forall_congr' fun q => imp_congr_left (PoolSet.holdsIn_skip hskip).symm

/-- A loop that returns does what a history of pool destroys does, each dropping the handles
of the pool it removes. -/
theorem poolSetDestroyLoop_run :
    ∀ {dir dir' : Directory} {set set' : PoolSet abi} {errno errno' : Option Errno}
      {order : Nat} {early : Option Int} (held : Nat → List Nat),
    poolSetDestroyLoop munmapFunc dir set errno order count = .ok (dir', set', errno', early) →
      ∃ held', Relation.ReflTransGen (DirStep abi) (dir, held) (dir', held') := by
  induction count with
  | zero =>
    intro dir dir' set set' errno errno' order early held h
    cases h
    exact ⟨held, .refl⟩
  | succ count ih =>
    intro dir dir' set set' errno errno' order early held h
    unfold poolSetDestroyLoop at h
    split at h
    · rename_i p hp
      cases hd : rseqPercpuPoolDestroy abi dir p (munmapFunc p) with
      | error f =>
        rw [hd] at h
        cases h
      | ok r =>
        obtain ⟨dir₁, ret, err⟩ := r
        obtain ⟨rfl, -, -⟩ := rseqPercpuPoolDestroy_destroyed hd
        rw [hd] at h
        obtain ⟨held', hrun⟩ := ih _ h
        exact ⟨held', .head (.destroy (munmapFunc p) hd) hrun⟩
    · exact ih held h

/-- A set destroy that returns returns `0` and frees the set. Each slot the set names ends as
one destroy leaves it and every other slot as it was; with no `errno` set, every pool of the set
was live and unmapped. -/
theorem rseqPercpuPoolSetDestroy_eq_ok {dir dir' : Directory} {set' : Option (PoolSet abi)}
    {ret : Int} {err : Option Errno}
    (h : rseqPercpuPoolSetDestroy abi dir set munmapFunc = .ok (dir', set', ret, err)) :
    ret = 0 ∧ set' = none ∧
      (∀ q, set.Holds q → dir'.slots q = (dir.slots q).destroyed abi (munmapFunc q)) ∧
      (∀ q, ¬ set.Holds q → dir'.slots q = dir.slots q) ∧
      (err = none → ∀ q, set.Holds q → (dir.slots q).Unmaps abi (munmapFunc q)) := by
  unfold rseqPercpuPoolSetDestroy at h
  cases hl : poolSetDestroyLoop munmapFunc dir set none abi.poolSetMinEntry
      (abi.poolSetNrEntries - abi.poolSetMinEntry) with
  | error f =>
    rw [hl] at h
    cases h
  | ok r =>
    obtain ⟨dir₁, set₁, errno, early⟩ := r
    obtain ⟨rfl, hvisit, hother, herrno⟩ := poolSetDestroyLoop_eq_ok hl
    rw [hl] at h
    cases h
    exact ⟨rfl, rfl, fun q hq => hvisit q (PoolSet.holds_iff_holdsIn.1 hq),
      fun q hq => hother q (mt PoolSet.holds_iff_holdsIn.2 hq),
      fun hn q hq => (herrno hn).2 q (PoolSet.holds_iff_holdsIn.1 hq)⟩

/-- A set destroy returns unless a pool it unmaps fails the bitmap check. -/
theorem rseqPercpuPoolSetDestroy_ok_iff {dir : Directory} :
    (∃ r, rseqPercpuPoolSetDestroy abi dir set munmapFunc = .ok r) ↔
      ∀ q, set.Holds q → (dir.slots q).Unmaps abi (munmapFunc q) →
        (dir.slots q).BitmapClear abi := by
  have hloop : (∃ r, poolSetDestroyLoop munmapFunc dir set none abi.poolSetMinEntry
      (abi.poolSetNrEntries - abi.poolSetMinEntry) = .ok r) ↔ _ := poolSetDestroyLoop_ok_iff
  rw [forall_congr' fun q => imp_congr_left PoolSet.holds_iff_holdsIn, ← hloop]
  unfold rseqPercpuPoolSetDestroy
  cases poolSetDestroyLoop munmapFunc dir set none abi.poolSetMinEntry
      (abi.poolSetNrEntries - abi.poolSetMinEntry) with
  | error f => exact iff_of_false (fun ⟨_, h⟩ => by cases h) fun ⟨_, h⟩ => by cases h
  | ok r =>
    obtain ⟨dir', set', errno, early⟩ := r
    refine iff_of_true ?_ ⟨_, rfl⟩
    cases early <;> exact ⟨_, rfl⟩

/-- A set destroy that returns does what a history of pool destroys does. -/
theorem rseqPercpuPoolSetDestroy_run {dir dir' : Directory} {set' : Option (PoolSet abi)}
    {ret : Int} {err : Option Errno} (held : Nat → List Nat)
    (h : rseqPercpuPoolSetDestroy abi dir set munmapFunc = .ok (dir', set', ret, err)) :
    ∃ held', Relation.ReflTransGen (DirStep abi) (dir, held) (dir', held') := by
  unfold rseqPercpuPoolSetDestroy at h
  cases hl : poolSetDestroyLoop munmapFunc dir set none abi.poolSetMinEntry
      (abi.poolSetNrEntries - abi.poolSetMinEntry) with
  | error f =>
    rw [hl] at h
    cases h
  | ok r =>
    obtain ⟨dir₁, set₁, errno, early⟩ := r
    rw [hl] at h
    obtain ⟨held', hrun⟩ := poolSetDestroyLoop_run held hl
    cases early <;> cases h <;> exact ⟨held', hrun⟩

end Loop

/-- For every directory: a destroy that returns returns `0`, whether the slot had no pool, whose
`errno` is then `ENOENT`, or the pool's `munmap_func` failed, whose `errno` is then kept, or the
pool unmapped and its slot was cleared. A set destroy that returns returns `0` and frees the
set; each slot the set names ends as one destroy leaves it, so a pool whose `munmap_func` fails
stays live, every other slot is as it was, and only `errno` tells that a pool was left. -/
theorem destroy_returns_zero {abi : Abi} (dir : Directory) :
    (∀ i munmapFunc dir' ret err,
      rseqPercpuPoolDestroy abi dir i munmapFunc = .ok (dir', ret, err) →
        let s := dir.slots i
        let unmapped :=
          munmapFunc s.pool.base (s.pool.percpuLen * s.pool.maxNrCpus % abi.wordSize)
        ret = 0 ∧ dir' = dir.set i (s.destroyed abi munmapFunc) ∧
        (s.pool.base = 0 → err = some .ENOENT) ∧
        (s.pool.base ≠ 0 → unmapped.1 ≠ 0 → err = some (.callback unmapped.2)) ∧
        (s.Unmaps abi munmapFunc → err = none)) ∧
    (∀ set munmapFunc dir' set' ret err,
      rseqPercpuPoolSetDestroy abi dir set munmapFunc = .ok (dir', set', ret, err) →
        ret = 0 ∧ set' = none ∧
        (∀ q, set.Holds q → dir'.slots q = (dir.slots q).destroyed abi (munmapFunc q)) ∧
        (∀ q, ¬ set.Holds q → dir'.slots q = dir.slots q) ∧
        (err = none → ∀ q, set.Holds q → (dir.slots q).Unmaps abi (munmapFunc q))) := by
  refine ⟨fun i munmapFunc dir' ret err h => ?_,
    fun _ _ _ _ _ _ h => rseqPercpuPoolSetDestroy_eq_ok h⟩
  obtain ⟨hret, hdir, herr⟩ := rseqPercpuPoolDestroy_destroyed h
  obtain ⟨-, ⟨hb, -, he⟩ | ⟨hb, hm, -, he⟩ | ⟨hb, hm, -, -, he⟩⟩ := rseqPercpuPoolDestroy_eq_ok h
  · exact ⟨hret, hdir, fun _ => he, fun hb' => absurd hb hb', herr.2⟩
  · exact ⟨hret, hdir, fun hb' => absurd hb' hb, fun _ _ => he, herr.2⟩
  · exact ⟨hret, hdir, fun hb' => absurd hb' hb, fun _ hm' => absurd hm hm', herr.2⟩

/-- The pool of 16-byte items in an LP64 set a history builds, with a `munmap_func` that fails
with `EINVAL` (22): the set destroy returns `0` and frees the set, with the pool still live and
`errno` set; destroying the empty slot 2 returns `0` with `ENOENT`. -/
theorem destroy_returns_zero_lp64 :
    ∃ σ₀ set,
      Relation.ReflTransGen (DirStep .lp64) (Directory.init fun _ => .byte 0, fun _ => []) σ₀ ∧
      Relation.ReflTransGen (SetStep .lp64) (σ₀, PoolSet.empty .lp64) (σ₀, set) ∧
      set.Holds 1 ∧
      (∃ dir' err, rseqPercpuPoolSetDestroy .lp64 σ₀.1 set (fun _ _ _ => (-1, 22)) =
          .ok (dir', none, 0, err) ∧ (dir'.slots 1).pool.base ≠ 0 ∧ err ≠ none) ∧
      ∃ dir',
        rseqPercpuPoolDestroy .lp64 σ₀.1 2 (fun _ _ => (0, 0)) = .ok (dir', 0, some .ENOENT) := by
  let dir₁ := (Directory.init fun _ => .byte 0).set 1
    ⟨⟨4096, 1, 16, 4096, 4, 4, 0, 0, none⟩, fun _ => .byte 0⟩
  let set₁ := (PoolSet.empty .lp64).setEntry 4 (some 1)
  obtain ⟨hdir, hrun⟩ := reachable_set_lp64
  have hholds : set₁.Holds 1 := ⟨4, by decide, rfl⟩
  refine ⟨_, _, hdir, hrun, hholds, ?_, ?_⟩
  · obtain ⟨⟨dir', set', ret, err⟩, hcall⟩ :
        ∃ r, rseqPercpuPoolSetDestroy .lp64 dir₁ set₁ (fun _ _ _ => (-1, 22)) = .ok r :=
      rseqPercpuPoolSetDestroy_ok_iff.2 fun _ _ hu => absurd hu.2 (by simp)
    obtain ⟨rfl, rfl, hslot, -, herr⟩ := (destroy_returns_zero dir₁).2 _ _ _ _ _ _ hcall
    have hn : ¬ (dir₁.slots 1).Unmaps .lp64 ((fun _ _ _ => ((-1 : Int), 22)) 1) :=
      fun hu => absurd hu.2 (by decide)
    refine ⟨dir', err, hcall, ?_, fun h => hn (herr h 1 hholds)⟩
    rw [hslot 1 hholds, PoolState.destroyed, if_neg hn]
    decide
  · obtain ⟨⟨dir', ret, err⟩, hcall⟩ :
        ∃ r, rseqPercpuPoolDestroy .lp64 dir₁ 2 (fun _ _ => (0, 0)) = .ok r :=
      rseqPercpuPoolDestroy_ok_iff.2 fun hu => (hu.1 rfl).elim
    obtain ⟨rfl, -, hempty, -, -⟩ := (destroy_returns_zero dir₁).1 _ _ _ _ _ hcall
    exact ⟨dir', by rw [hcall, hempty rfl]⟩

/-- On a directory any history reaches, `rseq_percpu_pool_set_destroy` of any set returns unless
a pool it unmaps fails the check of `destroy_free_bitmap`, and the directory it leaves is one a
history of `rseq_percpu_pool_destroy` calls reaches, so the directory invariant holds after it. -/
theorem poolSetDestroy_of_reachable {abi : Abi} {memory : Memory} {dir : Directory}
    {held : Nat → List Nat}
    (hdir : Relation.ReflTransGen (DirStep abi) (Directory.init memory, fun _ => []) (dir, held))
    (set : PoolSet abi) (munmapFunc : Nat → Nat → Nat → Int × Nat) :
    ((∃ r, rseqPercpuPoolSetDestroy abi dir set munmapFunc = .ok r) ↔
      ∀ q, set.Holds q → (dir.slots q).Unmaps abi (munmapFunc q) →
        (dir.slots q).BitmapClear abi) ∧
    ∀ dir' set' ret err,
      rseqPercpuPoolSetDestroy abi dir set munmapFunc = .ok (dir', set', ret, err) →
        ∃ held', Relation.ReflTransGen (DirStep abi) (Directory.init memory, fun _ => [])
          (dir', held') ∧ DirInv abi dir' held' := by
  refine ⟨rseqPercpuPoolSetDestroy_ok_iff, fun _ _ _ _ h => ?_⟩
  obtain ⟨held', hrun⟩ := rseqPercpuPoolSetDestroy_run held h
  exact ⟨held', hdir.trans hrun, (DirInv.init memory).run (hdir.trans hrun)⟩

/-- The LP64 pool of 16-byte items in a set a history builds, with a `munmap_func` that
succeeds: the set destroy returns, and leaves a directory a history reaches. -/
theorem poolSetDestroy_of_reachable_lp64 :
    ∃ σ₀ set,
      Relation.ReflTransGen (DirStep .lp64) (Directory.init fun _ => .byte 0, fun _ => []) σ₀ ∧
      Relation.ReflTransGen (SetStep .lp64) (σ₀, PoolSet.empty .lp64) (σ₀, set) ∧
      set.Holds 1 ∧
      (∃ r, rseqPercpuPoolSetDestroy .lp64 σ₀.1 set (fun _ _ _ => (0, 0)) = .ok r) ∧
      ∀ dir' set' ret err,
        rseqPercpuPoolSetDestroy .lp64 σ₀.1 set (fun _ _ _ => (0, 0)) = .ok (dir', set', ret, err) →
          ∃ held', Relation.ReflTransGen (DirStep .lp64)
            (Directory.init fun _ => .byte 0, fun _ => []) (dir', held') ∧
            DirInv .lp64 dir' held' := by
  obtain ⟨hdir, hrun⟩ := reachable_set_lp64
  obtain ⟨hiff, hleft⟩ := poolSetDestroy_of_reachable hdir
    ((PoolSet.empty .lp64).setEntry 4 (some 1)) fun _ _ _ => (0, 0)
  refine ⟨_, _, hdir, hrun, ⟨4, by decide, rfl⟩, hiff.2 fun q _ _ => ?_, hleft⟩
  simp only [PoolState.BitmapClear, Directory.set, Directory.init]
  split <;> rfl

end Librseq
