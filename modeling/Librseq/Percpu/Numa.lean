import Librseq.Percpu.Directory

/-!
# Placing a pool's pages on NUMA nodes

`rseq_percpu_pool_init_numa` walks the CPUs below `max_nr_cpus` and, for each, the
`percpu_len >> order(page_len)` pages of its copy, asking `move_pages` to place each page on the
CPU's node; it stops at the first request that fails and returns its result. The node of a CPU
(`numa_node_of_cpu`) and the outcome of each request are inputs.

For a page length `2 ^ p`, the one `rseq_percpu_pool_create` aligned `percpu_len` to, and a
mapping length that fits in a `size_t`, the two loops make, in order, the requests of
`Pool.numaPages`: the pages of the mapping by increasing address, each to the node of the CPU
whose copy holds it (`rseqPercpuPoolInitNuma_eq`). They are distinct pages of the mapping, and
every byte of a CPU's copy lies in one of them, sent to that CPU's node (`initNuma_of_create`).
-/

namespace Librseq

/-- The page loop of `rseq_percpu_pool_init_numa` for CPU `cpu`, from page `page` with `count`
pages left: the `move_pages` requests it makes, each a page address and a node, and the first
non-zero result, `none` when the loop runs out. `page * page_len` is an `unsigned long`. -/
def initNumaPageLoop (abi : Abi) (pool : Pool) (pageLen cpu : Nat) (node : Int)
    (movePages : Nat → Int → Int) : Nat → Nat → List (Nat × Int) × Option Int
  | _, 0 => ([], none)
  | page, count + 1 =>
    let pageptr := rseqPoolPercpuPtr abi pool cpu (page * pageLen % abi.wordSize)
    if movePages pageptr node ≠ 0 then ([(pageptr, node)], some (movePages pageptr node)) else
      let rest := initNumaPageLoop abi pool pageLen cpu node movePages (page + 1) count
      ((pageptr, node) :: rest.1, rest.2)

/-- The CPU loop of `rseq_percpu_pool_init_numa`, from CPU `cpu` with `count` CPUs left. -/
def initNumaCpuLoop (abi : Abi) (pool : Pool) (pageLen nrPages : Nat)
    (numaNodeOfCpu : Nat → Int) (movePages : Nat → Int → Int) :
    Nat → Nat → List (Nat × Int) × Option Int
  | _, 0 => ([], none)
  | cpu, count + 1 =>
    let r := initNumaPageLoop abi pool pageLen cpu (numaNodeOfCpu cpu) movePages 0 nrPages
    match r.2 with
    | some ret => (r.1, some ret)
    | none =>
      let rest := initNumaCpuLoop abi pool pageLen nrPages numaNodeOfCpu movePages (cpu + 1) count
      (r.1 ++ rest.1, rest.2)

/-- `rseq_percpu_pool_init_numa(pool, numa_flags)` as built with `HAVE_LIBNUMA`: the requests
made and the value returned. `page_len` is `rseq_get_page_len()`; the shift by its order is
undefined for an order outside `0 ..< BITS_PER_LONG`. -/
def rseqPercpuPoolInitNuma (abi : Abi) (pool : Pool) (numaFlags : Int) (pageLen : Nat)
    (numaNodeOfCpu : Nat → Int) (movePages : Nat → Int → Int) :
    Except Fault (List (Nat × Int) × Int) :=
  if numaFlags = 0 then pure ([], 0) else
  let order := rseqGetCountOrderUlong pageLen
  if order < 0 ∨ abi.bitsPerLong ≤ order then throw .undefined else
  let r := initNumaCpuLoop abi pool pageLen (pool.percpuLen >>> order.toNat) numaNodeOfCpu
    movePages 0 pool.maxNrCpus
  pure (r.1, r.2.getD 0)

/-! ### The requests -/

/-- Requests made in order up to the first that fails: those made, and the failing result. -/
def requestUntilError (call : Nat → Int → Int) :
    List (Nat × Int) → List (Nat × Int) × Option Int
  | [] => ([], none)
  | (a, node) :: rest =>
    if call a node ≠ 0 then ([(a, node)], some (call a node)) else
      ((a, node) :: (requestUntilError call rest).1, (requestUntilError call rest).2)

/-- Requests in two runs stop in the first run when one of its requests fails. -/
theorem requestUntilError_append (call : Nat → Int → Int) (l₁ l₂ : List (Nat × Int)) :
    requestUntilError call (l₁ ++ l₂) =
      match (requestUntilError call l₁).2 with
      | some ret => ((requestUntilError call l₁).1, some ret)
      | none => ((requestUntilError call l₁).1 ++ (requestUntilError call l₂).1,
          (requestUntilError call l₂).2) := by
  induction l₁ with
  | nil => rfl
  | cons req l₁ ih =>
    obtain ⟨a, node⟩ := req
    rw [List.cons_append, requestUntilError.eq_2, requestUntilError.eq_2]
    by_cases hfail : call a node ≠ 0
    · rw [if_pos hfail, if_pos hfail]
    · rw [if_neg hfail, if_neg hfail, ih]
      cases (requestUntilError call l₁).2 <;> rfl

/-- The pages of a pool's mapping by increasing address, each with the node of the CPU whose
copy holds it: page `k` starts at `base + k * page_len`, in the copy of CPU
`k / (percpu_len / page_len)`. -/
def Pool.numaPages (pool : Pool) (pageLen : Nat) (numaNodeOfCpu : Nat → Int) :
    List (Nat × Int) :=
  (List.range (pool.maxNrCpus * (pool.percpuLen / pageLen))).map fun k =>
    (pool.base + k * pageLen, numaNodeOfCpu (k / (pool.percpuLen / pageLen)))

section Loops

variable {abi : Abi} {pool : Pool} {pageLen nrPages : Nat} {numaNodeOfCpu : Nat → Int}
  {movePages : Nat → Int → Int}

/-- The page loop makes the requests of its pages in order. -/
theorem initNumaPageLoop_eq (cpu : Nat) (node : Int) (page count : Nat) :
    initNumaPageLoop abi pool pageLen cpu node movePages page count =
      requestUntilError movePages ((List.range' page count).map fun pg =>
        (rseqPoolPercpuPtr abi pool cpu (pg * pageLen % abi.wordSize), node)) := by
  induction count generalizing page with
  | zero => rfl
  | succ count ih =>
    rw [List.range'_succ, List.map_cons, initNumaPageLoop, requestUntilError, ih]

/-- Page `pg` of CPU `cpu`'s copy, in a pool whose mapping length fits in a `size_t`, is page
`cpu * nr_pages + pg` of the mapping. -/
theorem rseqPoolPercpuPtr_page (hw : pool.NoWrap abi)
    (hlen : pool.percpuLen = nrPages * pageLen) {cpu pg : Nat} (hcpu : cpu < pool.maxNrCpus)
    (hpg : pg < nrPages) :
    rseqPoolPercpuPtr abi pool cpu (pg * pageLen % abi.wordSize) =
      pool.base + (cpu * nrPages + pg) * pageLen := by
  have hle : pool.percpuLen ≤ pool.percpuLen * pool.maxNrCpus :=
    Nat.le_mul_of_pos_right _ (Nat.zero_lt_of_lt hcpu)
  have hpage : pg * pageLen < abi.wordSize := by
    have := Nat.mul_le_mul_right pageLen hpg.le
    unfold Pool.NoWrap at hw
    omega
  rw [rseqPoolPercpuPtr, Pool.percpu_mod_eq hw (.inl hcpu), Nat.mod_eq_of_lt hpage, hlen,
    Nat.add_mul, Nat.mul_right_comm, Nat.mul_comm nrPages, Nat.add_assoc]

/-- The CPU loop, from CPU `cpu` with `count` CPUs left within the pool's, makes the requests
of the pages of those CPUs' copies in order. -/
theorem initNumaCpuLoop_eq (hw : pool.NoWrap abi) (hlen : pool.percpuLen = nrPages * pageLen)
    (cpu count : Nat) (hcount : cpu + count ≤ pool.maxNrCpus) :
    initNumaCpuLoop abi pool pageLen nrPages numaNodeOfCpu movePages cpu count =
      requestUntilError movePages ((List.range (count * nrPages)).map fun k =>
        (pool.base + (cpu * nrPages + k) * pageLen,
          numaNodeOfCpu ((cpu * nrPages + k) / nrPages))) := by
  induction count generalizing cpu with
  | zero => simp only [Nat.zero_mul, List.range_zero, List.map_nil]; rfl
  | succ count ih =>
    have hpages : (List.range' 0 nrPages).map (fun pg =>
        (rseqPoolPercpuPtr abi pool cpu (pg * pageLen % abi.wordSize), numaNodeOfCpu cpu)) =
        (List.range nrPages).map fun k => (pool.base + (cpu * nrPages + k) * pageLen,
          numaNodeOfCpu ((cpu * nrPages + k) / nrPages)) := by
      rw [← List.range_eq_range']
      refine List.map_congr_left fun pg hpg => ?_
      have hpg := List.mem_range.1 hpg
      rw [rseqPoolPercpuPtr_page hw hlen (by omega) hpg, Nat.add_comm (cpu * nrPages),
        Nat.add_mul_div_right _ _ (Nat.zero_lt_of_lt hpg), Nat.div_eq_of_lt hpg, Nat.zero_add,
        Nat.add_comm pg]
    rw [Nat.succ_mul, Nat.add_comm (count * nrPages), List.range_add, List.map_append,
      requestUntilError_append, initNumaCpuLoop, initNumaPageLoop_eq, hpages,
      ih (cpu + 1) (by omega), List.map_map]
    have hshift : ((fun k => (pool.base + (cpu * nrPages + k) * pageLen,
        numaNodeOfCpu ((cpu * nrPages + k) / nrPages))) ∘ fun x => nrPages + x) =
        fun k => (pool.base + ((cpu + 1) * nrPages + k) * pageLen,
          numaNodeOfCpu (((cpu + 1) * nrPages + k) / nrPages)) := by
      funext k
      simp only [Function.comp, Nat.succ_mul, Nat.add_assoc]
    rw [hshift]

/-- With a page length `2 ^ p` below the word width that divides `percpu_len`, and a mapping
length that fits in a `size_t`, `rseq_percpu_pool_init_numa` makes the requests of the mapping's
pages in address order, up to the first that fails, and returns that one's result, or `0`. -/
theorem rseqPercpuPoolInitNuma_eq (hw : pool.NoWrap abi) {p : Nat} (hp : p < abi.bitsPerLong)
    (hdvd : 2 ^ p ∣ pool.percpuLen) (numaFlags : Int) :
    rseqPercpuPoolInitNuma abi pool numaFlags (2 ^ p) numaNodeOfCpu movePages =
      .ok (if numaFlags = 0 then ([], 0) else
        ((requestUntilError movePages (pool.numaPages (2 ^ p) numaNodeOfCpu)).1,
          (requestUntilError movePages (pool.numaPages (2 ^ p) numaNodeOfCpu)).2.getD 0)) := by
  have horder : rseqGetCountOrderUlong (2 ^ p) = p :=
    rseqGetCountOrderUlong_eq (Nat.two_pow_pos p) le_rfl
      fun _ hj => Nat.pow_lt_pow_right Nat.one_lt_two hj
  unfold rseqPercpuPoolInitNuma
  by_cases hflags : numaFlags = 0
  · rw [if_pos hflags, if_pos hflags]
    rfl
  rw [if_neg hflags, if_neg hflags, horder, if_neg (by omega), Int.toNat_ofNat,
    Nat.shiftRight_eq_div_pow,
    initNumaCpuLoop_eq hw (Nat.div_mul_cancel hdvd).symm 0 _ (Nat.zero_add _).le]
  simp only [Nat.zero_mul, Nat.zero_add]
  rfl

end Loops

/-! ### The pages -/

namespace Pool

variable {pool : Pool} {pageLen : Nat} {numaNodeOfCpu : Nat → Int}

/-- The requested pages are distinct. -/
theorem numaPages_nodup (hpos : 0 < pageLen) :
    ((pool.numaPages pageLen numaNodeOfCpu).map Prod.fst).Nodup := by
  rw [numaPages, List.map_map]
  exact (List.nodup_range _).map fun a b hab =>
    Nat.eq_of_mul_eq_mul_right hpos (Nat.add_left_cancel hab)

/-- Every requested page lies in the mapping. -/
theorem numaPages_within (hdvd : pageLen ∣ pool.percpuLen) {req : Nat × Int}
    (hreq : req ∈ pool.numaPages pageLen numaNodeOfCpu) :
    pool.base ≤ req.1 ∧ req.1 + pageLen ≤ pool.base + pool.percpuLen * pool.maxNrCpus := by
  obtain ⟨k, hk, rfl⟩ := List.mem_map.1 hreq
  have hle := Nat.mul_le_mul_right pageLen (List.mem_range.1 hk)
  rw [Nat.succ_mul, Nat.mul_assoc, Nat.div_mul_cancel hdvd, Nat.mul_comm pool.maxNrCpus] at hle
  exact ⟨Nat.le_add_right _ _, by dsimp only; omega⟩

/-- Every byte of the copy of a CPU below `max_nr_cpus` lies in a requested page, sent to the
CPU's node. -/
theorem numaPages_cover (hdvd : pageLen ∣ pool.percpuLen) (hpos : 0 < pageLen) {cpu off : Nat}
    (hcpu : cpu < pool.maxNrCpus) (hoff : off < pool.percpuLen) :
    ∃ req ∈ pool.numaPages pageLen numaNodeOfCpu,
      req.1 ≤ pool.base + pool.percpuLen * cpu + off ∧
      pool.base + pool.percpuLen * cpu + off < req.1 + pageLen ∧ req.2 = numaNodeOfCpu cpu := by
  set n := pool.percpuLen / pageLen
  have hlen : pool.percpuLen = n * pageLen := (Nat.div_mul_cancel hdvd).symm
  have hq : off / pageLen < n := Nat.div_lt_of_lt_mul (by rw [Nat.mul_comm, ← hlen]; exact hoff)
  have hk : cpu * n + off / pageLen < pool.maxNrCpus * n := by
    have := Nat.mul_le_mul_right n hcpu
    rw [Nat.succ_mul] at this
    omega
  have hpage : (cpu * n + off / pageLen) * pageLen =
      pool.percpuLen * cpu + off / pageLen * pageLen := by
    rw [Nat.add_mul, hlen, Nat.mul_comm (n * pageLen) cpu, ← Nat.mul_assoc]
  have hnode : (cpu * n + off / pageLen) / n = cpu := by
    rw [Nat.add_comm, Nat.add_mul_div_right _ _ (Nat.zero_lt_of_lt hq), Nat.div_eq_of_lt hq,
      Nat.zero_add]
  have hmod := Nat.div_add_mod' off pageLen
  have hlt := Nat.mod_lt off hpos
  refine ⟨_, List.mem_map_of_mem _ (List.mem_range.2 hk), ?_, ?_, congrArg numaNodeOfCpu hnode⟩ <;>
    dsimp only <;> omega

end Pool

/-! ### After create -/

/-- For every pool create returns with a page length `2 ^ p`, whose mapping length fits in a
`size_t`: `rseq_percpu_pool_init_numa` never does what C leaves undefined; with non-zero flags
it requests the pages of the mapping in address order, up to the first request that fails, and
returns that one's result, or `0`. The pages requested are distinct and lie in the mapping, and
every byte of the copy of every CPU below `max_nr_cpus` lies in one of them, requested for that
CPU's node. -/
theorem initNuma_of_create {abi : Abi} {p : Nat} {dir dir' : Directory} {itemLen percpuLen : Nat}
    {maxNrCpus flags : Int} {mmapFunc : Nat → MmapResult} {callocSucceeds : Bool} {i : Nat}
    (hcall : rseqPercpuPoolCreate abi (2 ^ p) dir itemLen percpuLen maxNrCpus mmapFunc flags
      callocSucceeds = .ok (dir', .ok i))
    (hw : (dir'.slots i).pool.NoWrap abi) (numaFlags : Int) (numaNodeOfCpu : Nat → Int)
    (movePages : Nat → Int → Int) :
    let pool := (dir'.slots i).pool
    let pages := pool.numaPages (2 ^ p) numaNodeOfCpu
    rseqPercpuPoolInitNuma abi pool numaFlags (2 ^ p) numaNodeOfCpu movePages =
      .ok (if numaFlags = 0 then ([], 0) else
        ((requestUntilError movePages pages).1, (requestUntilError movePages pages).2.getD 0)) ∧
    (pages.map Prod.fst).Nodup ∧
    (∀ req ∈ pages,
      pool.base ≤ req.1 ∧ req.1 + 2 ^ p ≤ pool.base + pool.percpuLen * pool.maxNrCpus) ∧
    ∀ cpu < pool.maxNrCpus, ∀ off < pool.percpuLen, ∃ req ∈ pages,
      req.1 ≤ rseqPoolPercpuPtr abi pool cpu off ∧
      rseqPoolPercpuPtr abi pool cpu off < req.1 + 2 ^ p ∧ req.2 = numaNodeOfCpu cpu := by
  dsimp only
  obtain ⟨-, -, -, hlen, hpercpu, -, -, hle, hmax, -⟩ := rseqPercpuPoolCreate_eq_ok hcall
  have hdvd : 2 ^ p ∣ (dir'.slots i).pool.percpuLen := by
    rw [hpercpu, rseqAlign]
    exact Nat.dvd_mul_left _ _
  have hpos : 0 < (dir'.slots i).pool.percpuLen :=
    Nat.lt_of_lt_of_le (hlen ▸ Nat.two_pow_pos _) hle
  have hp : p < abi.bitsPerLong := by
    have := Nat.le_of_dvd hpos hdvd
    have := abi.uintptrMax_shiftRight
    have := abi.maxPoolLen_le_wordSize
    have := abi.maxPoolLen_pos
    unfold Abi.wordSize at *
    exact (Nat.pow_lt_pow_iff_right Nat.one_lt_two).1 (by omega)
  refine ⟨rseqPercpuPoolInitNuma_eq hw hp hdvd numaFlags,
    Pool.numaPages_nodup (Nat.two_pow_pos p),
    fun _ hreq => Pool.numaPages_within hdvd hreq, fun cpu hcpu off hoff => ?_⟩
  rw [rseqPoolPercpuPtr, Pool.percpu_mod_eq hw (.inl hcpu)]
  exact Pool.numaPages_cover hdvd (Nat.two_pow_pos p) hcpu hoff

/-- The pool of 16-byte items in one 4 KiB page on each of 4 CPUs, placed on node 0. -/
theorem initNuma_of_create_lp64 :
    ∃ dir' r, rseqPercpuPoolCreate .lp64 (2 ^ 12) (Directory.init fun _ => .byte 0) 16 4096 4
        (fun _ => ⟨4096, fun _ => .byte 0, 0⟩) 0 false = .ok (dir', .ok 1) ∧
      (dir'.slots 1).pool.NoWrap .lp64 ∧
      rseqPercpuPoolInitNuma .lp64 (dir'.slots 1).pool 1 (2 ^ 12) (fun _ => 0) (fun _ _ => 0) =
        .ok r :=
  ⟨_, _, rseqPercpuPoolCreate_lp64, by exact show 4096 * 4 < Abi.lp64.wordSize by decide,
    (initNuma_of_create (p := 12) rseqPercpuPoolCreate_lp64
      (by exact show 4096 * 4 < Abi.lp64.wordSize by decide) 1 _ _).1⟩

end Librseq
