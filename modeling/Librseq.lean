import Librseq.Word
import Librseq.Memory
import Librseq.Percpu.Pool
import Librseq.Percpu.FreeList
import Librseq.Percpu.Trail
import Librseq.Percpu.Directory
import Librseq.Percpu.System
import Librseq.Percpu.Reuse
import Librseq.Percpu.Bitmap
import Librseq.Percpu.PoolSet
import Librseq.Percpu.Threads
import Librseq.Percpu.Safety
import Librseq.Percpu.Destroy
import Librseq.Percpu.Heap
import Librseq.Percpu.Numa
import Librseq.Percpu.LeakCheck
import Librseq.Percpu.Linearize
import Librseq.Percpu.Heaps
import Librseq.Percpu.Stack
import Librseq.Registration
import Librseq.Mips
