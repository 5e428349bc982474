import MemoryAllocator.Machine.Word
import MemoryAllocator.Machine.Memory
import MemoryAllocator.Machine.Chain
import MemoryAllocator.Machine.Call
import MemoryAllocator.Numa.SizeClass
import MemoryAllocator.Numa.NodePool
import MemoryAllocator.Numa.State
import MemoryAllocator.Numa.Operations
import MemoryAllocator.Numa.Exec
import MemoryAllocator.Numa.Spec
import MemoryAllocator.Numa.Bounds
import MemoryAllocator.Numa.Heap
import MemoryAllocator.Numa.Reinit
import MemoryAllocator.Numa.Alloc
import MemoryAllocator.Numa.Calls
import MemoryAllocator.Numa.Free
import MemoryAllocator.Numa.Init
import MemoryAllocator.Numa.Run
import MemoryAllocator.Numa.Safety
import MemoryAllocator.Numa.Stats
import MemoryAllocator.Numa.Alignment
import MemoryAllocator.Numa.Footprint
import MemoryAllocator.Numa.Client
import MemoryAllocator.Arena.Allocator
import MemoryAllocator.Arena.Invariant
import MemoryAllocator.Arena.Laws
import MemoryAllocator.Memalloc.State
import MemoryAllocator.Memalloc.Operations
import MemoryAllocator.Memalloc.Spec
import MemoryAllocator.Memalloc.Invariant
import MemoryAllocator.Memalloc.Bounds
import MemoryAllocator.Memalloc.Calls
import MemoryAllocator.Memalloc.Run
import MemoryAllocator.Memalloc.Footprint
import MemoryAllocator.Memalloc.Client
import MemoryAllocator.Memalloc.Reservations
import MemoryAllocator.Memalloc.Capacity
import MemoryAllocator.Calloc
