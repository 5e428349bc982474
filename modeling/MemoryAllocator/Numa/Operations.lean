import MemoryAllocator.Numa.State

namespace MemoryAllocator.Numa

/-- `discover_numa_topology`; the `calloc` of `num_cpus` entries fails for a negative count. -/
def discoverNumaTopology (platform : Platform) : Option Topology :=
  if !platform.topologyCalloc then none
  else if !platform.numaAvailable then
    if platform.mapCalloc ∧ 0 ≤ platform.onlineCpus then
      some ⟨1, platform.onlineCpus, List.replicate platform.onlineCpus.toNat 0⟩
    else none
  else if platform.mapCalloc ∧ 0 ≤ platform.configuredCpus then
    some ⟨platform.maxNode + 1, platform.configuredCpus,
      (List.range platform.configuredCpus.toNat).map platform.nodeOfCpu⟩
  else none

/-- `get_current_numa_node`, on the CPU `sched_getcpu` reports. -/
def getCurrentNumaNode (topology : Option Topology) (cpu : Int) : Int :=
  match topology with
  | none => 0
  | some topology =>
    if cpu < 0 ∨ cpu ≥ topology.numCpus then 0 else topology.cpuToNodeMap.getD cpu.toNat 0

/-- `create_arena`: a new arena with empty free lists, on the caller's current node. -/
def createArena (topology : Option Topology) (env : Env) : Option ThreadArena :=
  if env.arenaCalloc then some ⟨getCurrentNumaNode topology env.cpu, fun _ => 0, 0, 0⟩ else none

/-- `get_or_create_arena`: the thread's `my_arena`, created on first use. -/
def getOrCreateArena (thread : Nat) (env : Env) : NumaM (Option ThreadArena) := fun s =>
  match s.arenas thread with
  | some arena => .ok (some arena, s)
  | none =>
    match createArena s.topology env with
    | some arena => .ok (some arena, s.setArena thread arena)
    | none => .ok (none, s)

/-- The mapping `allocate_large_block` takes: huge pages from `HUGE_PAGE_SIZE` on, else plain pages. -/
def mapLarge (alignedSize : Nat) (env : Env) : NumaM (Option Nat) :=
  if alignedSize ≥ hugePageSize then do
    let ptr ← mmap hugePageSize env.hugeMap alignedSize
    if ptr.isSome then pure ptr else mmap pageSize env.plainMap alignedSize
  else mmap pageSize env.plainMap alignedSize

/-- `aligned_size` of `allocate_large_block`: request and header, rounded to huge pages, in `size_t`. -/
def largeBlockSize (size : Nat) : Nat :=
  let totalSize := sizeAdd size headerSize
  if totalSize ≥ hugePageSize then alignUp totalSize hugePageSize else totalSize

/-- `allocate_large_block`. -/
def allocateLargeBlock (numaNode : Int) (size : Nat) (env : Env) : NumaM Nat := do
  let alignedSize := largeBlockSize size
  let some ptr ← mapLarge alignedSize env | pure 0
  memset ptr 0 alignedSize
  store ptr 8 alignedSize
  store (ptr + 8) 4 (int32Bits (-1))
  store (ptr + 12) 4 (int32Bits numaNode)
  pure (ptr + headerSize)

/-- `free_large_block`. -/
def freeLargeBlock (ptr : Nat) : NumaM Unit :=
  if ptr = 0 then pure ()
  else do
    let size ← load (ptr - headerSize) 8
    munmap (ptr - headerSize) size

/-- One pass of the carving loop of `slow_path_alloc`: block `i`'s header and its link to the head. -/
def carveBlock (batchStart blockSize : Nat) (sizeClass : Fin 8) (numaNode : Int) (head i : Nat) :
    NumaM Nat := do
  let blockBase := batchStart + i * (blockSize + headerSize)
  store blockBase 8 blockSize
  store (blockBase + 8) 4 (int32Bits sizeClass)
  store (blockBase + 12) 4 (int32Bits numaNode)
  store (blockBase + headerSize) 8 head
  pure (blockBase + headerSize)

/-- `slow_path_alloc`; `sizeClass` is `none` for the `-1` of a large request. -/
def slowPathAlloc (thread : Nat) (arena : ThreadArena) (size : Nat) (sizeClass : Option (Fin 8))
    (env : Env) : NumaM Nat :=
  match sizeClass with
  | none => allocateLargeBlock arena.numaNode size env
  | some sizeClass => do
    let slot ← tableIndex .nodePools arena.numaNode
    let some pool := (← get).nodePools slot | pure 0
    match reserveBatch pool sizeClass with
    | (none, _) => pure 0
    | (some used, advanced) =>
      setNodePool slot (some advanced)
      let head ← (List.range refillBatchSize).foldlM
        (carveBlock (pool.baseAddr + used) (sizeClassSizes sizeClass) sizeClass arena.numaNode) 0
      let next ← load head 8
      modifyArena thread fun arena =>
        { arena with freeLists := Function.update arena.freeLists sizeClass next }
      pure head

/-- `numalloc`. -/
def numalloc (thread : Nat) (env : Env) (size : Nat) : NumaM Nat :=
  if size = 0 then pure 0
  else do
    if !(← get).initialized then pure 0
    else
      let some arena ← getOrCreateArena thread env | pure 0
      let sizeClass := getSizeClass size
      match sizeClass.filter fun c => arena.freeLists c != 0 with
      | some c =>
        let block := arena.freeLists c
        let next ← load block 8
        modifyArena thread fun arena => { arena with
          freeLists := Function.update arena.freeLists c next
          statsAllocs := sizeAdd arena.statsAllocs 1 }
        pure block
      | none =>
        let ptr ← slowPathAlloc thread arena size sizeClass env
        if ptr ≠ 0 then do
          modifyArena thread fun arena => { arena with statsAllocs := sizeAdd arena.statsAllocs 1 }
          pure ptr
        else pure ptr

/-- `numalloc_free`. -/
def numallocFree (thread : Nat) (env : Env) (ptr : Nat) : NumaM Unit :=
  if ptr = 0 then pure ()
  else do
    let sizeClass := int32OfBits (← load (ptr - headerSize + 8) 4)
    if sizeClass < 0 then freeLargeBlock ptr
    else
      let some arena ← getOrCreateArena thread env | pure ()
      let slot ← tableIndex .freeLists sizeClass
      store ptr 8 (arena.freeLists slot)
      modifyArena thread fun arena => { arena with
        freeLists := Function.update arena.freeLists slot ptr
        statsFrees := sizeAdd arena.statsFrees 1 }

/-- `create_node_pool`: `numa_alloc_onnode` and the `mmap` fallback both map fresh pages. -/
def createNodePool (platform : Platform) (nodeId size : Nat) : NumaM (Option NodePool) :=
  if !platform.poolCalloc nodeId then pure none
  else do
    let some base ← mmap pageSize (platform.poolMap nodeId) size | pure none
    memset base 0 size
    pure (some ⟨nodeId, base, size, 0⟩)

/-- The pool loop of `numalloc_init` over the nodes left, `false` at the first pool it cannot create. -/
def createNodePools (platform : Platform) (size : Nat) : List Nat → NumaM Bool
  | [] => pure true
  | i :: rest => do
    let pool ← createNodePool platform i size
    let slot ← tableIndex .nodePools i
    setNodePool slot pool
    if pool.isNone then pure false else createNodePools platform size rest

/-- `numalloc_init`. -/
def numallocInit (platform : Platform) (poolSizePerNode : Nat) : NumaM Int := do
  if (← get).initialized then pure (-1)
  else
    let topology := discoverNumaTopology platform
    modify (·.setTopology topology)
    let some topology := topology | pure (-1)
    if !(← createNodePools platform poolSizePerNode (List.range topology.numNodes.toNat)) then pure (-1)
    else do
      modify (·.setInitialized true)
      pure 0

/-- `numalloc_calloc`. -/
def numallocCalloc (thread : Nat) (env : Env) (num size : Nat) : NumaM Nat :=
  if num = 0 ∨ size = 0 then pure 0
  else
    let total := sizeMul num size
    if size ≠ total / num then pure 0
    else do
      let ptr ← numalloc thread env total
      if ptr ≠ 0 then do
        memset ptr 0 total
        pure ptr
      else pure ptr

/-- `old_size` of `numalloc_realloc`: the class size, or `header->size` for a negative class. -/
def oldBlockSize (ptr : Nat) : NumaM Nat := do
  let header := ptr - headerSize
  let recorded ← load header 8
  let sizeClass := int32OfBits (← load (header + 8) 4)
  if sizeClass ≥ 0 then do
    let slot ← tableIndex .sizeClassSizes sizeClass
    pure (sizeClassSizes slot)
  else pure recorded

/-- `numalloc_realloc`. -/
def numallocRealloc (thread : Nat) (env : Env) (ptr size : Nat) : NumaM Nat :=
  if ptr = 0 then numalloc thread env size
  else if size = 0 then do
    numallocFree thread env ptr
    pure 0
  else do
    let oldSize ← oldBlockSize ptr
    if size ≤ oldSize then pure ptr
    else do
      let newPtr ← numalloc thread env size
      if newPtr ≠ 0 then do
        memcpy newPtr ptr oldSize
        numallocFree thread env ptr
        pure newPtr
      else pure newPtr

/-- `numalloc_get_thread_stats`: the calling thread's counters, zero before it has an arena. -/
def numallocGetThreadStats (thread : Nat) (s : State) : Nat × Nat :=
  match s.arenas thread with
  | some arena => (arena.statsAllocs, arena.statsFrees)
  | none => (0, 0)

/-- The pool loop of `numalloc_cleanup`. -/
def releaseNodePools : List Nat → NumaM Unit
  | [] => pure ()
  | i :: rest => do
    let slot ← tableIndex .nodePools i
    if let some pool := (← get).nodePools slot then
      munmap pool.baseAddr pool.totalSize
      setNodePool slot none
    releaseNodePools rest

/-- `numalloc_cleanup`. Each thread's `my_arena` is thread-local and is left as it is. -/
def numallocCleanup : NumaM Unit := do
  let s ← get
  if !s.initialized then pure ()
  else
    let some topology := s.topology | throw .topology
    releaseNodePools (List.range topology.numNodes.toNat)
    modify fun s => (s.setTopology none).setInitialized false

end MemoryAllocator.Numa
