import MemoryAllocator.Numa.NodePool

namespace MemoryAllocator.Numa

/-- The page size of the mappings the kernel hands out. -/
def pageSize : Nat := 4096

/-- `numa_topology_t`; `cpu_to_node_map` holds `num_cpus` entries. -/
structure Topology where
  numNodes : Int
  numCpus : Int
  cpuToNodeMap : List Int
deriving DecidableEq, Repr

/-- `thread_arena_t`; a free-list head is an address, `0` for `NULL`. -/
structure ThreadArena where
  numaNode : Int
  freeLists : Fin 8 → Nat
  statsAllocs : Nat
  statsFrees : Nat

/-- The globals, each thread's `my_arena`, and the address space: its bytes and live mappings. -/
structure State where
  topology : Option Topology
  nodePools : Fin 8 → Option NodePool
  initialized : Bool
  arenas : Nat → Option ThreadArena
  memory : Memory
  regions : List Region

/-- Undefined behaviour a call can reach; the run stops there. -/
inductive Fault where
  /-- An access not inside one live mapping: outside every mapping, or spanning two adjacent ones. -/
  | memory (address width : Nat)
  /-- `g_node_pools` indexed outside `[0, MAX_NUMA_NODES)`. -/
  | nodePools (index : Int)
  /-- `SIZE_CLASS_SIZES` indexed outside `[0, SIZE_CLASSES)`. -/
  | sizeClassSizes (index : Int)
  /-- A thread's `free_lists` indexed outside `[0, SIZE_CLASSES)`. -/
  | freeLists (index : Int)
  /-- `g_topology` dereferenced while `NULL`. -/
  | topology
deriving DecidableEq, Repr

/-- A call of the allocator: it reads and updates the state, or stops at a fault. -/
abbrev NumaM := StateT State (Except Fault)

/-- What the platform answers in one call: the CPU, the arena `calloc`, and the mapping addresses. -/
structure Env where
  cpu : Int
  arenaCalloc : Bool
  hugeMap : Option Nat
  plainMap : Option Nat

/-- What the platform answers during `numalloc_init`. -/
structure Platform where
  topologyCalloc : Bool
  numaAvailable : Bool
  maxNode : Int
  onlineCpus : Int
  configuredCpus : Int
  mapCalloc : Bool
  nodeOfCpu : Nat → Int
  poolCalloc : Nat → Bool
  poolMap : Nat → Option Nat

namespace State

/-- The state with its bytes rewritten by `f`. -/
def mapMemory (f : Memory → Memory) : State → State
  | ⟨topology, nodePools, initialized, arenas, memory, regions⟩ =>
    ⟨topology, nodePools, initialized, arenas, f memory, regions⟩

/-- The state with its live mappings rewritten by `f`. -/
def mapRegions (f : List Region → List Region) : State → State
  | ⟨topology, nodePools, initialized, arenas, memory, regions⟩ =>
    ⟨topology, nodePools, initialized, arenas, memory, f regions⟩

/-- `my_arena = arena` on `thread`. -/
def setArena (thread : Nat) (arena : ThreadArena) : State → State
  | ⟨topology, nodePools, initialized, arenas, memory, regions⟩ =>
    ⟨topology, nodePools, initialized, Function.update arenas thread (some arena), memory, regions⟩

/-- `g_node_pools[slot] = pool`. -/
def setNodePool (slot : Fin 8) (pool : Option NodePool) : State → State
  | ⟨topology, nodePools, initialized, arenas, memory, regions⟩ =>
    ⟨topology, Function.update nodePools slot pool, initialized, arenas, memory, regions⟩

/-- `g_topology = topology`. -/
def setTopology (topology : Option Topology) : State → State
  | ⟨_, nodePools, initialized, arenas, memory, regions⟩ =>
    ⟨topology, nodePools, initialized, arenas, memory, regions⟩

/-- `g_initialized = initialized`. -/
def setInitialized (initialized : Bool) : State → State
  | ⟨topology, nodePools, _, arenas, memory, regions⟩ =>
    ⟨topology, nodePools, initialized, arenas, memory, regions⟩

@[simp] theorem mapMemory_eq (f : Memory → Memory) (s : State) :
    s.mapMemory f = { s with memory := f s.memory } := rfl

@[simp] theorem mapRegions_eq (f : List Region → List Region) (s : State) :
    s.mapRegions f = { s with regions := f s.regions } := rfl

@[simp] theorem setArena_eq (thread : Nat) (arena : ThreadArena) (s : State) :
    s.setArena thread arena = { s with arenas := Function.update s.arenas thread (some arena) } := rfl

@[simp] theorem setNodePool_eq (slot : Fin 8) (pool : Option NodePool) (s : State) :
    s.setNodePool slot pool = { s with nodePools := Function.update s.nodePools slot pool } := rfl

@[simp] theorem setTopology_eq (topology : Option Topology) (s : State) :
    s.setTopology topology = { s with topology := topology } := rfl

@[simp] theorem setInitialized_eq (initialized : Bool) (s : State) :
    s.setInitialized initialized = { s with initialized := initialized } := rfl

end State

/-- Reading `width` bytes at `address`. -/
def load (address width : Nat) : NumaM Nat := fun s =>
  if accessible s.regions address width then .ok (s.memory.load address width, s)
  else .error (.memory address width)

/-- Writing `value` into the `width` bytes at `address`. -/
def store (address width value : Nat) : NumaM Unit := fun s =>
  if accessible s.regions address width then .ok ((), s.mapMemory (·.store address width value))
  else .error (.memory address width)

/-- `memset(address, byte, length)`. -/
def memset (address byte length : Nat) : NumaM Unit := fun s =>
  if accessible s.regions address length then .ok ((), s.mapMemory (·.fill address length byte))
  else .error (.memory address length)

/-- `memcpy(destination, source, length)`. -/
def memcpy (destination source length : Nat) : NumaM Unit := fun s =>
  if accessible s.regions source length then
    if accessible s.regions destination length then
      .ok ((), s.mapMemory (·.copy destination source length))
    else .error (.memory destination length)
  else .error (.memory source length)

/-- A client's store of `data` into `[address, address + length)`. -/
def write (address length : Nat) (data : Nat → Nat) : NumaM Unit := fun s =>
  if accessible s.regions address length then .ok ((), s.mapMemory (·.write address length data))
  else .error (.memory address length)

/-- An `mmap` of `length` bytes: a `granularity`-aligned address that goes live, or `MAP_FAILED`. -/
def mmap (granularity : Nat) (proposed : Option Nat) (length : Nat) : NumaM (Option Nat) := fun s =>
  match mapAt granularity pageSize s.regions proposed length with
  | some base => .ok (some base, s.mapRegions (⟨base, pageRound pageSize length⟩ :: ·))
  | none => .ok (none, s)

/-- The mappings left after `munmap(base, length)`; a call the kernel refuses changes nothing. -/
def unmapRegions (regions : List Region) (base length : Nat) : List Region :=
  if base % pageSize = 0 ∧ 0 < length then
    regions.flatMap fun region => region.cut base (base + pageRound pageSize length)
  else regions

/-- `munmap(base, length)`, and `numa_free`, which calls it. -/
def munmap (base length : Nat) : NumaM Unit := fun s =>
  .ok ((), s.mapRegions (unmapRegions · base length))

/-- An index into one of the code's 8-entry tables, faulting as `outside` names when out of range. -/
def tableIndex (outside : Int → Fault) (index : Int) : NumaM (Fin 8) := fun s =>
  if inRange : 0 ≤ index ∧ index < 8 then .ok (⟨index.toNat, by omega⟩, s) else .error (outside index)

/-- Applying `update` to the calling thread's arena through the `arena` pointer. -/
def modifyArena (thread : Nat) (update : ThreadArena → ThreadArena) : NumaM Unit := fun s =>
  match s.arenas thread with
  | some arena => .ok ((), s.setArena thread (update arena))
  | none => .ok ((), s)

/-- `g_node_pools[slot] = pool`. -/
def setNodePool (slot : Fin 8) (pool : Option NodePool) : NumaM Unit := fun s =>
  .ok ((), s.setNodePool slot pool)

end MemoryAllocator.Numa
