import MemoryAllocator.Numa.Operations
import MemoryAllocator.Machine.Chain
import MemoryAllocator.Machine.Call

namespace MemoryAllocator.Numa

section Primitives

variable {β : Type} {s s' : State}

theorem store_bind {f : Unit → NumaM β} {address width value : Nat}
    (reachable : accessible s.regions address width) :
    (store address width value >>= f) s = f () { s with memory := s.memory.store address width value } := by
  show (store address width value s >>= fun p => f p.1 p.2) = _
  simp only [store, reachable, if_true]
  rfl

theorem load_ok {address width v : Nat} :
    load address width s = .ok (v, s') ↔
      accessible s.regions address width ∧ s.memory.load address width = v ∧ s' = s := by
  unfold load
  split <;> simp [*, @eq_comm _ s']

theorem store_ok {address width value : Nat} {u : Unit} :
    store address width value s = .ok (u, s') ↔
      accessible s.regions address width ∧ s' = { s with memory := s.memory.store address width value } := by
  unfold store
  split <;> simp [*, eq_comm]

theorem memset_ok {address byte length : Nat} {u : Unit} :
    memset address byte length s = .ok (u, s') ↔
      accessible s.regions address length ∧ s' = { s with memory := s.memory.fill address length byte } := by
  unfold memset
  split <;> simp [*, eq_comm]

theorem memcpy_ok {destination source length : Nat} {u : Unit} :
    memcpy destination source length s = .ok (u, s') ↔
      accessible s.regions source length ∧ accessible s.regions destination length ∧
        s' = { s with memory := s.memory.copy destination source length } := by
  unfold memcpy
  by_cases source : accessible s.regions source length <;>
    by_cases destination : accessible s.regions destination length <;> simp [source, destination, eq_comm]

theorem write_ok {address length : Nat} {data : Nat → Nat} {u : Unit} :
    write address length data s = .ok (u, s') ↔
      accessible s.regions address length ∧ s' = { s with memory := s.memory.write address length data } := by
  unfold write
  split <;> simp [*, eq_comm]

theorem mmap_ok {granularity length : Nat} {proposed r : Option Nat} :
    mmap granularity proposed length s = .ok (r, s') ↔
      (∃ base, mapAt granularity pageSize s.regions proposed length = some base ∧ r = some base ∧
        s' = { s with regions := ⟨base, pageRound pageSize length⟩ :: s.regions }) ∨
      (mapAt granularity pageSize s.regions proposed length = none ∧ r = none ∧ s' = s) := by
  unfold mmap
  split <;> simp [*, eq_comm]

theorem munmap_ok {base length : Nat} {u : Unit} :
    munmap base length s = .ok (u, s') ↔ s' = { s with regions := unmapRegions s.regions base length } := by
  simp [munmap, eq_comm]

theorem tableIndex_ok {outside : Int → Fault} {index : Int} {slot : Fin 8} :
    tableIndex outside index s = .ok (slot, s') ↔ (slot.val : Int) = index ∧ s' = s := by
  unfold tableIndex
  split
  · simp only [Except.ok.injEq, Prod.mk.injEq, Fin.ext_iff]
    constructor <;> rintro ⟨same, rfl⟩ <;> exact ⟨by omega, rfl⟩
  · simp only [reduceCtorEq, false_iff, not_and]
    intro same
    omega

theorem modifyArena_ok {thread : Nat} {update : ThreadArena → ThreadArena} {arena : ThreadArena} {u : Unit}
    (h : modifyArena thread update s = .ok (u, s')) (found : s.arenas thread = some arena) :
    s' = s.setArena thread (update arena) := by
  simp only [modifyArena, found, Except.ok.injEq, Prod.mk.injEq] at h
  exact h.2.symm

theorem modifyArena_found {thread : Nat} {update : ThreadArena → ThreadArena} {arena : ThreadArena}
    (found : s.arenas thread = some arena) :
    modifyArena thread update s = .ok ((), s.setArena thread (update arena)) := by
  simp only [modifyArena, found]

theorem modifyArena_cases {thread : Nat} {update : ThreadArena → ThreadArena} {u : Unit}
    (h : modifyArena thread update s = .ok (u, s')) :
    (∃ arena, s.arenas thread = some arena ∧ s' = s.setArena thread (update arena)) ∨
      (s.arenas thread = none ∧ s' = s) := by
  rcases found : s.arenas thread with _ | arena
  · simp only [modifyArena, found, Except.ok.injEq, Prod.mk.injEq] at h
    exact .inr ⟨rfl, h.2.symm⟩
  · exact .inl ⟨arena, rfl, modifyArena_ok h found⟩

theorem setNodePool_ok {slot : Fin 8} {pool : Option NodePool} {u : Unit} :
    setNodePool slot pool s = .ok (u, s') ↔ s' = s.setNodePool slot pool := by
  simp [setNodePool, eq_comm]

theorem getOrCreateArena_ok {thread : Nat} {env : Env} {r : Option ThreadArena} :
    getOrCreateArena thread env s = .ok (r, s') ↔
      (∃ arena, s.arenas thread = some arena ∧ r = some arena ∧ s' = s) ∨
        (∃ arena, s.arenas thread = none ∧ createArena s.topology env = some arena ∧ r = some arena ∧
          s' = s.setArena thread arena) ∨
        (s.arenas thread = none ∧ createArena s.topology env = none ∧ r = none ∧ s' = s) := by
  unfold getOrCreateArena
  split
  · simp [*, eq_comm]
  · split <;> simp [*, eq_comm]

end Primitives

/-- The `block_header_t` at `base` reads `size`, `sizeClass` and `numaNode`. -/
def HeaderAt (memory : Memory) (base size : Nat) (sizeClass numaNode : Int) : Prop :=
  memory.load base 8 = size ∧ memory.load (base + 8) 4 = int32Bits sizeClass ∧
    memory.load (base + 12) 4 = int32Bits numaNode

theorem int32Bits_lt (value : Int) : int32Bits value < 2 ^ 32 := by
  unfold int32Bits
  omega

/-- The three stores that fill in a header. -/
theorem headerAt_stores (memory : Memory) {base size : Nat} (fits : size < sizeBound) (sizeClass numaNode : Int) :
    HeaderAt (((memory.store base 8 size).store (base + 8) 4 (int32Bits sizeClass)).store (base + 12) 4
      (int32Bits numaNode)) base size sizeClass numaNode := by
  have classFits := int32Bits_lt sizeClass
  have nodeFits := int32Bits_lt numaNode
  unfold sizeBound at fits
  refine ⟨?_, ?_, ?_⟩
  · rw [Memory.load_congr (Memory.store_agree (by omega)), Memory.load_congr (Memory.store_agree (by omega)),
      Memory.load_store_self, Nat.mod_eq_of_lt (by norm_num; omega)]
  · rw [Memory.load_congr (Memory.store_agree (by omega)), Memory.load_store_self,
      Nat.mod_eq_of_lt (by norm_num; omega)]
  · rw [Memory.load_store_self, Nat.mod_eq_of_lt (by norm_num; omega)]

theorem HeaderAt.frame {memory other : Memory} {base size : Nat} {sizeClass numaNode : Int}
    (header : HeaderAt memory base size sizeClass numaNode) (agree : other.Agree memory base 16) :
    HeaderAt other base size sizeClass numaNode := by
  obtain ⟨sized, classed, noded⟩ := header
  exact ⟨(Memory.load_congr (agree.mono le_rfl (by omega))).trans sized,
    (Memory.load_congr (agree.mono (by omega) (by omega))).trans classed,
    (Memory.load_congr (agree.mono (by omega) (by omega))).trans noded⟩

/-- `block->next` in `memory`: a free block's first word. -/
def linkOf (memory : Memory) (block : Nat) : Nat := memory.load block 8

theorem linkOf_agree {memory other : Memory} {block : Nat} (agree : other.Agree memory block 8) :
    linkOf other block = linkOf memory block :=
  Memory.load_congr agree

section Carve

variable (batchStart blockSize : Nat) (sizeClass : Fin 8) (numaNode : Int)

/-- The stores of one pass of the carving loop: the header, then the link to `head`. -/
def carveStores (memory : Memory) (blockBase head : Nat) : Memory :=
  (((memory.store blockBase 8 blockSize).store (blockBase + 8) 4 (int32Bits sizeClass)).store
    (blockBase + 12) 4 (int32Bits numaNode)).store (blockBase + headerSize) 8 head

/-- The head after the carving loop's first `count` passes: block `count - 1`, or `NULL`. -/
def carveHead : Nat → Nat
  | 0 => 0
  | i + 1 => batchStart + i * (blockSize + headerSize) + headerSize

/-- The bytes after the carving loop's first `count` passes. -/
def carveMemory (memory : Memory) : Nat → Memory
  | 0 => memory
  | i + 1 =>
    carveStores blockSize sizeClass numaNode (carveMemory memory i) (batchStart + i * (blockSize + headerSize))
      (carveHead batchStart blockSize i)

/-- The blocks the first `count` passes carve, last carved first: the free list they form. -/
def carveList : Nat → List Nat
  | 0 => []
  | i + 1 => (batchStart + i * (blockSize + headerSize) + headerSize) :: carveList i

theorem carveBlock_ok {s : State} {region : Region} (mapped : region ∈ s.regions) (roomy : 8 ≤ blockSize)
    {head i : Nat}
    (inside : region.base ≤ batchStart + i * (blockSize + headerSize) ∧
      batchStart + (i + 1) * (blockSize + headerSize) ≤ region.stop) :
    carveBlock batchStart blockSize sizeClass numaNode head i s =
      .ok (batchStart + i * (blockSize + headerSize) + headerSize,
        { s with memory := (carveStores blockSize sizeClass numaNode s.memory
          (batchStart + i * (blockSize + headerSize)) head) }) := by
  have stride : (i + 1) * (blockSize + headerSize) = i * (blockSize + headerSize) + (blockSize + headerSize) :=
    Nat.succ_mul _ _
  have sixteen : headerSize = 16 := rfl
  have reach : ∀ address width, batchStart + i * (blockSize + headerSize) ≤ address →
      address + width ≤ batchStart + (i + 1) * (blockSize + headerSize) → accessible s.regions address width :=
    fun address width low high => accessible_within mapped (by omega)
  simp (disch := exact reach _ _ (by omega) (by omega)) only [carveBlock, store_bind]
  rfl

/-- The carving loop of `slow_path_alloc`, over a batch inside one live mapping. -/
theorem carveLoop_ok {s : State} {region : Region} (mapped : region ∈ s.regions) (roomy : 8 ≤ blockSize) :
    ∀ count, region.base ≤ batchStart → batchStart + count * (blockSize + headerSize) ≤ region.stop →
      (List.range count).foldlM (carveBlock batchStart blockSize sizeClass numaNode) 0 s =
        .ok (carveHead batchStart blockSize count,
          { s with memory := carveMemory batchStart blockSize sizeClass numaNode s.memory count })
  | 0, _, _ => rfl
  | count + 1, low, high => by
    have stride : (count + 1) * (blockSize + headerSize) =
        count * (blockSize + headerSize) + (blockSize + headerSize) := Nat.succ_mul _ _
    rw [List.range_succ, List.foldlM_append,
      bind_of_ok (carveLoop_ok mapped roomy count low (by omega)), List.foldlM_cons,
      bind_of_ok (carveBlock_ok batchStart blockSize sizeClass numaNode
        (show region ∈ ({ s with memory := carveMemory batchStart blockSize sizeClass numaNode s.memory count } :
          State).regions from mapped) roomy ⟨by omega, high⟩)]
    rfl

theorem carveStores_apply (memory : Memory) {blockBase head x : Nat}
    (outside : x < blockBase ∨ blockBase + 24 ≤ x) :
    carveStores blockSize sizeClass numaNode memory blockBase head x = memory x := by
  unfold carveStores Memory.store headerSize
  split_ifs <;> first | rfl | omega

variable {batchStart blockSize} (memory : Memory)

/-- The passes after the first `done` write at and above block `done`. -/
theorem carveMemory_below {done : Nat} :
    ∀ {count}, done ≤ count → ∀ x, x < batchStart + done * (blockSize + headerSize) →
      carveMemory batchStart blockSize sizeClass numaNode memory count x =
        carveMemory batchStart blockSize sizeClass numaNode memory done x
  | count, within, x, below => by
    induction count with
    | zero => rw [Nat.le_zero.mp within]
    | succ count inductionHypothesis =>
      rcases Nat.lt_or_eq_of_le within with earlier | rfl
      · have reach : done * (blockSize + headerSize) ≤ count * (blockSize + headerSize) :=
          Nat.mul_le_mul_right _ (by omega)
        rw [carveMemory, carveStores_apply _ _ _ _ (by omega), inductionHypothesis (by omega)]
      · rfl

/-- The passes write inside the batch only. -/
theorem carveMemory_outside (roomy : 8 ≤ blockSize) :
    ∀ count x, (x < batchStart ∨ batchStart + count * (blockSize + headerSize) ≤ x) →
      carveMemory batchStart blockSize sizeClass numaNode memory count x = memory x
  | 0, _, _ => rfl
  | count + 1, x, outside => by
    have stride : (count + 1) * (blockSize + headerSize) =
        count * (blockSize + headerSize) + (blockSize + headerSize) := Nat.succ_mul _ _
    have sixteen : headerSize = 16 := rfl
    rw [carveMemory, carveStores_apply _ _ _ _ (by omega), carveMemory_outside roomy count x (by omega)]

/-- Every carved block has its header. -/
theorem carveMemory_header (roomy : 8 ≤ blockSize) (fits : blockSize < sizeBound) {count i : Nat}
    (carved : i < count) :
    HeaderAt (carveMemory batchStart blockSize sizeClass numaNode memory count)
      (batchStart + i * (blockSize + headerSize)) blockSize sizeClass numaNode := by
  have stride : (i + 1) * (blockSize + headerSize) = i * (blockSize + headerSize) + (blockSize + headerSize) :=
    Nat.succ_mul _ _
  have sixteen : headerSize = 16 := rfl
  refine HeaderAt.frame ?_ fun x low high =>
    carveMemory_below sizeClass numaNode memory (show i + 1 ≤ count from carved) x (by omega)
  unfold carveMemory carveStores
  exact (headerAt_stores _ fits _ _).frame (Memory.store_agree (by omega))

/-- Every carved block links to the one carved before it. -/
theorem carveMemory_link (roomy : 8 ≤ blockSize) (fits : batchStart + count * (blockSize + headerSize) < sizeBound)
    {i : Nat} (carved : i < count) :
    linkOf (carveMemory batchStart blockSize sizeClass numaNode memory count)
      (batchStart + i * (blockSize + headerSize) + headerSize) = carveHead batchStart blockSize i := by
  have stride : (i + 1) * (blockSize + headerSize) = i * (blockSize + headerSize) + (blockSize + headerSize) :=
    Nat.succ_mul _ _
  have within : (i + 1) * (blockSize + headerSize) ≤ count * (blockSize + headerSize) :=
    Nat.mul_le_mul_right _ carved
  have sixteen : headerSize = 16 := rfl
  unfold linkOf
  rw [Memory.load_congr fun x low high =>
    carveMemory_below sizeClass numaNode memory (show i + 1 ≤ count from carved) x (by omega)]
  unfold carveMemory carveStores
  rw [Memory.load_store_self, Nat.mod_eq_of_lt]
  unfold sizeBound at fits
  cases i with
  | zero => simp [carveHead]
  | succ i =>
    have earlier : i * (blockSize + headerSize) ≤ (i + 1) * (blockSize + headerSize) :=
      Nat.mul_le_mul_right _ (by omega)
    simp only [carveHead]
    norm_num
    omega

/-- The carved blocks form a free list from the last head. -/
theorem carveMemory_chain (roomy : 8 ≤ blockSize) (fits : batchStart + count * (blockSize + headerSize) < sizeBound) :
    ∀ {done}, done ≤ count →
      Chain (linkOf (carveMemory batchStart blockSize sizeClass numaNode memory count))
        (carveHead batchStart blockSize done) (carveList batchStart blockSize done)
  | 0, _ => .null
  | done + 1, within => by
    refine .link (by simp [carveHead, headerSize]) ?_
    rw [carveHead, carveMemory_link sizeClass numaNode memory roomy fits within]
    exact carveMemory_chain roomy fits (by omega)

end Carve

end MemoryAllocator.Numa
