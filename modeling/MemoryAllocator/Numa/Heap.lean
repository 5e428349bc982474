import MemoryAllocator.Numa.Spec

namespace MemoryAllocator.Numa

theorem le_pageRound (length : Nat) : length ≤ pageRound pageSize length := by
  unfold pageRound pageSize
  omega

theorem pageSize_le_pageRound {length : Nat} (positive : 0 < length) : pageSize ≤ pageRound pageSize length := by
  unfold pageRound pageSize
  omega

/-- The mapping `create_node_pool` made for a pool. -/
def NodePool.region (pool : NodePool) : Region := ⟨pool.baseAddr, pageRound pageSize pool.totalSize⟩

/-- The mappings of the pools in `g_node_pools`. -/
def poolRegions (nodePools : Fin 8 → Option NodePool) : List Region :=
  (List.finRange 8).filterMap fun slot => (nodePools slot).map NodePool.region

theorem NodePool.region_mem {nodePools : Fin 8 → Option NodePool} {slot : Fin 8} {pool : NodePool}
    (found : nodePools slot = some pool) : pool.region ∈ poolRegions nodePools :=
  List.mem_filterMap.mpr ⟨slot, List.mem_finRange slot, by rw [found]; rfl⟩

/-- A small block a refill carved: the base of its header, its class, and the node the header names. -/
structure Block where
  base : Nat
  sizeClass : Fin 8
  node : Int
deriving DecidableEq

namespace Block

/-- The address `numalloc` hands out for the block. -/
def ptr (block : Block) : Nat := block.base + headerSize

/-- The first byte past the block's user bytes. -/
def stop (block : Block) : Nat := block.ptr + sizeClassSizes block.sizeClass

/-- Two blocks, headers included, share no byte. -/
def Apart (block other : Block) : Prop := block.stop ≤ other.base ∨ other.stop ≤ block.base

theorem Apart.symm {block other : Block} (apart : block.Apart other) : other.Apart block := Or.symm apart

end Block

/-- A large block: the base of its mapping, the `size` its header records, and its node. -/
structure Large where
  base : Nat
  size : Nat
  node : Int
deriving DecidableEq

namespace Large

/-- The address `numalloc` hands out for the block. -/
def ptr (large : Large) : Nat := large.base + headerSize

/-- The mapping `allocate_large_block` made. -/
def region (large : Large) : Region := ⟨large.base, pageRound pageSize large.size⟩

end Large

/-- A block a client holds: the thread whose call returned it, and its address. -/
structure Live where
  thread : Nat
  ptr : Nat
deriving DecidableEq

/-- What the code tracks only through pointers and headers: carved blocks, large mappings, free lists. -/
structure Heap where
  blocks : List Block
  larges : List Large
  lists : Nat → Fin 8 → List Nat
  foreign : List Region

/-- Every live mapping the heap accounts for. -/
def Heap.mappings (heap : Heap) (nodePools : Fin 8 → Option NodePool) : List Region :=
  heap.larges.map Large.region ++ poolRegions nodePools ++ heap.foreign

/-- The invariant between `numalloc_init` and `numalloc_cleanup`, over state, held blocks and heap. -/
structure Inv (s : State) (live : List Live) (heap : Heap) : Prop where
  initialized : s.initialized = true
  regions : s.regions.Perm (heap.mappings s.nodePools)
  apart : (heap.mappings s.nodePools).Pairwise Region.Apart
  positive : ∀ region ∈ s.regions, 0 < region.length
  pools : ∀ slot pool, s.nodePools slot = some pool →
    pool.used ≤ pool.totalSize ∧ pool.baseAddr + pageRound pageSize pool.totalSize ≤ userSpaceTop
  larges : ∀ large ∈ heap.larges, 0 < large.size ∧ large.size < sizeBound ∧ large.base % pageSize = 0 ∧
    HeaderAt s.memory large.base large.size (-1) large.node
  carved : ∀ block ∈ heap.blocks, ∃ slot pool, s.nodePools slot = some pool ∧ pool.baseAddr ≤ block.base ∧
    block.stop ≤ pool.baseAddr + pool.used
  blocksApart : heap.blocks.Pairwise Block.Apart
  headers : ∀ block ∈ heap.blocks,
    HeaderAt s.memory block.base (sizeClassSizes block.sizeClass) block.sizeClass block.node
  chains : ∀ thread arena, s.arenas thread = some arena →
    ∀ sizeClass, Chain (linkOf s.memory) (arena.freeLists sizeClass) (heap.lists thread sizeClass)
  unused : ∀ thread, s.arenas thread = none → ∀ sizeClass, heap.lists thread sizeClass = []
  listed : ∀ thread sizeClass p, p ∈ heap.lists thread sizeClass →
    ∃ block ∈ heap.blocks, block.ptr = p ∧ block.sizeClass = sizeClass
  nodup : ∀ thread sizeClass, (heap.lists thread sizeClass).Nodup
  disjoint : ∀ thread sizeClass other otherClass p, p ∈ heap.lists thread sizeClass →
    p ∈ heap.lists other otherClass → thread = other ∧ sizeClass = otherClass
  liveNodup : (live.map Live.ptr).Nodup
  liveOwned : ∀ x ∈ live, (∃ block ∈ heap.blocks, block.ptr = x.ptr) ∨ ∃ large ∈ heap.larges, large.ptr = x.ptr
  liveUnlisted : ∀ x ∈ live, ∀ thread sizeClass, x.ptr ∉ heap.lists thread sizeClass
  liveArena : ∀ x ∈ live, s.arenas x.thread ≠ none

/-- When blocks go back to their threads: no carved block lost, every block naming its thread's node. -/
structure Settled (s : State) (live : List Live) (heap : Heap) : Prop where
  conserved : ∀ block ∈ heap.blocks,
    block.ptr ∈ live.map Live.ptr ∨ ∃ thread sizeClass, block.ptr ∈ heap.lists thread sizeClass
  homeLive : ∀ x ∈ live, ∀ block ∈ heap.blocks, block.ptr = x.ptr →
    ∃ arena, s.arenas x.thread = some arena ∧ block.node = arena.numaNode
  homeListed : ∀ thread sizeClass p, p ∈ heap.lists thread sizeClass → ∀ block ∈ heap.blocks, block.ptr = p →
    ∃ arena, s.arenas thread = some arena ∧ block.node = arena.numaNode

/-- The bytes the invariant reads: block headers, and the link words of listed blocks. -/
inductive Guarded (heap : Heap) (x : Nat) : Prop
  | header {block : Block} : block ∈ heap.blocks → block.base ≤ x → x < block.ptr → Guarded heap x
  | link {thread : Nat} {sizeClass : Fin 8} {p : Nat} :
      p ∈ heap.lists thread sizeClass → p ≤ x → x < p + 8 → Guarded heap x
  | large {large : Large} : large ∈ heap.larges → large.base ≤ x → x < large.ptr → Guarded heap x

/-- The bytes the holder of `p` may use: the class size after a small header, or the large mapping's rest. -/
inductive Owns (heap : Heap) (p x : Nat) : Prop
  | small {block : Block} : block ∈ heap.blocks → block.ptr = p → p ≤ x → x < block.stop → Owns heap p x
  | large {large : Large} : large ∈ heap.larges → large.ptr = p → p ≤ x → x < large.region.stop →
      Owns heap p x

/-- `cap(p)`: the class size for a small block, `header.size - sizeof(block_header_t)` for a large one. -/
def capacity (memory : Memory) (ptr : Nat) : Nat :=
  let sizeClass := int32OfBits (memory.load (ptr - headerSize + 8) 4)
  if inRange : 0 ≤ sizeClass ∧ sizeClass < 8 then sizeClassSizes ⟨sizeClass.toNat, by omega⟩
  else memory.load (ptr - headerSize) 8 - headerSize

/-- The heap with `list` as the free list of `thread` for `sizeClass`. -/
def Heap.setList (heap : Heap) (thread : Nat) (sizeClass : Fin 8) (list : List Nat) : Heap :=
  { heap with lists := Function.update heap.lists thread (Function.update (heap.lists thread) sizeClass list) }

@[simp] theorem Heap.setList_lists (heap : Heap) (thread : Nat) (sizeClass : Fin 8) (list : List Nat)
    (other : Nat) (otherClass : Fin 8) :
    (heap.setList thread sizeClass list).lists other otherClass =
      if other = thread ∧ otherClass = sizeClass then list else heap.lists other otherClass := by
  unfold Heap.setList
  by_cases same : other = thread
  · subst same
    by_cases sameClass : otherClass = sizeClass
    · subst sameClass
      simp
    · simp [sameClass]
  · simp [same]

@[simp] theorem Heap.setList_blocks (heap : Heap) (thread : Nat) (sizeClass : Fin 8) (list : List Nat) :
    (heap.setList thread sizeClass list).blocks = heap.blocks := rfl

@[simp] theorem Heap.setList_larges (heap : Heap) (thread : Nat) (sizeClass : Fin 8) (list : List Nat) :
    (heap.setList thread sizeClass list).larges = heap.larges := rfl

@[simp] theorem Heap.setList_foreign (heap : Heap) (thread : Nat) (sizeClass : Fin 8) (list : List Nat) :
    (heap.setList thread sizeClass list).foreign = heap.foreign := rfl

/-- `x` lies in a carved block, header included, or in a large block's mapping. -/
def Occupied (heap : Heap) (x : Nat) : Prop :=
  (∃ block ∈ heap.blocks, block.base ≤ x ∧ x < block.stop) ∨
    ∃ large ∈ heap.larges, large.base ≤ x ∧ x < large.region.stop

theorem Owns.occupied {heap : Heap} {p x : Nat} (owns : Owns heap p x) : Occupied heap x := by
  cases owns with
  | small member found low high =>
    exact .inl ⟨_, member, by unfold Block.ptr at found; omega, high⟩
  | large member found low high =>
    exact .inr ⟨_, member, by unfold Large.ptr at found; omega, high⟩

/-- The class size a block's header gives `cap(p)`. -/
theorem capacity_of_header {memory : Memory} {base size : Nat} {sizeClass : Fin 8} {numaNode : Int}
    (header : HeaderAt memory base size sizeClass numaNode) :
    capacity memory (base + headerSize) = sizeClassSizes sizeClass := by
  have small := sizeClass.isLt
  have classBits : int32OfBits (memory.load (base + headerSize - headerSize + 8) 4) = sizeClass := by
    rw [Nat.add_sub_cancel, header.2.1, int32OfBits_int32Bits (by omega) (by omega)]
  unfold capacity
  simp only [classBits]
  rw [dif_pos ⟨by omega, by omega⟩]
  congr

/-- A large block's header gives `cap(p) = header.size - sizeof(block_header_t)`. -/
theorem capacity_of_large_header {memory : Memory} {base size : Nat} {numaNode : Int}
    (header : HeaderAt memory base size (-1) numaNode) : capacity memory (base + headerSize) = size - headerSize := by
  have classBits : int32OfBits (memory.load (base + headerSize - headerSize + 8) 4) = -1 := by
    rw [Nat.add_sub_cancel, header.2.1]
    decide
  unfold capacity
  simp only [classBits]
  rw [dif_neg (by omega), Nat.add_sub_cancel, header.1]

section Invariant

variable {s : State} {live : List Live} {heap : Heap}

/-- The invariant reads memory only at guarded bytes. -/
theorem Inv.transport (inv : Inv s live heap) {memory : Memory}
    (same : ∀ x, Guarded heap x → memory x = s.memory x) : Inv { s with memory := memory } live heap := by
  have agree : ∀ base width, (∀ x, base ≤ x → x < base + width → Guarded heap x) →
      memory.Agree s.memory base width := fun base width guarded x low high => same x (guarded x low high)
  refine { inv with larges := ?_, headers := ?_, chains := ?_ }
  · intro large member
    obtain ⟨positive, fits, aligned, header⟩ := inv.larges large member
    exact ⟨positive, fits, aligned, header.frame (agree _ _ fun x low high =>
      .large member low (by unfold Large.ptr headerSize; omega))⟩
  · intro block member
    exact (inv.headers block member).frame (agree _ _ fun x low high =>
      .header member low (by unfold Block.ptr headerSize; omega))
  · intro thread arena found sizeClass
    exact (inv.chains thread arena found sizeClass).frame fun p listed =>
      linkOf_agree (agree _ _ fun x low high => .link listed low high)

theorem Inv.apart_parts (inv : Inv s live heap) :
    (heap.larges.map Large.region).Pairwise Region.Apart ∧ (poolRegions s.nodePools).Pairwise Region.Apart ∧
      (∀ region ∈ heap.larges.map Large.region, ∀ other ∈ poolRegions s.nodePools, region.Apart other) := by
  have split := List.pairwise_append.mp (List.pairwise_append.mp inv.apart).1
  exact ⟨split.1, split.2.1, split.2.2⟩

/-- Two pools of different slots lie in different mappings. -/
theorem Inv.pools_apart (inv : Inv s live heap) {slot other : Fin 8} {pool otherPool : NodePool}
    (found : s.nodePools slot = some pool) (otherFound : s.nodePools other = some otherPool)
    (different : slot ≠ other) : pool.region.Apart otherPool.region := by
  have pairwise := List.pairwise_filterMap.mp inv.apart_parts.2.1
  exact pairwise.forall (by intro _ _ apart region inside other outside; exact (apart other outside region inside).symm)
    (List.mem_finRange slot) (List.mem_finRange other) different pool.region (by rw [found]; rfl)
    otherPool.region (by rw [otherFound]; rfl)

theorem Inv.larges_apart (inv : Inv s live heap) {large other : Large} (member : large ∈ heap.larges)
    (otherMember : other ∈ heap.larges) (different : large ≠ other) : large.region.Apart other.region :=
  (List.pairwise_map.mp inv.apart_parts.1).forall (by intro _ _ apart; exact apart.symm) member otherMember different

theorem Inv.large_apart_pool (inv : Inv s live heap) {large : Large} {slot : Fin 8} {pool : NodePool}
    (member : large ∈ heap.larges) (found : s.nodePools slot = some pool) : large.region.Apart pool.region :=
  inv.apart_parts.2.2 _ (List.mem_map_of_mem _ member) _ (NodePool.region_mem found)

/-- A carved block lies inside its pool's mapping. -/
theorem Inv.block_inside (inv : Inv s live heap) {block : Block} (member : block ∈ heap.blocks) :
    ∃ slot pool, s.nodePools slot = some pool ∧ pool.region.base ≤ block.base ∧ block.stop ≤ pool.region.stop := by
  obtain ⟨slot, pool, found, low, high⟩ := inv.carved block member
  have within := (inv.pools slot pool found).1
  have rounded := le_pageRound pool.totalSize
  exact ⟨slot, pool, found, low, by unfold NodePool.region Region.stop; dsimp only; omega⟩

theorem Inv.block_apart_large (inv : Inv s live heap) {block : Block} {large : Large}
    (member : block ∈ heap.blocks) (largeMember : large ∈ heap.larges) :
    block.stop ≤ large.base ∨ large.region.stop ≤ block.base := by
  obtain ⟨slot, pool, found, low, high⟩ := inv.block_inside member
  have apart := inv.large_apart_pool largeMember found
  unfold Region.Apart Large.region NodePool.region Region.stop at *
  dsimp only at *
  omega

theorem Inv.large_header_inside (inv : Inv s live heap) {large : Large} (member : large ∈ heap.larges) :
    large.ptr ≤ large.region.stop := by
  have positive := (inv.larges large member).1
  have rounded := pageSize_le_pageRound positive
  unfold Large.ptr Large.region Region.stop pageSize headerSize at *
  dsimp only
  omega

theorem Inv.block_ne_of_ptr (inv : Inv s live heap) {block other : Block} (member : block ∈ heap.blocks)
    (otherMember : other ∈ heap.blocks) (different : block.ptr ≠ other.ptr) : block.Apart other :=
  inv.blocksApart.forall (by intro _ _ apart; exact apart.symm) member otherMember fun same => different (same ▸ rfl)

/-- The bytes a held block's holder owns are none the invariant reads. -/
theorem Inv.owns_unguarded (inv : Inv s live heap) {p x : Nat} (owns : Owns heap p x)
    (unlisted : ∀ thread sizeClass, p ∉ heap.lists thread sizeClass) : ¬ Guarded heap x := by
  have classSize := sizeClassSizes_pos
  intro guarded
  cases owns with
  | small member found low high =>
    cases guarded with
    | header otherMember above below =>
      rename_i block other
      by_cases same : block.ptr = other.ptr
      · unfold Block.ptr at *
        omega
      · have apart := inv.block_ne_of_ptr member otherMember same
        unfold Block.Apart Block.stop Block.ptr at *
        omega
    | link listed above below =>
      rename_i block thread sizeClass q
      obtain ⟨other, otherMember, rfl, -⟩ := inv.listed thread sizeClass _ listed
      have different : block.ptr ≠ other.ptr := fun same => unlisted thread sizeClass (by rw [← found, same]; exact listed)
      have apart := inv.block_ne_of_ptr member otherMember different
      have roomy := classSize other.sizeClass
      unfold Block.Apart Block.stop Block.ptr at *
      omega
    | large largeMember above below =>
      have apart := inv.block_apart_large member largeMember
      have inside := inv.large_header_inside largeMember
      unfold Block.stop Large.ptr Block.ptr at *
      omega
  | large member found low high =>
    cases guarded with
    | header otherMember above below =>
      have apart := inv.block_apart_large otherMember member
      unfold Block.stop Block.ptr Large.ptr at *
      omega
    | link listed above below =>
      rename_i large thread sizeClass q
      obtain ⟨other, otherMember, rfl, -⟩ := inv.listed thread sizeClass _ listed
      have apart := inv.block_apart_large otherMember member
      have roomy := classSize other.sizeClass
      unfold Block.stop Block.ptr Large.ptr at *
      omega
    | large otherMember above below =>
      rename_i large other
      by_cases same : large = other
      · subst same
        omega
      · have apart := inv.larges_apart member otherMember same
        have inside := inv.large_header_inside otherMember
        unfold Region.Apart Large.region Large.ptr Region.stop at *
        dsimp only at *
        omega

/-- A write that changes only bytes a block's holder owns keeps the invariant. -/
theorem Inv.write_owned (inv : Inv s live heap) {p : Nat}
    (unlisted : ∀ thread sizeClass, p ∉ heap.lists thread sizeClass) {memory : Memory}
    (changed : ∀ x, memory x ≠ s.memory x → Owns heap p x) : Inv { s with memory := memory } live heap :=
  inv.transport fun x guarded => by_contra fun different => inv.owns_unguarded (changed x different) unlisted guarded

theorem Inv.guarded_occupied (inv : Inv s live heap) {x : Nat} (guarded : Guarded heap x) : Occupied heap x := by
  cases guarded with
  | header member low high =>
    exact .inl ⟨_, member, low, by unfold Block.stop; omega⟩
  | link listed low high =>
    rename_i thread sizeClass p
    obtain ⟨block, member, rfl, -⟩ := inv.listed thread sizeClass _ listed
    have roomy := sizeClassSizes_pos block.sizeClass
    exact .inl ⟨block, member, by unfold Block.ptr at low; omega, by unfold Block.stop; omega⟩
  | large member low high =>
    exact .inr ⟨_, member, low, lt_of_lt_of_le high (inv.large_header_inside member)⟩

theorem Inv.listed_occupied (inv : Inv s live heap) {thread : Nat} {sizeClass : Fin 8} {p : Nat}
    (listed : p ∈ heap.lists thread sizeClass) : Occupied heap p := by
  obtain ⟨block, member, rfl, -⟩ := inv.listed thread sizeClass p listed
  exact .inl ⟨block, member, by unfold Block.ptr; omega, by unfold Block.stop; have := sizeClassSizes_pos block.sizeClass; omega⟩

theorem Inv.owned_occupied (inv : Inv s live heap) {p : Nat}
    (owned : (∃ block ∈ heap.blocks, block.ptr = p) ∨ ∃ large ∈ heap.larges, large.ptr = p) : Occupied heap p := by
  rcases owned with ⟨block, member, rfl⟩ | ⟨large, member, rfl⟩
  · exact .inl ⟨block, member, by unfold Block.ptr; omega, by unfold Block.stop; have := sizeClassSizes_pos block.sizeClass; omega⟩
  · have positive := (inv.larges large member).1
    have rounded := pageSize_le_pageRound positive
    exact .inr ⟨large, member, by unfold Large.ptr; omega,
      by unfold Large.ptr Large.region Region.stop pageSize headerSize at *; dsimp only; omega⟩

/-- A block whose bytes nothing in the heap occupies is apart from every carved block. -/
theorem Block.apart_of_unoccupied {heap : Heap} {block other : Block}
    (fresh : ∀ x, block.base ≤ x → x < block.stop → ¬ Occupied heap x) (member : other ∈ heap.blocks) :
    block.Apart other := by
  have classSize := sizeClassSizes_pos block.sizeClass
  have otherSize := sizeClassSizes_pos other.sizeClass
  by_contra overlapping
  unfold Block.Apart at overlapping
  exact fresh (max block.base other.base) (le_max_left _ _) (by unfold Block.stop Block.ptr at *; omega)
    (.inl ⟨other, member, le_max_right _ _, by unfold Block.stop Block.ptr at *; omega⟩)

/-- Nothing the heap accounts for lies in a mapping apart from every live mapping. -/
theorem Inv.not_occupied_of_apart (inv : Inv s live heap) {region : Region}
    (apart : ∀ other ∈ s.regions, other.Apart region) {x : Nat} (inside : region.base ≤ x ∧ x < region.stop) :
    ¬ Occupied heap x := by
  rintro (⟨block, member, low, high⟩ | ⟨large, member, low, high⟩)
  · obtain ⟨slot, pool, found, poolLow, poolHigh⟩ := inv.block_inside member
    have separate := apart _ (inv.regions.mem_iff.mpr (List.mem_append_left _ (List.mem_append_right _
      (NodePool.region_mem found))))
    unfold Region.Apart at separate
    omega
  · have separate := apart _ (inv.regions.mem_iff.mpr (List.mem_append_left _ (List.mem_append_left _
      (List.mem_map_of_mem _ member))))
    unfold Region.Apart Large.region Region.stop at *
    dsimp only at *
    omega

/-- Nothing the heap accounts for lies above a pool's watermark. -/
theorem Inv.not_occupied_above (inv : Inv s live heap) {slot : Fin 8} {pool : NodePool}
    (found : s.nodePools slot = some pool) {x : Nat} (above : pool.baseAddr + pool.used ≤ x)
    (below : x < pool.baseAddr + pool.totalSize) : ¬ Occupied heap x := by
  have rounded := le_pageRound pool.totalSize
  rintro (⟨block, member, low, high⟩ | ⟨large, member, low, high⟩)
  · obtain ⟨other, otherPool, otherFound, carvedLow, carvedHigh⟩ := inv.carved block member
    by_cases same : other = slot
    · subst same
      rw [found] at otherFound
      cases otherFound
      omega
    · have apart := inv.pools_apart otherFound found same
      have used := (inv.pools other otherPool otherFound).1
      have otherRounded := le_pageRound otherPool.totalSize
      unfold Region.Apart NodePool.region Region.stop at apart
      dsimp only at apart
      omega
  · have apart := inv.large_apart_pool member found
    unfold Region.Apart NodePool.region Large.region Region.stop at *
    dsimp only at *
    omega

/-- No byte is owned through two different live blocks. -/
theorem Inv.owns_unique (inv : Inv s live heap) {p q x : Nat} (owns : Owns heap p x) (owns' : Owns heap q x) :
    p = q := by
  cases owns with
  | small member found low high =>
    cases owns' with
    | small otherMember otherFound otherLow otherHigh =>
      rename_i block other
      by_contra different
      have apart := inv.block_ne_of_ptr member otherMember (by rw [found, otherFound]; exact different)
      unfold Block.Apart Block.stop Block.ptr at *
      omega
    | large otherMember otherFound otherLow otherHigh =>
      have apart := inv.block_apart_large member otherMember
      unfold Block.stop Block.ptr Large.ptr at *
      omega
  | large member found low high =>
    cases owns' with
    | small otherMember otherFound otherLow otherHigh =>
      have apart := inv.block_apart_large otherMember member
      unfold Block.stop Block.ptr Large.ptr at *
      omega
    | large otherMember otherFound otherLow otherHigh =>
      rename_i large other
      by_cases same : large = other
      · subst same
        rw [← found, otherFound]
      · have apart := inv.larges_apart member otherMember same
        unfold Region.Apart Large.region Large.ptr Region.stop at *
        dsimp only at *
        omega

/-- `[p, p + cap(p))` is owned through `p`, for every block the heap accounts for. -/
theorem Inv.capacity_owns (inv : Inv s live heap) {p : Nat}
    (owned : (∃ block ∈ heap.blocks, block.ptr = p) ∨ ∃ large ∈ heap.larges, large.ptr = p) {x : Nat}
    (low : p ≤ x) (high : x < p + capacity s.memory p) : Owns heap p x := by
  rcases owned with ⟨block, member, rfl⟩ | ⟨large, member, rfl⟩
  · rw [Block.ptr, capacity_of_header (inv.headers block member)] at high
    exact .small member rfl low (by unfold Block.stop Block.ptr; omega)
  · obtain ⟨-, -, -, header⟩ := inv.larges large member
    have rounded := le_pageRound large.size
    rw [Large.ptr, capacity_of_large_header header] at high
    exact .large member rfl low (by unfold Large.region Region.stop Large.ptr at *; dsimp only; omega)

/-- A change inside bytes owned through a block on no free list keeps the invariant. -/
theorem Inv.write_range (inv : Inv s live heap) {p : Nat}
    (unlisted : ∀ thread sizeClass, p ∉ heap.lists thread sizeClass) {memory : Memory} {address length : Nat}
    (outside : ∀ x, x < address ∨ address + length ≤ x → memory x = s.memory x)
    (owns : ∀ x, address ≤ x → x < address + length → Owns heap p x) : Inv { s with memory := memory } live heap :=
  inv.write_owned unlisted fun x changed => owns x
    (by by_contra below; exact changed (outside x (by omega)))
    (by by_contra above; exact changed (outside x (by omega)))

/-- An access the mappings allow from a large block's address stays in the block's mapping. -/
theorem Inv.large_access_owns (inv : Inv s live heap) {large : Large} (member : large ∈ heap.larges)
    {length : Nat} (reach : accessible s.regions large.ptr length) {x : Nat} (low : large.ptr ≤ x)
    (high : x < large.ptr + length) : Owns heap large.ptr x := by
  obtain ⟨region, mapped, holds⟩ := accessible_iff.mp reach
  have inside := inv.large_header_inside member
  have positive := (inv.larges large member).1
  have rounded := pageSize_le_pageRound positive
  have same : region = large.region := by
    by_contra different
    have apart := inv.apart.forall (by intro _ _ apart; exact apart.symm) (inv.regions.mem_iff.mp mapped)
      (List.mem_append_left _ (List.mem_append_left _ (List.mem_map_of_mem _ member))) different
    unfold Region.Holds at holds
    unfold Region.Apart Large.region Large.ptr Region.stop pageSize headerSize at *
    dsimp only at *
    omega
  subst same
  unfold Region.Holds at holds
  exact .large member rfl low (by omega)

end Invariant

end MemoryAllocator.Numa
