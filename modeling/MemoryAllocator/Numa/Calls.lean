import MemoryAllocator.Numa.Alloc

namespace MemoryAllocator.Numa

/-- The blocks a refill carved between two states, from where each pool's watermark rose, last carved first. -/
def carvedBetween (s s' : State) : List Nat :=
  (List.finRange 8).flatMap fun slot =>
    match s.nodePools slot, s'.nodePools slot with
    | some pool, some advanced =>
      if pool.used < advanced.used then
        carveList (pool.baseAddr + pool.used) ((advanced.used - pool.used) / refillBatchSize - headerSize)
          refillBatchSize
      else []
    | _, _ => []

/-- The clients' blocks after a call that returned `p` to `thread`: `NULL` adds nothing. -/
def allocated (thread p : Nat) (live : List Live) : List Live :=
  if p = 0 then live else ⟨thread, p⟩ :: live

theorem carvedBetween_of_pools {s s' : State} (same : s'.nodePools = s.nodePools) : carvedBetween s s' = [] := by
  unfold carvedBetween
  rw [same, List.flatMap_eq_nil_iff]
  intro slot _
  split
  · rename_i pool advanced found found'
    rw [found] at found'
    cases found'
    simp
  · rfl

theorem flatMap_at {f : Fin 8 → List Nat} {slot : Fin 8} (others : ∀ other, other ≠ slot → f other = []) :
    ∀ {slots : List (Fin 8)}, slots.Nodup → slot ∈ slots → slots.flatMap f = f slot
  | [], _, member => absurd member (List.not_mem_nil _)
  | other :: rest, nodup, member => by
    rw [List.flatMap_cons]
    by_cases here : other = slot
    · subst here
      rw [List.flatMap_eq_nil_iff.mpr fun later inRest =>
        others later fun same => (List.nodup_cons.mp nodup).1 (same ▸ inRest), List.append_nil]
    · rw [others other here, List.nil_append,
        flatMap_at others (List.nodup_cons.mp nodup).2 ((List.mem_cons.mp member).resolve_left (Ne.symm here))]

/-- A refill raises one pool's watermark by a batch: the blocks carved are the batch's. -/
theorem carvedBetween_refill {s s' : State} {slot : Fin 8} {pool : NodePool} {sizeClass : Fin 8}
    (found : s.nodePools slot = some pool)
    (after : s'.nodePools = Function.update s.nodePools slot (some { pool with used := pool.used + batchBytes sizeClass })) :
    carvedBetween s s' = carveList (pool.baseAddr + pool.used) (sizeClassSizes sizeClass) refillBatchSize := by
  unfold carvedBetween
  rw [flatMap_at ?_ (List.nodup_finRange 8) (List.mem_finRange slot)]
  · rw [found, after, Function.update_same]
    have stride : (pool.used + batchBytes sizeClass - pool.used) / refillBatchSize - headerSize =
        sizeClassSizes sizeClass := by
      rw [Nat.add_sub_cancel_left, batchBytes, Nat.mul_div_cancel _ (by decide), Nat.add_sub_cancel]
    have rises : pool.used < pool.used + batchBytes sizeClass := by
      have := sizeClassSizes_pos sizeClass
      unfold batchBytes refillBatchSize
      omega
    simp only [rises, if_true, stride]
  · intro other different
    rw [after, Function.update_noteq different]
    split
    · rename_i pool advanced found found'
      rw [found] at found'
      cases found'
      simp
    · rfl

theorem carvedBetween_congr {s s₁ s' : State} (same : s₁.nodePools = s.nodePools) :
    carvedBetween s₁ s' = carvedBetween s s' := by
  unfold carvedBetween
  rw [same]

theorem carvedBetween_congr_right {s s' s₂ : State} (same : s₂.nodePools = s'.nodePools) :
    carvedBetween s s₂ = carvedBetween s s' := by
  unfold carvedBetween
  rw [same]

theorem Settled.congr {s s' : State} {live : List Live} {heap : Heap} (settled : Settled s live heap)
    (same : s'.arenas = s.arenas) : Settled s' live heap := by
  obtain ⟨conserved, homeLive, homeListed⟩ := settled
  exact ⟨conserved, by rw [same]; exact homeLive, by rw [same]; exact homeListed⟩

variable {s : State} {live : List Live} {heap : Heap}

/-- What an allocation call leaves: the invariant, its carved blocks, and the block it handed out. -/
structure Allocated (s s' : State) (live : List Live) (heap : Heap) (thread size p : Nat) (heap' : Heap) :
    Prop where
  inv : Inv s' (allocated thread p live) heap'
  carved : ∃ fresh, heap'.blocks = fresh ++ heap.blocks ∧ fresh.map Block.ptr = carvedBetween s s'
  shape : p ≠ 0 → (∃ block ∈ heap'.blocks, block.ptr = p ∧ getSizeClass size = some block.sizeClass) ∨
    ∃ large ∈ heap'.larges, large.ptr = p ∧ getSizeClass size = none
  settled : Settled s live heap → Settled s' (allocated thread p live) heap'

/-- A call that hands out nothing and changes nothing. -/
theorem Inv.allocatedNothing (inv : Inv s live heap) (thread size : Nat) :
    Allocated s s live heap thread size 0 heap :=
  ⟨by simpa [allocated] using inv, ⟨[], rfl, (carvedBetween_of_pools rfl).symm⟩, fun nonzero => absurd rfl nonzero,
    fun settled => by simpa [allocated] using settled⟩

/-- Counting a success in the arena's `stats_allocs` changes nothing the heap depends on. -/
theorem Allocated.count {s' : State} {thread size p : Nat} {heap' : Heap} {counted : ThreadArena}
    {statsAllocs : Nat} (done : Allocated s s' live heap thread size p heap')
    (found : s'.arenas thread = some counted) :
    Allocated s (s'.setArena thread { counted with statsAllocs := statsAllocs }) live heap thread size p heap' := by
  obtain ⟨inv, carved, shape, settled⟩ := done
  refine ⟨inv.setArena fun sizeClass => inv.chains thread counted found sizeClass, ?_, shape,
    fun before => (settled before).setArena _ _ fun old found' => ?_⟩
  · rw [carvedBetween_congr_right
      (show (s'.setArena thread { counted with statsAllocs := statsAllocs }).nodePools = s'.nodePools from rfl)]
    exact carved
  · rw [found] at found'
    cases found'
    rfl

theorem Inv.pool_fits (inv : Inv s live heap) {slot : Fin 8} {pool : NodePool}
    (found : s.nodePools slot = some pool) : pool.Fits := by
  have mapped := (inv.pools slot pool found).2
  have rounded := le_pageRound pool.totalSize
  have largest : batchBytes 7 = 132096 := rfl
  unfold NodePool.Fits userSpaceTop sizeBound at *
  omega

/-- A refill takes `batchBytes` from the pool, hands out the carved head and lists the rest. -/
theorem Inv.slowPathAlloc_refill (inv : Inv s live heap) {thread : Nat} {arena : ThreadArena} {size r : Nat}
    {sizeClass : Fin 8} {env : Env} {s' : State} (found : s.arenas thread = some arena)
    (h : slowPathAlloc thread arena size (some sizeClass) env s = .ok (r, s')) :
    (r = 0 ∧ s' = s) ∨ ∃ slot pool, s.nodePools slot = some pool ∧ pool.used + batchBytes sizeClass ≤ pool.totalSize ∧
      r = carveHead (pool.baseAddr + pool.used) (sizeClassSizes sizeClass) refillBatchSize ∧
      s' = { s with
        nodePools := Function.update s.nodePools slot (some { pool with used := pool.used + batchBytes sizeClass })
        memory := carveMemory (pool.baseAddr + pool.used) (sizeClassSizes sizeClass) sizeClass arena.numaNode
          s.memory refillBatchSize
        arenas := Function.update s.arenas thread (some { arena with
          freeLists := Function.update arena.freeLists sizeClass
            ((carveMemory (pool.baseAddr + pool.used) (sizeClassSizes sizeClass) sizeClass arena.numaNode
              s.memory refillBatchSize).load r 8) }) } := by
  rcases slowPathAlloc_small_cases found h with ⟨rfl, rfl⟩ |
    ⟨slot, pool, used, advanced, memory, -, poolFound, reserved, loop, -, rfl⟩
  · exact .inl ⟨rfl, rfl⟩
  rcases reserveBatch_cases (inv.pool_fits poolFound) (inv.pools slot pool poolFound).1 sizeClass with
    ⟨refused, -⟩ | ⟨granted, fits⟩
  · rw [refused] at reserved
    cases reserved
  rw [granted] at reserved
  simp only [Prod.mk.injEq, Option.some.injEq] at reserved
  obtain ⟨rfl, rfl⟩ := reserved
  have rounded := le_pageRound pool.totalSize
  have batch : refillBatchSize * (sizeClassSizes sizeClass + headerSize) = batchBytes sizeClass :=
    Nat.mul_comm _ _
  have poolMapped : pool.region ∈ s.regions :=
    inv.regions.mem_iff.mpr (List.mem_append_left _ (List.mem_append_right _ (NodePool.region_mem poolFound)))
  have ran := carveLoop_ok (pool.baseAddr + pool.used) (sizeClassSizes sizeClass) sizeClass arena.numaNode
    (show pool.region ∈ (s.setNodePool slot (some { pool with used := pool.used + batchBytes sizeClass })).regions
      from poolMapped)
    (sizeClassSizes_pos sizeClass) refillBatchSize (by unfold NodePool.region; dsimp only; omega)
    (by unfold NodePool.region Region.stop; dsimp only; omega)
  rw [ran] at loop
  simp only [Except.ok.injEq, Prod.mk.injEq] at loop
  obtain ⟨rfl, sameState⟩ := loop
  obtain rfl : memory = carveMemory (pool.baseAddr + pool.used) (sizeClassSizes sizeClass) sizeClass
      arena.numaNode s.memory refillBatchSize := (congrArg State.memory sameState).symm
  exact .inr ⟨slot, pool, poolFound, fits, rfl, rfl⟩

/-- `slow_path_alloc` on an empty class: a large mapping, or a refill from the node's pool. -/
theorem Inv.slowPathAlloc (inv : Inv s live heap) {thread : Nat} {arena : ThreadArena} {size r : Nat}
    {env : Env} {s' : State} (found : s.arenas thread = some arena)
    (nothingCached : ∀ sizeClass, getSizeClass size = some sizeClass → arena.freeLists sizeClass = 0)
    (h : slowPathAlloc thread arena size (getSizeClass size) env s = .ok (r, s')) :
    ∃ heap', Allocated s s' live heap thread size r heap' := by
  rcases classFound : getSizeClass size with _ | sizeClass
  · rw [classFound] at h
    rcases allocateLargeBlock_cases h with ⟨rfl, rfl⟩ | ⟨ptr, rfl, fresh, rfl⟩
    · exact ⟨heap, inv.allocatedNothing thread size⟩
    have nonzero : ptr + headerSize ≠ 0 := by
      unfold headerSize
      omega
    refine ⟨{ heap with larges := ⟨ptr, largeBlockSize size, arena.numaNode⟩ :: heap.larges }, ?_,
      ⟨[], rfl, (carvedBetween_of_pools rfl).symm⟩, fun _ => .inr ⟨_, List.mem_cons_self _ _, rfl, classFound⟩, ?_⟩
    · simp only [allocated, nonzero, if_false]
      exact inv.mapLarge fresh (largeBlockSize_lt size) (by rw [found]; exact Option.some_ne_none _)
    · intro settled
      simp only [allocated, nonzero, if_false]
      exact settled.mapLarge inv fresh
  rw [classFound] at h
  rcases inv.slowPathAlloc_refill found h with ⟨rfl, rfl⟩ | ⟨slot, pool, poolFound, fits, rfl, rfl⟩
  · exact ⟨heap, inv.allocatedNothing thread size⟩
  have rounded := le_pageRound pool.totalSize
  have batch : refillBatchSize * (sizeClassSizes sizeClass + headerSize) = batchBytes sizeClass :=
    Nat.mul_comm _ _
  have empty : heap.lists thread sizeClass = [] := by
    have chain := inv.chains thread arena found sizeClass
    rw [nothingCached sizeClass classFound] at chain
    exact chain.eq_nil
  have fresh : ∀ x, pool.baseAddr + pool.used ≤ x →
      x < pool.baseAddr + pool.used + refillBatchSize * (sizeClassSizes sizeClass + headerSize) →
        ¬ Occupied heap x :=
    fun x low high => inv.not_occupied_above poolFound low (by omega)
  have carved : Inv { s with memory := (carveMemory (pool.baseAddr + pool.used) (sizeClassSizes sizeClass)
      sizeClass arena.numaNode s.memory refillBatchSize) } live heap := inv.carve poolFound fits
  have advanced : Inv { s with
      memory := (carveMemory (pool.baseAddr + pool.used) (sizeClassSizes sizeClass) sizeClass arena.numaNode
        s.memory refillBatchSize)
      nodePools := (Function.update s.nodePools slot
        (some { pool with used := pool.used + batchBytes sizeClass })) } live heap :=
    carved.advance poolFound (by omega) fits
  have nonzero : carveHead (pool.baseAddr + pool.used) (sizeClassSizes sizeClass) refillBatchSize ≠ 0 := by
    simp [carveHead, refillBatchSize, headerSize]
  refine ⟨heap.refill thread (pool.baseAddr + pool.used) sizeClass arena.numaNode, ?_,
    ⟨_, rfl, by rw [carveBlocks_ptr, carvedBetween_refill poolFound rfl]⟩,
    fun _ => .inl ⟨_, List.mem_append_left _ (List.mem_cons_self _ _), rfl, classFound⟩, fun settled => ?_⟩
  · simp only [allocated, nonzero, if_false]
    exact advanced.install found empty (Function.update_same _ _ _) (Nat.le_add_right _ _) (by dsimp only; omega)
      fresh rfl
  · simp only [allocated, nonzero, if_false]
    exact (settled.install inv found empty fresh).congr rfl

/-- `numalloc` keeps the invariant. -/
theorem Inv.numalloc (inv : Inv s live heap) {thread : Nat} {env : Env} {size p : Nat} {s' : State}
    (h : numalloc thread env size s = .ok (p, s')) : ∃ heap', Allocated s s' live heap thread size p heap' := by
  rcases numalloc_cases h with ⟨rfl, rfl⟩ | ⟨arena, s₁, -, -, arenaGot, fast | slow⟩
  · exact ⟨heap, inv.allocatedNothing thread size⟩
  all_goals obtain ⟨inv₁, found, -, -, pools, settled₁⟩ := inv.getOrCreateArena arenaGot
  · obtain ⟨sizeClass, sized, cached, -, rfl, rfl⟩ := fast
    have listed : arena.freeLists sizeClass ∈ heap.lists thread sizeClass := by
      obtain ⟨rest, listEq, -⟩ := (inv₁.chains thread arena found sizeClass).of_ne_zero cached
      rw [listEq]
      exact List.mem_cons_self _ _
    obtain ⟨block, owner, same, blockClass⟩ := inv₁.listed thread sizeClass _ listed
    refine ⟨heap.setList thread sizeClass (heap.lists thread sizeClass).tail, ?_,
      ⟨[], rfl, (carvedBetween_of_pools pools).symm⟩,
      fun _ => .inl ⟨block, owner, same, by rw [blockClass]; exact sized⟩, fun settled => ?_⟩
    · simp only [allocated, cached, if_false]
      exact inv₁.pop found cached
    · simp only [allocated, cached, if_false]
      exact (settled₁ settled).pop found cached (inv₁.chains thread arena found sizeClass)
  · obtain ⟨s₂, nothingCached, slowRun, after⟩ := slow
    obtain ⟨heap', done⟩ := inv₁.slowPathAlloc found nothingCached slowRun
    have fromStart : Allocated s s₂ live heap thread size p heap' :=
      ⟨done.inv, by rw [← carvedBetween_congr pools]; exact done.carved, done.shape,
        fun settled => done.settled (settled₁ settled)⟩
    rcases after with ⟨-, rfl⟩ | ⟨-, ⟨counted, countedFound, rfl⟩ | ⟨-, rfl⟩⟩
    · exact ⟨heap', fromStart⟩
    · exact ⟨heap', fromStart.count countedFound⟩
    · exact ⟨heap', fromStart⟩

/-- The first `length ≤ size` bytes of a handed-out block are its holder's, where mapped. -/
theorem Allocated.owns {s' : State} {thread size p : Nat} {heap' : Heap}
    (done : Allocated s s' live heap thread size p heap') (nonzero : p ≠ 0) {length : Nat} (bounded : length ≤ size)
    (reach : accessible s'.regions p length) {x : Nat} (low : p ≤ x) (high : x < p + length) : Owns heap' p x := by
  rcases done.shape nonzero with ⟨block, member, rfl, sized⟩ | ⟨large, member, rfl, -⟩
  · have fits := (getSizeClass_eq_some sized).1
    exact .small member rfl low (by unfold Block.stop; omega)
  · exact done.inv.large_access_owns member reach low high

theorem Allocated.unlisted {s' : State} {thread size p : Nat} {heap' : Heap}
    (done : Allocated s s' live heap thread size p heap') (nonzero : p ≠ 0) :
    ∀ other sizeClass, p ∉ heap'.lists other sizeClass :=
  done.inv.liveUnlisted ⟨thread, p⟩ (by simp [allocated, nonzero])

/-- `numalloc_calloc` keeps the invariant: its `memset` stays inside the block `numalloc` handed out. -/
theorem Inv.numallocCalloc (inv : Inv s live heap) {thread : Nat} {env : Env} {num size p : Nat} {s' : State}
    (h : numallocCalloc thread env num size s = .ok (p, s')) :
    ∃ heap', Allocated s s' live heap thread (sizeMul num size) p heap' := by
  rcases numallocCalloc_cases h with ⟨rfl, rfl⟩ | ⟨s₁, -, -, -, allocation, ⟨rfl, rfl⟩ | ⟨nonzero, reach, rfl⟩⟩
  · exact ⟨heap, inv.allocatedNothing thread _⟩
  · exact inv.numalloc allocation
  · obtain ⟨heap', done⟩ := inv.numalloc allocation
    exact ⟨heap', done.inv.write_range (done.unlisted nonzero) (fun x outside => Memory.fill_outside outside)
        (fun x low high => done.owns nonzero le_rfl reach low high),
      by rw [carvedBetween_congr_right (show ({ s₁ with memory := s₁.memory.fill p (sizeMul num size) 0 } :
        State).nodePools = s₁.nodePools from rfl)]; exact done.carved,
      done.shape, fun settled => (done.settled settled).congr rfl⟩

/-- A client's write inside `[p, p + cap(p))` of a block it holds keeps the invariant. -/
theorem Inv.write (inv : Inv s live heap) {x : Live} (member : x ∈ live) {address length : Nat}
    {data : Nat → Nat} {s' : State} (low : x.ptr ≤ address)
    (high : address + length ≤ x.ptr + capacity s.memory x.ptr) (h : write address length data s = .ok ((), s')) :
    Inv s' live heap ∧ s'.arenas = s.arenas ∧ s'.nodePools = s.nodePools := by
  obtain ⟨-, rfl⟩ := write_ok.mp h
  exact ⟨inv.write_range (inv.liveUnlisted x member) (fun y outside => Memory.write_outside outside)
    fun y above below => inv.capacity_owns (inv.liveOwned x member) (by omega) (by omega), rfl, rfl⟩

end MemoryAllocator.Numa
