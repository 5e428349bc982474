import MemoryAllocator.Numa.Heap

namespace MemoryAllocator.Numa

variable {s : State} {live : List Live} {heap : Heap}

/-- `get_or_create_arena` hands out the thread's arena, or a new one with empty free lists. -/
theorem getOrCreateArena_some {thread : Nat} {env : Env} {arena : ThreadArena} {s' : State}
    (h : getOrCreateArena thread env s = .ok (some arena, s')) :
    s' = { s with arenas := Function.update s.arenas thread (some arena) } ∧
      (s.arenas thread = some arena ∨ (s.arenas thread = none ∧ arena.freeLists = fun _ => 0)) := by
  rcases getOrCreateArena_ok.mp h with ⟨kept, found, same, rfl⟩ | ⟨created, absent, made, same, rfl⟩ |
    ⟨_, _, ⟨⟩, _⟩
  · cases same
    refine ⟨?_, .inl found⟩
    rw [← found, Function.update_eq_self]
  · cases same
    refine ⟨rfl, .inr ⟨absent, ?_⟩⟩
    unfold createArena at made
    split at made
    · cases made
      rfl
    · cases made

/-- Installing an arena whose free lists are the heap's keeps the invariant. -/
theorem Inv.setArena (inv : Inv s live heap) {thread : Nat} {arena : ThreadArena}
    (lists : ∀ sizeClass, Chain (linkOf s.memory) (arena.freeLists sizeClass) (heap.lists thread sizeClass)) :
    Inv { s with arenas := Function.update s.arenas thread (some arena) } live heap := by
  refine { inv with chains := ?_, unused := ?_, liveArena := ?_ }
  · intro other installed found sizeClass
    by_cases same : other = thread
    · subst same
      simp only [Function.update_same, Option.some.injEq] at found
      subst found
      exact lists sizeClass
    · simp only [Function.update_noteq same] at found
      exact inv.chains other installed found sizeClass
  · intro other absent
    by_cases same : other = thread
    · subst same
      simp at absent
    · exact inv.unused other (by simpa [Function.update_noteq same] using absent)
  · intro x member
    by_cases same : x.thread = thread
    · show Function.update s.arenas thread (some arena) x.thread ≠ none
      rw [same]
      simp
    · simpa [Function.update_noteq same] using inv.liveArena x member

theorem Settled.setArena (settled : Settled s live heap) (thread : Nat)
    (arena : ThreadArena) (node : ∀ old, s.arenas thread = some old → arena.numaNode = old.numaNode) :
    Settled { s with arenas := Function.update s.arenas thread (some arena) } live heap := by
  refine { settled with homeLive := ?_, homeListed := ?_ }
  · intro x member block owner same
    obtain ⟨old, found, home⟩ := settled.homeLive x member block owner same
    by_cases here : x.thread = thread
    · rw [here] at found ⊢
      exact ⟨arena, by simp, home.trans (node old found).symm⟩
    · exact ⟨old, by simpa [Function.update_noteq here] using found, home⟩
  · intro other sizeClass p listed block owner same
    obtain ⟨old, found, home⟩ := settled.homeListed other sizeClass p listed block owner same
    by_cases here : other = thread
    · subst here
      exact ⟨arena, by simp, home.trans (node old found).symm⟩
    · exact ⟨old, by simpa [Function.update_noteq here] using found, home⟩

/-- `get_or_create_arena` keeps the invariant, and what holds when blocks go back to their threads. -/
theorem Inv.getOrCreateArena (inv : Inv s live heap) {thread : Nat} {env : Env} {arena : ThreadArena}
    {s' : State} (h : getOrCreateArena thread env s = .ok (some arena, s')) :
    Inv s' live heap ∧ s'.arenas thread = some arena ∧ s'.memory = s.memory ∧ s'.regions = s.regions ∧
      s'.nodePools = s.nodePools ∧ (Settled s live heap → Settled s' live heap) := by
  obtain ⟨rfl, kept | ⟨absent, empty⟩⟩ := getOrCreateArena_some h
  · refine ⟨inv.setArena fun sizeClass => inv.chains thread arena kept sizeClass, by simp, rfl, rfl, rfl,
      fun settled => settled.setArena _ _ fun old found => ?_⟩
    rw [kept] at found
    cases found
    rfl
  · refine ⟨inv.setArena fun sizeClass => ?_, by simp, rfl, rfl, rfl,
      fun settled => settled.setArena _ _ fun old found => by rw [absent] at found; cases found⟩
    rw [empty, inv.unused thread absent sizeClass]
    exact .null

/-- A free list whose head goes to the client: what is left of it is still a list. -/
theorem Heap.setList_tail_sublist (heap : Heap) {thread : Nat} {sizeClass : Fin 8} (other : Nat)
    (otherClass : Fin 8) :
    List.Sublist ((heap.setList thread sizeClass (heap.lists thread sizeClass).tail).lists other otherClass)
      (heap.lists other otherClass) := by
  rw [Heap.setList_lists]
  split_ifs with same
  · obtain ⟨rfl, rfl⟩ := same
    exact List.tail_sublist _
  · exact List.Sublist.refl _

/-- The fast path of `numalloc`: the class's head goes to the client and its link becomes the head. -/
theorem Inv.pop (inv : Inv s live heap) {thread : Nat} {arena : ThreadArena} {sizeClass : Fin 8}
    {statsAllocs : Nat} (found : s.arenas thread = some arena) (cached : arena.freeLists sizeClass ≠ 0) :
    Inv { s with arenas := Function.update s.arenas thread (some { arena with
          freeLists := Function.update arena.freeLists sizeClass (s.memory.load (arena.freeLists sizeClass) 8)
          statsAllocs := statsAllocs }) }
      (⟨thread, arena.freeLists sizeClass⟩ :: live)
      (heap.setList thread sizeClass (heap.lists thread sizeClass).tail) := by
  obtain ⟨rest, listed, next⟩ := (inv.chains thread arena found sizeClass).of_ne_zero cached
  have sublist := @Heap.setList_tail_sublist heap thread sizeClass
  have wasListed : arena.freeLists sizeClass ∈ heap.lists thread sizeClass := by
    rw [listed]
    exact List.mem_cons_self _ _
  have headGone : ∀ other otherClass,
      arena.freeLists sizeClass ∉ (heap.setList thread sizeClass (heap.lists thread sizeClass).tail).lists
        other otherClass := by
    intro other otherClass member
    rw [Heap.setList_lists] at member
    split_ifs at member with same
    · have fresh := inv.nodup thread sizeClass
      rw [listed] at fresh member
      exact (List.nodup_cons.mp fresh).1 member
    · obtain ⟨rfl, rfl⟩ := inv.disjoint _ _ _ _ _ member wasListed
      exact same ⟨rfl, rfl⟩
  refine { inv with
    chains := ?_
    unused := ?_
    listed := ?_
    nodup := ?_
    disjoint := ?_
    liveNodup := ?_
    liveOwned := ?_
    liveUnlisted := ?_
    liveArena := ?_ }
  · intro other popped foundOther otherClass
    rw [Heap.setList_lists]
    by_cases same : other = thread
    · subst same
      simp only [Function.update_same, Option.some.injEq] at foundOther
      subst foundOther
      by_cases sameClass : otherClass = sizeClass
      · subst sameClass
        simpa [listed] using next
      · simpa [sameClass] using inv.chains _ _ found otherClass
    · simp only [Function.update_noteq same] at foundOther
      simpa [same] using inv.chains other popped foundOther otherClass
  · intro other absent
    by_cases same : other = thread
    · subst same
      simp at absent
    · simpa [same] using inv.unused other (by simpa [Function.update_noteq same] using absent)
  · exact fun other otherClass p member => inv.listed other otherClass p ((sublist other otherClass).subset member)
  · exact fun other otherClass => (inv.nodup other otherClass).sublist (sublist other otherClass)
  · exact fun other otherClass third thirdClass p member thirdMember =>
      inv.disjoint other otherClass third thirdClass p ((sublist other otherClass).subset member)
        ((sublist third thirdClass).subset thirdMember)
  · refine List.nodup_cons.mpr ⟨fun member => ?_, inv.liveNodup⟩
    obtain ⟨x, xLive, same⟩ := List.mem_map.mp member
    exact inv.liveUnlisted x xLive thread sizeClass (same ▸ wasListed)
  · rintro x (_ | ⟨_, member⟩)
    · obtain ⟨block, owner, same, -⟩ := inv.listed thread sizeClass _ wasListed
      exact .inl ⟨block, owner, same⟩
    · exact inv.liveOwned x member
  · rintro x (_ | ⟨_, member⟩) other otherClass
    · exact headGone other otherClass
    · exact fun listedNow => inv.liveUnlisted x member other otherClass ((sublist other otherClass).subset listedNow)
  · rintro x (_ | ⟨_, member⟩)
    · simp
    · by_cases same : x.thread = thread
      · show Function.update s.arenas thread _ x.thread ≠ none
        rw [same]
        simp
      · simpa [Function.update_noteq same] using inv.liveArena x member

theorem Settled.pop (settled : Settled s live heap) {thread : Nat} {arena : ThreadArena} {sizeClass : Fin 8}
    {statsAllocs : Nat} (found : s.arenas thread = some arena) (cached : arena.freeLists sizeClass ≠ 0)
    (chain : Chain (linkOf s.memory) (arena.freeLists sizeClass) (heap.lists thread sizeClass)) :
    Settled { s with arenas := Function.update s.arenas thread (some { arena with
          freeLists := Function.update arena.freeLists sizeClass (s.memory.load (arena.freeLists sizeClass) 8)
          statsAllocs := statsAllocs }) }
      (⟨thread, arena.freeLists sizeClass⟩ :: live)
      (heap.setList thread sizeClass (heap.lists thread sizeClass).tail) := by
  obtain ⟨rest, listed, -⟩ := chain.of_ne_zero cached
  have moved := settled.setArena thread { arena with
      freeLists := Function.update arena.freeLists sizeClass (s.memory.load (arena.freeLists sizeClass) 8)
      statsAllocs := statsAllocs } fun old found' => by rw [found] at found'; cases found'; rfl
  refine ⟨fun block member => ?_, ?_, ?_⟩
  · rcases settled.conserved block member with held | ⟨other, otherClass, onList⟩
    · exact .inl (List.mem_cons_of_mem _ held)
    · by_cases here : other = thread ∧ otherClass = sizeClass
      · obtain ⟨rfl, rfl⟩ := here
        rw [listed] at onList
        rcases List.mem_cons.mp onList with head | later
        · exact .inl (List.mem_cons.mpr (.inl head))
        · exact .inr ⟨other, otherClass, by simp [listed, later]⟩
      · exact .inr ⟨other, otherClass, by rw [Heap.setList_lists, if_neg here]; exact onList⟩
  · rintro x (_ | ⟨_, member⟩) block owner same
    · obtain ⟨old, found', home⟩ := settled.homeListed thread sizeClass _ (by rw [listed]; exact List.mem_cons_self _ _)
        block owner same
      rw [found] at found'
      cases found'
      exact ⟨_, Function.update_same _ _ _, home⟩
    · exact moved.homeLive x member block owner same
  · intro other otherClass p onList block owner same
    exact moved.homeListed other otherClass p ((heap.setList_tail_sublist other otherClass).subset onList) block
      owner same

section Refill

variable (batchStart : Nat) (sizeClass : Fin 8) (numaNode : Int)

/-- The blocks the first `count` passes of the carving loop lay out, last carved first. -/
def carveBlocks : Nat → List Block
  | 0 => []
  | i + 1 => ⟨batchStart + i * (sizeClassSizes sizeClass + headerSize), sizeClass, numaNode⟩ :: carveBlocks i

theorem carveBlocks_ptr :
    ∀ count, (carveBlocks batchStart sizeClass numaNode count).map Block.ptr =
      carveList batchStart (sizeClassSizes sizeClass) count
  | 0 => rfl
  | count + 1 => by
    rw [carveBlocks, List.map_cons, carveBlocks_ptr count]
    rfl

theorem mem_carveBlocks {block : Block} :
    ∀ {count}, block ∈ carveBlocks batchStart sizeClass numaNode count →
      ∃ i < count, block = ⟨batchStart + i * (sizeClassSizes sizeClass + headerSize), sizeClass, numaNode⟩
  | 0, member => absurd member (List.not_mem_nil _)
  | count + 1, member => by
    rcases List.mem_cons.mp member with rfl | later
    · exact ⟨count, by omega, rfl⟩
    · obtain ⟨i, below, rfl⟩ := mem_carveBlocks later
      exact ⟨i, by omega, rfl⟩

/-- Block `i` of a batch ends where block `i + 1` begins. -/
theorem carveBlock_stop (i : Nat) :
    (⟨batchStart + i * (sizeClassSizes sizeClass + headerSize), sizeClass, numaNode⟩ : Block).stop =
      batchStart + (i + 1) * (sizeClassSizes sizeClass + headerSize) := by
  unfold Block.stop Block.ptr
  dsimp only
  rw [Nat.succ_mul]
  omega

theorem carveBlocks_inside {block : Block} {count : Nat}
    (member : block ∈ carveBlocks batchStart sizeClass numaNode count) :
    batchStart ≤ block.base ∧ block.stop ≤ batchStart + count * (sizeClassSizes sizeClass + headerSize) := by
  obtain ⟨i, below, rfl⟩ := mem_carveBlocks batchStart sizeClass numaNode member
  rw [carveBlock_stop]
  exact ⟨by dsimp only; omega, by gcongr; omega⟩

theorem carveBlocks_apart : ∀ count, (carveBlocks batchStart sizeClass numaNode count).Pairwise Block.Apart
  | 0 => .nil
  | count + 1 => by
    refine List.pairwise_cons.mpr ⟨fun other member => .inr ?_, carveBlocks_apart count⟩
    obtain ⟨i, below, rfl⟩ := mem_carveBlocks batchStart sizeClass numaNode member
    rw [carveBlock_stop]
    dsimp only
    have earlier : (i + 1) * (sizeClassSizes sizeClass + headerSize) ≤ count * (sizeClassSizes sizeClass + headerSize) :=
      Nat.mul_le_mul_right _ below
    omega

theorem carveList_nodup (count : Nat) : (carveList batchStart (sizeClassSizes sizeClass) count).Nodup := by
  rw [← carveBlocks_ptr batchStart sizeClass 0 count]
  exact (carveBlocks_apart batchStart sizeClass 0 count).map Block.ptr fun block other apart => by
    have := sizeClassSizes_pos block.sizeClass
    have := sizeClassSizes_pos other.sizeClass
    unfold Block.Apart Block.stop Block.ptr at apart
    unfold Block.ptr
    omega

theorem carveList_inside {count p : Nat} (member : p ∈ carveList batchStart (sizeClassSizes sizeClass) count) :
    batchStart ≤ p ∧ p < batchStart + count * (sizeClassSizes sizeClass + headerSize) := by
  rw [← carveBlocks_ptr batchStart sizeClass 0 count] at member
  obtain ⟨block, carved, rfl⟩ := List.mem_map.mp member
  have inside := carveBlocks_inside batchStart sizeClass 0 carved
  have := sizeClassSizes_pos block.sizeClass
  unfold Block.stop Block.ptr at *
  omega

theorem mem_carveList {count p : Nat} (member : p ∈ carveList batchStart (sizeClassSizes sizeClass) count) :
    ∃ block ∈ carveBlocks batchStart sizeClass numaNode count, block.ptr = p ∧ block.sizeClass = sizeClass := by
  rw [← carveBlocks_ptr batchStart sizeClass numaNode count] at member
  obtain ⟨block, carved, rfl⟩ := List.mem_map.mp member
  obtain ⟨i, -, rfl⟩ := mem_carveBlocks batchStart sizeClass numaNode carved
  exact ⟨_, carved, rfl, rfl⟩

end Refill

/-- The heap after a refill: the batch's blocks, all but the one handed out on the class's list. -/
def Heap.refill (heap : Heap) (thread batchStart : Nat) (sizeClass : Fin 8) (numaNode : Int) : Heap :=
  { heap.setList thread sizeClass (carveList batchStart (sizeClassSizes sizeClass) (refillBatchSize - 1)) with
    blocks := carveBlocks batchStart sizeClass numaNode refillBatchSize ++ heap.blocks }

section RefillHeap

variable (heap : Heap) (thread batchStart : Nat) (sizeClass : Fin 8) (numaNode : Int)

@[simp] theorem Heap.refill_blocks :
    (heap.refill thread batchStart sizeClass numaNode).blocks =
      carveBlocks batchStart sizeClass numaNode refillBatchSize ++ heap.blocks := rfl

@[simp] theorem Heap.refill_larges : (heap.refill thread batchStart sizeClass numaNode).larges = heap.larges := rfl

@[simp] theorem Heap.refill_lists (other : Nat) (otherClass : Fin 8) :
    (heap.refill thread batchStart sizeClass numaNode).lists other otherClass =
      if other = thread ∧ otherClass = sizeClass then
        carveList batchStart (sizeClassSizes sizeClass) (refillBatchSize - 1)
      else heap.lists other otherClass :=
  heap.setList_lists thread sizeClass _ other otherClass

end RefillHeap

theorem poolRegions_update_used {nodePools : Fin 8 → Option NodePool} {slot : Fin 8} {pool : NodePool}
    (found : nodePools slot = some pool) (used : Nat) :
    poolRegions (Function.update nodePools slot (some { pool with used := used })) = poolRegions nodePools := by
  unfold poolRegions
  refine List.filterMap_congr fun other _ => ?_
  by_cases same : other = slot
  · subst same
    simp [found, NodePool.region]
  · simp [Function.update_noteq same]

/-- Raising a pool's watermark within the pool keeps the invariant. -/
theorem Inv.advance (inv : Inv s live heap) {slot : Fin 8} {pool : NodePool} {used : Nat}
    (found : s.nodePools slot = some pool) (rises : pool.used ≤ used) (within : used ≤ pool.totalSize) :
    Inv { s with nodePools := Function.update s.nodePools slot (some { pool with used := used }) } live heap := by
  have regions := poolRegions_update_used found used
  refine { inv with regions := ?_, apart := ?_, pools := ?_, carved := ?_ }
  · simpa only [Heap.mappings, regions] using inv.regions
  · simpa only [Heap.mappings, regions] using inv.apart
  · intro other otherPool otherFound
    by_cases same : other = slot
    · subst same
      simp only [Function.update_same, Option.some.injEq] at otherFound
      subst otherFound
      exact ⟨within, (inv.pools _ _ found).2⟩
    · simp only [Function.update_noteq same] at otherFound
      exact inv.pools other otherPool otherFound
  · intro block member
    obtain ⟨other, otherPool, otherFound, low, high⟩ := inv.carved block member
    by_cases same : other = slot
    · subst same
      rw [found] at otherFound
      cases otherFound
      exact ⟨other, _, Function.update_same _ _ _, low, by dsimp only; omega⟩
    · exact ⟨other, otherPool, by simp only [Function.update_noteq same]; exact otherFound, low, high⟩

/-- The carving loop writes only above the pool's watermark, where the heap has nothing. -/
theorem Inv.carve (inv : Inv s live heap) {slot : Fin 8} {pool : NodePool} {sizeClass : Fin 8}
    {numaNode : Int} (found : s.nodePools slot = some pool)
    (fits : pool.used + batchBytes sizeClass ≤ pool.totalSize) :
    Inv { s with memory := (carveMemory (pool.baseAddr + pool.used) (sizeClassSizes sizeClass) sizeClass numaNode
      s.memory refillBatchSize) } live heap :=
  inv.transport fun x guarded => by
    have batch : refillBatchSize * (sizeClassSizes sizeClass + headerSize) = batchBytes sizeClass :=
      Nat.mul_comm _ _
    have outside : x < pool.baseAddr + pool.used ∨
        pool.baseAddr + pool.used + refillBatchSize * (sizeClassSizes sizeClass + headerSize) ≤ x := by
      by_contra inside
      exact inv.not_occupied_above found (by omega) (by omega) (inv.guarded_occupied guarded)
    exact carveMemory_outside sizeClass numaNode s.memory (sizeClassSizes_pos sizeClass) refillBatchSize x outside

/-- After the carving loop the batch joins the heap: its last block to the client, the rest to the list. -/
theorem Inv.install (inv : Inv s live heap) {thread : Nat} {arena : ThreadArena} {sizeClass : Fin 8}
    {slot : Fin 8} {pool : NodePool} {batchStart : Nat} {older : Memory}
    (found : s.arenas thread = some arena) (empty : heap.lists thread sizeClass = [])
    (poolFound : s.nodePools slot = some pool) (low : pool.baseAddr ≤ batchStart)
    (high : batchStart + refillBatchSize * (sizeClassSizes sizeClass + headerSize) ≤ pool.baseAddr + pool.used)
    (fresh : ∀ x, batchStart ≤ x → x < batchStart + refillBatchSize * (sizeClassSizes sizeClass + headerSize) →
      ¬ Occupied heap x)
    (carved : s.memory =
      carveMemory batchStart (sizeClassSizes sizeClass) sizeClass arena.numaNode older refillBatchSize) :
    Inv { s with arenas := Function.update s.arenas thread (some { arena with
          freeLists := Function.update arena.freeLists sizeClass
            (s.memory.load (carveHead batchStart (sizeClassSizes sizeClass) refillBatchSize) 8) }) }
      (⟨thread, carveHead batchStart (sizeClassSizes sizeClass) refillBatchSize⟩ :: live)
      (heap.refill thread batchStart sizeClass arena.numaNode) := by
  have roomy := sizeClassSizes_pos sizeClass
  have fits : batchStart + refillBatchSize * (sizeClassSizes sizeClass + headerSize) < sizeBound := by
    have mapped := (inv.pools slot pool poolFound).2
    have used := (inv.pools slot pool poolFound).1
    have rounded := le_pageRound pool.totalSize
    unfold userSpaceTop sizeBound at *
    omega
  have batchList : carveList batchStart (sizeClassSizes sizeClass) refillBatchSize =
      carveHead batchStart (sizeClassSizes sizeClass) refillBatchSize ::
        carveList batchStart (sizeClassSizes sizeClass) (refillBatchSize - 1) := rfl
  have newFresh : ∀ p ∈ carveList batchStart (sizeClassSizes sizeClass) refillBatchSize, ¬ Occupied heap p :=
    fun p member => fresh p (carveList_inside batchStart sizeClass member).1
      (carveList_inside batchStart sizeClass member).2
  have headFresh := newFresh _ (by rw [batchList]; exact List.mem_cons_self _ _)
  have restFresh : ∀ p ∈ carveList batchStart (sizeClassSizes sizeClass) (refillBatchSize - 1),
      ¬ Occupied heap p := fun p member => newFresh p (by rw [batchList]; exact List.mem_cons_of_mem _ member)
  have headNew : carveHead batchStart (sizeClassSizes sizeClass) refillBatchSize ∉
      carveList batchStart (sizeClassSizes sizeClass) (refillBatchSize - 1) := by
    have fresh := carveList_nodup batchStart sizeClass refillBatchSize
    rw [batchList] at fresh
    exact (List.nodup_cons.mp fresh).1
  have onLists : ∀ other otherClass p,
      p ∈ (heap.refill thread batchStart sizeClass arena.numaNode).lists other otherClass →
        (other = thread ∧ otherClass = sizeClass ∧
          p ∈ carveList batchStart (sizeClassSizes sizeClass) (refillBatchSize - 1)) ∨
        p ∈ heap.lists other otherClass := by
    intro other otherClass p member
    rw [Heap.refill_lists] at member
    split_ifs at member with here
    · exact .inl ⟨here.1, here.2, member⟩
    · exact .inr member
  refine { inv with
    carved := ?_
    blocksApart := ?_
    headers := ?_
    chains := ?_
    unused := ?_
    listed := ?_
    nodup := ?_
    disjoint := ?_
    liveNodup := ?_
    liveOwned := ?_
    liveUnlisted := ?_
    liveArena := ?_ }
  · intro block member
    rcases List.mem_append.mp member with new | old
    · have inside := carveBlocks_inside batchStart sizeClass arena.numaNode new
      exact ⟨slot, pool, poolFound, by omega, by omega⟩
    · exact inv.carved block old
  · refine List.pairwise_append.mpr ⟨carveBlocks_apart batchStart sizeClass arena.numaNode refillBatchSize,
      inv.blocksApart, fun block new other old => Block.apart_of_unoccupied (fun x above below => ?_) old⟩
    have inside := carveBlocks_inside batchStart sizeClass arena.numaNode new
    exact fresh x (by omega) (by omega)
  · intro block member
    rcases List.mem_append.mp member with new | old
    · obtain ⟨i, below, rfl⟩ := mem_carveBlocks batchStart sizeClass arena.numaNode new
      rw [carved]
      exact carveMemory_header sizeClass arena.numaNode older roomy
        (lt_of_le_of_lt (sizeClassSizes_le sizeClass) (by unfold sizeBound; norm_num)) below
    · exact inv.headers block old
  · intro other installed foundOther otherClass
    rw [Heap.refill_lists]
    by_cases same : other = thread
    · subst same
      simp only [Function.update_same, Option.some.injEq] at foundOther
      subst foundOther
      by_cases sameClass : otherClass = sizeClass
      · subst sameClass
        have link : s.memory.load (carveHead batchStart (sizeClassSizes otherClass) refillBatchSize) 8 =
            carveHead batchStart (sizeClassSizes otherClass) (refillBatchSize - 1) := by
          rw [carved]
          exact carveMemory_link otherClass arena.numaNode older roomy fits (by decide)
        simp only [Function.update_same, and_self, if_true, link]
        rw [carved]
        exact carveMemory_chain otherClass arena.numaNode older roomy fits (by decide)
      · simpa [sameClass] using inv.chains _ _ found otherClass
    · simp only [Function.update_noteq same] at foundOther
      simpa [same] using inv.chains other installed foundOther otherClass
  · intro other absent otherClass
    by_cases same : other = thread
    · subst same
      simp at absent
    · simpa [same] using inv.unused other (by simpa [Function.update_noteq same] using absent) otherClass
  · intro other otherClass p member
    rcases onLists other otherClass p member with ⟨-, rfl, new⟩ | old
    · obtain ⟨block, carvedBlock, same, sized⟩ := mem_carveList batchStart otherClass arena.numaNode
        (show p ∈ carveList batchStart (sizeClassSizes otherClass) refillBatchSize by
          rw [batchList]; exact List.mem_cons_of_mem _ new)
      exact ⟨block, List.mem_append_left _ carvedBlock, same, sized⟩
    · obtain ⟨block, owner, same, sized⟩ := inv.listed other otherClass p old
      exact ⟨block, List.mem_append_right _ owner, same, sized⟩
  · intro other otherClass
    rw [Heap.refill_lists]
    split_ifs
    · exact (carveList_nodup batchStart sizeClass refillBatchSize).sublist (by rw [batchList]; exact List.sublist_cons_self _ _)
    · exact inv.nodup other otherClass
  · intro other otherClass third thirdClass p member thirdMember
    rcases onLists other otherClass p member with ⟨rfl, rfl, new⟩ | old <;>
      rcases onLists third thirdClass p thirdMember with ⟨rfl, rfl, thirdNew⟩ | thirdOld
    · exact ⟨rfl, rfl⟩
    · exact absurd (inv.listed_occupied thirdOld) (restFresh p new)
    · exact absurd (inv.listed_occupied old) (restFresh p thirdNew)
    · exact inv.disjoint other otherClass third thirdClass p old thirdOld
  · refine List.nodup_cons.mpr ⟨fun member => ?_, inv.liveNodup⟩
    obtain ⟨x, xLive, same⟩ := List.mem_map.mp member
    have head : x.ptr = carveHead batchStart (sizeClassSizes sizeClass) refillBatchSize := same
    exact headFresh (head ▸ inv.owned_occupied (inv.liveOwned x xLive))
  · rintro x (_ | ⟨_, member⟩)
    · exact .inl ⟨_, List.mem_append_left _ (List.mem_cons_self _ _), rfl⟩
    · rcases inv.liveOwned x member with ⟨block, owner, same⟩ | ⟨large, owner, same⟩
      · exact .inl ⟨block, List.mem_append_right _ owner, same⟩
      · exact .inr ⟨large, owner, same⟩
  · rintro x (_ | ⟨_, member⟩) other otherClass listed
    · rcases onLists other otherClass _ listed with ⟨-, -, new⟩ | old
      · exact headNew new
      · exact headFresh (inv.listed_occupied old)
    · rcases onLists other otherClass _ listed with ⟨-, -, new⟩ | old
      · exact restFresh _ new (inv.owned_occupied (inv.liveOwned x member))
      · exact inv.liveUnlisted x member other otherClass old
  · rintro x (_ | ⟨_, member⟩)
    · simp
    · by_cases same : x.thread = thread
      · show Function.update s.arenas thread _ x.thread ≠ none
        rw [same]
        simp
      · simpa [Function.update_noteq same] using inv.liveArena x member

theorem Settled.install (settled : Settled s live heap) (inv : Inv s live heap) {thread : Nat}
    {arena : ThreadArena} {sizeClass : Fin 8} {batchStart next : Nat}
    (found : s.arenas thread = some arena) (empty : heap.lists thread sizeClass = [])
    (fresh : ∀ x, batchStart ≤ x → x < batchStart + refillBatchSize * (sizeClassSizes sizeClass + headerSize) →
      ¬ Occupied heap x) :
    Settled { s with arenas := Function.update s.arenas thread (some { arena with
          freeLists := Function.update arena.freeLists sizeClass next }) }
      (⟨thread, carveHead batchStart (sizeClassSizes sizeClass) refillBatchSize⟩ :: live)
      (heap.refill thread batchStart sizeClass arena.numaNode) := by
  have moved := settled.setArena thread { arena with freeLists := Function.update arena.freeLists sizeClass next }
    fun old found' => by rw [found] at found'; cases found'; rfl
  have batchList : carveList batchStart (sizeClassSizes sizeClass) refillBatchSize =
      carveHead batchStart (sizeClassSizes sizeClass) refillBatchSize ::
        carveList batchStart (sizeClassSizes sizeClass) (refillBatchSize - 1) := rfl
  have newFresh : ∀ block ∈ carveBlocks batchStart sizeClass arena.numaNode refillBatchSize,
      ¬ Occupied heap block.ptr := by
    intro block member
    have inList : block.ptr ∈ carveList batchStart (sizeClassSizes sizeClass) refillBatchSize := by
      rw [← carveBlocks_ptr batchStart sizeClass arena.numaNode]
      exact List.mem_map_of_mem _ member
    exact fresh _ (carveList_inside batchStart sizeClass inList).1 (carveList_inside batchStart sizeClass inList).2
  have oldOwner : ∀ block ∈ (heap.refill thread batchStart sizeClass arena.numaNode).blocks, Occupied heap block.ptr →
      block ∈ heap.blocks := by
    intro block member occupied
    rcases List.mem_append.mp member with new | old
    · exact absurd occupied (newFresh block new)
    · exact old
  have newHome : ∀ block ∈ (heap.refill thread batchStart sizeClass arena.numaNode).blocks,
      ¬ Occupied heap block.ptr → block.node = arena.numaNode := by
    intro block member unoccupied
    rcases List.mem_append.mp member with new | old
    · obtain ⟨i, -, rfl⟩ := mem_carveBlocks batchStart sizeClass arena.numaNode new
      rfl
    · exact absurd (inv.owned_occupied (.inl ⟨block, old, rfl⟩)) unoccupied
  refine ⟨fun block member => ?_, ?_, ?_⟩
  · rcases List.mem_append.mp member with new | old
    · have inList : block.ptr ∈ carveList batchStart (sizeClassSizes sizeClass) refillBatchSize := by
        rw [← carveBlocks_ptr batchStart sizeClass arena.numaNode]
        exact List.mem_map_of_mem _ new
      rw [batchList] at inList
      rcases List.mem_cons.mp inList with head | later
      · exact .inl (List.mem_cons.mpr (.inl head))
      · exact .inr ⟨thread, sizeClass, by simp [later]⟩
    · rcases settled.conserved block old with held | ⟨other, otherClass, onList⟩
      · exact .inl (List.mem_cons_of_mem _ held)
      · have here : ¬ (other = thread ∧ otherClass = sizeClass) := by
          rintro ⟨rfl, rfl⟩
          rw [empty] at onList
          exact List.not_mem_nil _ onList
        exact .inr ⟨other, otherClass, by rw [Heap.refill_lists, if_neg here]; exact onList⟩
  · rintro x (_ | ⟨_, member⟩) block owner same
    · refine ⟨_, Function.update_same _ _ _, newHome block owner fun occupied => ?_⟩
      have head : block.ptr = carveHead batchStart (sizeClassSizes sizeClass) refillBatchSize := same
      exact fresh _ (carveList_inside batchStart sizeClass (show block.ptr ∈ _ from by
        rw [head, batchList]; exact List.mem_cons_self _ _)).1 (carveList_inside batchStart sizeClass
          (show block.ptr ∈ _ from by rw [head, batchList]; exact List.mem_cons_self _ _)).2 occupied
    · exact moved.homeLive x member block (oldOwner block owner
        (same ▸ inv.owned_occupied (inv.liveOwned x member))) same
  · intro other otherClass p onList block owner same
    rw [Heap.refill_lists] at onList
    split_ifs at onList with here
    · obtain ⟨rfl, rfl⟩ := here
      refine ⟨_, Function.update_same _ _ _, newHome block owner fun occupied => ?_⟩
      have inside := carveList_inside batchStart otherClass (show p ∈ _ from by
        rw [batchList]; exact List.mem_cons_of_mem _ onList)
      exact fresh _ inside.1 inside.2 (same ▸ occupied)
    · exact moved.homeListed other otherClass p onList block
        (oldOwner block owner (same ▸ inv.listed_occupied onList)) same

/-- A new mapping's bytes are no one's. -/
theorem Inv.fresh_unoccupied (inv : Inv s live heap) {ptr size : Nat} (fresh : Fresh pageSize pageSize s.regions ptr size)
    {x : Nat} (low : ptr ≤ x) (high : x < ptr + pageRound pageSize size) : ¬ Occupied heap x :=
  inv.not_occupied_of_apart fresh.2.2.2.2 ⟨low, high⟩

theorem Inv.fresh_ptr_unoccupied (inv : Inv s live heap) {ptr size : Nat}
    (fresh : Fresh pageSize pageSize s.regions ptr size) : ¬ Occupied heap (ptr + headerSize) := by
  have rounded := pageSize_le_pageRound fresh.2.2.1
  exact inv.fresh_unoccupied fresh (by omega) (by unfold pageSize headerSize at *; omega)

/-- A fresh large mapping changes nothing the heap reads, and its block goes to the client. -/
theorem Inv.mapLarge (inv : Inv s live heap) {thread ptr size : Nat} {numaNode : Int}
    (fresh : Fresh pageSize pageSize s.regions ptr size) (fits : size < sizeBound)
    (hasArena : s.arenas thread ≠ none) :
    Inv { s with
        regions := ⟨ptr, pageRound pageSize size⟩ :: s.regions
        memory := largeMemory s.memory ptr size numaNode }
      (⟨thread, ptr + headerSize⟩ :: live) { heap with larges := ⟨ptr, size, numaNode⟩ :: heap.larges } := by
  have headFresh := inv.fresh_ptr_unoccupied fresh
  have ⟨_, aligned, positive, _, apart⟩ := fresh
  have moved : Inv { s with memory := largeMemory s.memory ptr size numaNode } live heap :=
    inv.transport fun x guarded => largeMemory_outside s.memory numaNode positive (by
      by_contra inside
      exact inv.fresh_unoccupied fresh (show ptr ≤ x by omega) (by omega) (inv.guarded_occupied guarded))
  refine { moved with
    regions := List.Perm.cons _ inv.regions
    apart := List.pairwise_cons.mpr ⟨fun region member => (apart region (inv.regions.mem_iff.mpr member)).symm,
      inv.apart⟩
    positive := ?_
    larges := ?_
    liveNodup := ?_
    liveOwned := ?_
    liveUnlisted := ?_
    liveArena := ?_ }
  · rintro region (_ | ⟨_, member⟩)
    · exact lt_of_lt_of_le (by unfold pageSize; norm_num) (pageSize_le_pageRound positive)
    · exact inv.positive region member
  · rintro large (_ | ⟨_, member⟩)
    · exact ⟨positive, fits, aligned, largeMemory_header _ fits _⟩
    · exact moved.larges large member
  · refine List.nodup_cons.mpr ⟨fun member => ?_, inv.liveNodup⟩
    obtain ⟨x, xLive, same⟩ := List.mem_map.mp member
    have head : x.ptr = ptr + headerSize := same
    exact headFresh (head ▸ inv.owned_occupied (inv.liveOwned x xLive))
  · rintro x (_ | ⟨_, member⟩)
    · exact .inr ⟨_, List.mem_cons_self _ _, rfl⟩
    · rcases inv.liveOwned x member with ⟨block, owner, same⟩ | ⟨large, owner, same⟩
      · exact .inl ⟨block, owner, same⟩
      · exact .inr ⟨large, List.mem_cons_of_mem _ owner, same⟩
  · rintro x (_ | ⟨_, member⟩) other otherClass listed
    · exact headFresh (inv.listed_occupied listed)
    · exact inv.liveUnlisted x member other otherClass listed
  · rintro x (_ | ⟨_, member⟩)
    · exact hasArena
    · exact inv.liveArena x member

theorem Settled.mapLarge (settled : Settled s live heap) (inv : Inv s live heap) {thread ptr size : Nat}
    {numaNode : Int} (fresh : Fresh pageSize pageSize s.regions ptr size) :
    Settled { s with
        regions := ⟨ptr, pageRound pageSize size⟩ :: s.regions
        memory := largeMemory s.memory ptr size numaNode }
      (⟨thread, ptr + headerSize⟩ :: live) { heap with larges := ⟨ptr, size, numaNode⟩ :: heap.larges } := by
  have headFresh := inv.fresh_ptr_unoccupied fresh
  refine ⟨fun block member => ?_, ?_, settled.homeListed⟩
  · rcases settled.conserved block member with held | listed
    · exact .inl (List.mem_cons_of_mem _ held)
    · exact .inr listed
  · rintro x (_ | ⟨_, member⟩) block owner same
    · exact absurd (inv.owned_occupied (.inl ⟨block, owner, rfl⟩)) (same ▸ headFresh)
    · exact settled.homeLive x member block owner same

end MemoryAllocator.Numa
