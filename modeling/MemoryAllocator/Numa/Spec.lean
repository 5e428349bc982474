import MemoryAllocator.Numa.Exec

namespace MemoryAllocator.Numa

variable {s s' : State}

theorem fresh_of_huge {regions : List Region} {address length : Nat}
    (fresh : Fresh hugePageSize pageSize regions address length) :
    Fresh pageSize pageSize regions address length := by
  obtain ⟨positive, aligned, rest⟩ := fresh
  exact ⟨positive, by unfold hugePageSize at aligned; unfold pageSize; omega, rest⟩

theorem mapLarge_cases {alignedSize : Nat} {env : Env} {r : Option Nat}
    (h : mapLarge alignedSize env s = .ok (r, s')) :
    (r = none ∧ s' = s) ∨
      ∃ ptr, r = some ptr ∧ Fresh pageSize pageSize s.regions ptr alignedSize ∧
        s' = { s with regions := ⟨ptr, pageRound pageSize alignedSize⟩ :: s.regions } := by
  unfold mapLarge at h
  split at h
  · obtain ⟨first, s₁, mapped, rest⟩ := bind_ok.mp h
    rcases mmap_ok.mp mapped with ⟨ptr, found, rfl, rfl⟩ | ⟨-, rfl, rfl⟩
    · simp only [Option.isSome_some, if_true, pure_ok] at rest
      obtain ⟨rfl, rfl⟩ := rest
      exact .inr ⟨ptr, rfl, fresh_of_huge (mapAt_fresh found), rfl⟩
    · simp only [Option.isSome_none, Bool.false_eq_true, if_false] at rest
      rcases mmap_ok.mp rest with ⟨ptr, found, rfl, rfl⟩ | ⟨-, rfl, rfl⟩
      · exact .inr ⟨ptr, rfl, mapAt_fresh found, rfl⟩
      · exact .inl ⟨rfl, rfl⟩
  · rcases mmap_ok.mp h with ⟨ptr, found, rfl, rfl⟩ | ⟨-, rfl, rfl⟩
    · exact .inr ⟨ptr, rfl, mapAt_fresh found, rfl⟩
    · exact .inl ⟨rfl, rfl⟩

/-- The bytes of a new large mapping at `ptr`: zeroed, with the header for `numaNode`. -/
def largeMemory (memory : Memory) (ptr alignedSize : Nat) (numaNode : Int) : Memory :=
  (((memory.fill ptr alignedSize 0).store ptr 8 alignedSize).store (ptr + 8) 4 (int32Bits (-1))).store
    (ptr + 12) 4 (int32Bits numaNode)

theorem largeMemory_header (memory : Memory) {ptr alignedSize : Nat} (fits : alignedSize < sizeBound)
    (numaNode : Int) : HeaderAt (largeMemory memory ptr alignedSize numaNode) ptr alignedSize (-1) numaNode :=
  headerAt_stores _ fits _ _

/-- A new large mapping's bytes change only inside the mapping. -/
theorem largeMemory_outside (memory : Memory) {ptr alignedSize x : Nat} (numaNode : Int) (positive : 0 < alignedSize)
    (outside : x < ptr ∨ ptr + pageRound pageSize alignedSize ≤ x) :
    largeMemory memory ptr alignedSize numaNode x = memory x := by
  have rounded : alignedSize ≤ pageRound pageSize alignedSize ∧ 16 ≤ pageRound pageSize alignedSize := by
    unfold pageRound pageSize
    omega
  unfold largeMemory Memory.store Memory.fill
  split_ifs <;> first | rfl | omega

theorem largeBlockSize_lt (size : Nat) : largeBlockSize size < sizeBound := by
  unfold largeBlockSize
  dsimp only
  split
  · exact lt_of_le_of_lt Nat.and_le_right (by unfold sizeNot sizeBound; omega)
  · exact Nat.mod_lt _ (by unfold sizeBound; omega)

theorem allocateLargeBlock_cases {numaNode : Int} {size : Nat} {env : Env} {r : Nat}
    (h : allocateLargeBlock numaNode size env s = .ok (r, s')) :
    (r = 0 ∧ s' = s) ∨
      ∃ ptr, r = ptr + headerSize ∧ Fresh pageSize pageSize s.regions ptr (largeBlockSize size) ∧
        s' = { s with
          regions := ⟨ptr, pageRound pageSize (largeBlockSize size)⟩ :: s.regions
          memory := largeMemory s.memory ptr (largeBlockSize size) numaNode } := by
  unfold allocateLargeBlock at h
  obtain ⟨mapped, s₁, mapping, rest⟩ := bind_ok.mp h
  rcases mapLarge_cases mapping with ⟨rfl, rfl⟩ | ⟨ptr, rfl, fresh, rfl⟩
  · obtain ⟨rfl, rfl⟩ := pure_ok.mp rest
    exact .inl ⟨rfl, rfl⟩
  · simp only [bind_ok, memset_ok, store_ok, pure_ok, exists_and_left, exists_and_right, exists_eq_left',
      exists_eq_left, exists_const, and_assoc] at rest
    obtain ⟨-, -, -, -, rfl, rfl⟩ := rest
    exact .inr ⟨ptr, rfl, fresh, rfl⟩

theorem freeLargeBlock_cases {ptr : Nat} {u : Unit} (h : freeLargeBlock ptr s = .ok (u, s')) :
    (ptr = 0 ∧ s' = s) ∨
      (ptr ≠ 0 ∧ accessible s.regions (ptr - headerSize) 8 ∧
        s' = { s with regions :=
          unmapRegions s.regions (ptr - headerSize) (s.memory.load (ptr - headerSize) 8) }) := by
  unfold freeLargeBlock at h
  split at h
  · exact .inl ⟨‹_›, (pure_ok.mp h).2.symm⟩
  · obtain ⟨size, s₁, loaded, unmapped⟩ := bind_ok.mp h
    obtain ⟨reachable, rfl, rfl⟩ := load_ok.mp loaded
    exact .inr ⟨‹_›, reachable, munmap_ok.mp unmapped⟩

/-- A pass of the carving loop changes the bytes only. -/
theorem carveBlock_frame {batchStart blockSize : Nat} {sizeClass : Fin 8} {numaNode : Int} {head i r : Nat}
    (h : carveBlock batchStart blockSize sizeClass numaNode head i s = .ok (r, s')) :
    s' = { s with memory := s'.memory } := by
  unfold carveBlock at h
  simp only [bind_ok, store_ok, pure_ok, exists_and_left, exists_and_right, exists_eq_left', exists_eq_left,
    exists_const, and_assoc] at h
  obtain ⟨-, -, -, -, -, rfl⟩ := h
  rfl

theorem carveLoop_frame {batchStart blockSize : Nat} {sizeClass : Fin 8} {numaNode : Int} :
    ∀ {blocks : List Nat} {head r : Nat} {s s' : State},
      blocks.foldlM (carveBlock batchStart blockSize sizeClass numaNode) head s = .ok (r, s') →
        s' = { s with memory := s'.memory }
  | [], _, _, _, _, h => by
    obtain ⟨-, rfl⟩ := pure_ok.mp h
    rfl
  | i :: rest, head, r, s, s', h => by
    rw [List.foldlM_cons] at h
    obtain ⟨block, s₁, carved, later⟩ := bind_ok.mp h
    rw [carveLoop_frame later, carveBlock_frame carved]

/-- A refill either changes nothing, or carves a batch from the pool and lists all but its last block. -/
theorem slowPathAlloc_small_cases {thread : Nat} {arena : ThreadArena} {size : Nat} {sizeClass : Fin 8}
    {env : Env} {r : Nat} (found : s.arenas thread = some arena)
    (h : slowPathAlloc thread arena size (some sizeClass) env s = .ok (r, s')) :
    (r = 0 ∧ s' = s) ∨
      ∃ slot pool used advanced memory, (slot.val : Int) = arena.numaNode ∧ s.nodePools slot = some pool ∧
        reserveBatch pool sizeClass = (some used, advanced) ∧
        (List.range refillBatchSize).foldlM
          (carveBlock (pool.baseAddr + used) (sizeClassSizes sizeClass) sizeClass arena.numaNode) 0
          (s.setNodePool slot (some advanced)) =
            .ok (r, { s with nodePools := Function.update s.nodePools slot (some advanced), memory := memory }) ∧
        accessible s.regions r 8 ∧
        s' = { s with
          nodePools := Function.update s.nodePools slot (some advanced)
          memory := memory
          arenas := Function.update s.arenas thread (some
            { arena with freeLists := Function.update arena.freeLists sizeClass (memory.load r 8) }) } := by
  unfold slowPathAlloc at h
  obtain ⟨slot, s₁, indexed, afterIndex⟩ := bind_ok.mp h
  obtain ⟨same, rfl⟩ := tableIndex_ok.mp indexed
  obtain ⟨current, s₂, got, afterGet⟩ := bind_ok.mp afterIndex
  obtain ⟨rfl, rfl⟩ := get_ok.mp got
  rcases poolFound : s₂.nodePools slot with _ | pool
  · simp only [poolFound] at afterGet
    obtain ⟨rfl, rfl⟩ := pure_ok.mp afterGet
    exact .inl ⟨rfl, rfl⟩
  · simp only [poolFound] at afterGet
    rcases reserved : reserveBatch pool sizeClass with ⟨_ | used, advanced⟩
    · simp only [reserved] at afterGet
      obtain ⟨rfl, rfl⟩ := pure_ok.mp afterGet
      exact .inl ⟨rfl, rfl⟩
    · simp only [reserved] at afterGet
      obtain ⟨_, s₃, poolSet, afterSet⟩ := bind_ok.mp afterGet
      rw [setNodePool_ok.mp poolSet] at afterSet
      obtain ⟨head, s₄, carved, afterCarve⟩ := bind_ok.mp afterSet
      obtain ⟨memory, rfl⟩ : ∃ memory,
          s₄ = { s₂ with nodePools := Function.update s₂.nodePools slot (some advanced), memory := memory } :=
        ⟨s₄.memory, by simpa using carveLoop_frame carved⟩
      obtain ⟨next, s₅, loaded, afterLoad⟩ := bind_ok.mp afterCarve
      obtain ⟨reachable, rfl, rfl⟩ := load_ok.mp loaded
      obtain ⟨_, s₆, modified, afterModify⟩ := bind_ok.mp afterLoad
      obtain ⟨rfl, rfl⟩ := pure_ok.mp afterModify
      refine .inr ⟨slot, pool, used, advanced, memory, same, poolFound, reserved, carved, reachable, ?_⟩
      rw [modifyArena_ok modified found]
      rfl

/-- What `numalloc` can do: return `NULL`, pop the class's head, or go to `slow_path_alloc`. -/
theorem numalloc_cases {thread : Nat} {env : Env} {size r : Nat} (h : numalloc thread env size s = .ok (r, s')) :
    (r = 0 ∧ s' = s) ∨
      ∃ arena s₁, size ≠ 0 ∧ s.initialized = true ∧ getOrCreateArena thread env s = .ok (some arena, s₁) ∧
        ((∃ sizeClass, getSizeClass size = some sizeClass ∧ arena.freeLists sizeClass ≠ 0 ∧
            accessible s₁.regions (arena.freeLists sizeClass) 8 ∧ r = arena.freeLists sizeClass ∧
            s' = s₁.setArena thread { arena with
              freeLists := Function.update arena.freeLists sizeClass (s₁.memory.load r 8)
              statsAllocs := sizeAdd arena.statsAllocs 1 }) ∨
          (∃ s₂, (∀ sizeClass, getSizeClass size = some sizeClass → arena.freeLists sizeClass = 0) ∧
            slowPathAlloc thread arena size (getSizeClass size) env s₁ = .ok (r, s₂) ∧
            ((r = 0 ∧ s' = s₂) ∨
              (r ≠ 0 ∧ ((∃ counted, s₂.arenas thread = some counted ∧
                  s' = s₂.setArena thread { counted with statsAllocs := sizeAdd counted.statsAllocs 1 }) ∨
                (s₂.arenas thread = none ∧ s' = s₂)))))) := by
  unfold numalloc at h
  split at h
  · exact .inl ⟨(pure_ok.mp h).1.symm, (pure_ok.mp h).2.symm⟩
  rename_i nonzero
  obtain ⟨current, s₀, got, afterGet⟩ := bind_ok.mp h
  obtain ⟨rfl, rfl⟩ := get_ok.mp got
  split at afterGet
  · exact .inl ⟨(pure_ok.mp afterGet).1.symm, (pure_ok.mp afterGet).2.symm⟩
  rename_i active
  obtain ⟨found, s₁, arenaGot, afterArena⟩ := bind_ok.mp afterGet
  rcases found with _ | arena
  · obtain ⟨rfl, rfl⟩ := pure_ok.mp afterArena
    rcases getOrCreateArena_ok.mp arenaGot with ⟨_, _, ⟨⟩, _⟩ | ⟨_, _, _, ⟨⟩, _⟩ | ⟨_, _, _, rfl⟩
    exact .inl ⟨rfl, rfl⟩
  refine .inr ⟨arena, s₁, nonzero, by simpa using active, arenaGot, ?_⟩
  have arenaFound : s₁.arenas thread = some arena := by
    rcases getOrCreateArena_ok.mp arenaGot with ⟨_, kept, ⟨⟩, rfl⟩ | ⟨_, _, _, ⟨⟩, rfl⟩ | ⟨_, _, ⟨⟩, _⟩
    · exact kept
    · simp
  rcases classFound : getSizeClass size with _ | sizeClass
  · simp only [classFound, Option.filter_none] at afterArena
    obtain ⟨ptr, s₂, slow, afterSlow⟩ := bind_ok.mp afterArena
    have nothingCached : ∀ sizeClass, none = some sizeClass → arena.freeLists sizeClass = 0 :=
      fun _ found => by cases found
    split at afterSlow
    · obtain ⟨_, s₃, counted, afterCount⟩ := bind_ok.mp afterSlow
      obtain ⟨rfl, rfl⟩ := pure_ok.mp afterCount
      exact .inr ⟨s₂, nothingCached, slow, .inr ⟨‹_›, modifyArena_cases counted⟩⟩
    · obtain ⟨rfl, rfl⟩ := pure_ok.mp afterSlow
      exact .inr ⟨s₂, nothingCached, slow, .inl ⟨by simpa using ‹¬ptr ≠ 0›, rfl⟩⟩
  · by_cases empty : arena.freeLists sizeClass = 0
    · simp only [classFound, Option.filter_some, empty, bne_self_eq_false, Bool.false_eq_true, if_false]
        at afterArena
      obtain ⟨ptr, s₂, slow, afterSlow⟩ := bind_ok.mp afterArena
      have nothingCached : ∀ other, some sizeClass = some other → arena.freeLists other = 0 :=
        fun _ found => by cases found; exact empty
      split at afterSlow
      · obtain ⟨_, s₃, counted, afterCount⟩ := bind_ok.mp afterSlow
        obtain ⟨rfl, rfl⟩ := pure_ok.mp afterCount
        exact .inr ⟨s₂, nothingCached, slow, .inr ⟨‹_›, modifyArena_cases counted⟩⟩
      · obtain ⟨rfl, rfl⟩ := pure_ok.mp afterSlow
        exact .inr ⟨s₂, nothingCached, slow, .inl ⟨by simpa using ‹¬ptr ≠ 0›, rfl⟩⟩
    · have popped : (arena.freeLists sizeClass != 0) = true := by simpa using empty
      simp only [classFound, Option.filter_some, popped, if_true] at afterArena
      obtain ⟨next, s₂, loaded, afterLoad⟩ := bind_ok.mp afterArena
      obtain ⟨reachable, rfl, rfl⟩ := load_ok.mp loaded
      obtain ⟨_, s₃, modified, afterModify⟩ := bind_ok.mp afterLoad
      obtain ⟨rfl, rfl⟩ := pure_ok.mp afterModify
      exact .inl ⟨sizeClass, rfl, empty, reachable, rfl, modifyArena_ok modified arenaFound⟩

theorem getOrCreateArena_found {thread : Nat} {env : Env} {arena : ThreadArena}
    (found : s.arenas thread = some arena) : getOrCreateArena thread env s = .ok (some arena, s) := by
  simp [getOrCreateArena, found]

/-- The fast path of `numalloc`: a cached class gives its head, and the head's link becomes the head. -/
theorem numalloc_pop {thread : Nat} {env : Env} {size : Nat} {arena : ThreadArena} {sizeClass : Fin 8}
    (nonzero : size ≠ 0) (active : s.initialized = true) (found : s.arenas thread = some arena)
    (sized : getSizeClass size = some sizeClass) (cached : arena.freeLists sizeClass ≠ 0)
    (mapped : accessible s.regions (arena.freeLists sizeClass) 8) :
    numalloc thread env size s = .ok (arena.freeLists sizeClass, s.setArena thread { arena with
      freeLists := Function.update arena.freeLists sizeClass (s.memory.load (arena.freeLists sizeClass) 8)
      statsAllocs := sizeAdd arena.statsAllocs 1 }) := by
  have popped : (arena.freeLists sizeClass != 0) = true := by simpa using cached
  simp only [numalloc, nonzero, if_false, bind_of_ok (show (get : NumaM State) s = .ok (s, s) from rfl),
    active, Bool.not_true, Bool.false_eq_true, bind_of_ok (getOrCreateArena_found found), sized,
    Option.filter_some, popped, if_true, bind_of_ok (load_ok.mpr ⟨mapped, rfl, rfl⟩),
    bind_of_ok (modifyArena_found found)]
  rfl

/-- What `numalloc_free` can do: nothing, unmap a large block, drop the block, or push it. -/
theorem numallocFree_cases {thread : Nat} {env : Env} {ptr : Nat} {u : Unit}
    (h : numallocFree thread env ptr s = .ok (u, s')) :
    (ptr = 0 ∧ s' = s) ∨
      (ptr ≠ 0 ∧ accessible s.regions (ptr - headerSize + 8) 4 ∧
        ((int32OfBits (s.memory.load (ptr - headerSize + 8) 4) < 0 ∧ freeLargeBlock ptr s = .ok ((), s')) ∨
          (0 ≤ int32OfBits (s.memory.load (ptr - headerSize + 8) 4) ∧
            getOrCreateArena thread env s = .ok (none, s')) ∨
          (∃ arena s₁ slot, getOrCreateArena thread env s = .ok (some arena, s₁) ∧
            (slot.val : Int) = int32OfBits (s.memory.load (ptr - headerSize + 8) 4) ∧
            accessible s₁.regions ptr 8 ∧
            s' = { s₁ with
              memory := s₁.memory.store ptr 8 (arena.freeLists slot)
              arenas := Function.update s₁.arenas thread (some { arena with
                freeLists := Function.update arena.freeLists slot ptr
                statsFrees := sizeAdd arena.statsFrees 1 }) }))) := by
  unfold numallocFree at h
  split at h
  · exact .inl ⟨‹_›, (pure_ok.mp h).2.symm⟩
  rename_i nonzero
  obtain ⟨bits, s₀, loaded, afterLoad⟩ := bind_ok.mp h
  obtain ⟨reachable, rfl, rfl⟩ := load_ok.mp loaded
  refine .inr ⟨nonzero, reachable, ?_⟩
  split at afterLoad
  · exact .inl ⟨‹_›, afterLoad⟩
  rename_i small
  obtain ⟨found, s₁, arenaGot, afterArena⟩ := bind_ok.mp afterLoad
  rcases found with _ | arena
  · obtain ⟨-, rfl⟩ := pure_ok.mp afterArena
    exact .inr (.inl ⟨by omega, arenaGot⟩)
  have arenaFound : s₁.arenas thread = some arena := by
    rcases getOrCreateArena_ok.mp arenaGot with ⟨_, kept, ⟨⟩, rfl⟩ | ⟨_, _, _, ⟨⟩, rfl⟩ | ⟨_, _, ⟨⟩, _⟩
    · exact kept
    · simp
  obtain ⟨slot, s₂, indexed, afterIndex⟩ := bind_ok.mp afterArena
  obtain ⟨same, rfl⟩ := tableIndex_ok.mp indexed
  obtain ⟨_, s₃, stored, afterStore⟩ := bind_ok.mp afterIndex
  obtain ⟨storeReachable, rfl⟩ := store_ok.mp stored
  refine .inr (.inr ⟨arena, s₂, slot, arenaGot, same, storeReachable, ?_⟩)
  rw [modifyArena_ok afterStore arenaFound]
  rfl

/-- What `numalloc_calloc` can do: refuse, or `numalloc` the product and zero the block it gets. -/
theorem numallocCalloc_cases {thread : Nat} {env : Env} {num size r : Nat}
    (h : numallocCalloc thread env num size s = .ok (r, s')) :
    (r = 0 ∧ s' = s) ∨
      ∃ s₁, num ≠ 0 ∧ size ≠ 0 ∧ size = sizeMul num size / num ∧
        numalloc thread env (sizeMul num size) s = .ok (r, s₁) ∧
        ((r = 0 ∧ s' = s₁) ∨
          (r ≠ 0 ∧ accessible s₁.regions r (sizeMul num size) ∧
            s' = { s₁ with memory := s₁.memory.fill r (sizeMul num size) 0 })) := by
  unfold numallocCalloc at h
  dsimp only at h
  split at h
  · exact .inl ⟨(pure_ok.mp h).1.symm, (pure_ok.mp h).2.symm⟩
  rename_i nonzero
  split at h
  · exact .inl ⟨(pure_ok.mp h).1.symm, (pure_ok.mp h).2.symm⟩
  rename_i exact
  obtain ⟨ptr, s₁, allocated, afterAlloc⟩ := bind_ok.mp h
  split at afterAlloc
  · obtain ⟨_, s₂, zeroed, afterZero⟩ := bind_ok.mp afterAlloc
    obtain ⟨rfl, rfl⟩ := pure_ok.mp afterZero
    obtain ⟨reachable, rfl⟩ := memset_ok.mp zeroed
    exact .inr ⟨s₁, by omega, by omega, by omega, allocated, .inr ⟨‹_›, reachable, rfl⟩⟩
  · obtain ⟨rfl, rfl⟩ := pure_ok.mp afterAlloc
    exact .inr ⟨s₁, by omega, by omega, by omega, allocated, .inl ⟨by simpa using ‹¬ptr ≠ 0›, rfl⟩⟩

/-- The old size `numalloc_realloc` reads: the class size, or `header->size` for a negative class. -/
def ReadOldSize (memory : Memory) (ptr oldSize : Nat) : Prop :=
  (∃ slot : Fin 8, (slot.val : Int) = int32OfBits (memory.load (ptr - headerSize + 8) 4) ∧
      oldSize = sizeClassSizes slot) ∨
    (int32OfBits (memory.load (ptr - headerSize + 8) 4) < 0 ∧ oldSize = memory.load (ptr - headerSize) 8)

theorem oldBlockSize_ok {ptr oldSize : Nat} (h : oldBlockSize ptr s = .ok (oldSize, s')) :
    ReadOldSize s.memory ptr oldSize ∧ s' = s := by
  unfold oldBlockSize at h
  obtain ⟨recorded, s₁, loadedSize, afterSize⟩ := bind_ok.mp h
  obtain ⟨-, rfl, rfl⟩ := load_ok.mp loadedSize
  obtain ⟨bits, s₂, loadedClass, afterClass⟩ := bind_ok.mp afterSize
  obtain ⟨-, rfl, rfl⟩ := load_ok.mp loadedClass
  split at afterClass
  · obtain ⟨slot, s₃, indexed, afterIndex⟩ := bind_ok.mp afterClass
    obtain ⟨same, rfl⟩ := tableIndex_ok.mp indexed
    obtain ⟨rfl, rfl⟩ := pure_ok.mp afterIndex
    exact ⟨.inl ⟨slot, same, rfl⟩, rfl⟩
  · obtain ⟨rfl, rfl⟩ := pure_ok.mp afterClass
    exact ⟨.inr ⟨by omega, rfl⟩, rfl⟩

/-- What `numalloc_realloc` can do: `numalloc`, `numalloc_free`, keep the block, or move it. -/
theorem numallocRealloc_cases {thread : Nat} {env : Env} {ptr size r : Nat}
    (h : numallocRealloc thread env ptr size s = .ok (r, s')) :
    (ptr = 0 ∧ numalloc thread env size s = .ok (r, s')) ∨
      (ptr ≠ 0 ∧ size = 0 ∧ r = 0 ∧ numallocFree thread env ptr s = .ok ((), s')) ∨
      (ptr ≠ 0 ∧ size ≠ 0 ∧ ∃ oldSize, ReadOldSize s.memory ptr oldSize ∧
        ((size ≤ oldSize ∧ r = ptr ∧ s' = s) ∨
          (oldSize < size ∧ ∃ s₁, numalloc thread env size s = .ok (r, s₁) ∧
            ((r = 0 ∧ s' = s₁) ∨
              (r ≠ 0 ∧ ∃ s₂, memcpy r ptr oldSize s₁ = .ok ((), s₂) ∧
                numallocFree thread env ptr s₂ = .ok ((), s')))))) := by
  unfold numallocRealloc at h
  split at h
  · exact .inl ⟨‹_›, h⟩
  rename_i nonzero
  split at h
  · obtain ⟨_, s₁, freed, afterFree⟩ := bind_ok.mp h
    obtain ⟨rfl, rfl⟩ := pure_ok.mp afterFree
    exact .inr (.inl ⟨nonzero, ‹_›, rfl, freed⟩)
  rename_i sized
  refine .inr (.inr ⟨nonzero, sized, ?_⟩)
  obtain ⟨oldSize, s₁, read, afterRead⟩ := bind_ok.mp h
  obtain ⟨readOld, rfl⟩ := oldBlockSize_ok read
  refine ⟨oldSize, readOld, ?_⟩
  split at afterRead
  · obtain ⟨rfl, rfl⟩ := pure_ok.mp afterRead
    exact .inl ⟨‹_›, rfl, rfl⟩
  rename_i grows
  obtain ⟨newPtr, s₂, allocated, afterAlloc⟩ := bind_ok.mp afterRead
  refine .inr ⟨by omega, s₂, ?_⟩
  split at afterAlloc
  · obtain ⟨_, s₃, copied, afterCopy⟩ := bind_ok.mp afterAlloc
    obtain ⟨_, s₄, freed, afterFree⟩ := bind_ok.mp afterCopy
    obtain ⟨rfl, rfl⟩ := pure_ok.mp afterFree
    exact ⟨allocated, .inr ⟨‹_›, s₃, copied, freed⟩⟩
  · obtain ⟨rfl, rfl⟩ := pure_ok.mp afterAlloc
    exact ⟨allocated, .inl ⟨by simpa using ‹¬newPtr ≠ 0›, rfl⟩⟩

/-- What `numalloc_init` can do: nothing when initialised, or install a topology and run the pool loop. -/
theorem numallocInit_cases {platform : Platform} {poolSize : Nat} {r : Int}
    (h : numallocInit platform poolSize s = .ok (r, s')) :
    (s.initialized = true ∧ r = -1 ∧ s' = s) ∨
      (s.initialized = false ∧ discoverNumaTopology platform = none ∧ r = -1 ∧ s' = s.setTopology none) ∨
      (s.initialized = false ∧ ∃ topology s₁ created, discoverNumaTopology platform = some topology ∧
        createNodePools platform poolSize (List.range topology.numNodes.toNat) (s.setTopology (some topology)) =
          .ok (created, s₁) ∧
        ((created = false ∧ r = -1 ∧ s' = s₁) ∨ (created = true ∧ r = 0 ∧ s' = s₁.setInitialized true))) := by
  rw [numallocInit, bind_of_ok (get_ok.mpr ⟨rfl, rfl⟩)] at h
  cases initialized : s.initialized with
  | true =>
    rw [initialized] at h
    obtain ⟨rfl, rfl⟩ := pure_ok.mp h
    exact .inl ⟨rfl, rfl, rfl⟩
  | false =>
    rw [initialized] at h
    obtain ⟨_, s₁, modified, afterTopology⟩ := bind_ok.mp h
    obtain rfl := modify_ok.mp modified
    rcases discovered : discoverNumaTopology platform with _ | topology <;> simp only [discovered] at afterTopology
    · obtain ⟨rfl, rfl⟩ := pure_ok.mp afterTopology
      exact .inr (.inl ⟨rfl, rfl, rfl, rfl⟩)
    obtain ⟨created, s₂, creation, afterPools⟩ := bind_ok.mp afterTopology
    refine .inr (.inr ⟨rfl, topology, s₂, created, rfl, creation, ?_⟩)
    cases created with
    | false =>
      obtain ⟨rfl, rfl⟩ := pure_ok.mp afterPools
      exact .inl ⟨rfl, rfl, rfl⟩
    | true =>
      obtain ⟨_, s₃, finished, afterInit⟩ := bind_ok.mp afterPools
      obtain ⟨rfl, rfl⟩ := pure_ok.mp afterInit
      exact .inr ⟨rfl, rfl, modify_ok.mp finished⟩

end MemoryAllocator.Numa
