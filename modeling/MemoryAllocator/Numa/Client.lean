import MemoryAllocator.Numa.Run

namespace MemoryAllocator.Numa

/-- `aligned_size` holds the request and its header while the huge-page round-up does not wrap. -/
theorem le_largeBlockSize {size : Nat} (fits : size + headerSize + (hugePageSize - 1) < sizeBound) :
    size + headerSize ≤ largeBlockSize size := by
  unfold largeBlockSize
  rw [sizeAdd_of_lt (by omega)]
  dsimp only
  split_ifs
  · exact le_alignUp (by unfold hugePageSize; omega) fits
  · exact le_rfl

/-- A block `numalloc(size)` hands out holds `size` mapped bytes, when the large-block sum does not wrap. -/
theorem reachable_numalloc_usable {sameThread : Bool} {sys : Sys} (reach : Reachable sameThread sys)
    {thread : Nat} {env : Env} {size p : Nat} {s' : State} (h : numalloc thread env size sys.state = .ok (p, s'))
    (nonzero : p ≠ 0) (fits : size + headerSize + (hugePageSize - 1) < sizeBound) :
    size ≤ capacity s'.memory p ∧ accessible s'.regions p size := by
  obtain ⟨heap, inv, -, -⟩ := reach.sound
  rcases classFound : getSizeClass size with _ | sizeClass
  · rcases numalloc_cases h with ⟨zero, -⟩ | ⟨arena, s₁, -, -, -, ⟨_, sized, -⟩ | ⟨s₂, -, slowRun, after⟩⟩
    · exact absurd zero nonzero
    · rw [classFound] at sized
      cases sized
    rw [classFound] at slowRun
    rcases allocateLargeBlock_cases slowRun with ⟨zero, -⟩ | ⟨ptr, rfl, -, rfl⟩
    · exact absurd zero nonzero
    have final : s'.memory = largeMemory s₁.memory ptr (largeBlockSize size) arena.numaNode ∧
        s'.regions = ⟨ptr, pageRound pageSize (largeBlockSize size)⟩ :: s₁.regions := by
      rcases after with ⟨-, rfl⟩ | ⟨-, ⟨counted, -, rfl⟩ | ⟨-, rfl⟩⟩
      all_goals exact ⟨rfl, rfl⟩
    have holds := le_largeBlockSize fits
    have rounded := le_pageRound (largeBlockSize size)
    rw [final.1, capacity_of_large_header (largeMemory_header _ (largeBlockSize_lt size) _), final.2]
    exact ⟨by omega, accessible_within (List.mem_cons_self _ _) ⟨by dsimp only; omega, by unfold Region.stop; dsimp only; omega⟩⟩
  obtain ⟨heap', done⟩ := inv.numalloc h
  rcases done.shape nonzero with ⟨block, member, same, sized⟩ | ⟨-, -, -, large⟩
  · have fitting := (getSizeClass_eq_some sized).1
    obtain ⟨slot, pool, found, low, high⟩ := done.inv.block_inside member
    have mapped : pool.region ∈ s'.regions := done.inv.regions.mem_iff.mpr
      (List.mem_append_left _ (List.mem_append_right _ (NodePool.region_mem found)))
    rw [← same, Block.ptr, capacity_of_header (done.inv.headers block member)]
    exact ⟨fitting, accessible_within mapped ⟨by omega, by unfold Block.stop Block.ptr at high; omega⟩⟩
  · rw [large] at classFound
    cases classFound

/-- After `numalloc_init`, thread `0`'s `numalloc(4096)` gets a large block with 4096 mapped bytes. -/
theorem reachable_numalloc_usable_large :
    ∃ s s₁, Reachable false ⟨s, [], []⟩ ∧ numalloc 0 ⟨0, true, none, some 2097152⟩ 4096 s = .ok (2097168, s₁) ∧
      4096 ≤ capacity s₁.memory 2097168 ∧ accessible s₁.regions 2097168 4096 := by
  obtain ⟨s, s₁, init, first⟩ : ∃ s s₁,
      numallocInit ⟨true, true, 0, 1, 1, true, fun _ => 0, fun _ => true, fun _ => some 1048576⟩ 65536
        ⟨none, fun _ => none, false, fun _ => none, fun _ => 0, []⟩ = .ok (0, s) ∧
      numalloc 0 ⟨0, true, none, some 2097152⟩ 4096 s = .ok (2097168, s₁) := ⟨_, _, rfl, rfl⟩
  have reach : Reachable false ⟨s, [], []⟩ := .init pristine_empty init
  exact ⟨s, s₁, reach, first, reachable_numalloc_usable reach first (by decide) (by decide)⟩

/-- The head link a free stores in the pushed block reads back as the head. -/
theorem Inv.load_head_link (inv : Inv s live heap) {thread : Nat} {arena : ThreadArena}
    (found : s.arenas thread = some arena) (sizeClass : Fin 8) (memory : Memory) (ptr : Nat) :
    (memory.store ptr 8 (arena.freeLists sizeClass)).load ptr 8 = arena.freeLists sizeClass := by
  rw [Memory.load_store_self]
  exact Nat.mod_eq_of_lt (inv.head_lt found sizeClass)

/-- A freed small block comes back from its thread's next `numalloc` of its class, lists as before. -/
theorem reachable_free_then_numalloc {sameThread : Bool} {sys : Sys} (reach : Reachable sameThread sys)
    {x : Live} (held : x ∈ sys.live) {thread : Nat} {arena : ThreadArena}
    (found : sys.state.arenas thread = some arena) {sizeClass : Fin 8}
    (header : int32OfBits (sys.state.memory.load (x.ptr - headerSize + 8) 4) = sizeClass)
    {env env' : Env} {s₁ : State} (freeing : numallocFree thread env x.ptr sys.state = .ok ((), s₁))
    {size : Nat} (positive : size ≠ 0) (sized : getSizeClass size = some sizeClass) :
    ∃ s₂ arena₂, numalloc thread env' size s₁ = .ok (x.ptr, s₂) ∧ s₂.arenas thread = some arena₂ ∧
      arena₂.freeLists = arena.freeLists ∧ s₂.memory = s₁.memory := by
  obtain ⟨heap, inv, -, -⟩ := reach.sound
  have nonzero := inv.ptr_ne_zero held
  rcases numallocFree_cases freeing with ⟨zero, -⟩ |
    ⟨-, -, ⟨negative, -⟩ | ⟨-, dropped⟩ | ⟨arena₁, s', slot, arenaGot, classBits, mapped, pushed⟩⟩
  · exact absurd zero nonzero
  · rw [header] at negative
    omega
  · rw [getOrCreateArena_found found] at dropped
    cases dropped
  rw [getOrCreateArena_found found] at arenaGot
  obtain ⟨same, rfl⟩ := Prod.mk.inj (Except.ok.inj arenaGot)
  obtain rfl := Option.some.inj same
  obtain rfl : slot = sizeClass := Fin.ext (by omega)
  have active : s₁.initialized = true := by rw [pushed]; exact inv.initialized
  have cached : s₁.arenas thread = some { arena with
      freeLists := Function.update arena.freeLists slot x.ptr, statsFrees := sizeAdd arena.statsFrees 1 } := by
    rw [pushed]
    exact Function.update_same _ _ _
  have popped : numalloc thread env' size s₁ = _ := numalloc_pop positive active cached sized
    (by dsimp only; rwa [Function.update_same]) (by rw [pushed]; dsimp only; rwa [Function.update_same])
  have link : s₁.memory.load x.ptr 8 = arena.freeLists slot := by
    rw [pushed]
    exact inv.load_head_link found slot _ _
  dsimp only at popped
  rw [Function.update_same, link] at popped
  refine ⟨_, _, popped, Function.update_same _ _ _, ?_, by rw [State.setArena_eq]⟩
  dsimp only
  rw [Function.update_idem, Function.update_eq_self]

/-- Thread `0` takes a 16-byte block, frees it, and gets it back from its next `numalloc(16)`. -/
theorem reachable_free_then_numalloc_small :
    ∃ s₁ s₂ carved arena, Reachable false ⟨s₁, [⟨0, 1050608⟩], carved⟩ ∧ s₁.arenas 0 = some arena ∧
      numallocFree 0 ⟨0, true, none, none⟩ 1050608 s₁ = .ok ((), s₂) ∧
      ∃ s₃ arena₃, numalloc 0 ⟨0, true, none, none⟩ 16 s₂ = .ok (1050608, s₃) ∧ s₃.arenas 0 = some arena₃ ∧
        arena₃.freeLists = arena.freeLists ∧ s₃.memory = s₂.memory := by
  obtain ⟨s, s₁, init, first, header, ⟨arena, found⟩, freed⟩ : ∃ s s₁,
      numallocInit ⟨true, true, 0, 1, 1, true, fun _ => 0, fun _ => true, fun _ => some 1048576⟩ 65536
        ⟨none, fun _ => none, false, fun _ => none, fun _ => 0, []⟩ = .ok (0, s) ∧
      numalloc 0 ⟨0, true, none, none⟩ 16 s = .ok (1050608, s₁) ∧
      int32OfBits (s₁.memory.load (1050608 - headerSize + 8) 4) = ((0 : Fin 8) : Nat) ∧
      (∃ arena, s₁.arenas 0 = some arena) ∧
      (numallocFree 0 ⟨0, true, none, none⟩ 1050608 s₁).toOption.map Prod.fst = some () :=
    ⟨_, _, rfl, rfl, by decide, ⟨_, rfl⟩, by decide⟩
  obtain ⟨s₂, freeing⟩ := ok_of_toOption freed
  have reach : Reachable false ⟨s₁, [⟨0, 1050608⟩], _⟩ := .step (.init pristine_empty init) (.numalloc first)
  exact ⟨s₁, s₂, _, arena, reach, found, freeing, reachable_free_then_numalloc reach (x := ⟨0, 1050608⟩)
    (List.mem_singleton_self _) found header freeing (by decide) (by decide)⟩

end MemoryAllocator.Numa
