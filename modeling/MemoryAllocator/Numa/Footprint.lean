import MemoryAllocator.Numa.Safety

namespace MemoryAllocator.Numa

section Footprint

variable {s s' : State} {live : List Live} {heap : Heap}

/-- The bytes a call of `thread` may write: bytes of no block, and blocks on its own free lists. -/
def Changeable (heap : Heap) (thread x : Nat) : Prop :=
  ¬ Occupied heap x ∨ ∃ sizeClass q, q ∈ heap.lists thread sizeClass ∧ Owns heap q x

/-- The link word `[p, p + 8)` of a held block is its holder's. -/
theorem Inv.owns_link (inv : Inv s live heap) {x : Live} (member : x ∈ live) {y : Nat} (low : x.ptr ≤ y)
    (high : y < x.ptr + 8) : Owns heap x.ptr y := by
  rcases inv.liveOwned x member with ⟨block, owner, same⟩ | ⟨large, owner, same⟩
  · have := sizeClassSizes_pos block.sizeClass
    exact .small owner same low (by unfold Block.stop; omega)
  · have rounded := pageSize_le_pageRound (inv.larges large owner).1
    refine .large owner same low ?_
    unfold Large.ptr at same
    unfold Large.region Region.stop
    unfold pageSize headerSize at *
    dsimp only
    omega

/-- The link word of a block on a free list is the block's. -/
theorem Inv.owns_listed_link (inv : Inv s live heap) {thread : Nat} {sizeClass : Fin 8} {q y : Nat}
    (listed : q ∈ heap.lists thread sizeClass) (low : q ≤ y) (high : y < q + 8) : Owns heap q y := by
  obtain ⟨block, member, same, -⟩ := inv.listed thread sizeClass q listed
  have := sizeClassSizes_pos block.sizeClass
  exact .small member same low (by unfold Block.stop; omega)

/-- A byte of a held block lies in no block on a free list. -/
theorem Inv.unlisted_of_owns (inv : Inv s live heap) {x : Live} (member : x ∈ live) {q y : Nat}
    (held : Owns heap x.ptr y) (owns : Owns heap q y) (thread : Nat) (sizeClass : Fin 8) :
    q ∉ heap.lists thread sizeClass :=
  inv.owns_unique held owns ▸ inv.liveUnlisted x member thread sizeClass

/-- A step that keeps a thread's arena and its listed link words keeps its free lists. -/
theorem Inv.onFreeList_frame (inv : Inv s live heap) {thread : Nat} (sameArena : s'.arenas thread = s.arenas thread)
    (links : ∀ sizeClass q, q ∈ heap.lists thread sizeClass → ∀ y, q ≤ y → y < q + 8 → s'.memory y = s.memory y)
    (sizeClass : Fin 8) (p : Nat) : OnFreeList s' thread sizeClass p ↔ OnFreeList s thread sizeClass p := by
  have framed : ∀ arena, s.arenas thread = some arena →
      Chain (linkOf s'.memory) (arena.freeLists sizeClass) (heap.lists thread sizeClass) := fun arena found =>
    (inv.chains thread arena found sizeClass).frame fun q listed => linkOf_agree (links sizeClass q listed)
  constructor
  · rintro ⟨arena, blocks, found, chain, member⟩
    rw [sameArena] at found
    rw [chain.unique (framed arena found)] at member
    exact inv.onFreeList_iff.mpr member
  · rintro ⟨arena, blocks, found, chain, member⟩
    rw [chain.unique (inv.chains thread arena found sizeClass)] at member
    exact ⟨arena, _, sameArena ▸ found, framed arena found, member⟩

/-- `get_or_create_arena` writes no byte and touches no other thread's arena. -/
theorem getOrCreateArena_frame {thread : Nat} {env : Env} {r : Option ThreadArena}
    (h : getOrCreateArena thread env s = .ok (r, s')) :
    s'.memory = s.memory ∧ s'.regions = s.regions ∧ ∀ other, other ≠ thread → s'.arenas other = s.arenas other := by
  rcases getOrCreateArena_ok.mp h with ⟨_, _, _, rfl⟩ | ⟨_, _, _, _, rfl⟩ | ⟨_, _, _, rfl⟩
  all_goals exact ⟨rfl, rfl, fun other different => by simp [different]⟩

/-- `numalloc_free` writes only the link word of the block it frees. -/
theorem numallocFree_writes {thread : Nat} {env : Env} {ptr : Nat} (h : numallocFree thread env ptr s = .ok ((), s')) :
    (∀ y, s'.memory y ≠ s.memory y → ptr ≠ 0 ∧ ptr ≤ y ∧ y < ptr + 8) ∧
      ∀ other, other ≠ thread → s'.arenas other = s.arenas other := by
  rcases numallocFree_cases h with ⟨-, rfl⟩ |
    ⟨nonzero, -, ⟨-, unmapped⟩ | ⟨-, dropped⟩ | ⟨arena, s₁, slot, arenaGot, -, -, rfl⟩⟩
  · exact ⟨fun y changed => absurd rfl changed, fun _ _ => rfl⟩
  · rcases freeLargeBlock_cases unmapped with ⟨-, rfl⟩ | ⟨-, -, rfl⟩
    all_goals exact ⟨fun y changed => absurd rfl changed, fun _ _ => rfl⟩
  · obtain ⟨same, -, others⟩ := getOrCreateArena_frame dropped
    exact ⟨fun y changed => absurd (congrFun same y) changed, others⟩
  · obtain ⟨same, -, others⟩ := getOrCreateArena_frame arenaGot
    refine ⟨fun y changed => ⟨nonzero, ?_⟩, fun other different => ?_⟩
    · by_contra outside
      exact changed (by dsimp only; rw [Memory.store_outside (by omega), same])
    · dsimp only
      rw [Function.update_noteq different, others other different]

/-- `slow_path_alloc` writes only unoccupied bytes, and its block lies there too. -/
theorem Inv.slowPathAlloc_writes (inv : Inv s live heap) {thread : Nat} {arena : ThreadArena} {size r : Nat}
    {env : Env} (found : s.arenas thread = some arena)
    (h : Numa.slowPathAlloc thread arena size (getSizeClass size) env s = .ok (r, s')) :
    (∀ y, s'.memory y ≠ s.memory y → ¬ Occupied heap y) ∧
      (r ≠ 0 → ∀ length, length ≤ size → accessible s'.regions r length → ∀ y, r ≤ y → y < r + length →
        ¬ Occupied heap y) ∧
      ∀ other, other ≠ thread → s'.arenas other = s.arenas other := by
  rcases classFound : getSizeClass size with _ | sizeClass
  · rw [classFound] at h
    rcases allocateLargeBlock_cases h with ⟨rfl, rfl⟩ | ⟨ptr, rfl, fresh, rfl⟩
    · exact ⟨fun y changed => absurd rfl changed, fun nonzero => absurd rfl nonzero, fun _ _ => rfl⟩
    have rounded := pageSize_le_pageRound fresh.2.2.1
    refine ⟨fun y changed => ?_, fun _ length _ reach y low high => ?_, fun _ _ => rfl⟩
    · refine inv.fresh_unoccupied fresh ?_ ?_ <;> by_contra outside <;>
        exact changed (largeMemory_outside _ _ fresh.2.2.1 (by omega))
    · obtain ⟨region, mapped, holds⟩ := accessible_iff.mp reach
      unfold Region.Holds at holds
      rcases List.mem_cons.mp mapped with rfl | old
      · exact inv.fresh_unoccupied fresh (by unfold Region.stop at holds; dsimp only at holds; omega)
          (by unfold Region.stop at holds; dsimp only at holds; omega)
      · have apart := fresh.2.2.2.2 region old
        unfold Region.Apart Region.stop pageSize headerSize at *
        dsimp only at apart
        omega
  rw [classFound] at h
  rcases inv.slowPathAlloc_refill found h with ⟨rfl, rfl⟩ | ⟨slot, pool, poolFound, fits, rfl, rfl⟩
  · exact ⟨fun y changed => absurd rfl changed, fun nonzero => absurd rfl nonzero, fun _ _ => rfl⟩
  have batch : refillBatchSize * (sizeClassSizes sizeClass + headerSize) = batchBytes sizeClass := Nat.mul_comm _ _
  have head : carveHead (pool.baseAddr + pool.used) (sizeClassSizes sizeClass) refillBatchSize + sizeClassSizes sizeClass =
      pool.baseAddr + pool.used + refillBatchSize * (sizeClassSizes sizeClass + headerSize) := by
    simp only [carveHead, refillBatchSize, headerSize]
    omega
  refine ⟨fun y changed => ?_, fun _ length bounded _ y low high => ?_, fun other different => ?_⟩
  · by_contra occupied
    refine changed (carveMemory_outside _ _ _ (sizeClassSizes_pos sizeClass) _ _ ?_)
    by_contra inside
    exact inv.not_occupied_above poolFound (by omega) (by omega) occupied
  · have fitting := (getSizeClass_eq_some classFound).1
    exact inv.not_occupied_above poolFound (by simp only [carveHead, refillBatchSize] at low; omega) (by omega)
  · dsimp only
    rw [Function.update_noteq different]

/-- `numalloc` writes only unoccupied bytes, and its block was its thread's or unoccupied. -/
theorem Inv.numalloc_writes (inv : Inv s live heap) {thread : Nat} {env : Env} {size p : Nat}
    (h : Numa.numalloc thread env size s = .ok (p, s')) :
    (∀ y, s'.memory y ≠ s.memory y → ¬ Occupied heap y) ∧
      (p ≠ 0 → ∀ length, length ≤ size → accessible s'.regions p length → ∀ y, p ≤ y → y < p + length →
        Changeable heap thread y) ∧
      ∀ other, other ≠ thread → s'.arenas other = s.arenas other := by
  rcases numalloc_cases h with ⟨rfl, rfl⟩ | ⟨arena, s₁, -, -, arenaGot, fast | slow⟩
  · exact ⟨fun y changed => absurd rfl changed, fun nonzero => absurd rfl nonzero, fun _ _ => rfl⟩
  all_goals
    obtain ⟨inv₁, found, sameMemory, -, -, -⟩ := inv.getOrCreateArena arenaGot
    obtain ⟨-, -, others⟩ := getOrCreateArena_frame arenaGot
  · obtain ⟨sizeClass, sized, cached, -, rfl, rfl⟩ := fast
    have listed : arena.freeLists sizeClass ∈ heap.lists thread sizeClass := by
      obtain ⟨rest, listEq, -⟩ := (inv₁.chains thread arena found sizeClass).of_ne_zero cached
      rw [listEq]
      exact List.mem_cons_self _ _
    obtain ⟨block, owner, same, blockClass⟩ := inv₁.listed thread sizeClass _ listed
    have fitting := (getSizeClass_eq_some sized).1
    refine ⟨fun y changed => absurd (by simp [sameMemory]) changed,
      fun _ length bounded _ y low high => .inr ⟨sizeClass, _, listed, .small owner same low ?_⟩,
      fun other different => by simp [Function.update_noteq different, others other different]⟩
    unfold Block.stop
    rw [same, blockClass]
    omega
  · obtain ⟨s₂, -, slowRun, after⟩ := slow
    obtain ⟨writes, handed, others₂⟩ := inv₁.slowPathAlloc_writes found slowRun
    have final : s'.memory = s₂.memory ∧ s'.regions = s₂.regions ∧
        ∀ other, other ≠ thread → s'.arenas other = s₂.arenas other := by
      rcases after with ⟨-, rfl⟩ | ⟨-, ⟨counted, -, rfl⟩ | ⟨-, rfl⟩⟩
      all_goals exact ⟨rfl, rfl, fun other different => by simp [different]⟩
    refine ⟨fun y changed => writes y (by rwa [final.1, ← sameMemory] at changed),
      fun nonzero length bounded reach y low high => .inl (handed nonzero length bounded (final.2.1 ▸ reach) y low high),
      fun other different => by rw [final.2.2 other different, others₂ other different, others other different]⟩

/-- `numalloc_calloc` writes only bytes no block occupied and the block `numalloc` handed out. -/
theorem Inv.numallocCalloc_writes (inv : Inv s live heap) {thread : Nat} {env : Env} {num size p : Nat}
    (h : Numa.numallocCalloc thread env num size s = .ok (p, s')) :
    (∀ y, s'.memory y ≠ s.memory y → Changeable heap thread y) ∧
      ∀ other, other ≠ thread → s'.arenas other = s.arenas other := by
  rcases numallocCalloc_cases h with ⟨rfl, rfl⟩ | ⟨s₁, -, -, -, allocation, ⟨rfl, rfl⟩ | ⟨nonzero, reach, rfl⟩⟩
  · exact ⟨fun y changed => absurd rfl changed, fun _ _ => rfl⟩
  all_goals obtain ⟨writes, handed, others⟩ := inv.numalloc_writes allocation
  · exact ⟨fun y changed => .inl (writes y changed), others⟩
  refine ⟨fun y changed => ?_, others⟩
  by_cases inside : p ≤ y ∧ y < p + sizeMul num size
  · exact handed nonzero _ le_rfl reach y inside.1 inside.2
  · refine .inl (writes y fun same => changed ?_)
    show s₁.memory.fill p (sizeMul num size) 0 y = s.memory y
    rw [Memory.fill_outside (by omega), same]

/-- `numalloc_realloc` writes unoccupied bytes, its new block, and the freed block's link. -/
theorem Inv.numallocRealloc_writes (inv : Inv s live heap) {thread : Nat} {env : Env} {ptr size p : Nat}
    (held : ptr = 0 ∨ ∃ x ∈ live, x.ptr = ptr) (h : Numa.numallocRealloc thread env ptr size s = .ok (p, s')) :
    (∀ y, s'.memory y ≠ s.memory y → Changeable heap thread y ∨
        ∃ x ∈ live, x.ptr = ptr ∧ Owns heap ptr y ∧ ∀ z ∈ reallocated thread ptr size p live, z.ptr ≠ ptr) ∧
      ∀ other, other ≠ thread → s'.arenas other = s.arenas other := by
  rcases numallocRealloc_cases h with ⟨rfl, allocation⟩ | ⟨nonzero, rfl, rfl, freeing⟩ |
    ⟨nonzero, positive, oldSize, -, ⟨-, rfl, rfl⟩ | ⟨grows, s₁, allocation, ⟨rfl, rfl⟩ | ⟨moved, s₂, copied, freeing⟩⟩⟩
  · obtain ⟨writes, -, others⟩ := inv.numalloc_writes allocation
    exact ⟨fun y changed => .inl (.inl (writes y changed)), others⟩
  · obtain ⟨x, member, rfl⟩ := held.resolve_left nonzero
    obtain ⟨writes, others⟩ := numallocFree_writes freeing
    refine ⟨fun y changed => .inr ⟨x, member, rfl, inv.owns_link member (writes y changed).2.1 (writes y changed).2.2,
      fun z kept => ?_⟩, others⟩
    rw [reallocated, if_neg nonzero, if_pos rfl] at kept
    exact (mem_freed.mp kept).2
  · exact ⟨fun y changed => absurd rfl changed, fun _ _ => rfl⟩
  · obtain ⟨writes, -, others⟩ := inv.numalloc_writes allocation
    exact ⟨fun y changed => .inl (.inl (writes y changed)), others⟩
  obtain ⟨x, member, rfl⟩ := held.resolve_left nonzero
  obtain ⟨writes, handed, others⟩ := inv.numalloc_writes allocation
  obtain ⟨-, reach, rfl⟩ := memcpy_ok.mp copied
  obtain ⟨freeWrites, freeOthers⟩ := numallocFree_writes freeing
  have fresh : p ≠ x.ptr := fun same => by
    obtain ⟨heap₁, done⟩ := inv.numalloc allocation
    have nodup := done.inv.liveNodup
    rw [allocated, if_neg moved, List.map_cons, List.nodup_cons] at nodup
    exact nodup.1 (List.mem_map.mpr ⟨x, member, same.symm⟩)
  refine ⟨fun y changed => ?_, fun other different => by rw [freeOthers other different, ← others other different]⟩
  by_cases linked : s'.memory y ≠ (s₁.memory.copy p x.ptr oldSize) y
  · refine .inr ⟨x, member, rfl, inv.owns_link member (freeWrites y linked).2.1 (freeWrites y linked).2.2,
      fun z kept => ?_⟩
    rw [reallocated, if_neg nonzero, if_neg positive, if_neg (not_or.mpr ⟨moved, fresh⟩)] at kept
    rcases List.mem_cons.mp kept with rfl | kept
    · exact fresh
    · exact (mem_freed.mp kept).2
  rw [not_not] at linked
  by_cases inside : p ≤ y ∧ y < p + oldSize
  · exact .inl (handed moved oldSize grows.le reach y inside.1 inside.2)
  · refine .inl (.inl (writes y fun same => changed ?_))
    rw [linked, Memory.copy_outside (by omega), same]

end Footprint

/-- A call writes what its thread may write or the freed link; a store writes inside its block. -/
theorem Step.footprint {sameThread : Bool} {sys sys' : Sys} {action : Action} (step : Step sameThread sys action sys')
    {heap : Heap} (inv : Inv sys.state sys.live heap) :
    (∃ thread, action.caller = some thread ∧
      (∀ other, other ≠ thread → sys'.state.arenas other = sys.state.arenas other) ∧
      ∀ y, sys'.state.memory y ≠ sys.state.memory y → Changeable heap thread y ∨
        ∃ x ∈ sys.live, Owns heap x.ptr y ∧ ∀ z ∈ sys'.live, z.ptr ≠ x.ptr) ∨
    ∃ x ∈ sys.live, action = .write x.ptr ∧ sys'.state.arenas = sys.state.arenas ∧
      ∀ y, sys'.state.memory y ≠ sys.state.memory y → Owns heap x.ptr y := by
  cases step with
  | numalloc h =>
    obtain ⟨writes, -, others⟩ := inv.numalloc_writes h
    exact .inl ⟨_, rfl, others, fun y changed => .inl (.inl (writes y changed))⟩
  | calloc h =>
    obtain ⟨writes, others⟩ := inv.numallocCalloc_writes h
    exact .inl ⟨_, rfl, others, fun y changed => .inl (writes y changed)⟩
  | realloc passable h =>
    obtain ⟨writes, others⟩ := inv.numallocRealloc_writes passable.held h
    refine .inl ⟨_, rfl, others, fun y changed => ?_⟩
    rcases writes y changed with changeable | ⟨x, member, rfl, owns, released⟩
    · exact .inl changeable
    · exact .inr ⟨x, member, owns, released⟩
  | free passable h =>
    obtain ⟨writes, others⟩ := numallocFree_writes h
    refine .inl ⟨_, rfl, others, fun y changed => ?_⟩
    obtain ⟨nonzero, low, high⟩ := writes y changed
    obtain ⟨x, member, rfl⟩ := passable.held.resolve_left nonzero
    exact .inr ⟨x, member, inv.owns_link member low high, fun z kept => (mem_freed.mp kept).2⟩
  | write member low high h =>
    rename_i x address length data s'
    obtain ⟨-, rfl⟩ := write_ok.mp h
    refine .inr ⟨x, member, rfl, rfl, fun y changed => ?_⟩
    by_cases inside : address ≤ y ∧ y < address + length
    · exact inv.capacity_owns (inv.liveOwned x member) (by omega) (by omega)
    · exact absurd (Memory.write_outside (by omega)) changed

/-- No step but a client's store through a block changes a byte of its capacity while a client holds it. -/
theorem Step.keeps_held_bytes {sameThread : Bool} {sys sys' : Sys} {action : Action} (reach : Reachable sameThread sys)
    (step : Step sameThread sys action sys') {z : Live} (held : z ∈ sys.live) (kept : z ∈ sys'.live)
    (notStore : action ≠ .write z.ptr) :
    ∀ y, z.ptr ≤ y → y < z.ptr + capacity sys.state.memory z.ptr → sys'.state.memory y = sys.state.memory y := by
  obtain ⟨heap, inv, -, -⟩ := reach.sound
  intro y low high
  by_contra changed
  have owned := inv.capacity_owns (inv.liveOwned z held) low high
  rcases step.footprint inv with ⟨thread, -, -, changes⟩ | ⟨x, -, rfl, -, changes⟩
  · rcases changes y changed with (free | ⟨sizeClass, q, listed, owns⟩) | ⟨x, -, owns, released⟩
    · exact free owned.occupied
    · exact inv.unlisted_of_owns held owned owns thread sizeClass listed
    · exact released z kept (inv.owns_unique owned owns)
  · exact notStore (congrArg Action.write (inv.owns_unique (changes y changed) owned))

/-- A run: `numalloc_init`, then thread `0` takes a large block, and thread `1` takes another. -/
theorem reachable_two_large_blocks :
    ∃ s₁ s₂ carved, Reachable false ⟨s₁, [⟨0, 2097168⟩], carved⟩ ∧
      numalloc 1 ⟨0, true, none, some 4194304⟩ 4096 s₁ = .ok (4194320, s₂) := by
  obtain ⟨s, s₁, s₂, init, first, second⟩ : ∃ s s₁ s₂,
      numallocInit ⟨true, true, 0, 1, 1, true, fun _ => 0, fun _ => true, fun _ => some 1048576⟩ 65536
        ⟨none, fun _ => none, false, fun _ => none, fun _ => 0, []⟩ = .ok (0, s) ∧
      numalloc 0 ⟨0, true, none, some 2097152⟩ 4096 s = .ok (2097168, s₁) ∧
      numalloc 1 ⟨0, true, none, some 4194304⟩ 4096 s₁ = .ok (4194320, s₂) := ⟨_, _, _, rfl, rfl, rfl⟩
  exact ⟨s₁, s₂, _, .step (.init pristine_empty init) (.numalloc first), second⟩

/-- Thread `1`'s `numalloc` leaves the block thread `0` holds as it was. -/
theorem keeps_held_bytes_of_other_thread :
    ∃ s₁ s₂ carved, Reachable false ⟨s₁, [⟨0, 2097168⟩], carved⟩ ∧
      numalloc 1 ⟨0, true, none, some 4194304⟩ 4096 s₁ = .ok (4194320, s₂) ∧ Action.numalloc 1 ≠ .write 2097168 ∧
      ∀ y, 2097168 ≤ y → y < 2097168 + capacity s₁.memory 2097168 → s₂.memory y = s₁.memory y := by
  obtain ⟨s₁, s₂, carved, reach, second⟩ := reachable_two_large_blocks
  exact ⟨s₁, s₂, carved, reach, second, by decide, Step.keeps_held_bytes reach (.numalloc second)
    (List.mem_singleton_self _) (show (⟨0, 2097168⟩ : Live) ∈ allocated 1 4194320 [⟨0, 2097168⟩] by decide)
    (by decide)⟩

/-- No step but a call of `thread` itself changes its arena or its free lists: the fast paths need no lock. -/
theorem Step.keeps_other_threads {sameThread : Bool} {sys sys' : Sys} {action : Action} (reach : Reachable sameThread sys)
    (step : Step sameThread sys action sys') {thread : Nat} (notCaller : action.caller ≠ some thread) :
    sys'.state.arenas thread = sys.state.arenas thread ∧
      ∀ sizeClass p, OnFreeList sys'.state thread sizeClass p ↔ OnFreeList sys.state thread sizeClass p := by
  obtain ⟨heap, inv, -, -⟩ := reach.sound
  rcases step.footprint inv with ⟨caller, called, others, changes⟩ | ⟨x, member, -, arenas, changes⟩
  · have other : thread ≠ caller := fun same => notCaller (same ▸ called)
    refine ⟨others thread other, inv.onFreeList_frame (others thread other) fun sizeClass q listed y low high =>
      Classical.byContradiction fun changed => ?_⟩
    have link := inv.owns_listed_link listed low high
    rcases changes y changed with (free | ⟨otherClass, q', listed', owns⟩) | ⟨x, member, owns, -⟩
    · exact free link.occupied
    · rw [← inv.owns_unique link owns] at listed'
      exact other (inv.disjoint thread sizeClass caller otherClass q listed listed').1
    · exact inv.unlisted_of_owns member owns link thread sizeClass listed
  · refine ⟨congrFun arenas thread, inv.onFreeList_frame (congrFun arenas thread)
      fun sizeClass q listed y low high => Classical.byContradiction fun changed => ?_⟩
    exact inv.unlisted_of_owns member (changes y changed) (inv.owns_listed_link listed low high) thread sizeClass listed

/-- Thread `1`'s `numalloc` leaves thread `0`'s arena and free lists alone. -/
theorem keeps_other_threads_on_numalloc :
    ∃ s₁ s₂ carved, Reachable false ⟨s₁, [⟨0, 2097168⟩], carved⟩ ∧
      numalloc 1 ⟨0, true, none, some 4194304⟩ 4096 s₁ = .ok (4194320, s₂) ∧ (Action.numalloc 1).caller ≠ some 0 ∧
      s₂.arenas 0 = s₁.arenas 0 ∧ ∀ sizeClass p, OnFreeList s₂ 0 sizeClass p ↔ OnFreeList s₁ 0 sizeClass p := by
  obtain ⟨s₁, s₂, carved, reach, second⟩ := reachable_two_large_blocks
  exact ⟨s₁, s₂, carved, reach, second, by decide, Step.keeps_other_threads reach (.numalloc second) (by decide)⟩

/-- `old_size` covers the block's capacity, for a small and for a large block. -/
theorem capacity_le_of_readOldSize {memory : Memory} {ptr oldSize : Nat} (read : ReadOldSize memory ptr oldSize) :
    capacity memory ptr ≤ oldSize := by
  rcases read with ⟨slot, classBits, same⟩ | ⟨negative, same⟩
  · unfold capacity
    rw [dif_pos ⟨by omega, by omega⟩, same]
    exact (congrArg sizeClassSizes (Fin.ext (by dsimp only; omega))).le
  · unfold capacity
    rw [dif_neg (by omega), same]
    exact Nat.sub_le _ _

/-- `numalloc_realloc` keeps a held block's contents, moved or in place. -/
theorem reachable_realloc_keeps_contents {sameThread : Bool} {sys : Sys} (reach : Reachable sameThread sys)
    {x : Live} (held : x ∈ sys.live) {thread : Nat} {env : Env} {size p : Nat} {s' : State}
    (h : numallocRealloc thread env x.ptr size sys.state = .ok (p, s')) (positive : size ≠ 0) :
    (p = 0 ∨ p = x.ptr → ∀ i, i < capacity sys.state.memory x.ptr →
        s'.memory (x.ptr + i) = sys.state.memory (x.ptr + i)) ∧
      (p ≠ 0 → ∀ i, i < size → i < capacity sys.state.memory x.ptr →
        s'.memory (p + i) = sys.state.memory (x.ptr + i)) := by
  obtain ⟨heap, inv, -, -⟩ := reach.sound
  have owned : ∀ i, i < capacity sys.state.memory x.ptr → Owns heap x.ptr (x.ptr + i) :=
    fun i below => inv.capacity_owns (inv.liveOwned x held) (Nat.le_add_right _ _) (by omega)
  have unwritten : ∀ {r s₁}, numalloc thread env size sys.state = .ok (r, s₁) →
      ∀ i, i < capacity sys.state.memory x.ptr → s₁.memory (x.ptr + i) = sys.state.memory (x.ptr + i) :=
    fun allocation i below => Classical.byContradiction fun changed =>
      (inv.numalloc_writes allocation).1 _ changed (owned i below).occupied
  rcases numallocRealloc_cases h with ⟨zero, -⟩ | ⟨-, zero, -⟩ |
    ⟨nonzero, -, oldSize, read, ⟨-, rfl, rfl⟩ | ⟨grows, s₁, allocation, ⟨rfl, rfl⟩ | ⟨moved, s₂, copied, freeing⟩⟩⟩
  · exact absurd zero (inv.ptr_ne_zero held)
  · exact absurd zero positive
  · exact ⟨fun _ _ _ => rfl, fun _ _ _ _ => rfl⟩
  · exact ⟨fun _ => unwritten allocation, fun nonnull => absurd rfl nonnull⟩
  have fresh : p ≠ x.ptr := fun same =>
    reach.numalloc_fresh allocation (same ▸ List.mem_map_of_mem Live.ptr held)
  refine ⟨fun stays => absurd stays (not_or.mpr ⟨moved, fresh⟩), fun _ i bounded below => ?_⟩
  obtain ⟨-, reachable, rfl⟩ := memcpy_ok.mp copied
  have covered := capacity_le_of_readOldSize read
  have target : Changeable heap thread (p + i) :=
    (inv.numalloc_writes allocation).2.1 moved oldSize grows.le reachable (p + i) (Nat.le_add_right _ _) (by omega)
  have kept : s'.memory (p + i) = s₁.memory.copy p x.ptr oldSize (p + i) := by
    by_contra changed
    obtain ⟨-, low, high⟩ := (numallocFree_writes freeing).1 _ changed
    have link := inv.owns_link held low high
    rcases target with free | ⟨sizeClass, q, listed, owns⟩
    · exact free link.occupied
    · exact inv.unlisted_of_owns held link owns thread sizeClass listed
  rw [kept, Memory.copy_agree_source (show i + 1 ≤ oldSize by omega) _ (le_refl _) (Nat.lt_succ_self _),
    Nat.add_sub_cancel_left, unwritten allocation i below]

/-- Growing a large block from 4096 to 8192 bytes moves it with its bytes. -/
theorem reachable_realloc_keeps_contents_large :
    ∃ s₁ s₂ carved, Reachable false ⟨s₁, [⟨0, 2097168⟩], carved⟩ ∧
      numallocRealloc 0 ⟨0, true, none, some 4194304⟩ 2097168 8192 s₁ = .ok (4194320, s₂) ∧
      (4194320 = 0 ∨ 4194320 = 2097168 → ∀ i, i < capacity s₁.memory 2097168 →
        s₂.memory (2097168 + i) = s₁.memory (2097168 + i)) ∧
      (4194320 ≠ 0 → ∀ i, i < 8192 → i < capacity s₁.memory 2097168 →
        s₂.memory (4194320 + i) = s₁.memory (2097168 + i)) := by
  obtain ⟨s, s₁, init, first, moved⟩ : ∃ s s₁,
      numallocInit ⟨true, true, 0, 1, 1, true, fun _ => 0, fun _ => true, fun _ => some 1048576⟩ 65536
        ⟨none, fun _ => none, false, fun _ => none, fun _ => 0, []⟩ = .ok (0, s) ∧
      numalloc 0 ⟨0, true, none, some 2097152⟩ 4096 s = .ok (2097168, s₁) ∧
      (numallocRealloc 0 ⟨0, true, none, some 4194304⟩ 2097168 8192 s₁).toOption.map Prod.fst = some 4194320 :=
    ⟨_, _, rfl, rfl, by decide⟩
  obtain ⟨s₂, second⟩ := ok_of_toOption moved
  have reach : Reachable false ⟨s₁, [⟨0, 2097168⟩], _⟩ := .step (.init pristine_empty init) (.numalloc first)
  exact ⟨s₁, s₂, _, reach, second,
    reachable_realloc_keeps_contents reach (x := ⟨0, 2097168⟩) (List.mem_singleton_self _) second (by decide)⟩

end MemoryAllocator.Numa
