import MemoryAllocator.Numa.Calls

namespace MemoryAllocator.Numa

/-- The clients' blocks after `ptr` is freed. -/
def freed (ptr : Nat) (live : List Live) : List Live := live.filter fun x => x.ptr ≠ ptr

@[simp] theorem mem_freed {ptr : Nat} {live : List Live} {x : Live} :
    x ∈ freed ptr live ↔ x ∈ live ∧ x.ptr ≠ ptr := by
  simp [freed]

theorem freed_sublist (ptr : Nat) (live : List Live) : (freed ptr live).Sublist live := List.filter_sublist _

/-- `munmap` of a mapping whose neighbours are all apart from it removes exactly that mapping. -/
theorem unmapRegions_exact {regions : List Region} {target : Region} (aligned : target.base % pageSize = 0)
    {length : Nat} (positive : 0 < length) (rounded : target.length = pageRound pageSize length)
    (lengths : ∀ region ∈ regions, 0 < region.length)
    (apart : ∀ region ∈ regions, region ≠ target → region.Apart target) :
    unmapRegions regions target.base length = regions.filter (· ≠ target) := by
  unfold unmapRegions
  rw [if_pos ⟨aligned, positive⟩, show target.base + pageRound pageSize length = target.stop by rw [Region.stop, rounded]]
  induction regions with
  | nil => rfl
  | cons region rest ih =>
    rw [List.flatMap_cons, List.filter_cons,
      ih (fun r member => lengths r (List.mem_cons_of_mem _ member))
        (fun r member => apart r (List.mem_cons_of_mem _ member))]
    by_cases same : region = target
    · subst same
      rw [Region.cut_self, if_neg (by simp)]
      rfl
    · rw [Region.cut_apart (lengths region (List.mem_cons_self _ _)) (apart region (List.mem_cons_self _ _) same),
        if_pos (by simpa using same)]
      rfl

/-- The heap with `p` pushed on the free list of `thread` for `sizeClass`. -/
theorem Heap.mem_setList_cons {heap : Heap} {thread : Nat} {sizeClass : Fin 8} {p q other : Nat}
    {otherClass : Fin 8} :
    q ∈ (heap.setList thread sizeClass (p :: heap.lists thread sizeClass)).lists other otherClass ↔
      (other = thread ∧ otherClass = sizeClass ∧ q = p) ∨ q ∈ heap.lists other otherClass := by
  rw [Heap.setList_lists]
  split_ifs with here
  · obtain ⟨rfl, rfl⟩ := here
    simp
  · constructor
    · exact .inr
    · rintro (⟨rfl, rfl, -⟩ | listed)
      · exact absurd ⟨rfl, rfl⟩ here
      · exact listed

section Invariant

variable {s : State} {live : List Live} {heap : Heap}

theorem Inv.listed_lt (inv : Inv s live heap) {thread : Nat} {sizeClass : Fin 8} {p : Nat}
    (listed : p ∈ heap.lists thread sizeClass) : p < sizeBound := by
  obtain ⟨block, member, rfl, -⟩ := inv.listed thread sizeClass p listed
  obtain ⟨slot, pool, found, -, high⟩ := inv.block_inside member
  have within := inv.pools slot pool found
  have rounded := le_pageRound pool.totalSize
  have size := sizeClassSizes_pos block.sizeClass
  unfold Block.stop NodePool.region Region.stop userSpaceTop sizeBound at *
  dsimp only at high
  omega

theorem Inv.head_lt (inv : Inv s live heap) {thread : Nat} {arena : ThreadArena}
    (found : s.arenas thread = some arena) (sizeClass : Fin 8) : arena.freeLists sizeClass < sizeBound := by
  rcases (inv.chains thread arena found sizeClass).head_mem with empty | listed
  · rw [empty]
    decide
  · exact inv.listed_lt listed

/-- The class `numalloc_free` reads for a held block: its class, or `-1` for a large block. -/
theorem Inv.header_class (inv : Inv s live heap) {x : Live} (member : x ∈ live) :
    (∃ block ∈ heap.blocks, block.ptr = x.ptr ∧
        int32OfBits (s.memory.load (x.ptr - headerSize + 8) 4) = block.sizeClass) ∨
      ∃ large ∈ heap.larges, large.ptr = x.ptr ∧ int32OfBits (s.memory.load (x.ptr - headerSize + 8) 4) = -1 := by
  rcases inv.liveOwned x member with ⟨block, owner, same⟩ | ⟨large, owner, same⟩
  · have small := block.sizeClass.isLt
    refine .inl ⟨block, owner, same, ?_⟩
    rw [← same, Block.ptr, Nat.add_sub_cancel, (inv.headers block owner).2.1,
      int32OfBits_int32Bits (by omega) (by omega)]
  · refine .inr ⟨large, owner, same, ?_⟩
    rw [← same, Large.ptr, Nat.add_sub_cancel, (inv.larges large owner).2.2.2.2.1]
    decide

/-- A client giving up a block without the allocator taking it back keeps the invariant. -/
theorem Inv.forget (inv : Inv s live heap) (ptr : Nat) : Inv s (freed ptr live) heap :=
  { inv with
    liveNodup := inv.liveNodup.sublist ((freed_sublist ptr live).map _)
    liveOwned := fun x member => inv.liveOwned x (mem_freed.mp member).1
    liveUnlisted := fun x member => inv.liveUnlisted x (mem_freed.mp member).1
    liveArena := fun x member => inv.liveArena x (mem_freed.mp member).1 }

theorem Inv.ptr_ne_zero (inv : Inv s live heap) {x : Live} (member : x ∈ live) : x.ptr ≠ 0 := by
  rcases inv.liveOwned x member with ⟨block, -, same⟩ | ⟨large, -, same⟩
  · rw [← same, Block.ptr, headerSize]
    omega
  · rw [← same, Large.ptr, headerSize]
    omega

theorem Inv.freed_null (inv : Inv s live heap) : freed 0 live = live :=
  List.filter_eq_self.mpr fun _ member => decide_eq_true (inv.ptr_ne_zero member)

/-- `numalloc_free` of a small block pushes it on its class's list, linked to the old head. -/
theorem Inv.push (inv : Inv s live heap) {x : Live} (member : x ∈ live) {block : Block}
    (owner : block ∈ heap.blocks) (same : block.ptr = x.ptr) {thread : Nat} {arena : ThreadArena}
    (found : s.arenas thread = some arena) (statsFrees : Nat) :
    Inv { s with
        memory := s.memory.store x.ptr 8 (arena.freeLists block.sizeClass)
        arenas := Function.update s.arenas thread (some { arena with
          freeLists := Function.update arena.freeLists block.sizeClass x.ptr
          statsFrees := statsFrees }) }
      (freed x.ptr live) (heap.setList thread block.sizeClass (x.ptr :: heap.lists thread block.sizeClass)) := by
  have roomy := sizeClassSizes_pos block.sizeClass
  have unlisted := inv.liveUnlisted x member
  have stored : Inv { s with memory := s.memory.store x.ptr 8 (arena.freeLists block.sizeClass) } live heap :=
    inv.write_range unlisted (fun y outside => Memory.store_outside outside)
    fun y low high => .small owner same low (by unfold Block.stop; omega)
  have link : linkOf (s.memory.store x.ptr 8 (arena.freeLists block.sizeClass)) x.ptr =
      arena.freeLists block.sizeClass := by
    rw [linkOf, Memory.load_store_self,
      Nat.mod_eq_of_lt (lt_of_lt_of_eq (inv.head_lt found block.sizeClass) (by unfold sizeBound; norm_num))]
  have nonzero : x.ptr ≠ 0 := fun zero => by
    rw [← same, Block.ptr, headerSize] at zero
    omega
  refine { stored.forget x.ptr with
    chains := ?_
    unused := ?_
    listed := ?_
    nodup := ?_
    disjoint := ?_
    liveUnlisted := ?_
    liveArena := ?_ }
  · intro other pushed foundOther otherClass
    rw [Heap.setList_lists]
    by_cases here : other = thread
    · subst here
      simp only [Function.update_same, Option.some.injEq] at foundOther
      subst foundOther
      by_cases sameClass : otherClass = block.sizeClass
      · subst sameClass
        simp only [and_self, if_true, Function.update_same]
        exact .link nonzero (by rw [link]; exact stored.chains other arena found _)
      · simpa [sameClass] using stored.chains other arena found otherClass
    · simp only [Function.update_noteq here] at foundOther
      simpa [here] using stored.chains other pushed foundOther otherClass
  · intro other absent
    by_cases here : other = thread
    · subst here
      simp at absent
    · simpa [here] using inv.unused other (by simpa [Function.update_noteq here] using absent)
  · intro other otherClass p listed
    rcases Heap.mem_setList_cons.mp listed with ⟨-, rfl, rfl⟩ | listed
    · exact ⟨block, owner, same, rfl⟩
    · exact inv.listed other otherClass p listed
  · intro other otherClass
    rw [Heap.setList_lists]
    split_ifs with here
    · obtain ⟨rfl, rfl⟩ := here
      exact List.nodup_cons.mpr ⟨unlisted _ _, inv.nodup _ _⟩
    · exact inv.nodup other otherClass
  · intro other otherClass third thirdClass p listed thirdListed
    rcases Heap.mem_setList_cons.mp listed with ⟨here, hereClass, pushed⟩ | listed <;>
      rcases Heap.mem_setList_cons.mp thirdListed with ⟨there, thereClass, pushed'⟩ | thirdListed
    · exact ⟨here.trans there.symm, hereClass.trans thereClass.symm⟩
    · exact absurd (pushed ▸ thirdListed) (unlisted third thirdClass)
    · exact absurd (pushed' ▸ listed) (unlisted other otherClass)
    · exact inv.disjoint other otherClass third thirdClass p listed thirdListed
  · intro y kept other otherClass listed
    obtain ⟨held, different⟩ := mem_freed.mp kept
    rcases Heap.mem_setList_cons.mp listed with ⟨-, -, pushed⟩ | listed
    · exact different pushed
    · exact inv.liveUnlisted y held other otherClass listed
  · intro y kept
    by_cases here : y.thread = thread
    · show Function.update s.arenas thread _ y.thread ≠ none
      rw [here]
      simp
    · simpa [Function.update_noteq here] using inv.liveArena y (mem_freed.mp kept).1

theorem Settled.push (settled : Settled s live heap) {x : Live} (member : x ∈ live) {sizeClass : Fin 8}
    {thread : Nat} {arena : ThreadArena}
    (found : s.arenas thread = some arena) (statsFrees : Nat) (taken : x.thread = thread) (memory : Memory) :
    Settled { s with
        memory := memory
        arenas := Function.update s.arenas thread (some { arena with
          freeLists := Function.update arena.freeLists sizeClass x.ptr
          statsFrees := statsFrees }) }
      (freed x.ptr live) (heap.setList thread sizeClass (x.ptr :: heap.lists thread sizeClass)) := by
  have moved := (settled.setArena thread { arena with
      freeLists := Function.update arena.freeLists sizeClass x.ptr
      statsFrees := statsFrees } fun old found' => by rw [found] at found'; cases found'; rfl).congr
    (show ({ s with memory := memory, arenas := _ } : State).arenas = _ from rfl)
  refine ⟨fun other otherMember => ?_, fun y kept => moved.homeLive y (mem_freed.mp kept).1, ?_⟩
  · rcases settled.conserved other otherMember with held | ⟨third, thirdClass, listed⟩
    · obtain ⟨y, heldY, pointer⟩ := List.mem_map.mp held
      by_cases pushed : other.ptr = x.ptr
      · exact .inr ⟨thread, sizeClass, Heap.mem_setList_cons.mpr (.inl ⟨rfl, rfl, pushed⟩)⟩
      · exact .inl (List.mem_map.mpr ⟨y, mem_freed.mpr ⟨heldY, pointer ▸ pushed⟩, pointer⟩)
    · exact .inr ⟨third, thirdClass, Heap.mem_setList_cons.mpr (.inr listed)⟩
  · intro other otherClass p listed third thirdMember pointer
    rcases Heap.mem_setList_cons.mp listed with ⟨rfl, -, rfl⟩ | listed
    · obtain ⟨home, homeFound, node⟩ := settled.homeLive x member third thirdMember pointer
      rw [taken, found] at homeFound
      cases homeFound
      exact ⟨_, Function.update_same _ _ _, node⟩
    · exact moved.homeListed other otherClass p listed third thirdMember pointer

/-- `numalloc_free` of a large block: its mapping goes, and with it the block. -/
theorem Inv.unmap (inv : Inv s live heap) {ptr : Nat} {large : Large} (owner : large ∈ heap.larges)
    (same : large.ptr = ptr) :
    Inv { s with regions := unmapRegions s.regions large.base large.size } (freed ptr live)
      { heap with larges := heap.larges.filter fun other => other.region ≠ large.region } := by
  obtain ⟨positive, -, aligned, -⟩ := inv.larges large owner
  have mine : large.region ∈ heap.mappings s.nodePools :=
    List.mem_append_left _ (List.mem_append_left _ (List.mem_map_of_mem _ owner))
  have apart : ∀ region ∈ heap.mappings s.nodePools, region ≠ large.region → region.Apart large.region :=
    fun region mapped different => inv.apart.forall (by intro _ _ apart; exact apart.symm) mapped mine different
  have notSelf : ∀ region ∈ heap.mappings s.nodePools, region.Apart large.region → region ≠ large.region := by
    rintro region - separate rfl
    have rounded := pageSize_le_pageRound positive
    unfold Region.Apart Large.region Region.stop pageSize at *
    dsimp only at separate
    omega
  have mappings : Heap.mappings { heap with larges := heap.larges.filter fun other => other.region ≠ large.region }
      s.nodePools = (heap.mappings s.nodePools).filter (· ≠ large.region) := by
    have kept : ∀ region ∈ poolRegions s.nodePools ++ heap.foreign, decide (region ≠ large.region) = true := by
      intro region member
      have mapped : region ∈ heap.mappings s.nodePools := by
        unfold Heap.mappings
        rw [List.append_assoc]
        exact List.mem_append_right _ member
      refine decide_eq_true (notSelf region mapped ?_)
      have pairwise := List.pairwise_append.mp (show (heap.larges.map Large.region ++
        (poolRegions s.nodePools ++ heap.foreign)).Pairwise Region.Apart by rw [← List.append_assoc]; exact inv.apart)
      exact (pairwise.2.2 _ (List.mem_map_of_mem _ owner) region member).symm
    unfold Heap.mappings
    rw [List.append_assoc, List.append_assoc, List.filter_append, List.filter_eq_self.mpr kept, List.filter_map]
    rfl
  have regions : unmapRegions s.regions large.base large.size = s.regions.filter (· ≠ large.region) :=
    unmapRegions_exact aligned positive rfl inv.positive
      fun region mapped => apart region (inv.regions.mem_iff.mp mapped)
  refine { inv.forget ptr with
    regions := ?_
    apart := ?_
    positive := ?_
    larges := ?_
    liveOwned := ?_ }
  · rw [regions, mappings]
    exact inv.regions.filter _
  · rw [mappings]
    exact inv.apart.sublist (List.filter_sublist _)
  · intro region mapped
    rw [regions] at mapped
    exact inv.positive region (List.mem_filter.mp mapped).1
  · intro other kept
    exact inv.larges other (List.mem_filter.mp kept).1
  · intro y kept
    obtain ⟨held, different⟩ := mem_freed.mp kept
    rcases inv.liveOwned y held with ⟨block, blockOwner, pointer⟩ | ⟨other, otherOwner, pointer⟩
    · exact .inl ⟨block, blockOwner, pointer⟩
    · refine .inr ⟨other, List.mem_filter.mpr ⟨otherOwner, decide_eq_true fun sameRegion => different ?_⟩, pointer⟩
      rw [← pointer, ← same, Large.ptr, Large.ptr, show other.base = large.base from congrArg Region.base sameRegion]

theorem Settled.unmap (settled : Settled s live heap) (inv : Inv s live heap) {ptr : Nat} {large : Large}
    (owner : large ∈ heap.larges) (same : large.ptr = ptr) (regions : List Region) :
    Settled { s with regions := regions } (freed ptr live)
      { heap with larges := heap.larges.filter fun other => other.region ≠ large.region } := by
  refine ⟨fun block member => ?_, fun y kept => settled.homeLive y (mem_freed.mp kept).1, settled.homeListed⟩
  rcases settled.conserved block member with held | listed
  · obtain ⟨y, heldY, pointer⟩ := List.mem_map.mp held
    have apart := inv.block_apart_large member owner
    have inside := inv.large_header_inside owner
    have roomy := sizeClassSizes_pos block.sizeClass
    have different : y.ptr ≠ ptr := by
      rw [pointer, ← same]
      unfold Block.stop Block.ptr Large.ptr headerSize at *
      omega
    exact .inl (List.mem_map.mpr ⟨y, mem_freed.mpr ⟨heldY, different⟩, pointer⟩)
  · exact .inr listed

/-- What freeing `ptr` on `thread` leaves: the invariant without `ptr`, the same carved blocks and pools. -/
structure Freed (s s' : State) (live : List Live) (heap : Heap) (thread ptr : Nat) (heap' : Heap) : Prop where
  inv : Inv s' (freed ptr live) heap'
  blocks : heap'.blocks = heap.blocks
  pools : s'.nodePools = s.nodePools
  settled : Settled s live heap → (∀ x ∈ live, x.ptr = ptr → x.thread = thread) →
    Settled s' (freed ptr live) heap'

/-- `numalloc_free` of `NULL` or of a block a client holds keeps the invariant. -/
theorem Inv.numallocFree (inv : Inv s live heap) {thread : Nat} {env : Env} {ptr : Nat} {s' : State}
    (held : ptr = 0 ∨ ∃ x ∈ live, x.ptr = ptr) (h : numallocFree thread env ptr s = .ok ((), s')) :
    ∃ heap', Freed s s' live heap thread ptr heap' := by
  rcases numallocFree_cases h with ⟨rfl, rfl⟩ |
    ⟨nonzero, -, unmapped | ⟨-, dropped⟩ | ⟨arena, s₁, slot, arenaGot, slotClass, -, rfl⟩⟩
  · exact ⟨heap, by rw [inv.freed_null]; exact inv, rfl, rfl, fun settled _ => by rw [inv.freed_null]; exact settled⟩
  all_goals obtain ⟨x, member, rfl⟩ := held.resolve_left nonzero
  · rcases inv.header_class member with ⟨block, -, -, classBits⟩ | ⟨large, owner, same, -⟩
    · rw [classBits] at unmapped
      omega
    rcases freeLargeBlock_cases unmapped.2 with ⟨zero, -⟩ | ⟨-, -, rfl⟩
    · exact absurd zero nonzero
    have base : x.ptr - headerSize = large.base := by rw [← same, Large.ptr, Nat.add_sub_cancel]
    rw [base, (inv.larges large owner).2.2.2.1]
    exact ⟨_, inv.unmap owner same, rfl, rfl, fun settled _ => settled.unmap inv owner same _⟩
  · rcases getOrCreateArena_ok.mp dropped with ⟨_, _, ⟨⟩, _⟩ | ⟨_, _, _, ⟨⟩, _⟩ | ⟨absent, -, -, rfl⟩
    refine ⟨heap, inv.forget x.ptr, rfl, rfl, fun _ taken => absurd ?_ (inv.liveArena x member)⟩
    rw [taken x member rfl]
    exact absent
  · obtain ⟨inv₁, found, -, -, pools, settled₁⟩ := inv.getOrCreateArena arenaGot
    rcases inv.header_class member with ⟨block, owner, same, classBits⟩ | ⟨-, -, -, classBits⟩
    · obtain rfl : slot = block.sizeClass := Fin.ext (by omega)
      exact ⟨_, inv₁.push member owner same found _, rfl, pools,
        fun settled taken => (settled₁ settled).push member found _ (taken x member rfl) _⟩
    · omega

/-- What a call leaves: the invariant over the blocks held after it, and the blocks it carved. -/
structure Kept (s s' : State) (live live' : List Live) (heap heap' : Heap) (owned : Prop) : Prop where
  inv : Inv s' live' heap'
  carved : ∃ fresh, heap'.blocks = fresh ++ heap.blocks ∧ fresh.map Block.ptr = carvedBetween s s'
  settled : Settled s live heap → owned → Settled s' live' heap'

theorem Inv.keptNothing (inv : Inv s live heap) (owned : Prop) : Kept s s live live heap heap owned :=
  ⟨inv, ⟨[], rfl, (carvedBetween_of_pools rfl).symm⟩, fun settled _ => settled⟩

theorem Allocated.kept {s' : State} {thread size p : Nat} {heap' : Heap}
    (done : Allocated s s' live heap thread size p heap') (owned : Prop) :
    Kept s s' live (allocated thread p live) heap heap' owned :=
  ⟨done.inv, done.carved, fun settled _ => done.settled settled⟩

theorem Freed.kept {s' : State} {thread ptr : Nat} {heap' : Heap} (done : Freed s s' live heap thread ptr heap') :
    Kept s s' live (freed ptr live) heap heap' (∀ x ∈ live, x.ptr = ptr → x.thread = thread) :=
  ⟨done.inv, ⟨[], done.blocks, (carvedBetween_of_pools done.pools).symm⟩, done.settled⟩

/-- The clients' blocks after `numalloc_realloc(ptr, size)` returned `p` to `thread`. -/
def reallocated (thread ptr size p : Nat) (live : List Live) : List Live :=
  if ptr = 0 then allocated thread p live
  else if size = 0 then freed ptr live
  else if p = 0 ∨ p = ptr then live
  else ⟨thread, p⟩ :: freed ptr live

/-- `numalloc_realloc` of `NULL` or of a held block keeps the invariant. -/
theorem Inv.numallocRealloc (inv : Inv s live heap) {thread : Nat} {env : Env} {ptr size p : Nat} {s' : State}
    (held : ptr = 0 ∨ ∃ x ∈ live, x.ptr = ptr) (h : numallocRealloc thread env ptr size s = .ok (p, s')) :
    ∃ heap', Kept s s' live (reallocated thread ptr size p live) heap heap'
      (∀ x ∈ live, x.ptr = ptr → x.thread = thread) := by
  rcases numallocRealloc_cases h with ⟨rfl, allocation⟩ | ⟨nonzero, rfl, rfl, freeing⟩ |
    ⟨nonzero, positive, oldSize, -, ⟨-, rfl, rfl⟩ | ⟨grows, s₁, allocation, ⟨rfl, rfl⟩ | ⟨moved, s₂, copied, freeing⟩⟩⟩
  · obtain ⟨heap', done⟩ := inv.numalloc allocation
    exact ⟨heap', by simpa only [reallocated, if_true] using done.kept _⟩
  · obtain ⟨heap', done⟩ := inv.numallocFree held freeing
    exact ⟨heap', by simpa only [reallocated, nonzero, if_true, if_false] using done.kept⟩
  · exact ⟨heap, by simpa only [reallocated, nonzero, positive, or_true, if_true, if_false] using inv.keptNothing _⟩
  · obtain ⟨heap', done⟩ := inv.numalloc allocation
    exact ⟨heap', by simpa only [reallocated, allocated, nonzero, positive, true_or, if_true, if_false] using done.kept _⟩
  obtain ⟨x, member, rfl⟩ := held.resolve_left nonzero
  obtain ⟨heap₁, done⟩ := inv.numalloc allocation
  obtain ⟨-, reach, rfl⟩ := memcpy_ok.mp copied
  have holders : allocated thread p live = ⟨thread, p⟩ :: live := if_neg moved
  have fresh : p ≠ x.ptr := fun same => by
    have nodup := done.inv.liveNodup
    rw [holders, List.map_cons, List.nodup_cons] at nodup
    exact nodup.1 (show p ∈ live.map Live.ptr by rw [same]; exact List.mem_map_of_mem _ member)
  have copiedInv : Inv { s₁ with memory := s₁.memory.copy p x.ptr oldSize } (allocated thread p live) heap₁ :=
    done.inv.write_range (done.unlisted moved) (fun y outside => Memory.copy_outside outside)
      fun y low high => done.owns moved grows.le reach low high
  obtain ⟨heap', freedDone⟩ :=
    copiedInv.numallocFree (.inr ⟨x, by rw [holders]; exact List.mem_cons_of_mem _ member, rfl⟩) freeing
  have holders' : freed x.ptr (allocated thread p live) = reallocated thread x.ptr size p live := by
    rw [holders, reallocated, if_neg nonzero, if_neg positive, if_neg (by omega), freed, freed,
      List.filter_cons_of_pos (by simpa using fresh)]
  obtain ⟨carved, blocks, pointers⟩ := done.carved
  refine ⟨heap', holders' ▸ freedDone.inv,
    ⟨carved, freedDone.blocks.trans blocks, pointers.trans (carvedBetween_congr_right freedDone.pools).symm⟩,
    fun settled owned => holders' ▸ freedDone.settled ((done.settled settled).congr rfl) fun y held same => ?_⟩
  rw [holders] at held
  rcases List.mem_cons.mp held with rfl | held
  · exact absurd same fresh
  · exact owned y held same

end Invariant

end MemoryAllocator.Numa
