import MemoryAllocator.Numa.Run

namespace MemoryAllocator.Numa

/-- A pointer `allocated` adds without a repeat is none a client held: `NULL` is no held block's. -/
theorem not_mem_of_allocated {thread p : Nat} {live : List Live} (nodup : ((allocated thread p live).map Live.ptr).Nodup)
    (nonnull : ∀ x ∈ live, x.ptr ≠ 0) : p ∉ live.map Live.ptr := by
  unfold allocated at nodup
  split_ifs at nodup with zero
  · intro listed
    obtain ⟨x, member, same⟩ := List.mem_map.mp listed
    exact nonnull x member (same.trans zero)
  · exact (List.nodup_cons.mp nodup).1

/-- No pointer `numalloc` returns in a run is one a client holds. -/
theorem Reachable.numalloc_fresh {sameThread : Bool} {sys : Sys} (reach : Reachable sameThread sys) {thread : Nat}
    {env : Env} {size p : Nat} {s' : State} (h : numalloc thread env size sys.state = .ok (p, s')) :
    p ∉ sys.live.map Live.ptr := by
  obtain ⟨heap, inv, -, -⟩ := reach.sound
  obtain ⟨heap', inv', -, -⟩ := (reach.step (.numalloc h)).sound
  exact not_mem_of_allocated inv'.liveNodup fun x member => inv.ptr_ne_zero member

/-- The heap's safety: sound free lists, no pointer held twice or handed out again, held blocks apart. -/
structure HeapSafe (sameThread : Bool) (sys : Sys) : Prop where
  lists : ∀ thread arena, sys.state.arenas thread = some arena → ∀ sizeClass,
    ∃ blocks, Chain (linkOf sys.state.memory) (arena.freeLists sizeClass) blocks ∧ blocks.Nodup
  disjoint : ∀ thread sizeClass other otherClass p, OnFreeList sys.state thread sizeClass p →
    OnFreeList sys.state other otherClass p → thread = other ∧ sizeClass = otherClass
  unlisted : ∀ x ∈ sys.live, ∀ thread sizeClass, ¬ OnFreeList sys.state thread sizeClass x.ptr
  nodup : (sys.live.map Live.ptr).Nodup
  fresh : (∀ thread env size p s', numalloc thread env size sys.state = .ok (p, s') → p ∉ sys.live.map Live.ptr) ∧
    (∀ thread env num size p s', numallocCalloc thread env num size sys.state = .ok (p, s') →
      p ∉ sys.live.map Live.ptr) ∧
    ∀ thread env ptr size p s', Passable sameThread sys.live thread ptr →
      numallocRealloc thread env ptr size sys.state = .ok (p, s') → p = ptr ∨ p ∉ sys.live.map Live.ptr
  apart : ∀ x ∈ sys.live, ∀ y ∈ sys.live, x.ptr ≠ y.ptr → ∀ a, x.ptr ≤ a → a < x.ptr + capacity sys.state.memory x.ptr →
    ¬ (y.ptr ≤ a ∧ a < y.ptr + capacity sys.state.memory y.ptr)
  conserved : sameThread = true → ∀ p ∈ sys.carved,
    p ∈ sys.live.map Live.ptr ∨ ∃ thread sizeClass, OnFreeList sys.state thread sizeClass p

theorem reachable_heapSafe {sameThread : Bool} {sys : Sys} (reach : Reachable sameThread sys) :
    HeapSafe sameThread sys := by
  obtain ⟨heap, inv, carved, settled⟩ := reach.sound
  have null : 0 ∉ sys.live.map Live.ptr := fun listed =>
    let ⟨_, member, same⟩ := List.mem_map.mp listed
    inv.ptr_ne_zero member same
  refine ⟨fun thread arena found sizeClass => ⟨_, inv.chains thread arena found sizeClass, inv.nodup thread sizeClass⟩,
    fun thread sizeClass other otherClass p listed otherListed =>
      inv.disjoint thread sizeClass other otherClass p (inv.onFreeList_iff.mp listed) (inv.onFreeList_iff.mp otherListed),
    fun x member thread sizeClass listed => inv.liveUnlisted x member thread sizeClass (inv.onFreeList_iff.mp listed),
    inv.liveNodup, ⟨fun _ _ _ _ _ h => reach.numalloc_fresh h, fun _ _ _ _ _ _ h => ?_, fun _ _ _ _ _ _ _ h => ?_⟩,
    fun x member y other different a low high inside => ?_, fun same p carvedP => ?_⟩
  · rcases numallocCalloc_cases h with ⟨rfl, -⟩ | ⟨s₁, -, -, -, allocation, -⟩
    · exact null
    · exact reach.numalloc_fresh allocation
  · rcases numallocRealloc_cases h with ⟨-, allocation⟩ | ⟨-, -, rfl, -⟩ |
      ⟨-, -, _, -, ⟨-, rfl, -⟩ | ⟨-, s₁, allocation, -⟩⟩
    · exact .inr (reach.numalloc_fresh allocation)
    · exact .inr null
    · exact .inl rfl
    · exact .inr (reach.numalloc_fresh allocation)
  · exact different (inv.owns_unique (inv.capacity_owns (inv.liveOwned x member) low high)
      (inv.capacity_owns (inv.liveOwned y other) inside.1 inside.2))
  · rw [← carved] at carvedP
    obtain ⟨block, owner, rfl⟩ := List.mem_map.mp carvedP
    exact ((settled same).conserved block owner).imp_right fun ⟨thread, sizeClass, listed⟩ =>
      ⟨thread, sizeClass, inv.onFreeList_iff.mpr listed⟩

/-- A run of two threads: two small blocks and a free on thread `0`, a large block on thread `1`. -/
theorem reachable_two_threads (sameThread : Bool) :
    ∃ s carved, Reachable sameThread ⟨s, [⟨1, 2097168⟩, ⟨0, 1050576⟩], carved⟩ := by
  obtain ⟨s, s₁, init, first, rest⟩ : ∃ s s₁,
      numallocInit ⟨true, true, 0, 1, 1, true, fun _ => 0, fun _ => true, fun _ => some 1048576⟩ 65536
        ⟨none, fun _ => none, false, fun _ => none, fun _ => 0, []⟩ = .ok (0, s) ∧
      numalloc 0 ⟨0, true, none, none⟩ 16 s = .ok (1050608, s₁) ∧
      ((do
          let second ← numalloc 0 ⟨0, true, none, none⟩ 16
          let third ← numalloc 1 ⟨0, true, none, some 2097152⟩ 4096
          numallocFree 0 ⟨0, true, none, none⟩ 1050608
          pure (second, third) : NumaM _) s₁).toOption.map Prod.fst = some (1050576, 2097168) :=
    ⟨_, _, rfl, rfl, by decide⟩
  obtain ⟨s₄, run⟩ := ok_of_toOption rest
  obtain ⟨_, s₂, second, run⟩ := bind_ok.mp run
  obtain ⟨_, s₃, third, run⟩ := bind_ok.mp run
  obtain ⟨⟨⟩, _, fourth, run⟩ := bind_ok.mp run
  obtain ⟨rfl, rfl⟩ := Prod.mk.inj (pure_ok.mp run).1
  have held : (⟨0, 1050608⟩ : Live) ∈ allocated 1 2097168 (allocated 0 1050576 (allocated 0 1050608 [])) := by
    decide
  have reach : Reachable sameThread _ := .step
    (.step (.step (.step (.init pristine_empty init) (.numalloc first)) (.numalloc second)) (.numalloc third))
    (.free (.inr ⟨_, held, rfl, fun _ => rfl⟩) fourth)
  have live : freed 1050608 (allocated 1 2097168 (allocated 0 1050576 (allocated 0 1050608 []))) =
      [⟨1, 2097168⟩, ⟨0, 1050576⟩] := by decide
  dsimp only at reach
  rw [live] at reach
  exact ⟨_, _, reach⟩

theorem reachable_heapSafe_after_calls :
    ∃ s carved, Reachable true ⟨s, [⟨1, 2097168⟩, ⟨0, 1050576⟩], carved⟩ ∧
      HeapSafe true ⟨s, [⟨1, 2097168⟩, ⟨0, 1050576⟩], carved⟩ :=
  let ⟨s, carved, reach⟩ := reachable_two_threads true
  ⟨s, carved, reach, reachable_heapSafe reach⟩

/-- The headers a run keeps: listed and handed-out blocks carry their class's header, held ones keep it. -/
structure HeadersSound (sameThread : Bool) (sys : Sys) : Prop where
  listed : ∀ thread sizeClass p, OnFreeList sys.state thread sizeClass p →
    ∃ node, HeaderAt sys.state.memory (p - headerSize) (sizeClassSizes sizeClass) sizeClass node ∧
      (sameThread = true → ∃ arena, sys.state.arenas thread = some arena ∧ node = arena.numaNode)
  handedOut : ∀ thread env size p s', numalloc thread env size sys.state = .ok (p, s') → p ≠ 0 → size ≤ 2048 →
    ∃ sizeClass node, SmallestFit size sizeClass ∧
      HeaderAt s'.memory (p - headerSize) (sizeClassSizes sizeClass) sizeClass node ∧
      (sameThread = true → ∃ arena, s'.arenas thread = some arena ∧ node = arena.numaNode)
  kept : ∀ action sys', Step sameThread sys action sys' → ∀ x ∈ sys.live, ∀ (sizeClass : Fin 8) size node,
    HeaderAt sys.state.memory (x.ptr - headerSize) size sizeClass node →
    HeaderAt sys'.state.memory (x.ptr - headerSize) size sizeClass node

/-- Two headers read at one place agree; what one says of a later memory, the other says too. -/
theorem HeaderAt.transfer {memory memory' : Memory} {base size size' : Nat} {sizeClass sizeClass' node node' : Int}
    (header : HeaderAt memory base size sizeClass node) (other : HeaderAt memory base size' sizeClass' node')
    (later : HeaderAt memory' base size' sizeClass' node') : HeaderAt memory' base size sizeClass node :=
  ⟨later.1.trans (other.1.symm.trans header.1), later.2.1.trans (other.2.1.symm.trans header.2.1),
    later.2.2.trans (other.2.2.symm.trans header.2.2)⟩

theorem reachable_headersSound {sameThread : Bool} {sys : Sys} (reach : Reachable sameThread sys) :
    HeadersSound sameThread sys := by
  obtain ⟨heap, inv, carved, settled⟩ := reach.sound
  refine ⟨fun thread sizeClass p listed => ?_, fun thread env size p s' h nonzero small => ?_,
    fun action sys' step x member sizeClass size node header => ?_⟩
  · obtain ⟨block, owner, rfl, rfl⟩ := inv.listed thread sizeClass p (inv.onFreeList_iff.mp listed)
    refine ⟨block.node, by rw [Block.ptr, Nat.add_sub_cancel]; exact inv.headers block owner, fun same => ?_⟩
    exact (settled same).homeListed thread _ _ (inv.onFreeList_iff.mp listed) block owner rfl
  · obtain ⟨heap', done⟩ := inv.numalloc h
    rcases done.shape nonzero with ⟨block, owner, rfl, sized⟩ | ⟨-, -, -, large⟩
    · refine ⟨block.sizeClass, block.node, getSizeClass_eq_some sized,
        by rw [Block.ptr, Nat.add_sub_cancel]; exact done.inv.headers block owner, fun same => ?_⟩
      exact (done.settled (settled same)).homeLive ⟨thread, block.ptr⟩ (by simp [allocated, nonzero]) block owner rfl
    · exact absurd (getSizeClass_eq_none.mp large) (by omega)
  · obtain ⟨heap', ⟨inv', -, -⟩, grown⟩ := step.sound ⟨inv, carved, settled⟩
    rcases inv.liveOwned x member with ⟨block, owner, same⟩ | ⟨large, owner, same⟩
    · rw [← same, Block.ptr, Nat.add_sub_cancel] at header ⊢
      exact header.transfer (inv.headers block owner) (inv'.headers block (grown owner))
    · rw [← same, Large.ptr, Nat.add_sub_cancel] at header
      have classBits := header.2.1.symm.trans (inv.larges large owner).2.2.2.2.1
      have small := sizeClass.isLt
      unfold int32Bits at classBits
      omega

theorem reachable_headersSound_after_calls :
    ∃ s carved, Reachable true ⟨s, [⟨1, 2097168⟩, ⟨0, 1050576⟩], carved⟩ ∧
      HeadersSound true ⟨s, [⟨1, 2097168⟩, ⟨0, 1050576⟩], carved⟩ :=
  let ⟨s, carved, reach⟩ := reachable_two_threads true
  ⟨s, carved, reach, reachable_headersSound reach⟩

end MemoryAllocator.Numa
