import MemoryAllocator.Memalloc.Footprint

namespace MemoryAllocator.Memalloc

/-- Every live reservation starts a header on the list. -/
def Listed (s : State) (nodes : List Nat) : Prop :=
  ∀ region ∈ s.regions, region.base ∈ nodes

theorem mem_dropLast_of_ne_getLastD {x : Nat} {l : List Nat} (member : x ∈ l) (notLast : x ≠ l.getLastD 0) :
    x ∈ l.dropLast := by
  rcases List.eq_nil_or_concat l with rfl | ⟨init, last, rfl⟩
  · cases member
  rw [List.concat_eq_append, List.getLastD_concat] at notLast
  rw [List.concat_eq_append] at member ⊢
  rw [List.dropLast_concat]
  exact (List.mem_append.mp member).resolve_right fun new => notLast (List.mem_singleton.mp new)

section Reservations

variable {s s' : State} {live live' nodes nodes' : List Nat}

/-- The invariant fixes the list: it is the chain from `head`. -/
theorem Inv.nodes_eq (inv : Inv s live nodes) (inv' : Inv s live' nodes') : nodes' = nodes :=
  inv'.chain.unique inv.chain

/-- Storing into a header's `is_free` leaves the list from `head` as it was. -/
theorem Inv.chain_store_flag (inv : Inv s live nodes) {header : Nat} (node : header ∈ nodes) (flag : Nat) :
    Chain (nextOf (s.memory.store (header + 8) 4 flag)) s.head nodes :=
  inv.chain.frame fun other otherNode => by
    by_cases here : other = header
    · subst here
      exact Memory.load_congr (Memory.store_agree (.inl (by omega)))
    · exact inv.load_store_apart node otherNode here (by decide) (by decide)

/-- `malloc` reserves a region only for the header it appends. -/
theorem Inv.malloc_listed (inv : Inv s live nodes) (listed : Listed s nodes) {proposed : Option Nat} {size p : Nat}
    (h : Memalloc.malloc proposed size s = .ok (p, s')) (inv' : Inv s' live' nodes') : Listed s' nodes' := by
  rcases malloc_cases h with ⟨-, -, rfl⟩ | ⟨-, header, found, reused, -, -, rfl⟩ | ⟨-, -, -, -, rfl⟩ |
    ⟨-, -, base, mapped, -, rfl⟩
  · rwa [inv.nodes_eq inv']
  · rw [inv'.chain.unique (inv.chain_store_flag (inv.getFreeBlock_node found reused).1 0)]
    exact listed
  · rwa [inv.nodes_eq inv']
  · rw [inv'.chain.unique (inv.malloc_fresh mapped).2.chain]
    intro region member
    rcases List.mem_cons.mp member with rfl | old
    · exact List.mem_append_right _ (List.mem_singleton_self _)
    · exact List.mem_append_left _ (listed region old)

/-- `free` releases a region only with the tail it drops from the list. -/
theorem Inv.free_listed (inv : Inv s live nodes) (listed : Listed s nodes) {block : Nat}
    (passable : block = 0 ∨ block ∈ live) (h : Memalloc.free block s = .ok ((), s')) (inv' : Inv s' live' nodes') :
    Listed s' nodes' := by
  obtain ⟨s'', nodes'', done, kept, dropped⟩ := inv.free_returns passable
  obtain ⟨-, rfl⟩ := Prod.mk.inj (Except.ok.inj (h.symm.trans done))
  rw [kept.nodes_eq inv']
  have released : ∀ region ∈ s.regions.filter fun region => region.base ≠ block - headerSize,
      block ≠ 0 → block - headerSize = s.tail → region.base ∈ nodes'' := fun region member nonzero last => by
    obtain ⟨mapped, other⟩ := List.mem_filter.mp member
    rw [dropped nonzero last]
    exact mem_dropLast_of_ne_getLastD (listed region mapped) (by rw [← inv.tail, ← last]; exact of_decide_eq_true other)
  rcases free_cases h with ⟨-, rfl⟩ | ⟨nonzero, last, -, rfl⟩ | ⟨nonzero, last, -, s₁, walk, rfl⟩ | ⟨nonzero, -, -, rfl⟩
  · rwa [inv.nodes_eq kept]
  · exact fun region member => released region member nonzero last
  · rw [← (unlinkTail_writes inv.chain walk).1] at released
    exact fun region member => released region member nonzero last
  · obtain ⟨-, node⟩ := inv.held block (passable.resolve_left nonzero)
    rw [kept.chain.unique (inv.chain_store_flag node 1)]
    exact listed

/-- `calloc` reserves a region only through its `malloc`. -/
theorem Inv.calloc_listed (inv : Inv s live nodes) (listed : Listed s nodes) {proposed : Option Nat}
    {num nsize p : Nat} (h : Memalloc.calloc proposed num nsize s = .ok (p, s')) (inv' : Inv s' live' nodes') :
    Listed s' nodes' := by
  rcases calloc_cases h with ⟨-, rfl⟩ | ⟨s₁, allocation, ⟨-, rfl⟩ | ⟨nonzero, reach, rfl⟩⟩
  · rwa [inv.nodes_eq inv']
  · exact inv.malloc_listed listed allocation inv'
  · obtain ⟨-, nodes₁, allocated'⟩ := inv.malloc allocation
    have held : p ∈ allocated p live := by rw [allocated, if_neg nonzero]; exact List.mem_cons_self _ _
    rw [(allocated'.write_held held reach fun x away => Memory.fill_outside away).nodes_eq inv']
    exact (inv.malloc_listed listed allocation allocated' : Listed s₁ nodes₁)

/-- `realloc` reserves and releases regions only through its `malloc` and its `free`. -/
theorem Inv.realloc_listed (inv : Inv s live nodes) (listed : Listed s nodes) {proposed : Option Nat}
    {block size p : Nat} (passable : block = 0 ∨ block ∈ live) (h : Memalloc.realloc proposed block size s = .ok (p, s'))
    (inv' : Inv s' live' nodes') : Listed s' nodes' := by
  rcases realloc_cases h with ⟨-, allocation⟩ | ⟨-, -, -, rfl⟩ |
    ⟨given, -, s₁, allocation, ⟨-, rfl⟩ | ⟨nonzero, s₂, copied, freeing⟩⟩
  · exact inv.malloc_listed listed allocation inv'
  · rwa [inv.nodes_eq inv']
  · exact inv.malloc_listed listed allocation inv'
  have held : block ∈ live := passable.resolve_left fun zero => given (.inl zero)
  obtain ⟨-, nodes₁, allocated', -, -, rfl, copiedInv⟩ := inv.realloc_copied allocation nonzero copied
  exact copiedInv.free_listed (inv.malloc_listed listed allocation allocated' : Listed s₁ nodes₁)
    (.inr (List.mem_cons_of_mem _ held)) freeing inv'

/-- No step reserves a region for a header off the list, or drops a header whose region stays. -/
theorem Step.listed {sys sys' : Sys} {action : Action} (step : Step sys action sys') (inv : Inv sys.state sys.live nodes)
    (listed : Listed sys.state nodes) (inv' : Inv sys'.state sys'.live nodes') : Listed sys'.state nodes' := by
  cases step with
  | malloc h => exact inv.malloc_listed listed h inv'
  | calloc h => exact inv.calloc_listed listed h inv'
  | realloc passable h => exact inv.realloc_listed listed passable h inv'
  | free passable h => exact inv.free_listed listed passable h inv'
  | write held low reach h =>
    rw [(inv.write held low reach h).nodes_eq inv']
    obtain ⟨-, rfl⟩ := write_ok.mp h
    exact listed

end Reservations

end MemoryAllocator.Memalloc
