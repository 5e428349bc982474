import MemoryAllocator.Numa.Free

namespace MemoryAllocator.Numa

/-- A fresh process: not initialised, no arena, no pool, only its own mappings. -/
structure Pristine (s : State) : Prop where
  uninitialized : s.initialized = false
  noArenas : ∀ thread, s.arenas thread = none
  noPools : ∀ slot, s.nodePools slot = none
  apart : s.regions.Pairwise Region.Apart
  positive : ∀ region ∈ s.regions, 0 < region.length

/-- A process before any call: nothing initialised, no arena, no pool, and no mapping. -/
theorem pristine_empty : Pristine ⟨none, fun _ => none, false, fun _ => none, fun _ => 0, []⟩ :=
  ⟨rfl, fun _ => rfl, fun _ => rfl, .nil, fun _ member => by cases member⟩

/-- The heap of a fresh process: no blocks, and the process's own mappings. -/
def Heap.pristine (foreign : List Region) : Heap := ⟨[], [], fun _ _ => [], foreign⟩

/-- The pools `numalloc_init` has created so far, with the process's own mappings `foreign`. -/
structure Creating (foreign : List Region) (s : State) : Prop where
  uninitialized : s.initialized = false
  noArenas : ∀ thread, s.arenas thread = none
  regions : s.regions.Perm (poolRegions s.nodePools ++ foreign)
  apart : (poolRegions s.nodePools ++ foreign).Pairwise Region.Apart
  positive : ∀ region ∈ s.regions, 0 < region.length
  pools : ∀ slot pool, s.nodePools slot = some pool →
    pool.used ≤ pool.totalSize ∧ pool.baseAddr + pageRound pageSize pool.totalSize ≤ userSpaceTop

/-- Filling an empty slot adds the pool's mapping. -/
theorem poolRegions_insert {nodePools : Fin 8 → Option NodePool} {slot : Fin 8} (absent : nodePools slot = none)
    (pool : NodePool) :
    (poolRegions (Function.update nodePools slot (some pool))).Perm (pool.region :: poolRegions nodePools) := by
  obtain ⟨before, after, split⟩ := List.mem_iff_append.mp (List.mem_finRange slot)
  have nodup := List.nodup_finRange 8
  rw [split, List.nodup_middle, List.nodup_cons] at nodup
  have others : ∀ other ∈ before ++ after, (Function.update nodePools slot (some pool) other).map NodePool.region =
      (nodePools other).map NodePool.region := fun other member =>
    by rw [Function.update_noteq fun same => nodup.1 (by rw [← same]; exact member)]
  unfold poolRegions
  rw [split, List.filterMap_append, List.filterMap_append, List.filterMap_cons, List.filterMap_cons,
    Function.update_same, absent, Option.map_some', Option.map_none',
    List.filterMap_congr fun other member => others other (List.mem_append_left _ member),
    List.filterMap_congr fun other member => others other (List.mem_append_right _ member)]
  exact List.perm_middle

theorem createNodePool_some {platform : Platform} {nodeId size : Nat} {pool : NodePool} {s s' : State}
    (h : createNodePool platform nodeId size s = .ok (some pool, s')) :
    ∃ base, Fresh pageSize pageSize s.regions base size ∧ pool = ⟨nodeId, base, size, 0⟩ ∧
      s'.initialized = s.initialized ∧ s'.arenas = s.arenas ∧ s'.nodePools = s.nodePools ∧
      s'.regions = ⟨base, pageRound pageSize size⟩ :: s.regions := by
  unfold createNodePool at h
  split at h
  · cases (pure_ok.mp h).1
  obtain ⟨mapped, s₁, mapping, afterMap⟩ := bind_ok.mp h
  rcases mmap_ok.mp mapping with ⟨base, fresh, rfl, rfl⟩ | ⟨-, rfl, rfl⟩
  · obtain ⟨_, s₂, zeroed, afterZero⟩ := bind_ok.mp afterMap
    obtain ⟨-, rfl⟩ := memset_ok.mp zeroed
    obtain ⟨same, rfl⟩ := pure_ok.mp afterZero
    cases same
    exact ⟨base, mapAt_fresh fresh, rfl, rfl, rfl, rfl, rfl⟩
  · cases (pure_ok.mp afterMap).1

/-- A fresh pool in an empty slot. -/
theorem Creating.insert {foreign : List Region} {s s' : State} (creating : Creating foreign s) {slot : Fin 8}
    (absent : s.nodePools slot = none) {nodeId : Int} {base size : Nat} (fresh : Fresh pageSize pageSize s.regions base size)
    (initialized : s'.initialized = s.initialized) (arenas : s'.arenas = s.arenas)
    (pools : s'.nodePools = Function.update s.nodePools slot (some ⟨nodeId, base, size, 0⟩))
    (regions : s'.regions = ⟨base, pageRound pageSize size⟩ :: s.regions) : Creating foreign s' := by
  obtain ⟨-, -, lengthy, top, apart⟩ := fresh
  have inserted := (poolRegions_insert absent ⟨nodeId, base, size, 0⟩).append_right foreign
  refine ⟨initialized.trans creating.uninitialized, fun thread => by rw [arenas]; exact creating.noArenas thread,
    ?_, ?_, ?_, ?_⟩
  · rw [regions, pools]
    exact (creating.regions.cons _).trans inserted.symm
  · rw [pools]
    refine inserted.pairwise_iff (by intro _ _ apart; exact apart.symm) |>.mpr (List.pairwise_cons.mpr ⟨?_, creating.apart⟩)
    exact fun region member => (apart region (creating.regions.mem_iff.mpr member)).symm
  · rw [regions]
    rintro region (_ | ⟨_, member⟩)
    · exact lt_of_lt_of_le (by decide) (pageSize_le_pageRound lengthy)
    · exact creating.positive region member
  · intro other pool found
    rw [pools] at found
    by_cases same : other = slot
    · subst same
      rw [Function.update_same] at found
      cases found
      exact ⟨Nat.zero_le _, top⟩
    · rw [Function.update_noteq same] at found
      exact creating.pools other pool found

/-- The pool loop of `numalloc_init`, over distinct nodes whose slots are empty, creates fresh pools. -/
theorem Creating.createNodePools {platform : Platform} {size : Nat} {foreign : List Region} :
    ∀ {nodes : List Nat} {s s' : State}, Creating foreign s → nodes.Nodup →
      (∀ slot : Fin 8, slot.val ∈ nodes → s.nodePools slot = none) →
      createNodePools platform size nodes s = .ok (true, s') → Creating foreign s'
  | [], s, s', creating, _, _, h => by
    obtain ⟨-, rfl⟩ := pure_ok.mp h
    exact creating
  | i :: rest, s, s', creating, nodup, empty, h => by
    obtain ⟨created, s₁, creation, afterCreate⟩ := bind_ok.mp h
    obtain ⟨slot, s₂, indexed, afterIndex⟩ := bind_ok.mp afterCreate
    obtain ⟨same, rfl⟩ := tableIndex_ok.mp indexed
    obtain ⟨_, s₃, set, afterSet⟩ := bind_ok.mp afterIndex
    rw [setNodePool_ok] at set
    subst set
    rcases created with _ | pool
    · cases (pure_ok.mp afterSet).1
    rw [if_neg (by simp), State.setNodePool_eq] at afterSet
    obtain ⟨base, fresh, rfl, initialized, arenas, pools, regions⟩ := createNodePool_some creation
    have absent : s.nodePools slot = none := empty slot (by rw [show slot.val = i by omega]; exact List.mem_cons_self _ _)
    have inserted : Creating foreign { s₂ with nodePools := Function.update s₂.nodePools slot (some ⟨i, base, size, 0⟩) } :=
      creating.insert absent fresh initialized arenas (by dsimp only; rw [pools]) regions
    refine inserted.createNodePools (List.nodup_cons.mp nodup).2 (fun other later => ?_) afterSet
    have different : other ≠ slot := fun equal =>
      (List.nodup_cons.mp nodup).1 (by rw [show i = other.val by subst equal; omega]; exact later)
    dsimp only
    rw [Function.update_noteq different, pools]
    exact empty other (List.mem_cons_of_mem _ later)

section Pristine

variable {s₀ : State} (pristine : Pristine s₀)
include pristine

theorem Pristine.creating : Creating s₀.regions s₀ := by
  have none : poolRegions s₀.nodePools = [] := by simp [poolRegions, pristine.noPools]
  exact ⟨pristine.uninitialized, pristine.noArenas, by rw [none]; rfl, by rw [none]; exact pristine.apart,
    pristine.positive, fun slot pool found => by rw [pristine.noPools slot] at found; cases found⟩

/-- A `numalloc_init` that succeeds in a fresh process sets up the invariant, with no block yet. -/
theorem Pristine.numallocInit {platform : Platform} {poolSize : Nat} {s : State}
    (h : numallocInit platform poolSize s₀ = .ok (0, s)) :
    Inv s [] (Heap.pristine s₀.regions) ∧ Settled s [] (Heap.pristine s₀.regions) := by
  rcases numallocInit_cases h with ⟨-, failed, -⟩ | ⟨-, -, failed, -⟩ |
    ⟨-, topology, s₁, created, -, creation, ⟨-, failed, -⟩ | ⟨rfl, -, rfl⟩⟩
  · cases failed
  · cases failed
  · cases failed
  have topologySet : Pristine (State.setTopology (some topology) s₀) :=
    ⟨pristine.uninitialized, pristine.noArenas, pristine.noPools, pristine.apart, pristine.positive⟩
  have creating := topologySet.creating.createNodePools (List.nodup_range _) (fun slot _ => pristine.noPools slot)
    creation
  refine ⟨⟨rfl, creating.regions, creating.apart, creating.positive, creating.pools, ?_, ?_, .nil, ?_,
    ?_, ?_, ?_, ?_, ?_, .nil, ?_, ?_, ?_⟩, ⟨?_, ?_, ?_⟩⟩ <;>
    simp [Heap.pristine, creating.noArenas]

end Pristine

end MemoryAllocator.Numa
