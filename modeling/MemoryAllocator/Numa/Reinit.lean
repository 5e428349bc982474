import MemoryAllocator.Numa.Heap

namespace MemoryAllocator.Numa

/-- A call that leaves every thread's arena as it was. -/
def KeepsArenas {α : Type} (call : NumaM α) : Prop :=
  ∀ s r s', call s = .ok (r, s') → s'.arenas = s.arenas

namespace KeepsArenas

variable {α β : Type}

theorem pure (a : α) : KeepsArenas (Pure.pure a : NumaM α) := fun _ _ _ h => by
  rw [(pure_ok.mp h).2]

theorem bind {x : NumaM α} {f : α → NumaM β} (first : KeepsArenas x) (rest : ∀ a, KeepsArenas (f a)) :
    KeepsArenas (x >>= f) := fun s r s' h => by
  obtain ⟨a, s₁, ran, continued⟩ := bind_ok.mp h
  rw [rest a s₁ r s' continued, first s a s₁ ran]

theorem get : KeepsArenas (MonadState.get : NumaM State) := fun _ _ _ h => by
  rw [(get_ok.mp h).2]

theorem modifyState {f : State → State} (kept : ∀ s, (f s).arenas = s.arenas) :
    KeepsArenas (modify f : NumaM Unit) := fun s _ _ h => by
  rw [modify_ok.mp h, kept]

theorem throw (e : Fault) : KeepsArenas (MonadExcept.throw e : NumaM α) := fun _ _ _ h =>
  absurd h throw_not_ok

theorem mmap {granularity length : Nat} {proposed : Option Nat} :
    KeepsArenas (Numa.mmap granularity proposed length) := fun _ _ _ h => by
  rcases mmap_ok.mp h with ⟨_, _, _, rfl⟩ | ⟨_, _, rfl⟩ <;> rfl

theorem memset {address byte length : Nat} : KeepsArenas (Numa.memset address byte length) :=
  fun _ _ _ h => by rw [(memset_ok.mp h).2]

theorem munmap {base length : Nat} : KeepsArenas (Numa.munmap base length) :=
  fun _ _ _ h => by rw [munmap_ok.mp h]

theorem tableIndex {outside : Int → Fault} {index : Int} : KeepsArenas (Numa.tableIndex outside index) :=
  fun _ _ _ h => by rw [(tableIndex_ok.mp h).2]

theorem setNodePool {slot : Fin 8} {pool : Option NodePool} : KeepsArenas (Numa.setNodePool slot pool) :=
  fun _ _ _ h => by rw [setNodePool_ok.mp h]; rfl

end KeepsArenas

theorem createNodePool_keepsArenas (platform : Platform) (nodeId size : Nat) :
    KeepsArenas (createNodePool platform nodeId size) := by
  unfold createNodePool
  split
  · exact .pure _
  · refine .bind .mmap fun base => ?_
    split
    · exact .bind .memset fun _ => .pure _
    · exact .pure _

theorem createNodePools_keepsArenas (platform : Platform) (size : Nat) :
    ∀ nodes, KeepsArenas (createNodePools platform size nodes)
  | [] => .pure _
  | i :: rest => by
    refine .bind (createNodePool_keepsArenas platform i size) fun pool =>
      .bind .tableIndex fun slot => .bind .setNodePool fun _ => ?_
    split
    · exact .pure _
    · exact createNodePools_keepsArenas platform size rest

theorem releaseNodePools_keepsArenas : ∀ nodes, KeepsArenas (releaseNodePools nodes)
  | [] => .pure _
  | i :: rest => by
    refine .bind .tableIndex fun slot => .bind .get fun current => ?_
    split
    · exact .bind .munmap fun _ => .bind .setNodePool fun _ => releaseNodePools_keepsArenas rest
    · exact releaseNodePools_keepsArenas rest

theorem numallocCleanup_keepsArenas : KeepsArenas numallocCleanup := by
  refine .bind .get fun current => ?_
  split
  · exact .pure _
  · split
    · exact .bind (releaseNodePools_keepsArenas _) fun _ => .modifyState fun _ => rfl
    · exact .throw _

theorem numallocInit_keepsArenas (platform : Platform) (poolSizePerNode : Nat) :
    KeepsArenas (numallocInit platform poolSizePerNode) := by
  refine .bind .get fun current => ?_
  split
  · exact .pure _
  · refine .bind (.modifyState fun _ => rfl) fun _ => ?_
    split
    · refine .bind (createNodePools_keepsArenas _ _ _) fun created => ?_
      split
      · exact .pure _
      · exact .bind (.modifyState fun _ => rfl) fun _ => .pure _
    · exact .pure _

/-- A `numalloc_init` that returns `0` leaves the allocator initialised. -/
theorem numallocInit_initialized {platform : Platform} {poolSizePerNode : Nat} {s s' : State}
    (h : numallocInit platform poolSizePerNode s = .ok (0, s')) : s'.initialized = true := by
  rcases numallocInit_cases h with ⟨-, failed, -⟩ | ⟨-, -, failed, -⟩ |
    ⟨-, _, _, _, -, -, ⟨-, failed, -⟩ | ⟨-, -, rfl⟩⟩
  · cases failed
  · cases failed
  · cases failed
  · rfl

/-- After a cleanup and a new init, `numalloc` pops a block cached from the released pool. -/
theorem numalloc_after_reinit_pops_cached {thread : Nat} {env : Env} {size poolSize : Nat}
    {platform : Platform} {arena : ThreadArena} {sizeClass : Fin 8} {s s₁ s₂ : State}
    (found : s.arenas thread = some arena) (nonzero : size ≠ 0) (sized : getSizeClass size = some sizeClass)
    (cached : arena.freeLists sizeClass ≠ 0) (cleanup : numallocCleanup s = .ok ((), s₁))
    (init : numallocInit platform poolSize s₁ = .ok (0, s₂))
    (mapped : accessible s₂.regions (arena.freeLists sizeClass) 8) :
    ∃ s₃, numalloc thread env size s₂ = .ok (arena.freeLists sizeClass, s₃) := by
  have kept : s₂.arenas = s.arenas := by
    rw [numallocInit_keepsArenas platform poolSize s₁ 0 s₂ init, numallocCleanup_keepsArenas s () s₁ cleanup]
  exact ⟨_, numalloc_pop nonzero (numallocInit_initialized init) (kept ▸ found) sized cached mapped⟩

/-- An init and a `numalloc(16)` leave thread `0` caching a block of the pool. -/
theorem numalloc_after_reinit_pops_cached_same_pool :
    let platform : Platform := ⟨true, true, 0, 2, 2, true, fun _ => 0, fun _ => true, fun _ => some 1048576⟩
    let env : Env := ⟨0, true, none, none⟩
    let s : State := ⟨some ⟨1, 2, [0, 0]⟩, Function.update (fun _ => none) 0 (some ⟨0, 1048576, 65536, 2048⟩),
      true, Function.update (fun _ => none) 0 (some ⟨0, Function.update (fun _ => 0) 0 1050576, 1, 0⟩),
      fun _ => 0, [⟨1048576, 65536⟩]⟩
    ((numallocInit platform 65536 >>= fun _ => numalloc 0 env 16)
        ⟨none, fun _ => none, false, fun _ => none, fun _ => 0, []⟩).toOption.map
          (fun run => (run.1, run.2.topology, run.2.nodePools 0, (run.2.arenas 0).map (·.freeLists 0))) =
      some (1050608, s.topology, s.nodePools 0, some 1050576) ∧
    ∃ s₁ s₂, numallocCleanup s = .ok ((), s₁) ∧ numallocInit platform 65536 s₁ = .ok (0, s₂) ∧
      s₂.nodePools 0 = some ⟨0, 1048576, 65536, 0⟩ ∧ ∃ s₃, numalloc 0 env 16 s₂ = .ok (1050576, s₃) := by
  intro platform env s
  refine ⟨by decide, _, _, rfl, rfl, rfl, ?_⟩
  exact @numalloc_after_reinit_pops_cached 0 env 16 65536 platform _ 0 s _ _ rfl (by decide) rfl (by decide) rfl rfl
    (by decide)

/-- After a cleanup and a second init, thread `0` pops a block inside the large block thread `1` holds. -/
theorem reinit_hands_out_block_inside_live_block :
    let platform : Platform := ⟨true, true, 0, 1, 1, true, fun _ => 0, fun _ => true, fun _ => some 1048576⟩
    let platform' : Platform := ⟨true, true, 0, 1, 1, true, fun _ => 0, fun _ => true, fun _ => some 4194304⟩
    let env : Env := ⟨0, true, none, none⟩
    let env' : Env := ⟨0, true, none, some 1048576⟩
    ((do
        let first ← numallocInit platform 65536
        let _ ← numalloc 0 env 16
        numallocCleanup
        let second ← numallocInit platform' 65536
        let q ← numalloc 1 env' 4096
        let r ← numalloc 0 env 16
        let s ← get
        pure (first, second, q, r, decide (q ≤ r ∧ r < q + capacity s.memory q)) : NumaM _)
      ⟨none, fun _ => none, false, fun _ => none, fun _ => 0, []⟩).toOption.map Prod.fst =
      some (0, 0, 1048592, 1050576, true) := by
  decide

/-- After a cleanup and a second init, thread `0` pops a block whose header the large block mapped over it zeroed. -/
theorem reinit_hands_out_block_with_cleared_header :
    let platform : Platform := ⟨true, true, 0, 1, 1, true, fun _ => 0, fun _ => true, fun _ => some 1048576⟩
    let platform' : Platform := ⟨true, true, 0, 1, 1, true, fun _ => 0, fun _ => true, fun _ => some 4194304⟩
    let env : Env := ⟨0, true, none, none⟩
    let env' : Env := ⟨0, true, none, some 1048576⟩
    ((do
        let first ← numallocInit platform 65536
        let _ ← numalloc 0 env 16
        numallocCleanup
        let second ← numallocInit platform' 65536
        let _ ← numalloc 1 env' 4096
        let r ← numalloc 0 env 16
        let s ← get
        pure (first, second, r, s.memory.load (r - headerSize) 8, sizeClassSizes 0) : NumaM _)
      ⟨none, fun _ => none, false, fun _ => none, fun _ => 0, []⟩).toOption.map Prod.fst =
      some (0, 0, 1050576, 0, 16) := by
  decide

/-- After a cleanup and a second init, a store over a cached link makes `numalloc(16)` return `0x100001`. -/
theorem reinit_hands_out_misaligned_block :
    let platform : Platform := ⟨true, true, 0, 1, 1, true, fun _ => 0, fun _ => true, fun _ => some 1048576⟩
    let platform' : Platform := ⟨true, true, 0, 1, 1, true, fun _ => 0, fun _ => true, fun _ => some 4194304⟩
    let env : Env := ⟨0, true, none, none⟩
    let env' : Env := ⟨0, true, none, some 1048576⟩
    ((do
        let _ ← numallocInit platform 65536
        let _ ← numalloc 0 env 16
        numallocCleanup
        let second ← numallocInit platform' 65536
        let q ← numalloc 1 env' 4096
        let s ← get
        write 1050576 8 fun i => 1048577 / 256 ^ i
        let r ← numalloc 0 env 16
        let u ← numalloc 0 env 16
        pure (second, q, decide (q ≤ 1050576 ∧ 1050576 + 8 ≤ q + capacity s.memory q), r, u) : NumaM _)
      ⟨none, fun _ => none, false, fun _ => none, fun _ => 0, []⟩).toOption.map Prod.fst =
      some (0, 1048592, true, 1050576, 1048577) ∧ ¬ 16 ∣ 1048577 := by
  decide

/-- `create_node_pool` changes no global and returns `NULL` or an empty page-aligned pool. -/
theorem createNodePool_frame {platform : Platform} {nodeId size : Nat} {pool : Option NodePool} {s s' : State}
    (h : createNodePool platform nodeId size s = .ok (pool, s')) :
    s'.initialized = s.initialized ∧ s'.topology = s.topology ∧ s'.nodePools = s.nodePools ∧
      (pool = none ∨ ∃ base, base % pageSize = 0 ∧ pool = some ⟨nodeId, base, size, 0⟩) := by
  unfold createNodePool at h
  split at h
  · obtain ⟨rfl, rfl⟩ := pure_ok.mp h
    exact ⟨rfl, rfl, rfl, .inl rfl⟩
  obtain ⟨mapped, s₁, mapping, afterMap⟩ := bind_ok.mp h
  rcases mmap_ok.mp mapping with ⟨base, found, rfl, rfl⟩ | ⟨-, rfl, rfl⟩
  · obtain ⟨_, s₂, zeroed, afterZero⟩ := bind_ok.mp afterMap
    obtain ⟨-, rfl⟩ := memset_ok.mp zeroed
    obtain ⟨rfl, rfl⟩ := pure_ok.mp afterZero
    exact ⟨rfl, rfl, rfl, .inr ⟨base, (mapAt_fresh found).2.1, rfl⟩⟩
  · obtain ⟨rfl, rfl⟩ := pure_ok.mp afterMap
    exact ⟨rfl, rfl, rfl, .inl rfl⟩

/-- The pool loop keeps `g_initialized` and `g_topology`, and each slot kept, `NULL` or a fresh pool. -/
theorem createNodePools_frame {platform : Platform} {size : Nat} :
    ∀ {nodes : List Nat} {s s' : State} {created : Bool}, createNodePools platform size nodes s = .ok (created, s') →
      s'.initialized = s.initialized ∧ s'.topology = s.topology ∧
        ∀ slot : Fin 8, s'.nodePools slot = s.nodePools slot ∨ s'.nodePools slot = none ∨
          ∃ base, base % pageSize = 0 ∧ s'.nodePools slot = some ⟨slot.val, base, size, 0⟩
  | [], s, s', created, h => by
    obtain ⟨-, rfl⟩ := pure_ok.mp h
    exact ⟨rfl, rfl, fun _ => .inl rfl⟩
  | i :: rest, s, s', created, h => by
    obtain ⟨pool, s₁, creation, afterCreate⟩ := bind_ok.mp h
    obtain ⟨slot, s₂, indexed, afterIndex⟩ := bind_ok.mp afterCreate
    obtain ⟨same, rfl⟩ := tableIndex_ok.mp indexed
    obtain ⟨_, s₃, set, afterSet⟩ := bind_ok.mp afterIndex
    rw [setNodePool_ok] at set
    subst set
    obtain ⟨initialized, topology, pools, made⟩ := createNodePool_frame creation
    have installed : ∀ other : Fin 8, (s₂.setNodePool slot pool).nodePools other = s.nodePools other ∨
        (s₂.setNodePool slot pool).nodePools other = none ∨
        ∃ base, base % pageSize = 0 ∧ (s₂.setNodePool slot pool).nodePools other = some ⟨other.val, base, size, 0⟩ := by
      intro other
      rw [State.setNodePool_eq]
      dsimp only
      by_cases here : other = slot
      · subst here
        rw [Function.update_same]
        rcases made with rfl | ⟨base, aligned, rfl⟩
        · exact .inr (.inl rfl)
        · exact .inr (.inr ⟨base, aligned, by rw [same]⟩)
      · rw [Function.update_noteq here, pools]
        exact .inl rfl
    split at afterSet
    · obtain ⟨-, rfl⟩ := pure_ok.mp afterSet
      exact ⟨initialized, topology, installed⟩
    · obtain ⟨laterInitialized, laterTopology, later⟩ := createNodePools_frame afterSet
      refine ⟨laterInitialized.trans initialized, laterTopology.trans topology, fun other => ?_⟩
      rcases later other with kept | fresh
      · rw [kept]
        exact installed other
      · exact .inr fresh

theorem numallocCleanup_uninitialized {s : State} (uninitialized : s.initialized = false) :
    numallocCleanup s = .ok ((), s) := by
  rw [numallocCleanup, bind_of_ok (get_ok.mpr ⟨rfl, rfl⟩), uninitialized]
  rfl

/-- A `numalloc_init` returning `-1` undoes nothing: its topology and pools stay, `g_initialized` as it was. -/
theorem numallocInit_failure_effects {platform : Platform} {poolSize : Nat} {s s' : State}
    (h : numallocInit platform poolSize s = .ok (-1, s')) :
    s'.initialized = s.initialized ∧ (s.initialized = true → s' = s) ∧
      (s.initialized = false → s'.topology = discoverNumaTopology platform ∧ s'.arenas = s.arenas ∧
        (∀ slot : Fin 8, s'.nodePools slot = s.nodePools slot ∨ s'.nodePools slot = none ∨
          ∃ base, s'.nodePools slot = some ⟨slot.val, base, poolSize, 0⟩) ∧
        numallocCleanup s' = .ok ((), s')) := by
  have arenas := numallocInit_keepsArenas platform poolSize s (-1) s' h
  rcases numallocInit_cases h with ⟨initialized, -, rfl⟩ | ⟨initialized, discovered, -, rfl⟩ |
    ⟨initialized, topology, s₁, created, discovered, creation, ⟨-, -, rfl⟩ | ⟨-, failed, -⟩⟩
  · exact ⟨rfl, fun _ => rfl, (fun cleared => nomatch initialized.symm.trans cleared)⟩
  · exact ⟨rfl, (fun set => nomatch set.symm.trans initialized),
      fun _ => ⟨discovered.symm, arenas, fun _ => .inl rfl, numallocCleanup_uninitialized initialized⟩⟩
  · obtain ⟨laterInitialized, laterTopology, later⟩ := createNodePools_frame creation
    have cleared := laterInitialized.trans initialized
    exact ⟨laterInitialized, (fun set => nomatch set.symm.trans initialized),
      fun _ => ⟨laterTopology.trans discovered.symm, arenas,
        fun slot => (later slot).imp_right (Or.imp_right fun ⟨base, _, found⟩ => ⟨base, found⟩),
        numallocCleanup_uninitialized cleared⟩⟩
  · cases failed

/-- With the second pool refused, `numalloc_init` fails and leaves the first pool installed. -/
theorem numallocInit_failure_effects_second_pool :
    let platform : Platform := ⟨true, true, 1, 1, 1, true, fun _ => 0, fun i => decide (i = 0), fun _ => some 1048576⟩
    let s₀ : State := ⟨none, fun _ => none, false, fun _ => none, fun _ => 0, []⟩
    ∃ s', numallocInit platform 65536 s₀ = .ok (-1, s') ∧ s'.topology = some ⟨2, 1, [0]⟩ ∧ s₀.topology = none ∧
      s'.nodePools 0 = some ⟨0, 1048576, 65536, 0⟩ ∧ s₀.nodePools 0 = none ∧ s'.initialized = false ∧
      numallocCleanup s' = .ok ((), s') := by
  intro platform s₀
  obtain ⟨s', init, pool⟩ : ∃ s', numallocInit platform 65536 s₀ = .ok (-1, s') ∧
      s'.nodePools 0 = some ⟨0, 1048576, 65536, 0⟩ := ⟨_, rfl, by decide⟩
  obtain ⟨initialized, -, effects⟩ := numallocInit_failure_effects init
  obtain ⟨topology, -, -, cleanup⟩ := effects rfl
  exact ⟨s', init, by rw [topology]; decide, rfl, pool, rfl, initialized, cleanup⟩

end MemoryAllocator.Numa
