import MemoryAllocator.Numa.Safety
import MemoryAllocator.Numa.Reinit

namespace MemoryAllocator.Numa

/-- Every pool's base and watermark are multiples of 16. -/
def PoolsAligned (nodePools : Fin 8 → Option NodePool) : Prop :=
  ∀ slot pool, nodePools slot = some pool → 16 ∣ pool.baseAddr ∧ 16 ∣ pool.used

/-- What one call does to the pools: each keeps its watermark or advances it by one refill. -/
def PoolStep (nodePools nodePools' : Fin 8 → Option NodePool) : Prop :=
  ∀ slot, nodePools' slot = nodePools slot ∨ ∃ pool sizeClass, nodePools slot = some pool ∧
    nodePools' slot = some { pool with used := sizeAdd pool.used (batchBytes sizeClass) }

/-- The pools and the carved blocks of a run are 16-byte aligned. -/
def Sys.Aligned (sys : Sys) : Prop := PoolsAligned sys.state.nodePools ∧ ∀ p ∈ sys.carved, 16 ∣ p

theorem PoolStep.of_eq {nodePools nodePools' : Fin 8 → Option NodePool} (same : nodePools' = nodePools) :
    PoolStep nodePools nodePools' := fun _ => .inl (by rw [same])

theorem sixteen_dvd_sizeAdd {a b : Nat} (left : 16 ∣ a) (right : 16 ∣ b) : 16 ∣ sizeAdd a b :=
  (Nat.dvd_mod_iff (show 16 ∣ sizeBound by unfold sizeBound; norm_num)).mpr (dvd_add left right)

theorem sixteen_dvd_of_pageAligned {base : Nat} (pageAligned : base % pageSize = 0) : 16 ∣ base :=
  dvd_trans (by decide : 16 ∣ pageSize) (Nat.dvd_of_mod_eq_zero pageAligned)

theorem PoolStep.aligned {nodePools nodePools' : Fin 8 → Option NodePool} (step : PoolStep nodePools nodePools')
    (aligned : PoolsAligned nodePools) : PoolsAligned nodePools' := by
  intro slot pool found
  rcases step slot with same | ⟨old, sizeClass, oldFound, advanced⟩
  · exact aligned slot pool (by rw [← same]; exact found)
  · rw [advanced] at found
    cases found
    exact ⟨(aligned slot old oldFound).1,
      sixteen_dvd_sizeAdd (aligned slot old oldFound).2 (sixteen_dvd_batchBytes sizeClass)⟩

theorem carveList_dvd {batchStart blockSize : Nat} (start : 16 ∣ batchStart) (sized : 16 ∣ blockSize) :
    ∀ count, ∀ p ∈ carveList batchStart blockSize count, 16 ∣ p
  | 0, _, member => absurd member (List.not_mem_nil _)
  | count + 1, p, member => by
    have header : 16 ∣ headerSize := dvd_rfl
    rcases List.mem_cons.mp member with rfl | later
    · exact dvd_add (dvd_add start (dvd_mul_of_dvd_right (dvd_add sized header) _)) header
    · exact carveList_dvd start sized count p later

/-- The blocks a call carves from aligned pools that it advances by refills are aligned. -/
theorem carvedBetween_aligned {s s' : State} (aligned : PoolsAligned s.nodePools)
    (step : PoolStep s.nodePools s'.nodePools) : ∀ p ∈ carvedBetween s s', 16 ∣ p := by
  intro p member
  obtain ⟨slot, -, member⟩ := List.mem_flatMap.mp member
  rcases step slot with same | ⟨pool, sizeClass, found, advanced⟩
  · rw [same] at member
    split at member
    · rename_i pool other found otherFound
      rw [found] at otherFound
      cases otherFound
      simp at member
    · exact absurd member (List.not_mem_nil _)
  · rw [found, advanced] at member
    dsimp only at member
    split_ifs at member with grows
    · have bounded : batchBytes sizeClass ≤ 132096 := batchBytes_le sizeClass
      have kept : sizeAdd pool.used (batchBytes sizeClass) = pool.used + batchBytes sizeClass := by
        unfold sizeAdd sizeBound at grows ⊢
        omega
      rw [kept, Nat.add_sub_cancel_left, batchBytes, Nat.mul_div_cancel _ (by decide), Nat.add_sub_cancel] at member
      exact carveList_dvd (dvd_add (aligned slot pool found).1 (aligned slot pool found).2)
        ⟨_, sizeClassSizes_eq sizeClass⟩ _ p member
    · exact absurd member (List.not_mem_nil _)

section Calls

variable {s s' : State}

theorem slowPathAlloc_poolStep {thread : Nat} {arena : ThreadArena} {size : Nat} {sizeClass : Option (Fin 8)}
    {env : Env} {r : Nat} (found : s.arenas thread = some arena)
    (h : slowPathAlloc thread arena size sizeClass env s = .ok (r, s')) : PoolStep s.nodePools s'.nodePools := by
  cases sizeClass with
  | none =>
    rcases allocateLargeBlock_cases h with ⟨-, rfl⟩ | ⟨ptr, -, -, rfl⟩ <;> exact PoolStep.of_eq rfl
  | some sizeClass =>
    rcases slowPathAlloc_small_cases found h with ⟨-, rfl⟩ |
      ⟨slot, pool, used, advanced, memory, -, poolFound, reserved, -, -, rfl⟩
    · exact PoolStep.of_eq rfl
    · intro other
      dsimp only
      by_cases here : other = slot
      · subst here
        refine .inr ⟨pool, sizeClass, poolFound, ?_⟩
        unfold reserveBatch at reserved
        split_ifs at reserved
        · cases reserved
        · cases reserved
          rw [Function.update_same]
      · exact .inl (Function.update_noteq here _ _)

theorem numalloc_poolStep {thread : Nat} {env : Env} {size r : Nat} (h : numalloc thread env size s = .ok (r, s')) :
    PoolStep s.nodePools s'.nodePools := by
  rcases numalloc_cases h with ⟨-, rfl⟩ | ⟨arena, s₁, -, -, arenaGot, ⟨_, -, -, -, -, rfl⟩ | ⟨s₂, -, slow, after⟩⟩
  · exact PoolStep.of_eq rfl
  all_goals obtain ⟨rfl, -⟩ := getOrCreateArena_some arenaGot
  · exact PoolStep.of_eq rfl
  · have step := slowPathAlloc_poolStep (by simp) slow
    rcases after with ⟨-, rfl⟩ | ⟨-, ⟨counted, -, rfl⟩ | ⟨-, rfl⟩⟩ <;> exact step

theorem numallocFree_nodePools {thread : Nat} {env : Env} {ptr : Nat} {u : Unit}
    (h : numallocFree thread env ptr s = .ok (u, s')) : s'.nodePools = s.nodePools := by
  rcases numallocFree_cases h with ⟨-, rfl⟩ | ⟨-, -, ⟨-, freed⟩ | ⟨-, arenaGot⟩ | ⟨_, _, _, arenaGot, -, -, rfl⟩⟩
  · rfl
  · rcases freeLargeBlock_cases freed with ⟨-, rfl⟩ | ⟨-, -, rfl⟩ <;> rfl
  · rcases getOrCreateArena_ok.mp arenaGot with ⟨_, _, ⟨⟩, _⟩ | ⟨_, _, _, ⟨⟩, _⟩ | ⟨_, _, _, rfl⟩
    rfl
  · obtain ⟨rfl, -⟩ := getOrCreateArena_some arenaGot
    rfl

theorem numallocCalloc_poolStep {thread : Nat} {env : Env} {num size r : Nat}
    (h : numallocCalloc thread env num size s = .ok (r, s')) : PoolStep s.nodePools s'.nodePools := by
  rcases numallocCalloc_cases h with ⟨-, rfl⟩ | ⟨s₁, -, -, -, allocation, after⟩
  · exact PoolStep.of_eq rfl
  · have step := numalloc_poolStep allocation
    rcases after with ⟨-, rfl⟩ | ⟨-, -, rfl⟩ <;> exact step

theorem numallocRealloc_poolStep {thread : Nat} {env : Env} {ptr size r : Nat}
    (h : numallocRealloc thread env ptr size s = .ok (r, s')) : PoolStep s.nodePools s'.nodePools := by
  rcases numallocRealloc_cases h with ⟨-, allocation⟩ | ⟨-, -, -, freed⟩ |
    ⟨-, -, _, -, ⟨-, -, rfl⟩ | ⟨-, s₁, allocation, after⟩⟩
  · exact numalloc_poolStep allocation
  · exact PoolStep.of_eq (numallocFree_nodePools freed)
  · exact PoolStep.of_eq rfl
  · have step := numalloc_poolStep allocation
    rcases after with ⟨-, rfl⟩ | ⟨-, s₂, copied, freed⟩
    · exact step
    · obtain ⟨-, -, rfl⟩ := memcpy_ok.mp copied
      rw [numallocFree_nodePools freed]
      exact step

/-- A `numalloc_init` keeps the pools aligned: each new pool starts on a page, empty. -/
theorem numallocInit_poolsAligned {platform : Platform} {poolSize : Nat} {r : Int}
    (aligned : PoolsAligned s.nodePools) (h : numallocInit platform poolSize s = .ok (r, s')) :
    PoolsAligned s'.nodePools := by
  rcases numallocInit_cases h with ⟨-, -, rfl⟩ | ⟨-, -, -, rfl⟩ | ⟨-, topology, s₁, created, -, creation, after⟩
  · exact aligned
  · exact aligned
  have pools : PoolsAligned s₁.nodePools := by
    obtain ⟨-, -, frame⟩ := createNodePools_frame creation
    intro slot pool found
    rcases frame slot with kept | empty | ⟨base, pageAligned, made⟩
    · exact aligned slot pool (kept.symm.trans found)
    · rw [empty] at found
      cases found
    · rw [made] at found
      cases found
      exact ⟨sixteen_dvd_of_pageAligned pageAligned, dvd_zero 16⟩
  rcases after with ⟨-, -, rfl⟩ | ⟨-, -, rfl⟩ <;> exact pools

end Calls

/-- One step of a run keeps the pools and the carved blocks aligned. -/
theorem Step.aligned {sameThread : Bool} {sys sys' : Sys} {action : Action} (step : Step sameThread sys action sys')
    (aligned : sys.Aligned) :
    sys'.Aligned := by
  have carving : ∀ {s' : State} {live' : List Live}, PoolStep sys.state.nodePools s'.nodePools →
      Sys.Aligned ⟨s', live', carvedBetween sys.state s' ++ sys.carved⟩ := fun advanced =>
    ⟨advanced.aligned aligned.1, fun p member =>
      (List.mem_append.mp member).elim (carvedBetween_aligned aligned.1 advanced p) (aligned.2 p)⟩
  cases step with
  | numalloc h => exact carving (numalloc_poolStep h)
  | calloc h => exact carving (numallocCalloc_poolStep h)
  | realloc _ h => exact carving (numallocRealloc_poolStep h)
  | free _ h => exact ⟨by rw [Sys.state, numallocFree_nodePools h]; exact aligned.1, aligned.2⟩
  | write _ _ _ h =>
    obtain ⟨-, rfl⟩ := write_ok.mp h
    exact aligned

theorem Reachable.aligned {sameThread : Bool} {sys : Sys} (reach : Reachable sameThread sys) : sys.Aligned := by
  induction reach with
  | init pristine h =>
    exact ⟨numallocInit_poolsAligned (fun slot pool found => by rw [pristine.noPools slot] at found; cases found) h,
      fun _ member => absurd member (List.not_mem_nil _)⟩
  | step _ step aligned => exact step.aligned aligned

/-- In an aligned run every held block is aligned: carved, or behind a page-aligned header. -/
theorem Sys.Aligned.live {sameThread : Bool} {sys : Sys} {heap : Heap} (aligned : sys.Aligned)
    (sound : sys.Sound sameThread heap) : ∀ x ∈ sys.live, 16 ∣ x.ptr := by
  intro x member
  rcases sound.1.liveOwned x member with ⟨block, carved, same⟩ | ⟨large, mapped, same⟩
  · rw [← same]
    exact aligned.2 _ (by rw [← sound.2.1]; exact List.mem_map_of_mem Block.ptr carved)
  · obtain ⟨-, -, pageAligned, -⟩ := sound.1.larges large mapped
    rw [← same]
    exact dvd_add (sixteen_dvd_of_pageAligned pageAligned) dvd_rfl

/-- In every run pools, carved and held blocks, and every non-`NULL` result lie at multiples of 16. -/
theorem reachable_aligned {sameThread : Bool} {sys : Sys} (reach : Reachable sameThread sys) :
    PoolsAligned sys.state.nodePools ∧ (∀ p ∈ sys.carved, 16 ∣ p) ∧ (∀ x ∈ sys.live, 16 ∣ x.ptr) ∧
      (∀ thread env size p s', numalloc thread env size sys.state = .ok (p, s') → p ≠ 0 → 16 ∣ p) ∧
      (∀ thread env num size p s', numallocCalloc thread env num size sys.state = .ok (p, s') → p ≠ 0 → 16 ∣ p) ∧
      (∀ thread env ptr size p s', Passable sameThread sys.live thread ptr →
        numallocRealloc thread env ptr size sys.state = .ok (p, s') → p ≠ 0 → 16 ∣ p) := by
  have held : ∀ {sys : Sys}, Reachable sameThread sys → ∀ x ∈ sys.live, 16 ∣ x.ptr := fun reach => by
    obtain ⟨heap, sound⟩ := reach.sound
    exact reach.aligned.live sound
  have handed : ∀ thread env size p s', numalloc thread env size sys.state = .ok (p, s') → p ≠ 0 → 16 ∣ p :=
    fun thread env size p s' h nonzero =>
      held (reach.step (.numalloc h)) ⟨thread, p⟩ (by simp [allocated, nonzero])
  refine ⟨reach.aligned.1, reach.aligned.2, held reach, handed, ?_, ?_⟩
  · intro thread env num size p s' h nonzero
    rcases numallocCalloc_cases h with ⟨rfl, -⟩ | ⟨s₁, -, -, -, allocation, -⟩
    · exact absurd rfl nonzero
    · exact handed _ _ _ _ _ allocation nonzero
  · intro thread env ptr size p s' passable h nonzero
    rcases numallocRealloc_cases h with ⟨-, allocation⟩ | ⟨-, -, rfl, -⟩ |
      ⟨-, -, _, -, ⟨-, rfl, -⟩ | ⟨-, s₁, allocation, -⟩⟩
    · exact handed _ _ _ _ _ allocation nonzero
    · exact absurd rfl nonzero
    · obtain ⟨x, member, same⟩ := passable.held.resolve_left nonzero
      rw [← same]
      exact held reach x member
    · exact handed _ _ _ _ _ allocation nonzero

theorem reachable_aligned_after_calls :
    ∃ s carved, Reachable false ⟨s, [⟨1, 2097168⟩, ⟨0, 1050576⟩], carved⟩ ∧
      (PoolsAligned s.nodePools ∧ (∀ p ∈ carved, 16 ∣ p) ∧ (∀ x ∈ [(⟨1, 2097168⟩ : Live), ⟨0, 1050576⟩], 16 ∣ x.ptr) ∧
        (∀ thread env size p s', numalloc thread env size s = .ok (p, s') → p ≠ 0 → 16 ∣ p) ∧
        (∀ thread env num size p s', numallocCalloc thread env num size s = .ok (p, s') → p ≠ 0 → 16 ∣ p) ∧
        (∀ thread env ptr size p s', Passable false [⟨1, 2097168⟩, ⟨0, 1050576⟩] thread ptr →
          numallocRealloc thread env ptr size s = .ok (p, s') → p ≠ 0 → 16 ∣ p)) :=
  let ⟨s, carved, reach⟩ := reachable_two_threads false
  ⟨s, carved, reach, reachable_aligned reach⟩

end MemoryAllocator.Numa
