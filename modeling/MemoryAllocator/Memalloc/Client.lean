import MemoryAllocator.Memalloc.Footprint

namespace MemoryAllocator.Memalloc

section Client

variable {s : State} {live nodes : List Nat}

/-- From a state with the invariant `malloc` returns: its walk ends and each store lies in a reservation. -/
theorem Inv.malloc_returns (inv : Inv s live nodes) (proposed : Option Nat) (size : Nat) :
    ∃ p s', Memalloc.malloc proposed size s = .ok (p, s') := by
  have header : headerSize = 24 := rfl
  unfold Memalloc.malloc
  rcases em (size = 0) with zero | nonzero
  · exact ⟨0, s, by rw [if_pos zero]; rfl⟩
  rw [if_neg nonzero, bind_of_ok (inv.getFreeBlock_ok size)]
  rcases em (firstFit s.memory size nodes ≠ 0) with reused | unfit
  · rw [if_pos reused]
    have node := ((firstFit_cases s.memory size nodes).resolve_left reused).1
    have reach := inv.header_accessible node
    rw [bind_of_ok ((store_ok (u := ())).mpr ⟨accessible_of_le reach (by omega) (by omega), rfl⟩)]
    exact ⟨_, _, rfl⟩
  rw [if_neg unfit]
  cases mapping : mapAt allocationGranularity pageSize s.regions proposed (sizeAdd headerSize size) with
  | none =>
    rw [bind_of_ok (virtualAlloc_ok.mpr (.inr ⟨mapping, rfl, rfl⟩)), if_pos rfl]
    exact ⟨_, _, rfl⟩
  | some base =>
    obtain ⟨positive, -, nonempty, -, -⟩ := mapAt_fresh mapping
    have room : headerSize < pageRound pageSize (sizeAdd headerSize size) := by
      unfold pageRound pageSize
      omega
    have fresh : accessible (⟨base, pageRound pageSize (sizeAdd headerSize size)⟩ :: s.regions) base headerSize :=
      accessible_within (List.mem_cons_self _ _) ⟨le_rfl, by unfold Region.stop; dsimp only; omega⟩
    have linked : s.tail ≠ 0 →
        accessible (⟨base, pageRound pageSize (sizeAdd headerSize size)⟩ :: s.regions) (s.tail + 16) 8 := by
      intro nonempty
      obtain ⟨region, mapped, holds⟩ := accessible_iff.mp (inv.header_accessible (inv.tail_mem nonempty))
      exact accessible_within (List.mem_cons_of_mem _ mapped) ⟨by unfold Region.Holds at holds; omega,
        by unfold Region.Holds at holds; omega⟩
    rw [bind_of_ok (virtualAlloc_ok.mpr (.inl ⟨mapping, rfl⟩)), if_neg (by omega),
      bind_of_ok ((store_ok (u := ())).mpr ⟨accessible_of_le fresh le_rfl (by omega), rfl⟩),
      bind_of_ok ((store_ok (u := ())).mpr ⟨accessible_of_le fresh (by omega) (by omega), rfl⟩),
      bind_of_ok ((store_ok (u := ())).mpr ⟨accessible_of_le fresh (by omega) (by omega), rfl⟩),
      bind_of_ok (get_ok.mpr ⟨rfl, rfl⟩)]
    split <;> [rw [bind_of_ok ((setHead_ok (u := ())).mpr rfl)]; rw [pure_bind]]
    all_goals
      dsimp only
      rw [bind_of_ok (get_ok.mpr ⟨rfl, rfl⟩)]
      dsimp only
      split
      · rw [bind_of_ok ((store_ok (u := ())).mpr ⟨linked ‹_›, rfl⟩)]
        exact ⟨_, _, rfl⟩
      · exact ⟨_, _, rfl⟩

end Client

/-- In every run `malloc` returns, `NULL` only for size 0 or when no header fits and `VirtualAlloc` refuses. -/
theorem reachable_malloc_returns {sys : Sys} (reach : Reachable sys) (proposed : Option Nat) (size : Nat) :
    ∃ p s', malloc proposed size sys.state = .ok (p, s') ∧
      (p = 0 → size = 0 ∨ (∃ nodes, Chain (nextOf sys.state.memory) sys.state.head nodes ∧
          ∀ header ∈ nodes, ¬ (isFreeOf sys.state.memory header ≠ 0 ∧ size ≤ sizeOf sys.state.memory header)) ∧
        mapAt allocationGranularity pageSize sys.state.regions proposed (sizeAdd headerSize size) = none) := by
  obtain ⟨nodes, inv⟩ := reach.inv
  obtain ⟨p, s', h⟩ := inv.malloc_returns proposed size
  refine ⟨p, s', h, fun zero => ?_⟩
  rcases malloc_cases h with ⟨given, -⟩ | ⟨-, header, -, -, -, rfl, -⟩ | ⟨-, found, refused, -⟩ |
    ⟨-, -, base, -, rfl, -⟩
  · exact .inl given
  · exact absurd zero (by unfold headerSize; omega)
  · rw [inv.getFreeBlock_ok size] at found
    exact .inr ⟨⟨nodes, inv.chain,
      firstFit_eq_zero _ size inv.chain.mem_ne_zero (Prod.mk.inj (Except.ok.inj found)).1⟩, refused⟩
  · exact absurd zero (by unfold headerSize; omega)

/-- After a first `malloc(16)`, a second `malloc(16)` walks past the header in use and returns. -/
theorem malloc_returns_after_malloc :
    let m₁ : Memory := (((Memory.fill (fun _ => 0) 65536 4096 0).store 65536 8 16).store 65544 4 0).store 65552 8 0
    let s₁ : State := ⟨65536, 65536, m₁, [⟨65536, 4096⟩]⟩
    Reachable ⟨s₁, [65560]⟩ ∧ ∃ p s', malloc (some 131072) 16 s₁ = .ok (p, s') ∧
      (p = 0 → 16 = 0 ∨ (∃ nodes, Chain (nextOf s₁.memory) s₁.head nodes ∧
          ∀ header ∈ nodes, ¬ (isFreeOf s₁.memory header ≠ 0 ∧ 16 ≤ sizeOf s₁.memory header)) ∧
        mapAt allocationGranularity pageSize s₁.regions (some 131072) (sizeAdd headerSize 16) = none) := by
  intro m₁ s₁
  have first : malloc (some 65536) 16 ⟨0, 0, fun _ => 0, []⟩ = .ok (65560, s₁) := by unfold s₁ m₁; rfl
  have reach : Reachable ⟨s₁, allocated 65560 []⟩ := .step (.start _) (.malloc first)
  have live : allocated 65560 [] = [65560] := by decide
  rw [live] at reach
  exact ⟨reach, reachable_malloc_returns reach (some 131072) 16⟩

/-- A `realloc` of a held block that returns a block keeps the first bytes the request and the old size cover. -/
theorem reachable_realloc_copies {sys : Sys} (reach : Reachable sys) {proposed : Option Nat} {block size p : Nat}
    {s' : State} (held : block ∈ sys.live) (h : realloc proposed block size sys.state = .ok (p, s')) (nonzero : p ≠ 0) :
    ∀ i, i < min size (sizeOf sys.state.memory (block - headerSize)) → s'.memory (p + i) = sys.state.memory (block + i) := by
  obtain ⟨nodes, inv⟩ := reach.inv
  intro i below
  rcases realloc_cases h with ⟨given, -⟩ | ⟨-, -, rfl, rfl⟩ |
    ⟨-, -, s₁, allocation, ⟨rfl, -⟩ | ⟨-, s₂, copied, freeing⟩⟩
  · have : size = 0 := given.resolve_left (inv.ptr_ne_zero held)
    omega
  · rfl
  · exact absurd rfl nonzero
  obtain ⟨above, node⟩ := inv.held block held
  obtain ⟨reserved, longer, own⟩ := inv.own _ node
  obtain ⟨regions, writes, -⟩ := inv.malloc_writes allocation
  obtain ⟨-, nodes₁, allocated', source, destination, rfl, copiedInv⟩ := inv.realloc_copied allocation nonzero copied
  have within : i < sizeOf s₁.memory (block - headerSize) := by
    rw [inv.malloc_keeps_size allocation node]
    omega
  obtain ⟨-, freeWrites⟩ := copiedInv.free_writes (.inr (List.mem_cons_of_mem _ held)) freeing
  have kept : s'.memory (p + i) = s₁.memory.copy p block (sizeOf s₁.memory (block - headerSize)) (p + i) :=
    Classical.byContradiction fun changed => freeWrites _ changed p (List.mem_cons_self _ _)
      (copiedInv.inBlock_of_access (List.mem_cons_self _ _) destination (by omega) (by omega))
  have inside : InBlock sys.state block (block + i) := by
    obtain ⟨region, mapped, holds⟩ := accessible_iff.mp source
    unfold Region.Holds Region.stop at holds
    obtain rfl := allocated'.region_eq mapped (regions _ own) ⟨holds.1, by unfold Region.stop; omega⟩
      ⟨by dsimp only; omega, by unfold Region.stop; dsimp only; omega⟩
    exact ⟨reserved, own, by omega, by dsimp only at holds; omega⟩
  have untouched : s₁.memory (block + i) = sys.state.memory (block + i) :=
    Classical.byContradiction fun changed => writes _ changed block held inside
  rw [kept, ← untouched]
  simp only [Memory.copy]
  rw [if_pos (by omega), Nat.add_sub_cancel_left]

/-- A `realloc` to 32 bytes moves a block holding 16 stored bytes, and the new block starts with them. -/
theorem reachable_realloc_copies_moved :
    let m₀ : Memory := (((Memory.fill (fun _ => 0) 65536 4096 0).store 65536 8 16).store 65544 4 0).store 65552 8 0
    let s₁ : State := ⟨65536, 65536, m₀.write 65560 16 fun i => i + 1, [⟨65536, 4096⟩]⟩
    Reachable ⟨s₁, [65560]⟩ ∧ ∃ s₂, realloc (some 131072) 65560 32 s₁ = .ok (131096, s₂) ∧
      ∀ i, i < min 32 (sizeOf s₁.memory (65560 - headerSize)) → s₂.memory (131096 + i) = s₁.memory (65560 + i) := by
  intro m₀ s₁
  have first : malloc (some 65536) 16 ⟨0, 0, fun _ => 0, []⟩ = .ok (65560, ⟨65536, 65536, m₀, [⟨65536, 4096⟩]⟩) := by
    unfold m₀; rfl
  have stored : write 65560 16 (fun i => i + 1) ⟨65536, 65536, m₀, [⟨65536, 4096⟩]⟩ = .ok ((), s₁) := by
    unfold s₁ m₀; rfl
  obtain ⟨s₂, moved⟩ := ok_of_toOption
    (show (realloc (some 131072) 65560 32 s₁).toOption.map Prod.fst = some 131096 by unfold s₁ m₀; decide)
  have reach : Reachable ⟨s₁, allocated 65560 []⟩ :=
    .step (.step (.start _) (.malloc first)) (.write (by decide) le_rfl (by decide) stored)
  have start : allocated 65560 [] = [65560] := by decide
  rw [start] at reach
  exact ⟨reach, s₂, moved, reachable_realloc_copies reach (by decide) moved (by decide)⟩

end MemoryAllocator.Memalloc
