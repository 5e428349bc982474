import MemoryAllocator.Memalloc.Calls

namespace MemoryAllocator.Memalloc

/-- The allocator's state and the blocks its clients hold. -/
structure Sys where
  state : State
  live : List Nat

/-- What a step of a run is: a call, or a client's store through the block at `p`. -/
inductive Action
  | malloc
  | calloc
  | realloc (block : Nat)
  | free (block : Nat)
  | write (p : Nat)
deriving DecidableEq, Repr

/-- One call that returns, or one client store. -/
inductive Step : Sys → Action → Sys → Prop
  | malloc {s s' : State} {live : List Nat} {proposed : Option Nat} {size p : Nat} :
      malloc proposed size s = .ok (p, s') → Step ⟨s, live⟩ .malloc ⟨s', allocated p live⟩
  | calloc {s s' : State} {live : List Nat} {proposed : Option Nat} {num nsize p : Nat} :
      calloc proposed num nsize s = .ok (p, s') → Step ⟨s, live⟩ .calloc ⟨s', allocated p live⟩
  | realloc {s s' : State} {live : List Nat} {proposed : Option Nat} {block size p : Nat} :
      (block = 0 ∨ block ∈ live) → realloc proposed block size s = .ok (p, s') →
        Step ⟨s, live⟩ (.realloc block) ⟨s', reallocated block p live⟩
  | free {s s' : State} {live : List Nat} {block : Nat} :
      (block = 0 ∨ block ∈ live) → free block s = .ok ((), s') → Step ⟨s, live⟩ (.free block) ⟨s', freed block live⟩
  | write {s s' : State} {live : List Nat} {p address length : Nat} {data : Nat → Nat} :
      p ∈ live → p ≤ address → accessible s.regions p (address + length - p) →
        write address length data s = .ok ((), s') → Step ⟨s, live⟩ (.write p) ⟨s', live⟩

/-- The systems a run reaches from a process with no reservation and no block held. -/
inductive Reachable : Sys → Prop
  | start (memory : Memory) : Reachable ⟨⟨0, 0, memory, []⟩, []⟩
  | step {sys sys' : Sys} {action : Action} : Reachable sys → Step sys action sys' → Reachable sys'

theorem Step.inv {sys sys' : Sys} {action : Action} (step : Step sys action sys') {nodes : List Nat} (inv : Inv sys.state sys.live nodes) :
    ∃ nodes', Inv sys'.state sys'.live nodes' := by
  cases step with
  | malloc h => exact (inv.malloc h).2
  | calloc h => exact (inv.calloc h).2
  | realloc passable h => exact inv.realloc passable h
  | free passable h =>
    obtain ⟨s', nodes', done, kept, -⟩ := inv.free_returns passable
    obtain ⟨-, rfl⟩ := Prod.mk.inj (Except.ok.inj (h.symm.trans done))
    exact ⟨nodes', kept⟩
  | write held low reach h => exact ⟨nodes, inv.write held low reach h⟩

theorem Reachable.inv {sys : Sys} (reach : Reachable sys) : ∃ nodes, Inv sys.state sys.live nodes := by
  induction reach with
  | start memory => exact ⟨[], inv_empty memory⟩
  | step _ step reached =>
    obtain ⟨nodes, inv⟩ := reached
    exact step.inv inv

/-- In every run the header list is sound, `malloc` returns no held block, and `free` of a held block returns. -/
theorem reachable_listSound {sys : Sys} (reach : Reachable sys) :
    ∃ nodes, Chain (nextOf sys.state.memory) sys.state.head nodes ∧ nodes.Nodup ∧
      sys.state.tail = nodes.getLastD 0 ∧ (sys.state.tail ≠ 0 → nextOf sys.state.memory sys.state.tail = 0) ∧
      (sys.state.head = 0 ↔ sys.state.tail = 0) ∧
      (∀ p ∈ sys.live, p - headerSize ∈ nodes ∧ isFreeOf sys.state.memory (p - headerSize) = 0) ∧
      (∀ header ∈ nodes, isFreeOf sys.state.memory header = 1 → header + headerSize ∉ sys.live) ∧
      (∀ proposed size p s', malloc proposed size sys.state = .ok (p, s') → p ≠ 0 → p ∉ sys.live) ∧
      (∀ p ∈ sys.live, ∃ s' nodes', free p sys.state = .ok ((), s') ∧ Chain (nextOf s'.memory) s'.head nodes' ∧
        s'.tail = nodes'.getLastD 0 ∧ (p - headerSize = sys.state.tail → nodes' = nodes.dropLast)) := by
  obtain ⟨nodes, inv⟩ := reach.inv
  refine ⟨nodes, inv.chain, inv.nodup, inv.tail, inv.next_tail, inv.head_eq_zero_iff, fun p held => ?_,
    fun header node free held => ?_, fun _ _ _ _ h => (inv.malloc h).1, fun p held => ?_⟩
  · obtain ⟨low, node⟩ := inv.held p held
    exact ⟨node, by rw [inv.flags _ node, if_pos (by rwa [Nat.sub_add_cancel low])]⟩
  · rw [inv.flags header node, if_pos held] at free
    cases free
  · obtain ⟨s', nodes', done, kept, dropped⟩ := inv.free_returns (.inr held)
    exact ⟨s', nodes', done, kept.chain, kept.tail, dropped (inv.ptr_ne_zero held)⟩

/-- Two `malloc(16)`s and a `free` of the tail's block leave a one-header list. -/
theorem reachable_listSound_after_free :
    let m₁ : Memory := (((Memory.fill (fun _ => 0) 65536 4096 0).store 65536 8 16).store 65544 4 0).store 65552 8 0
    let s₁ : State := ⟨65536, 65536, m₁, [⟨65536, 4096⟩]⟩
    let m₂ : Memory :=
      ((((Memory.fill m₁ 131072 4096 0).store 131072 8 16).store 131080 4 0).store 131088 8 0).store 65552 8 131072
    let s₂ : State := ⟨65536, 131072, m₂, [⟨131072, 4096⟩, ⟨65536, 4096⟩]⟩
    let s₃ : State := ⟨65536, 65536, m₂.store 65552 8 0, [⟨65536, 4096⟩]⟩
    malloc (some 65536) 16 ⟨0, 0, fun _ => 0, []⟩ = .ok (65560, s₁) ∧ malloc (some 131072) 16 s₁ = .ok (131096, s₂) ∧
      free 131096 s₂ = .ok ((), s₃) ∧ Reachable ⟨s₃, [65560]⟩ ∧
      ∃ nodes, Chain (nextOf s₃.memory) s₃.head nodes ∧ nodes.Nodup ∧
        s₃.tail = nodes.getLastD 0 ∧ (s₃.tail ≠ 0 → nextOf s₃.memory s₃.tail = 0) ∧ (s₃.head = 0 ↔ s₃.tail = 0) ∧
        (∀ p ∈ [65560], p - headerSize ∈ nodes ∧ isFreeOf s₃.memory (p - headerSize) = 0) ∧
        (∀ header ∈ nodes, isFreeOf s₃.memory header = 1 → header + headerSize ∉ [65560]) ∧
        (∀ proposed size p s', malloc proposed size s₃ = .ok (p, s') → p ≠ 0 → p ∉ [65560]) ∧
        (∀ p ∈ [65560], ∃ s' nodes', free p s₃ = .ok ((), s') ∧ Chain (nextOf s'.memory) s'.head nodes' ∧
          s'.tail = nodes'.getLastD 0 ∧ (p - headerSize = s₃.tail → nodes' = nodes.dropLast)) := by
  intro m₁ s₁ m₂ s₂ s₃
  have first : malloc (some 65536) 16 ⟨0, 0, fun _ => 0, []⟩ = .ok (65560, s₁) := by unfold s₁ m₁; rfl
  have second : malloc (some 131072) 16 s₁ = .ok (131096, s₂) := by unfold s₁ s₂ m₁ m₂; rfl
  have third : free 131096 s₂ = .ok ((), s₃) := by unfold s₂ s₃ m₂ m₁; rfl
  have held : (131096 : Nat) ∈ allocated 131096 (allocated 65560 []) := by decide
  have reach : Reachable ⟨s₃, freed 131096 (allocated 131096 (allocated 65560 []))⟩ :=
    .step (.step (.step (.start _) (.malloc first)) (.malloc second)) (.free (.inr held) third)
  have live : freed 131096 (allocated 131096 (allocated 65560 [])) = [65560] := by decide
  rw [live] at reach
  have final := reachable_listSound reach
  dsimp only at final
  exact ⟨first, second, third, reach, final⟩

/-- In every run `malloc` is first fit: it reuses the first fitting header, or appends a new one. -/
theorem reachable_malloc_firstFit {sys : Sys} (reach : Reachable sys) {proposed : Option Nat} {size p : Nat}
    {s' : State} (h : malloc proposed size sys.state = .ok (p, s')) (nonzero : size ≠ 0) :
    ∃ nodes, Chain (nextOf sys.state.memory) sys.state.head nodes ∧
      ((∃ pre header rest, nodes = pre ++ header :: rest ∧ p = header + headerSize ∧
          (isFreeOf sys.state.memory header ≠ 0 ∧ size ≤ sizeOf sys.state.memory header) ∧
          (∀ other ∈ pre, ¬ (isFreeOf sys.state.memory other ≠ 0 ∧ size ≤ sizeOf sys.state.memory other)) ∧
          s' = { sys.state with memory := sys.state.memory.store (header + 8) 4 0 }) ∨
        (∀ header ∈ nodes, ¬ (isFreeOf sys.state.memory header ≠ 0 ∧ size ≤ sizeOf sys.state.memory header)) ∧
          (p = 0 ∨ ∃ base, p = base + headerSize ∧ base ∉ nodes ∧
            Chain (nextOf s'.memory) s'.head (nodes ++ [base]) ∧ s'.tail = base)) := by
  obtain ⟨nodes, inv⟩ := reach.inv
  refine ⟨nodes, inv.chain, ?_⟩
  rcases malloc_cases h with ⟨zero, -⟩ | ⟨-, header, found, reused, -, rfl, rfl⟩ | ⟨-, found, -, rfl, -⟩ |
    ⟨-, found, base, mapped, rfl, rfl⟩
  · exact absurd zero nonzero
  · rw [inv.getFreeBlock_ok size] at found
    obtain ⟨first, -⟩ := Prod.mk.inj (Except.ok.inj found)
    subst first
    obtain ⟨pre, rest, split, fits, before⟩ := firstFit_split _ size reused
    exact .inl ⟨pre, _, rest, split, rfl, fits, before, rfl⟩
  all_goals
    rw [inv.getFreeBlock_ok size] at found
    have noFit := firstFit_eq_zero _ size inv.chain.mem_ne_zero (Prod.mk.inj (Except.ok.inj found)).1
  · exact .inr ⟨noFit, .inl rfl⟩
  · obtain ⟨fresh, grown⟩ := inv.malloc_fresh mapped
    exact .inr ⟨noFit, .inr ⟨base, rfl, fresh, grown.chain, rfl⟩⟩

/-- After the first of two blocks is freed, `malloc(8)` reuses its header. -/
theorem reachable_malloc_firstFit_reuse :
    let m₁ : Memory := (((Memory.fill (fun _ => 0) 65536 4096 0).store 65536 8 16).store 65544 4 0).store 65552 8 0
    let m₂ : Memory :=
      ((((Memory.fill m₁ 131072 4096 0).store 131072 8 16).store 131080 4 0).store 131088 8 0).store 65552 8 131072
    let s₃ : State := ⟨65536, 131072, m₂.store 65544 4 1, [⟨131072, 4096⟩, ⟨65536, 4096⟩]⟩
    let s₄ : State := ⟨65536, 131072, (m₂.store 65544 4 1).store 65544 4 0, [⟨131072, 4096⟩, ⟨65536, 4096⟩]⟩
    Reachable ⟨s₃, [131096]⟩ ∧ malloc (some 196608) 8 s₃ = .ok (65560, s₄) ∧
      ∃ nodes, Chain (nextOf s₃.memory) s₃.head nodes ∧
        ((∃ pre header rest, nodes = pre ++ header :: rest ∧ 65560 = header + headerSize ∧
            (isFreeOf s₃.memory header ≠ 0 ∧ 8 ≤ sizeOf s₃.memory header) ∧
            (∀ other ∈ pre, ¬ (isFreeOf s₃.memory other ≠ 0 ∧ 8 ≤ sizeOf s₃.memory other)) ∧
            s₄ = { s₃ with memory := s₃.memory.store (header + 8) 4 0 }) ∨
          (∀ header ∈ nodes, ¬ (isFreeOf s₃.memory header ≠ 0 ∧ 8 ≤ sizeOf s₃.memory header)) ∧
            (65560 = 0 ∨ ∃ base, 65560 = base + headerSize ∧ base ∉ nodes ∧
              Chain (nextOf s₄.memory) s₄.head (nodes ++ [base]) ∧ s₄.tail = base)) := by
  intro m₁ m₂ s₃ s₄
  have first : malloc (some 65536) 16 ⟨0, 0, fun _ => 0, []⟩ = .ok (65560, ⟨65536, 65536, m₁, [⟨65536, 4096⟩]⟩) := by
    unfold m₁; rfl
  have second : malloc (some 131072) 16 ⟨65536, 65536, m₁, [⟨65536, 4096⟩]⟩ =
      .ok (131096, ⟨65536, 131072, m₂, [⟨131072, 4096⟩, ⟨65536, 4096⟩]⟩) := by unfold m₁ m₂; rfl
  have third : free 65560 ⟨65536, 131072, m₂, [⟨131072, 4096⟩, ⟨65536, 4096⟩]⟩ = .ok ((), s₃) := by
    unfold s₃ m₂ m₁; rfl
  have fourth : malloc (some 196608) 8 s₃ = .ok (65560, s₄) := by unfold s₃ s₄ m₂ m₁; rfl
  have held : (65560 : Nat) ∈ allocated 131096 (allocated 65560 []) := by decide
  have reach : Reachable ⟨s₃, freed 65560 (allocated 131096 (allocated 65560 []))⟩ :=
    .step (.step (.step (.start _) (.malloc first)) (.malloc second)) (.free (.inr held) third)
  have live : freed 65560 (allocated 131096 (allocated 65560 [])) = [131096] := by decide
  rw [live] at reach
  have final := reachable_malloc_firstFit reach fourth (by decide)
  dsimp only at final
  exact ⟨reach, fourth, final⟩

end MemoryAllocator.Memalloc
