import MemoryAllocator.Memalloc.Operations

namespace MemoryAllocator.Memalloc

variable {s s' : State}

theorem fits_state {size curr : Nat} {r : Bool} (h : fits size curr s = .ok (r, s')) : s' = s := by
  unfold fits at h
  obtain ⟨free, s₁, first, afterFirst⟩ := bind_ok.mp h
  obtain ⟨-, -, rfl⟩ := load_ok.mp first
  split at afterFirst
  · exact (pure_ok.mp afterFirst).2.symm
  · obtain ⟨recorded, s₂, second, afterSecond⟩ := bind_ok.mp afterFirst
    obtain ⟨-, -, rfl⟩ := load_ok.mp second
    exact (pure_ok.mp afterSecond).2.symm

/-- The walk of `get_free_block` only reads. -/
theorem getFreeBlockFrom_state {s s' : State} {size r : Nat} :
    ∀ {fuel curr : Nat}, getFreeBlockFrom size fuel curr s = .ok (r, s') → s' = s
  | 0, _, h => absurd h throw_not_ok
  | fuel + 1, curr, h => by
    unfold getFreeBlockFrom at h
    split at h
    · exact (pure_ok.mp h).2.symm
    obtain ⟨fit, s₁, tested, afterTest⟩ := bind_ok.mp h
    obtain rfl := fits_state tested
    split at afterTest
    · exact (pure_ok.mp afterTest).2.symm
    obtain ⟨next, s₂, read, walk⟩ := bind_ok.mp afterTest
    obtain ⟨-, -, rfl⟩ := load_ok.mp read
    exact getFreeBlockFrom_state walk

theorem getFreeBlock_state {size r : Nat} (h : getFreeBlock size s = .ok (r, s')) : s' = s := by
  obtain ⟨current, s₁, got, walk⟩ := bind_ok.mp h
  obtain ⟨rfl, rfl⟩ := get_ok.mp got
  exact getFreeBlockFrom_state walk

/-- What a `malloc` that returns has done, one disjunct per path of the code. -/
theorem malloc_cases {proposed : Option Nat} {size p : Nat} (h : malloc proposed size s = .ok (p, s')) :
    (size = 0 ∧ p = 0 ∧ s' = s) ∨
      (size ≠ 0 ∧ ∃ header, getFreeBlock size s = .ok (header, s) ∧ header ≠ 0 ∧
        accessible s.regions (header + 8) 4 ∧ p = header + headerSize ∧
        s' = { s with memory := s.memory.store (header + 8) 4 0 }) ∨
      (size ≠ 0 ∧ getFreeBlock size s = .ok (0, s) ∧
        mapAt allocationGranularity pageSize s.regions proposed (sizeAdd headerSize size) = none ∧ p = 0 ∧ s' = s) ∨
      (size ≠ 0 ∧ getFreeBlock size s = .ok (0, s) ∧ ∃ base,
        mapAt allocationGranularity pageSize s.regions proposed (sizeAdd headerSize size) = some base ∧
        p = base + headerSize ∧
        let memory := (((s.memory.fill base (pageRound pageSize (sizeAdd headerSize size)) 0).store base 8 size).store
          (base + 8) 4 0).store (base + 16) 8 0
        s' = ⟨if s.head = 0 then base else s.head, base,
          if s.tail ≠ 0 then memory.store (s.tail + 16) 8 base else memory,
          ⟨base, pageRound pageSize (sizeAdd headerSize size)⟩ :: s.regions⟩) := by
  unfold malloc at h
  rcases em (size = 0) with zero | nonzero
  · rw [if_pos zero] at h
    exact .inl ⟨zero, (pure_ok.mp h).1.symm, (pure_ok.mp h).2.symm⟩
  rw [if_neg nonzero] at h
  obtain ⟨header, s₁, found, afterFound⟩ := bind_ok.mp h
  obtain rfl := getFreeBlock_state found
  rcases em (header ≠ 0) with reused | unfit
  · rw [if_pos reused] at afterFound
    obtain ⟨⟨⟩, s₂, marked, done⟩ := bind_ok.mp afterFound
    obtain ⟨reach, rfl⟩ := store_ok.mp marked
    obtain ⟨rfl, rfl⟩ := pure_ok.mp done
    exact .inr (.inl ⟨nonzero, header, found, reused, reach, rfl, rfl⟩)
  rw [if_neg unfit] at afterFound
  obtain rfl : header = 0 := not_not.mp unfit
  obtain ⟨block, s₂, reserved, afterReserve⟩ := bind_ok.mp afterFound
  rcases virtualAlloc_ok.mp reserved with ⟨mapped, rfl⟩ | ⟨unmapped, rfl, rfl⟩
  · rw [if_neg (Nat.pos_iff_ne_zero.mp (mapAt_fresh mapped).1)] at afterReserve
    obtain ⟨⟨⟩, s₃, sized, afterSized⟩ := bind_ok.mp afterReserve
    obtain ⟨-, rfl⟩ := store_ok.mp sized
    obtain ⟨⟨⟩, s₄, used, afterUsed⟩ := bind_ok.mp afterSized
    obtain ⟨-, rfl⟩ := store_ok.mp used
    obtain ⟨⟨⟩, s₅, ended, afterEnded⟩ := bind_ok.mp afterUsed
    obtain ⟨-, rfl⟩ := store_ok.mp ended
    obtain ⟨current, s₆, gotHead, afterGetHead⟩ := bind_ok.mp afterEnded
    obtain ⟨rfl, rfl⟩ := get_ok.mp gotHead
    refine .inr (.inr (.inr ⟨nonzero, found, block, mapped, ?_⟩))
    split at afterGetHead <;> rename_i headTest <;> obtain ⟨⟨⟩, s₇, headed, afterHead⟩ := bind_ok.mp afterGetHead <;>
      [obtain rfl := setHead_ok.mp headed; obtain ⟨-, rfl⟩ := pure_ok.mp headed]
    all_goals
      obtain ⟨current, s₈, gotTail, afterGetTail⟩ := bind_ok.mp afterHead
      obtain ⟨rfl, rfl⟩ := get_ok.mp gotTail
      split at afterGetTail <;> rename_i tailTest <;> obtain ⟨⟨⟩, s₉, linked, afterLink⟩ := bind_ok.mp afterGetTail <;>
        [obtain ⟨-, rfl⟩ := store_ok.mp linked; obtain ⟨-, rfl⟩ := pure_ok.mp linked]
      all_goals
        obtain ⟨⟨⟩, s₁₀, tailed, done⟩ := bind_ok.mp afterLink
        obtain rfl := setTail_ok.mp tailed
        obtain ⟨rfl, rfl⟩ := pure_ok.mp done
        dsimp only at headTest tailTest ⊢
        simp only [headTest, tailTest, ↓reduceIte, ne_eq, not_false_eq_true, not_true_eq_false, and_self]
  · rw [if_pos rfl] at afterReserve
    obtain ⟨rfl, rfl⟩ := pure_ok.mp afterReserve
    exact .inr (.inr (.inl ⟨nonzero, found, unmapped, rfl, rfl⟩))

/-- What a `free` that returns has done, one disjunct per path of the code. -/
theorem free_cases {block : Nat} {u : Unit} (h : free block s = .ok (u, s')) :
    (block = 0 ∧ s' = s) ∨
      (block ≠ 0 ∧ block - headerSize = s.tail ∧ s.head = s.tail ∧
        s' = ⟨0, 0, s.memory, s.regions.filter fun region => region.base ≠ block - headerSize⟩) ∨
      (block ≠ 0 ∧ block - headerSize = s.tail ∧ s.head ≠ s.tail ∧ ∃ s₁,
        unlinkTail s.tail (s.regions.length + 1) s.head s = .ok ((), s₁) ∧
        s' = { s₁ with regions := s₁.regions.filter fun region => region.base ≠ block - headerSize }) ∨
      (block ≠ 0 ∧ block - headerSize ≠ s.tail ∧ accessible s.regions (block - headerSize + 8) 4 ∧
        s' = { s with memory := s.memory.store (block - headerSize + 8) 4 1 }) := by
  unfold free at h
  rcases em (block = 0) with zero | nonzero
  · rw [if_pos zero] at h
    exact .inl ⟨zero, (pure_ok.mp h).2.symm⟩
  rw [if_neg nonzero] at h
  obtain ⟨current, s₁, got, afterGet⟩ := bind_ok.mp h
  obtain ⟨read, kept⟩ := get_ok.mp got
  subst current s₁
  dsimp only at afterGet
  rcases em (block - headerSize = s.tail) with last | inner
  · rw [if_pos last] at afterGet
    rcases em (s.head = s.tail) with single | several
    · rw [if_pos single] at afterGet
      obtain ⟨⟨⟩, s₂, headed, afterHead⟩ := bind_ok.mp afterGet
      obtain rfl := setHead_ok.mp headed
      obtain ⟨⟨⟩, s₃, tailed, released⟩ := bind_ok.mp afterHead
      obtain rfl := setTail_ok.mp tailed
      obtain rfl := virtualFree_ok.mp released
      exact .inr (.inl ⟨nonzero, last, single, rfl⟩)
    · rw [if_neg several] at afterGet
      obtain ⟨⟨⟩, s₂, unlinked, released⟩ := bind_ok.mp afterGet
      obtain rfl := virtualFree_ok.mp released
      exact .inr (.inr (.inl ⟨nonzero, last, several, s₂, unlinked, rfl⟩))
  · rw [if_neg inner] at afterGet
    obtain ⟨reach, rfl⟩ := store_ok.mp afterGet
    exact .inr (.inr (.inr ⟨nonzero, inner, reach, rfl⟩))

/-- What a `calloc` that returns has done: refused, passed on `NULL`, or zeroed its block. -/
theorem calloc_cases {proposed : Option Nat} {num nsize p : Nat} (h : calloc proposed num nsize s = .ok (p, s')) :
    (p = 0 ∧ s' = s) ∨
      (∃ s₁, malloc proposed (sizeMul num nsize) s = .ok (p, s₁) ∧
        ((p = 0 ∧ s' = s₁) ∨
          (p ≠ 0 ∧ accessible s₁.regions p (sizeMul num nsize) ∧
            s' = { s₁ with memory := s₁.memory.fill p (sizeMul num nsize) 0 }))) := by
  unfold calloc at h
  split at h
  · exact .inl ⟨(pure_ok.mp h).1.symm, (pure_ok.mp h).2.symm⟩
  dsimp only at h
  split at h
  · exact .inl ⟨(pure_ok.mp h).1.symm, (pure_ok.mp h).2.symm⟩
  obtain ⟨block, s₁, allocated, afterAlloc⟩ := bind_ok.mp h
  split at afterAlloc
  · obtain ⟨rfl, rfl⟩ := pure_ok.mp afterAlloc
    exact .inr ⟨s₁, by rwa [‹block = 0›] at allocated, .inl ⟨rfl, rfl⟩⟩
  obtain ⟨⟨⟩, s₂, zeroed, done⟩ := bind_ok.mp afterAlloc
  obtain ⟨reach, rfl⟩ := memset_ok.mp zeroed
  obtain ⟨rfl, rfl⟩ := pure_ok.mp done
  exact .inr ⟨s₁, allocated, .inr ⟨‹_›, reach, rfl⟩⟩

/-- What a `realloc` that returns has done: `malloc`, kept the block, or moved it. -/
theorem realloc_cases {proposed : Option Nat} {block size p : Nat} (h : realloc proposed block size s = .ok (p, s')) :
    ((block = 0 ∨ size = 0) ∧ malloc proposed size s = .ok (p, s')) ∨
      (¬(block = 0 ∨ size = 0) ∧ size ≤ sizeOf s.memory (block - headerSize) ∧ p = block ∧ s' = s) ∨
      (¬(block = 0 ∨ size = 0) ∧ sizeOf s.memory (block - headerSize) < size ∧ ∃ s₁,
        malloc proposed size s = .ok (p, s₁) ∧
        ((p = 0 ∧ s' = s₁) ∨
          (p ≠ 0 ∧ ∃ s₂, memcpy p block (sizeOf s₁.memory (block - headerSize)) s₁ = .ok ((), s₂) ∧
            free block s₂ = .ok ((), s')))) := by
  unfold realloc at h
  split at h
  · exact .inl ⟨‹_›, h⟩
  rename_i given
  dsimp only at h
  obtain ⟨recorded, s₁, read, afterRead⟩ := bind_ok.mp h
  obtain ⟨-, rfl, rfl⟩ := load_ok.mp read
  split at afterRead
  · obtain ⟨rfl, rfl⟩ := pure_ok.mp afterRead
    exact .inr (.inl ⟨given, ‹_›, rfl, rfl⟩)
  rename_i grows
  refine .inr (.inr ⟨given, Nat.lt_of_not_le grows, ?_⟩)
  obtain ⟨ret, s₂, allocated, afterAlloc⟩ := bind_ok.mp afterRead
  split at afterAlloc
  · obtain ⟨again, s₃, reread, afterReread⟩ := bind_ok.mp afterAlloc
    obtain ⟨-, rfl, rfl⟩ := load_ok.mp reread
    obtain ⟨⟨⟩, s₄, copied, afterCopy⟩ := bind_ok.mp afterReread
    obtain ⟨⟨⟩, s₅, freed, done⟩ := bind_ok.mp afterCopy
    obtain ⟨rfl, rfl⟩ := pure_ok.mp done
    exact ⟨_, allocated, .inr ⟨‹_›, _, copied, freed⟩⟩
  · obtain ⟨⟨⟩, s₃, unit, done⟩ := bind_ok.mp afterAlloc
    obtain ⟨-, rfl⟩ := pure_ok.mp unit
    obtain ⟨rfl, rfl⟩ := pure_ok.mp done
    exact ⟨_, allocated, .inl ⟨not_not.mp ‹_›, rfl⟩⟩

end MemoryAllocator.Memalloc
