import MemoryAllocator.Memalloc.Invariant

namespace MemoryAllocator.Memalloc

variable {s s' : State} {live nodes : List Nat}

/-- `malloc` through `VirtualAlloc` keeps the invariant, its fresh header behind the tail and its block held. -/
theorem Inv.malloc_fresh (inv : Inv s live nodes) {proposed : Option Nat} {size base : Nat}
    (mapped : mapAt allocationGranularity pageSize s.regions proposed (sizeAdd headerSize size) = some base) :
    base ∉ nodes ∧
      let memory := (((s.memory.fill base (pageRound pageSize (sizeAdd headerSize size)) 0).store base 8 size).store
        (base + 8) 4 0).store (base + 16) 8 0
      Inv ⟨if s.head = 0 then base else s.head, base,
          if s.tail ≠ 0 then memory.store (s.tail + 16) 8 base else memory,
          ⟨base, pageRound pageSize (sizeAdd headerSize size)⟩ :: s.regions⟩
        ((base + headerSize) :: live) (nodes ++ [base]) := by
  obtain ⟨positive, -, nonempty, top, apart⟩ := mapAt_fresh mapped
  have header : headerSize = 24 := rfl
  have room : headerSize < pageRound pageSize (sizeAdd headerSize size) := by
    unfold pageRound pageSize
    omega
  have fresh : base ∉ nodes := fun node => by
    obtain ⟨length, longer, own⟩ := inv.own base node
    have := apart _ own
    unfold Region.Apart Region.stop at this
    dsimp only at this
    omega
  refine ⟨fresh, ?_⟩
  have outside : ∀ header ∈ nodes, ∀ x, header ≤ x → x < header + headerSize →
      ((((s.memory.fill base (pageRound pageSize (sizeAdd headerSize size)) 0).store base 8 size).store
        (base + 8) 4 0).store (base + 16) 8 0) x = s.memory x := by
    intro header node x low high
    obtain ⟨length, longer, own⟩ := inv.own header node
    have := apart _ own
    unfold Region.Apart Region.stop at this
    dsimp only at this
    rw [Memory.store_outside (by omega), Memory.store_outside (by omega), Memory.store_outside (by omega),
      Memory.fill_outside (by omega)]
  have used : isFreeOf ((((s.memory.fill base (pageRound pageSize (sizeAdd headerSize size)) 0).store base 8 size).store
      (base + 8) 4 0).store (base + 16) 8 0) base = 0 := by
    unfold isFreeOf
    rw [Memory.load_congr (Memory.store_agree (.inr (show base + 8 + 4 ≤ base + 16 by omega))), Memory.load_store_self,
      Nat.zero_mod]
  have ends : nextOf ((((s.memory.fill base (pageRound pageSize (sizeAdd headerSize size)) 0).store base 8 size).store
      (base + 8) 4 0).store (base + 16) 8 0) base = 0 := by
    unfold nextOf
    rw [Memory.load_store_self, Nat.zero_mod]
  exact ((inv.transport outside).extend (fun other mapped => apart other mapped) (show 0 < pageRound _ _ by omega)).snoc
    (List.mem_cons_self _ _) room fresh (by omega) (by unfold userSpaceTop at top; unfold sizeBound; omega) used ends

/-- A `malloc` keeps the invariant with the block it returns held, a block no client held before. -/
theorem Inv.malloc (inv : Inv s live nodes) {proposed : Option Nat} {size p : Nat}
    (h : malloc proposed size s = .ok (p, s')) :
    (p ≠ 0 → p ∉ live) ∧ ∃ nodes', Inv s' (allocated p live) nodes' := by
  rcases malloc_cases h with ⟨-, rfl, rfl⟩ | ⟨-, header, found, reused, -, rfl, rfl⟩ | ⟨-, -, -, rfl, rfl⟩ |
    ⟨-, -, base, mapped, rfl, rfl⟩
  · exact ⟨fun nonzero => absurd rfl nonzero, nodes, by rwa [allocated, if_pos rfl]⟩
  · rw [inv.getFreeBlock_ok size] at found
    obtain ⟨first, -⟩ := Prod.mk.inj (Except.ok.inj found)
    rcases firstFit_cases s.memory size nodes with none | ⟨node, free⟩
    · exact absurd (first.symm.trans none) reused
    rw [first] at node free
    have fresh : header + headerSize ∉ live := fun held => free (by rw [inv.flags header node, if_pos held])
    refine ⟨fun _ => fresh, nodes, ?_⟩
    rw [allocated, if_neg (show header + headerSize ≠ 0 by unfold headerSize; omega)]
    refine inv.mark node (by rw [if_pos (List.mem_cons_self _ _)]) (fun other _ different => ?_)
      (fun q member => ?_) (List.nodup_cons.mpr ⟨fresh, inv.liveNodup⟩)
    · simp only [List.mem_cons, Nat.add_right_cancel_iff, different, false_or]
    · rcases List.mem_cons.mp member with rfl | old
      · exact ⟨Nat.le_add_left _ _, by rw [Nat.add_sub_cancel]; exact node⟩
      · exact inv.held q old
  · exact ⟨fun nonzero => absurd rfl nonzero, nodes, by rwa [allocated, if_pos rfl]⟩
  · obtain ⟨fresh, kept⟩ := inv.malloc_fresh mapped
    refine ⟨fun _ held => fresh ?_, nodes ++ [base], ?_⟩
    · have := (inv.held _ held).2
      rwa [Nat.add_sub_cancel] at this
    · rw [allocated, if_neg (show base + headerSize ≠ 0 by unfold headerSize; omega)]
      exact kept

/-- A list ends at the header `head` starts it with when `head` is also the tail. -/
theorem Inv.single (inv : Inv s live nodes) (nonzero : s.head ≠ 0) (same : s.head = s.tail) : nodes = [s.head] := by
  obtain ⟨rest, rfl, -⟩ := inv.chain.of_ne_zero nonzero
  cases rest with
  | nil => rfl
  | cons next rest =>
    have last := inv.tail
    rw [← same, List.getLastD_cons, List.getLastD_cons] at last
    have member : rest.getLastD next ∈ next :: rest := List.getLastD_mem_cons rest next
    exact absurd (last ▸ member) (List.nodup_cons.mp inv.nodup).1

theorem Inv.freed_zero (inv : Inv s live nodes) : freed 0 live = live :=
  List.filter_eq_self.mpr fun _ member => by simpa using inv.ptr_ne_zero member

/-- `free` of `NULL` or of a held block returns and keeps the invariant without that block. -/
theorem Inv.free_returns (inv : Inv s live nodes) {block : Nat} (passable : block = 0 ∨ block ∈ live) :
    ∃ s' nodes', free block s = .ok ((), s') ∧ Inv s' (freed block live) nodes' ∧
      (block ≠ 0 → block - headerSize = s.tail → nodes' = nodes.dropLast) := by
  rcases passable with rfl | held
  · exact ⟨s, nodes, rfl, by rw [inv.freed_zero]; exact inv, fun nonzero => absurd rfl nonzero⟩
  obtain ⟨low, node⟩ := inv.held block held
  have nonzero := inv.ptr_ne_zero held
  have restored : block - headerSize + headerSize = block := Nat.sub_add_cancel low
  by_cases last : block - headerSize = s.tail
  · by_cases single : s.head = s.tail
    · have started : s.head = block - headerSize := single.trans last.symm
      have one : nodes = [s.head] := inv.single (started ▸ inv.chain.mem_ne_zero _ node) single
      refine ⟨⟨0, 0, s.memory, s.regions.filter fun region => region.base ≠ block - headerSize⟩, [], ?_, ?_,
        fun _ _ => by rw [one]; rfl⟩
      · unfold free
        rw [if_neg nonzero, bind_of_ok (get_ok.mpr ⟨rfl, rfl⟩), if_pos last]
        dsimp only
        rw [if_pos single, bind_of_ok (setHead_ok.mpr rfl : setHead 0 s = .ok ((), _)),
          bind_of_ok (setTail_ok.mpr rfl : setTail 0 _ = .ok ((), _))]
        rfl
      · have cleared := (one ▸ inv).clearLast
        rwa [started, restored] at cleared
    rcases List.eq_nil_or_concat nodes with empty | ⟨init, tail, rfl⟩
    · exact absurd (empty ▸ node) (List.not_mem_nil _)
    rw [List.concat_eq_append] at inv node ⊢
    have isTail : s.tail = tail := by rw [inv.tail, List.getLastD_concat]
    rcases List.eq_nil_or_concat init with none | ⟨pre, before, rfl⟩
    · subst none
      exact absurd (inv.chain.head_eq.trans isTail.symm) single
    rw [List.concat_eq_append, List.append_assoc, List.singleton_append] at inv ⊢
    have walked : unlinkTail tail (s.regions.length + 1) s.head s =
        .ok ((), { s with memory := s.memory.store (before + 16) 8 0, tail := before }) :=
      inv.unlinkTail_ok inv.chain inv.nodup
        (fun header member => by simp only [List.mem_append, List.mem_cons] at member ⊢; tauto)
        (by have := inv.length_le; simp only [List.length_append, List.length_cons, List.length_nil] at this; omega)
    refine ⟨⟨s.head, before, s.memory.store (before + 16) 8 0,
      s.regions.filter fun region => region.base ≠ block - headerSize⟩, pre ++ [before], ?_, ?_, fun _ _ => ?_⟩
    · unfold free
      rw [if_neg nonzero, bind_of_ok (get_ok.mpr ⟨rfl, rfl⟩), if_pos last]
      dsimp only
      rw [if_neg single, isTail, bind_of_ok walked]
      rfl
    · have dropped := inv.dropTail
      rwa [← isTail, ← last, restored] at dropped
    · rw [show pre ++ [before, tail] = pre ++ [before] ++ [tail] by simp, List.dropLast_concat]
  · refine ⟨{ s with memory := s.memory.store (block - headerSize + 8) 4 1 }, nodes, ?_, ?_, fun _ same => absurd same last⟩
    · unfold free
      rw [if_neg nonzero, bind_of_ok (get_ok.mpr ⟨rfl, rfl⟩), if_neg last]
      exact store_ok.mpr ⟨accessible_of_le (inv.header_accessible node) (by omega) (by unfold headerSize; omega), rfl⟩
    · refine inv.mark node ?_ (fun other _ different => ?_) (fun p member => inv.held p (mem_freed.mp member).1)
        (inv.liveNodup.filter _)
      · rw [restored, if_neg fun member => (mem_freed.mp member).2 rfl]
      · simp only [mem_freed, and_iff_left_iff_imp]
        intro _ same
        exact different (by omega)

/-- A change of bytes from a held block's address on, inside its reservation, keeps the invariant. -/
theorem Inv.write_held (inv : Inv s live nodes) {p length : Nat} (held : p ∈ live)
    (reach : accessible s.regions p length) {memory : Memory}
    (outside : ∀ x, x < p ∨ p + length ≤ x → memory x = s.memory x) : Inv { s with memory := memory } live nodes := by
  obtain ⟨low, node⟩ := inv.held p held
  have restored : p - headerSize + headerSize = p := Nat.sub_add_cancel low
  exact inv.write_block node (by rwa [restored]) (by rwa [restored])

/-- A `calloc` keeps the invariant with the block it returns held, a block no client held before. -/
theorem Inv.calloc (inv : Inv s live nodes) {proposed : Option Nat} {num nsize p : Nat}
    (h : calloc proposed num nsize s = .ok (p, s')) :
    (p ≠ 0 → p ∉ live) ∧ ∃ nodes', Inv s' (allocated p live) nodes' := by
  rcases calloc_cases h with ⟨rfl, rfl⟩ | ⟨s₁, allocation, ⟨rfl, rfl⟩ | ⟨nonzero, reach, rfl⟩⟩
  · exact ⟨fun nonzero => absurd rfl nonzero, nodes, by rwa [allocated, if_pos rfl]⟩
  · exact inv.malloc allocation
  · obtain ⟨fresh, nodes', allocated'⟩ := inv.malloc allocation
    refine ⟨fresh, nodes', allocated'.write_held ?_ reach fun x away => Memory.fill_outside away⟩
    rw [allocated, if_neg nonzero]
    exact List.mem_cons_self _ _

/-- The held blocks after `realloc(block, size)` returned `p`: `p` replaces `block` when it moved. -/
def reallocated (block p : Nat) (live : List Nat) : List Nat :=
  if p = 0 ∨ p = block then live else p :: freed block live

/-- A moving `realloc` gets a fresh block, and its `memcpy` keeps the invariant with that block held. -/
theorem Inv.realloc_copied (inv : Inv s live nodes) {proposed : Option Nat} {block size p : Nat} {s₁ s₂ : State}
    (allocation : Memalloc.malloc proposed size s = .ok (p, s₁)) (nonzero : p ≠ 0)
    (copied : memcpy p block (sizeOf s₁.memory (block - headerSize)) s₁ = .ok ((), s₂)) :
    p ∉ live ∧ ∃ nodes₁, Inv s₁ (p :: live) nodes₁ ∧
      accessible s₁.regions block (sizeOf s₁.memory (block - headerSize)) ∧
      accessible s₁.regions p (sizeOf s₁.memory (block - headerSize)) ∧
      s₂ = { s₁ with memory := s₁.memory.copy p block (sizeOf s₁.memory (block - headerSize)) } ∧
      Inv s₂ (p :: live) nodes₁ := by
  obtain ⟨fresh, nodes₁, allocated'⟩ := inv.malloc allocation
  rw [allocated, if_neg nonzero] at allocated'
  obtain ⟨source, reach, rfl⟩ := memcpy_ok.mp copied
  exact ⟨fresh nonzero, nodes₁, allocated', source, reach, rfl,
    allocated'.write_held (List.mem_cons_self _ _) reach fun x away => Memory.copy_outside away⟩

/-- A `realloc` of `NULL` or of a held block keeps the invariant, its result held in place of the old block. -/
theorem Inv.realloc (inv : Inv s live nodes) {proposed : Option Nat} {block size p : Nat}
    (passable : block = 0 ∨ block ∈ live) (h : realloc proposed block size s = .ok (p, s')) :
    ∃ nodes', Inv s' (reallocated block p live) nodes' := by
  rcases realloc_cases h with ⟨given, allocation⟩ | ⟨-, -, rfl, rfl⟩ |
    ⟨given, -, s₁, allocation, ⟨rfl, rfl⟩ | ⟨nonzero, s₂, copied, freeing⟩⟩
  · obtain ⟨-, nodes', allocated'⟩ := inv.malloc allocation
    refine ⟨nodes', ?_⟩
    unfold allocated at allocated'
    unfold reallocated
    by_cases zero : p = 0
    · rw [if_pos zero] at allocated'
      rwa [if_pos (.inl zero)]
    rcases given with rfl | rfl
    · rw [if_neg zero] at allocated'
      rwa [if_neg (by omega), inv.freed_zero]
    · unfold Memalloc.malloc at allocation
      exact absurd (pure_ok.mp (by rwa [if_pos rfl] at allocation)).1.symm zero
  · exact ⟨nodes, by rwa [reallocated, if_pos (.inr rfl)]⟩
  · obtain ⟨-, nodes', allocated'⟩ := inv.malloc allocation
    exact ⟨nodes', by rwa [reallocated, if_pos (.inl rfl)]⟩
  · have held : block ∈ live := passable.resolve_left fun zero => given (.inl zero)
    obtain ⟨fresh, nodes₁, -, -, -, rfl, copiedInv⟩ := inv.realloc_copied allocation nonzero copied
    obtain ⟨s₃, nodes₂, freed', kept, -⟩ := copiedInv.free_returns (.inr (List.mem_cons_of_mem _ held))
    obtain ⟨-, rfl⟩ := Prod.mk.inj (Except.ok.inj (freeing.symm.trans freed'))
    have moved : p ≠ block := fun same => fresh (same ▸ held)
    refine ⟨nodes₂, ?_⟩
    rw [reallocated, if_neg (by tauto)]
    simpa [freed, moved] using kept

/-- A client's store inside a held block's reservation keeps the invariant. -/
theorem Inv.write (inv : Inv s live nodes) {p address length : Nat} {data : Nat → Nat} (held : p ∈ live)
    (low : p ≤ address) (reach : accessible s.regions p (address + length - p))
    (h : write address length data s = .ok ((), s')) : Inv s' live nodes := by
  obtain ⟨-, rfl⟩ := write_ok.mp h
  exact inv.write_held held reach fun x away => Memory.write_outside (by omega)

end MemoryAllocator.Memalloc
