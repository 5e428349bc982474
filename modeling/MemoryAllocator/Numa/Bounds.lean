import MemoryAllocator.Numa.Spec

namespace MemoryAllocator.Numa

variable {s s' : State}

/-- From `SIZE_MAX - 15` on, `size + sizeof(block_header_t)` wraps, and the mapping is sized by the rest. -/
theorem largeBlockSize_of_wraps {size : Nat} (wraps : sizeBound - headerSize ≤ size) (fits : size < sizeBound) :
    largeBlockSize size = size + headerSize - sizeBound := by
  have total : sizeAdd size headerSize = size + headerSize - sizeBound := by
    unfold sizeAdd
    rw [Nat.mod_eq_sub_mod (by omega), Nat.mod_eq_of_lt (by unfold headerSize sizeBound at *; omega)]
  unfold largeBlockSize
  dsimp only
  rw [total, if_neg (by unfold headerSize hugePageSize sizeBound at *; omega)]

/-- A large request that wraps gets a header recording fewer bytes than the header takes. -/
theorem numalloc_wrapped_header {thread : Nat} {env : Env} {size p : Nat}
    (wraps : sizeBound - headerSize ≤ size) (fits : size < sizeBound)
    (h : numalloc thread env size s = .ok (p, s')) (nonnull : p ≠ 0) :
    s'.memory.load (p - headerSize) 8 = size + headerSize - sizeBound := by
  have large : getSizeClass size = none :=
    getSizeClass_eq_none.mpr (by unfold headerSize sizeBound at *; omega)
  rcases numalloc_cases h with ⟨rfl, -⟩ | ⟨arena, s₁, -, -, -, ⟨sizeClass, small, -⟩ | ⟨s₂, -, slow, after⟩⟩
  · exact absurd rfl nonnull
  · rw [large] at small
    cases small
  · rw [large] at slow
    rcases allocateLargeBlock_cases slow with ⟨rfl, -⟩ | ⟨ptr, rfl, -, rfl⟩
    · exact absurd rfl nonnull
    · have memory : s'.memory = largeMemory s₁.memory ptr (largeBlockSize size) arena.numaNode := by
        rcases after with ⟨-, rfl⟩ | ⟨-, ⟨counted, -, rfl⟩ | ⟨-, rfl⟩⟩ <;> rfl
      rw [memory, Nat.add_sub_cancel, (largeMemory_header _ (largeBlockSize_lt size) _).1,
        largeBlockSize_of_wraps wraps fits]

theorem numalloc_wrapped_header_max :
    let s : State := ⟨some ⟨1, 1, [0]⟩, Function.update (fun _ => none) 0 (some ⟨0, 1048576, 65536, 0⟩), true,
      fun _ => none, fun _ => 0, [⟨1048576, 65536⟩]⟩
    ∃ p s', numalloc 0 ⟨0, true, none, some 4194304⟩ (sizeBound - 1) s = .ok (p, s') ∧ p ≠ 0 ∧
      s'.memory.load (p - headerSize) 8 = sizeBound - 1 + headerSize - sizeBound := by
  intro s
  exact ⟨_, _, rfl, by decide, @numalloc_wrapped_header s _ 0 ⟨0, true, none, some 4194304⟩ (sizeBound - 1) _
    (by unfold sizeBound headerSize; omega) (by unfold sizeBound; omega) rfl (by decide)⟩

/-- A large block's `old_size` counts its header, so requests 16 bytes past its end stay in place. -/
theorem numallocRealloc_large_in_place {thread : Nat} {env : Env} {ptr size recorded : Nat} {numaNode : Int}
    (nonnull : ptr ≠ 0) (header : HeaderAt s.memory (ptr - headerSize) recorded (-1) numaNode)
    (mapped : accessible s.regions (ptr - headerSize) headerSize) (positive : size ≠ 0)
    (within : size ≤ recorded) :
    numallocRealloc thread env ptr size s = .ok (ptr, s) := by
  have readSize : load (ptr - headerSize) 8 s = .ok (recorded, s) :=
    load_ok.mpr ⟨accessible_of_le mapped le_rfl (by unfold headerSize; omega), header.1, rfl⟩
  have readClass : load (ptr - headerSize + 8) 4 s = .ok (int32Bits (-1), s) :=
    load_ok.mpr ⟨accessible_of_le mapped (by omega) (by unfold headerSize; omega), header.2.1, rfl⟩
  have negative : ¬ int32OfBits (int32Bits (-1)) ≥ 0 := by decide
  have old : oldBlockSize ptr s = .ok (recorded, s) := by
    simp only [oldBlockSize, bind_of_ok readSize, bind_of_ok readClass, negative, if_false]
    rfl
  simp only [numallocRealloc, nonnull, positive, if_false, bind_of_ok old, within, if_true]
  rfl

theorem numallocRealloc_large_in_place_one_page :
    let s : State := ⟨none, fun _ => none, true, fun _ => none, largeMemory (fun _ => 0) 1048576 4096 0,
      [⟨1048576, 4096⟩]⟩
    (⟨1048576, 4096⟩ : Region).stop < 1048592 + 4096 ∧
      numallocRealloc 0 ⟨0, true, none, none⟩ 1048592 4096 s = .ok (1048592, s) :=
  ⟨by decide, numallocRealloc_large_in_place (by decide) (largeMemory_header _ (by decide) 0) (by decide)
    (by decide) le_rfl⟩

/-- With nine nodes `numalloc_init` writes `g_node_pools[8]`, one past the end of the table. -/
theorem numallocInit_nine_nodes :
    numallocInit
      ⟨true, true, 8, 1, 1, true, fun _ => 0, fun _ => true, fun i => some ((i + 1) * 1048576)⟩ 65536
      ⟨none, fun _ => none, false, fun _ => none, fun _ => 0, []⟩ = .error (.nodePools 8) :=
  rfl

end MemoryAllocator.Numa
