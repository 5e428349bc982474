import MemoryAllocator.Numa.Operations
import MemoryAllocator.Memalloc.Operations

namespace MemoryAllocator

/-- The three ways the two tests of a `calloc` can go. -/
theorem callocGuard_cases (num size : Nat) :
    (num = 0 ∨ size = 0) ∨
      (¬(num = 0 ∨ size = 0) ∧ size ≠ sizeMul num size / num ∧ sizeBound ≤ num * size) ∨
      (¬(num = 0 ∨ size = 0) ∧ ¬size ≠ sizeMul num size / num ∧ ¬sizeBound ≤ num * size ∧
        sizeMul num size = num * size) := by
  by_cases zero : num = 0 ∨ size = 0
  · exact .inl zero
  have detects : size ≠ sizeMul num size / num ↔ sizeBound ≤ num * size :=
    sizeMul_div_ne_iff (show 0 < num by omega)
  by_cases large : sizeBound ≤ num * size
  · exact .inr (.inl ⟨zero, detects.mpr large, large⟩)
  · exact .inr (.inr ⟨zero, mt detects.mp large, large, Nat.mod_eq_of_lt (not_le.mp large)⟩)

/-- `numalloc_calloc` without its division test. -/
theorem Numa.numallocCalloc_eq (thread : Nat) (env : Numa.Env) (num size : Nat) :
    Numa.numallocCalloc thread env num size =
      (if num = 0 ∨ size = 0 ∨ sizeBound ≤ num * size then pure 0
      else do
        let ptr ← Numa.numalloc thread env (num * size)
        if ptr ≠ 0 then do
          Numa.memset ptr 0 (num * size)
          pure ptr
        else pure ptr) := by
  unfold Numa.numallocCalloc
  dsimp only
  rcases callocGuard_cases num size with zero | ⟨zero, differs, large⟩ | ⟨zero, same, small, kept⟩
  · rw [if_pos zero, if_pos (zero.elim .inl (.inr ∘ .inl))]
  · rw [if_neg zero, if_pos differs, if_pos (.inr (.inr large))]
  · rw [if_neg zero, if_neg same, if_neg (by tauto), kept]

/-- Memalloc's `calloc` without its division test. -/
theorem Memalloc.calloc_eq (proposed : Option Nat) (num nsize : Nat) :
    Memalloc.calloc proposed num nsize =
      (if num = 0 ∨ nsize = 0 ∨ sizeBound ≤ num * nsize then pure 0
      else do
        let block ← Memalloc.malloc proposed (num * nsize)
        if block = 0 then pure 0
        else do
          Memalloc.memset block 0 (num * nsize)
          pure block) := by
  unfold Memalloc.calloc
  dsimp only
  rcases callocGuard_cases num nsize with zero | ⟨zero, differs, large⟩ | ⟨zero, same, small, kept⟩
  · rw [if_pos zero, if_pos (zero.elim .inl (.inr ∘ .inl))]
  · rw [if_neg zero, if_pos differs, if_pos (.inr (.inr large))]
  · rw [if_neg zero, if_neg same, if_neg (by tauto), kept]

/-- Both `calloc`s refuse exactly a zero factor or a product reaching `2^64`, and otherwise allocate and zero it. -/
theorem callocs_reject_exactly_overflow (thread : Nat) (env : Numa.Env) (proposed : Option Nat) (num size : Nat) :
    (num ≠ 0 ∧ size ≠ sizeMul num size / num ↔ num ≠ 0 ∧ sizeBound ≤ num * size) ∧
      Numa.numallocCalloc thread env num size =
        (if num = 0 ∨ size = 0 ∨ sizeBound ≤ num * size then pure 0
        else do
          let ptr ← Numa.numalloc thread env (num * size)
          if ptr ≠ 0 then do
            Numa.memset ptr 0 (num * size)
            pure ptr
          else pure ptr) ∧
      Memalloc.calloc proposed num size =
        (if num = 0 ∨ size = 0 ∨ sizeBound ≤ num * size then pure 0
        else do
          let block ← Memalloc.malloc proposed (num * size)
          if block = 0 then pure 0
          else do
            Memalloc.memset block 0 (num * size)
            pure block) :=
  ⟨⟨fun ⟨nonzero, differs⟩ => ⟨nonzero, (sizeMul_div_ne_iff (Nat.pos_of_ne_zero nonzero)).mp differs⟩,
      fun ⟨nonzero, large⟩ => ⟨nonzero, (sizeMul_div_ne_iff (Nat.pos_of_ne_zero nonzero)).mpr large⟩⟩,
    Numa.numallocCalloc_eq thread env num size, Memalloc.calloc_eq proposed num size⟩

end MemoryAllocator
