import MemoryAllocator.Machine.Memory

namespace MemoryAllocator.Numa

/-- `MAX_NUMA_NODES`: the length of `g_node_pools`. -/
def maxNumaNodes : Nat := 8

/-- `REFILL_BATCH_SIZE`: blocks carved by one refill. -/
def refillBatchSize : Nat := 64

/-- `HUGE_PAGE_SIZE`. -/
def hugePageSize : Nat := 2 * 1024 * 1024

/-- `sizeof(block_header_t)`: a `size_t` and two `int`s. -/
def headerSize : Nat := 16

/-- `SIZE_CLASS_SIZES`, indexed by the `SIZE_CLASSES` classes. -/
def sizeClassSizes : Fin 8 → Nat
  | 0 => 16
  | 1 => 32
  | 2 => 64
  | 3 => 128
  | 4 => 256
  | 5 => 512
  | 6 => 1024
  | 7 => 2048

/-- `get_size_class`: the first class whose size fits, and `none` for the `-1` of a large request. -/
def getSizeClass (size : Nat) : Option (Fin 8) :=
  [0, 1, 2, 3, 4, 5, 6, 7].find? fun index => size ≤ sizeClassSizes index

theorem sizeClassSizes_eq (index : Fin 8) : sizeClassSizes index = 16 * 2 ^ index.val := by
  fin_cases index <;> rfl

theorem sizeClassSizes_strictMono : StrictMono sizeClassSizes := by
  intro index other lower
  rw [sizeClassSizes_eq, sizeClassSizes_eq]
  exact Nat.mul_lt_mul_of_pos_left (Nat.pow_lt_pow_right (by norm_num) lower) (by norm_num)

theorem sizeClassSizes_le (index : Fin 8) : sizeClassSizes index ≤ 2048 := by
  fin_cases index <;> decide

theorem sizeClassSizes_pos (index : Fin 8) : 8 ≤ sizeClassSizes index := by
  fin_cases index <;> decide

/-- The class a request goes to: it fits, and no smaller class does. -/
def SmallestFit (size : Nat) (index : Fin 8) : Prop :=
  size ≤ sizeClassSizes index ∧ ∀ other, size ≤ sizeClassSizes other → index ≤ other

theorem getSizeClass_eq_some {size : Nat} {index : Fin 8} (found : getSizeClass size = some index) :
    SmallestFit size index := by
  obtain ⟨fits, before, after, split, missed⟩ := List.find?_eq_some.mp found
  refine ⟨by simpa using fits, fun other otherFits => ?_⟩
  have sorted : (before ++ index :: after).Pairwise (· < ·) := by rw [← split]; decide
  have listed : other ∈ before ++ index :: after := by rw [← split]; fin_cases other <;> decide
  rcases List.mem_append.mp listed with earlier | late
  · exact absurd otherFits (by simpa using missed other earlier)
  rcases List.mem_cons.mp late with rfl | later
  · exact le_rfl
  · exact ((List.pairwise_cons.mp (List.pairwise_append.mp sorted).2.1).1 other later).le

theorem getSizeClass_eq_none {size : Nat} : getSizeClass size = none ↔ 2048 < size := by
  rw [getSizeClass, List.find?_eq_none]
  constructor
  · intro missed
    simpa [sizeClassSizes] using missed 7 (by decide)
  · intro large index _
    simpa using Nat.lt_of_le_of_lt (sizeClassSizes_le index) large

theorem getSizeClass_isSome {size : Nat} (small : size ≤ 2048) :
    ∃ index, getSizeClass size = some index := by
  cases found : getSizeClass size with
  | none => exact absurd (getSizeClass_eq_none.mp found) (by omega)
  | some index => exact ⟨index, rfl⟩

end MemoryAllocator.Numa
