import MemoryAllocator.Memalloc.Invariant

namespace MemoryAllocator.Memalloc

variable {s s' : State} {live nodes : List Nat}

/-- From `SIZE_MAX - 22` on, `sizeof(header_t) + size` wraps below 24, which rounds to one page. -/
theorem pageRound_of_wraps {size : Nat} (wraps : sizeBound - headerSize < size) (fits : size < sizeBound) :
    pageRound pageSize (sizeAdd headerSize size) = pageSize := by
  have total : sizeAdd headerSize size = headerSize + size - sizeBound := by
    unfold sizeAdd
    rw [Nat.mod_eq_sub_mod (by omega), Nat.mod_eq_of_lt (by unfold headerSize sizeBound at *; omega)]
  rw [total]
  unfold pageRound pageSize headerSize sizeBound at *
  omega

/-- A fresh header records `size` in `size_t`, also once the old tail's `next` points at it. -/
theorem Inv.fresh_header_size (inv : Inv s live nodes) {base length size : Nat}
    (apart : ∀ region ∈ s.regions, region.Apart ⟨base, length⟩) :
    sizeOf (if s.tail ≠ 0 then
        ((((s.memory.fill base length 0).store base 8 size).store (base + 8) 4 0).store (base + 16) 8 0).store
          (s.tail + 16) 8 base
      else (((s.memory.fill base length 0).store base 8 size).store (base + 8) 4 0).store (base + 16) 8 0) base =
      size % sizeBound := by
  have header : ((((s.memory.fill base length 0).store base 8 size).store (base + 8) 4 0).store (base + 16) 8 0).load
      base 8 = size % sizeBound := by
    rw [Memory.load_congr (Memory.store_agree (.inr (by omega))), Memory.load_congr (Memory.store_agree (.inr le_rfl)),
      Memory.load_store_self]
    rfl
  split
  · rename_i linked
    obtain ⟨length, longer, own⟩ := inv.own s.tail (inv.tail_mem linked)
    have apart := apart _ own
    unfold Region.Apart Region.stop at apart
    dsimp only at apart
    unfold sizeOf
    rw [Memory.load_congr (Memory.store_agree (by unfold headerSize at longer; omega)), header]
  · exact header

/-- A block from `VirtualAlloc` has its header at the reservation's start, records `size`, and is the new tail. -/
theorem Inv.malloc_fresh_header (inv : Inv s live nodes) {proposed : Option Nat} {size p : Nat}
    (fits : size < sizeBound) (noFit : firstFit s.memory size nodes = 0)
    (h : malloc proposed size s = .ok (p, s')) (nonnull : p ≠ 0) :
    ⟨p - headerSize, pageRound pageSize (sizeAdd headerSize size)⟩ ∈ s'.regions ∧
      sizeOf s'.memory (p - headerSize) = size ∧ s'.tail = p - headerSize := by
  rcases malloc_cases h with ⟨-, rfl, -⟩ | ⟨-, header, found, reused, -⟩ | ⟨-, -, -, rfl, -⟩ |
    ⟨-, -, base, mapped, rfl, rfl⟩
  · exact absurd rfl nonnull
  · rw [inv.getFreeBlock_ok size, noFit] at found
    cases found
    exact absurd rfl reused
  · exact absurd rfl nonnull
  refine ⟨by rw [Nat.add_sub_cancel]; exact List.mem_cons_self _ _, ?_, by rw [Nat.add_sub_cancel]⟩
  rw [Nat.add_sub_cancel]
  dsimp only
  rw [inv.fresh_header_size (mapAt_fresh mapped).2.2.2.2, Nat.mod_eq_of_lt fits]

/-- A wrapped `sizeof(header_t) + size` gives a one-page reservation whose header records all of `size`. -/
theorem malloc_header_overstates_reservation (inv : Inv s live nodes) {proposed : Option Nat} {size p : Nat}
    (wraps : sizeBound - headerSize < size) (fits : size < sizeBound) (noFit : firstFit s.memory size nodes = 0)
    (h : malloc proposed size s = .ok (p, s')) (nonnull : p ≠ 0) :
    ⟨p - headerSize, pageSize⟩ ∈ s'.regions ∧ sizeOf s'.memory (p - headerSize) = size ∧
      s'.tail = p - headerSize ∧ pageSize < headerSize + size := by
  obtain ⟨mapped, recorded, last⟩ := inv.malloc_fresh_header fits noFit h nonnull
  rw [pageRound_of_wraps wraps fits] at mapped
  exact ⟨mapped, recorded, last, by unfold pageSize headerSize sizeBound at *; omega⟩

/-- After `malloc(SIZE_MAX)` is freed, `malloc(1000000)` gets its one-page block of 4072 usable bytes. -/
theorem malloc_header_overstates_reservation_reused :
    let m₁ : Memory :=
      (((Memory.fill (fun _ => 0) 65536 4096 0).store 65536 8 (sizeBound - 1)).store 65544 4 0).store 65552 8 0
    let s₁ : State := ⟨65536, 65536, m₁, [⟨65536, 4096⟩]⟩
    let m₂ : Memory :=
      ((((Memory.fill m₁ 131072 4096 0).store 131072 8 16).store 131080 4 0).store 131088 8 0).store 65552 8 131072
    let s₂ : State := ⟨65536, 131072, m₂, [⟨131072, 4096⟩, ⟨65536, 4096⟩]⟩
    let s₃ : State := ⟨65536, 131072, m₂.store 65544 4 1, s₂.regions⟩
    let s₄ : State := ⟨65536, 131072, (m₂.store 65544 4 1).store 65544 4 0, s₂.regions⟩
    malloc (some 65536) (sizeBound - 1) ⟨0, 0, fun _ => 0, []⟩ = .ok (65560, s₁) ∧
      (⟨65560 - headerSize, pageSize⟩ ∈ s₁.regions ∧ sizeOf s₁.memory (65560 - headerSize) = sizeBound - 1 ∧
        s₁.tail = 65560 - headerSize ∧ pageSize < headerSize + (sizeBound - 1)) ∧
      malloc (some 131072) 16 s₁ = .ok (131096, s₂) ∧ free 65560 s₂ = .ok ((), s₃) ∧
      malloc none 1000000 s₃ = .ok (65560, s₄) ∧ ¬accessible s₄.regions 65560 1000000 :=
  have first : malloc (some 65536) (sizeBound - 1) ⟨0, 0, fun _ => 0, []⟩ = .ok (65560, _) := rfl
  ⟨first, malloc_header_overstates_reservation (inv_empty _) (by unfold sizeBound headerSize; omega)
      (by unfold sizeBound; omega) rfl first (by decide), rfl, rfl, rfl, by decide⟩

end MemoryAllocator.Memalloc
