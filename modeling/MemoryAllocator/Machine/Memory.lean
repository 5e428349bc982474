import MemoryAllocator.Machine.Word

namespace MemoryAllocator

/-- The bytes of the address space. -/
def Memory := Nat → Nat

namespace Memory

/-- The little-endian value of the `width` bytes at `address`. -/
def load (memory : Memory) (address : Nat) : Nat → Nat
  | 0 => 0
  | width + 1 => memory address + 256 * memory.load (address + 1) width

/-- Writing `value` into the `width` bytes at `address`, lowest byte first. -/
def store (memory : Memory) (address width value : Nat) : Memory := fun x =>
  if address ≤ x ∧ x < address + width then value / 256 ^ (x - address) % 256 else memory x

/-- `memset(address, byte, length)`. -/
def fill (memory : Memory) (address length byte : Nat) : Memory := fun x =>
  if address ≤ x ∧ x < address + length then byte else memory x

/-- `memcpy(destination, source, length)`, reading every byte before writing any. -/
def copy (memory : Memory) (destination source length : Nat) : Memory := fun x =>
  if destination ≤ x ∧ x < destination + length then memory (source + (x - destination))
  else memory x

/-- A client's write of `data` into `[address, address + length)`. -/
def write (memory : Memory) (address length : Nat) (data : Nat → Nat) : Memory := fun x =>
  if address ≤ x ∧ x < address + length then data (x - address) % 256 else memory x

/-- The two memories hold the same bytes in `[address, address + width)`. -/
def Agree (memory other : Memory) (address width : Nat) : Prop :=
  ∀ x, address ≤ x → x < address + width → memory x = other x

theorem load_congr {memory other : Memory} :
    ∀ {address width : Nat}, memory.Agree other address width →
      memory.load address width = other.load address width
  | _, 0, _ => rfl
  | address, width + 1, agree => by
    have rest : memory.Agree other (address + 1) width := fun x low high => agree x (by omega) (by omega)
    simp only [load, agree address le_rfl (by omega), load_congr rest]

theorem Agree.mono {memory other : Memory} {address width inner innerWidth : Nat}
    (agree : memory.Agree other address width) (low : address ≤ inner)
    (high : inner + innerWidth ≤ address + width) : memory.Agree other inner innerWidth :=
  fun x below above => agree x (by omega) (by omega)

/-- Reading back a stored value gives it modulo the field's range. -/
theorem load_store_self (memory : Memory) :
    ∀ (address width value : Nat), (memory.store address width value).load address width = value % 256 ^ width
  | _, 0, value => by simp [load, Nat.mod_one]
  | address, width + 1, value => by
    have shifted : (memory.store address (width + 1) value).Agree (memory.store (address + 1) width (value / 256))
        (address + 1) width := by
      intro x low high
      simp only [store, if_pos (show address ≤ x ∧ x < address + (width + 1) by omega),
        if_pos (show address + 1 ≤ x ∧ x < address + 1 + width by omega)]
      rw [Nat.div_div_eq_div_mul, ← Nat.pow_succ', show (x - (address + 1)).succ = x - address by omega]
    rw [load, load_congr shifted, load_store_self memory (address + 1) width (value / 256)]
    simp only [store, le_refl, true_and, show address < address + (width + 1) by omega, if_true,
      Nat.sub_self, pow_zero, Nat.div_one]
    rw [Nat.pow_succ', Nat.mod_mul]

theorem store_agree {memory : Memory} {address width value other otherWidth : Nat}
    (apart : address + width ≤ other ∨ other + otherWidth ≤ address) :
    (memory.store address width value).Agree memory other otherWidth := by
  intro x low high
  simp only [store]
  rw [if_neg (by omega)]

theorem fill_agree {memory : Memory} {address length byte other otherWidth : Nat}
    (apart : address + length ≤ other ∨ other + otherWidth ≤ address) :
    (memory.fill address length byte).Agree memory other otherWidth := by
  intro x low high
  simp only [fill]
  rw [if_neg (by omega)]

theorem copy_agree {memory : Memory} {destination source length other otherWidth : Nat}
    (apart : destination + length ≤ other ∨ other + otherWidth ≤ destination) :
    (memory.copy destination source length).Agree memory other otherWidth := by
  intro x low high
  simp only [copy]
  rw [if_neg (by omega)]

theorem write_agree {memory : Memory} {address length other otherWidth : Nat} {data : Nat → Nat}
    (apart : address + length ≤ other ∨ other + otherWidth ≤ address) :
    (memory.write address length data).Agree memory other otherWidth := by
  intro x low high
  simp only [write]
  rw [if_neg (by omega)]

theorem store_outside {memory : Memory} {address width value x : Nat} (outside : x < address ∨ address + width ≤ x) :
    memory.store address width value x = memory x := by
  simp only [store]
  rw [if_neg (by omega)]

theorem fill_outside {memory : Memory} {address length byte x : Nat} (outside : x < address ∨ address + length ≤ x) :
    memory.fill address length byte x = memory x := by
  simp only [fill]
  rw [if_neg (by omega)]

theorem copy_outside {memory : Memory} {destination source length x : Nat}
    (outside : x < destination ∨ destination + length ≤ x) : memory.copy destination source length x = memory x := by
  simp only [copy]
  rw [if_neg (by omega)]

theorem write_outside {memory : Memory} {address length x : Nat} {data : Nat → Nat}
    (outside : x < address ∨ address + length ≤ x) : memory.write address length data x = memory x := by
  simp only [write]
  rw [if_neg (by omega)]

/-- Bytes set by `memset` to zero read back as zero. -/
theorem load_fill_zero {memory : Memory} {address length : Nat} :
    ∀ {inner width : Nat}, address ≤ inner → inner + width ≤ address + length →
      (memory.fill address length 0).load inner width = 0
  | _, 0, _, _ => rfl
  | inner, width + 1, low, high => by
    rw [load, load_fill_zero (by omega) (by omega)]
    simp only [fill, if_pos (show address ≤ inner ∧ inner < address + length by omega)]

/-- The copied bytes read as the source bytes. -/
theorem copy_agree_source {memory : Memory} {destination source length offset width : Nat}
    (inside : offset + width ≤ length) :
    ∀ x, destination + offset ≤ x → x < destination + offset + width →
      memory.copy destination source length x = memory (source + (x - destination)) := by
  intro x low high
  simp only [copy]
  rw [if_pos (by omega)]

end Memory

/-- A live mapping `[base, base + length)`. -/
structure Region where
  base : Nat
  length : Nat
deriving DecidableEq, Repr

namespace Region

/-- The first address past the mapping. -/
def stop (region : Region) : Nat := region.base + region.length

/-- The access `[address, address + width)` lies inside the mapping. -/
def Holds (region : Region) (address width : Nat) : Prop :=
  region.base ≤ address ∧ address + width ≤ region.stop

instance (region : Region) (address width : Nat) : Decidable (region.Holds address width) :=
  inferInstanceAs (Decidable (_ ∧ _))

/-- The two mappings share no byte. -/
def Apart (region other : Region) : Prop :=
  region.stop ≤ other.base ∨ other.stop ≤ region.base

instance (region other : Region) : Decidable (region.Apart other) :=
  inferInstanceAs (Decidable (_ ∨ _))

theorem Apart.symm {region other : Region} (apart : region.Apart other) : other.Apart region :=
  Or.symm apart

/-- The parts of the mapping outside `[start, finish)`. -/
def cut (region : Region) (start finish : Nat) : List Region :=
  (if region.base < start then [⟨region.base, min region.stop start - region.base⟩] else []) ++
    (if finish < region.stop then [⟨max finish region.base, region.stop - max finish region.base⟩] else [])

/-- The parts of a mapping outside itself: none. -/
theorem cut_self (region : Region) : region.cut region.base region.stop = [] := by
  simp [cut]

/-- The parts of a mapping outside a mapping it is apart from: all of it. -/
theorem cut_apart {region other : Region} (positive : 0 < region.length) (apart : region.Apart other) :
    region.cut other.base other.stop = [region] := by
  unfold Apart stop at apart
  unfold cut stop
  rcases apart with below | above
  · rw [if_pos (by omega), if_neg (by omega), min_eq_left below]
    simp
  · rw [if_neg (by omega), if_pos (by omega), max_eq_right (by omega)]
    simp

end Region

/-- `length` rounded up to whole pages of `page` bytes. -/
def pageRound (page length : Nat) : Nat := (length + (page - 1)) / page * page

/-- An access is defined when it lies inside one live mapping; one spanning two adjacent mappings faults. -/
def accessible (regions : List Region) (address width : Nat) : Bool :=
  regions.any fun region => decide (region.Holds address width)

/-- The end of user space on x86-64 with four-level paging: the kernel maps nothing above it. -/
def userSpaceTop : Nat := 2 ^ 47

/-- An address the kernel may return for `length` bytes: nonzero, aligned, in user space, apart from every mapping. -/
def Fresh (granularity page : Nat) (regions : List Region) (address length : Nat) : Prop :=
  0 < address ∧ address % granularity = 0 ∧ 0 < length ∧ address + pageRound page length ≤ userSpaceTop ∧
    ∀ region ∈ regions, region.Apart ⟨address, pageRound page length⟩

instance (granularity page : Nat) (regions : List Region) (address length : Nat) :
    Decidable (Fresh granularity page regions address length) :=
  inferInstanceAs (Decidable (_ ∧ _ ∧ _ ∧ _ ∧ _))

/-- The kernel's answer to a mapping request: the proposed address when it may return it, else a failure. -/
def mapAt (granularity page : Nat) (regions : List Region) (proposed : Option Nat) (length : Nat) :
    Option Nat :=
  match proposed with
  | some address => if Fresh granularity page regions address length then some address else none
  | none => none

theorem accessible_iff {regions : List Region} {address width : Nat} :
    accessible regions address width = true ↔ ∃ region ∈ regions, region.Holds address width := by
  simp [accessible]

theorem accessible_within {regions : List Region} {region : Region} (mapped : region ∈ regions)
    {address width : Nat} (inside : region.base ≤ address ∧ address + width ≤ region.stop) :
    accessible regions address width :=
  accessible_iff.mpr ⟨region, mapped, inside⟩

theorem accessible_of_le {regions : List Region} {address width inner innerWidth : Nat}
    (reachable : accessible regions address width) (low : address ≤ inner)
    (high : inner + innerWidth ≤ address + width) : accessible regions inner innerWidth := by
  obtain ⟨region, mapped, holds⟩ := accessible_iff.mp reachable
  exact accessible_within mapped ⟨le_trans holds.1 low, le_trans high holds.2⟩

theorem mapAt_fresh {granularity page : Nat} {regions : List Region} {proposed : Option Nat}
    {length address : Nat} (mapped : mapAt granularity page regions proposed length = some address) :
    Fresh granularity page regions address length := by
  unfold mapAt at mapped
  split at mapped
  · split at mapped
    · cases mapped
      assumption
    · cases mapped
  · cases mapped

end MemoryAllocator
