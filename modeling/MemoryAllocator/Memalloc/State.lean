import MemoryAllocator.Machine.Memory
import MemoryAllocator.Machine.Chain
import MemoryAllocator.Machine.Call

namespace MemoryAllocator.Memalloc

/-- `sizeof(header_t)`: `size` (8), `is_free` (4, padded to 8) and `next` (8). -/
def headerSize : Nat := 24

/-- The page size of the reservations `VirtualAlloc` commits. -/
def pageSize : Nat := 4096

/-- The allocation granularity of the addresses `VirtualAlloc` reserves at. -/
def allocationGranularity : Nat := 65536

/-- The globals `head` and `tail` (`0` for `NULL`), the bytes and the live reservations. -/
structure State where
  head : Nat
  tail : Nat
  memory : Memory
  regions : List Region

/-- Undefined behaviour a call can reach, and a list walk that never reaches `NULL`. -/
inductive Fault where
  /-- An access not inside one live reservation: outside every reservation, or spanning two adjacent ones. -/
  | memory (address width : Nat)
  /-- A walk along `s.next` that visits more headers than there are reservations. -/
  | diverges
deriving DecidableEq, Repr

/-- A call of the allocator: it reads and updates the state, or stops at a fault. -/
abbrev MemallocM := StateT State (Except Fault)

/-- The header fields: `s.size`, `s.is_free` and `s.next` of the header at `header`. -/
def sizeOf (memory : Memory) (header : Nat) : Nat := memory.load header 8

def isFreeOf (memory : Memory) (header : Nat) : Nat := memory.load (header + 8) 4

def nextOf (memory : Memory) (header : Nat) : Nat := memory.load (header + 16) 8

/-- Reading `width` bytes at `address`. -/
def load (address width : Nat) : MemallocM Nat := fun s =>
  if accessible s.regions address width then .ok (s.memory.load address width, s)
  else .error (.memory address width)

/-- Writing `value` into the `width` bytes at `address`. -/
def store (address width value : Nat) : MemallocM Unit := fun s =>
  if accessible s.regions address width then .ok ((), { s with memory := s.memory.store address width value })
  else .error (.memory address width)

/-- `memset(address, byte, length)`. -/
def memset (address byte length : Nat) : MemallocM Unit := fun s =>
  if accessible s.regions address length then .ok ((), { s with memory := s.memory.fill address length byte })
  else .error (.memory address length)

/-- `memcpy(destination, source, length)`. -/
def memcpy (destination source length : Nat) : MemallocM Unit := fun s =>
  if accessible s.regions source length then
    if accessible s.regions destination length then
      .ok ((), { s with memory := s.memory.copy destination source length })
    else .error (.memory destination length)
  else .error (.memory source length)

/-- A client's store of `data` into `[address, address + length)`. -/
def write (address length : Nat) (data : Nat → Nat) : MemallocM Unit := fun s =>
  if accessible s.regions address length then .ok ((), { s with memory := s.memory.write address length data })
  else .error (.memory address length)

/-- `VirtualAlloc` with `MEM_COMMIT | MEM_RESERVE`: a fresh zeroed reservation, or `NULL`. -/
def virtualAlloc (proposed : Option Nat) (size : Nat) : MemallocM Nat := fun s =>
  match mapAt allocationGranularity pageSize s.regions proposed size with
  | some base => .ok (base, { s with
      memory := s.memory.fill base (pageRound pageSize size) 0
      regions := ⟨base, pageRound pageSize size⟩ :: s.regions })
  | none => .ok (0, s)

/-- `VirtualFree(address, 0, MEM_RELEASE)`: the reservation that starts at `address` goes. -/
def virtualFree (address : Nat) : MemallocM Unit := fun s =>
  .ok ((), { s with regions := s.regions.filter fun region => region.base ≠ address })

def setHead (head : Nat) : MemallocM Unit := fun s => .ok ((), { s with head := head })

def setTail (tail : Nat) : MemallocM Unit := fun s => .ok ((), { s with tail := tail })

section Primitives

variable {s s' : State}

theorem load_ok {address width v : Nat} :
    load address width s = .ok (v, s') ↔
      accessible s.regions address width ∧ s.memory.load address width = v ∧ s' = s := by
  unfold load
  split <;> simp [*, @eq_comm _ s']

theorem store_ok {address width value : Nat} {u : Unit} :
    store address width value s = .ok (u, s') ↔
      accessible s.regions address width ∧ s' = { s with memory := s.memory.store address width value } := by
  unfold store
  split <;> simp [*, eq_comm]

theorem memset_ok {address byte length : Nat} {u : Unit} :
    memset address byte length s = .ok (u, s') ↔
      accessible s.regions address length ∧ s' = { s with memory := s.memory.fill address length byte } := by
  unfold memset
  split <;> simp [*, eq_comm]

theorem memcpy_ok {destination source length : Nat} {u : Unit} :
    memcpy destination source length s = .ok (u, s') ↔
      accessible s.regions source length ∧ accessible s.regions destination length ∧
        s' = { s with memory := s.memory.copy destination source length } := by
  unfold memcpy
  by_cases source : accessible s.regions source length <;>
    by_cases destination : accessible s.regions destination length <;> simp [source, destination, eq_comm]

theorem write_ok {address length : Nat} {data : Nat → Nat} {u : Unit} :
    write address length data s = .ok (u, s') ↔
      accessible s.regions address length ∧ s' = { s with memory := s.memory.write address length data } := by
  unfold write
  split <;> simp [*, eq_comm]

theorem virtualAlloc_ok {proposed : Option Nat} {size r : Nat} :
    virtualAlloc proposed size s = .ok (r, s') ↔
      (mapAt allocationGranularity pageSize s.regions proposed size = some r ∧
        s' = { s with
          memory := s.memory.fill r (pageRound pageSize size) 0
          regions := ⟨r, pageRound pageSize size⟩ :: s.regions }) ∨
      (mapAt allocationGranularity pageSize s.regions proposed size = none ∧ r = 0 ∧ s' = s) := by
  unfold virtualAlloc
  split
  · simp only [*, Except.ok.injEq, Prod.mk.injEq, Option.some.injEq, reduceCtorEq, false_and, or_false]
    constructor
    · rintro ⟨rfl, rfl⟩
      exact ⟨rfl, rfl⟩
    · rintro ⟨rfl, rfl⟩
      exact ⟨rfl, rfl⟩
  · simp [*, eq_comm]

theorem virtualFree_ok {address : Nat} {u : Unit} :
    virtualFree address s = .ok (u, s') ↔
      s' = { s with regions := s.regions.filter fun region => region.base ≠ address } := by
  simp [virtualFree, eq_comm]

theorem setHead_ok {head : Nat} {u : Unit} : setHead head s = .ok (u, s') ↔ s' = { s with head := head } := by
  simp [setHead, eq_comm]

theorem setTail_ok {tail : Nat} {u : Unit} : setTail tail s = .ok (u, s') ↔ s' = { s with tail := tail } := by
  simp [setTail, eq_comm]

end Primitives

end MemoryAllocator.Memalloc
