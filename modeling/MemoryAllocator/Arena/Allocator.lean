import MemoryAllocator.Machine.Word

namespace MemoryAllocator.Arena

/-- `ARENA_HEADER_SIZE`: the four `size_t` fields at the start of the reservation. -/
def arenaHeaderSize : Nat := 32

/-- `DEFAULT_ALIGNMENT`: `sizeof(void*)`. -/
def defaultAlignment : Nat := 8

/-- `arena_allocator_t`. -/
structure ArenaAllocator where
  reserveSize : Nat
  commitSize : Nat
  position : Nat
  commitPosition : Nat
deriving DecidableEq, Repr

/-- What `platform_get_page_size` reports: a `uint32_t` power of two that holds the header. -/
structure PageSize where
  size : Nat
  exponent : Nat
  power : size = 2 ^ exponent
  holdsHeader : arenaHeaderSize ≤ size
  small : size < 2 ^ 32

/-- The page size `platform_get_page_size` falls back to when `sysconf` reports none. -/
def PageSize.fallback : PageSize := ⟨4096, 12, rfl, by decide, by decide⟩

/-- `min_size`. -/
def minSize (a b : Nat) : Nat := if a < b then a else b

/-- `arena_create`, given what `platform_reserve_memory` and `platform_commit_memory` answer. -/
def arenaCreate (page : PageSize) (reserveSize commitSize : Nat) (reserved : Option Nat)
    (committed : Bool) : Option (Nat × ArenaAllocator) :=
  if reserveSize = 0 ∨ commitSize = 0 then none
  else
    let reserveSize := alignUp reserveSize page.size
    let commitSize := alignUp commitSize page.size
    let commitSize := if commitSize > reserveSize then reserveSize else commitSize
    match reserved with
    | some base =>
      if reserveSize ≠ 0 ∧ committed then
        some (base, ⟨reserveSize, commitSize, arenaHeaderSize, commitSize⟩)
      else none
    | none => none

/-- The `(offset, length)` that `arena_alloc_aligned` passes to `platform_commit_memory`, if any. -/
def commitRequest (arena : ArenaAllocator) (size alignment : Nat) : Option (Nat × Nat) :=
  let newPosition := sizeAdd (alignUp arena.position alignment) size
  if size = 0 ∨ newPosition > arena.reserveSize ∨ newPosition ≤ arena.commitPosition then none
  else
    let newCommitPosition := minSize (alignUp newPosition arena.commitSize) arena.reserveSize
    some (arena.commitPosition, sizeSub newCommitPosition arena.commitPosition)

/-- A call's result, a slot or the offset where it faults, compares by constructor and payload. -/
instance instDecidableEqExcept {ε α : Type} [DecidableEq ε] [DecidableEq α] : DecidableEq (Except ε α)
  | .error a, .error b => decidable_of_iff (a = b) ⟨congrArg _, Except.error.inj⟩
  | .ok a, .ok b => decidable_of_iff (a = b) ⟨congrArg _, Except.ok.inj⟩
  | .error _, .ok _ => isFalse fun same => Except.noConfusion same
  | .ok _, .error _ => isFalse fun same => Except.noConfusion same

/-- `memset(result, 0, size); return result;`, faulting at the slot's first byte past `[0, commit_position)`. -/
def zeroSlot (arena : ArenaAllocator) (offset size : Nat) : Except Nat (Option Nat) :=
  if offset + size ≤ arena.commitPosition then .ok (some offset) else .error (max offset arena.commitPosition)

@[simp] theorem zeroSlot_of_le {arena : ArenaAllocator} {offset size : Nat}
    (fits : offset + size ≤ arena.commitPosition) : zeroSlot arena offset size = .ok (some offset) :=
  if_pos fits

theorem zeroSlot_eq_ok {arena : ArenaAllocator} {offset size : Nat} {result : Option Nat}
    (cleared : zeroSlot arena offset size = .ok result) :
    result = some offset ∧ offset + size ≤ arena.commitPosition := by
  unfold zeroSlot at cleared
  split_ifs at cleared with fits
  exact ⟨(Except.ok.inj cleared).symm, fits⟩

/-- `arena_alloc_aligned`: the slot, `NULL` or where its `memset` faults, and the header it leaves. -/
def arenaAllocAligned (commit : Nat → Nat → Bool) (arena : ArenaAllocator) (size alignment : Nat) :
    Except Nat (Option Nat) × ArenaAllocator :=
  if size = 0 then (.ok none, arena)
  else
    let alignedPosition := alignUp arena.position alignment
    let newPosition := sizeAdd alignedPosition size
    if newPosition > arena.reserveSize then (.ok none, arena)
    else if newPosition > arena.commitPosition then
      let newCommitPosition := minSize (alignUp newPosition arena.commitSize) arena.reserveSize
      let commitAmount := sizeSub newCommitPosition arena.commitPosition
      if commit arena.commitPosition commitAmount then
        let bumped := { arena with commitPosition := newCommitPosition, position := newPosition }
        (zeroSlot bumped alignedPosition size, bumped)
      else (.ok none, arena)
    else
      let bumped := { arena with position := newPosition }
      (zeroSlot bumped alignedPosition size, bumped)

/-- `arena_alloc`. -/
def arenaAlloc (commit : Nat → Nat → Bool) (arena : ArenaAllocator) (size : Nat) :
    Except Nat (Option Nat) × ArenaAllocator :=
  arenaAllocAligned commit arena size defaultAlignment

/-- `arena_reset`. -/
def arenaReset (arena : ArenaAllocator) : ArenaAllocator := { arena with position := arenaHeaderSize }

/-- `arena_set_position`. -/
def arenaSetPosition (arena : ArenaAllocator) (position : Nat) : ArenaAllocator :=
  if position ≥ arenaHeaderSize ∧ position ≤ arena.reserveSize then { arena with position := position }
  else arena

/-- One call on an existing arena. -/
inductive Call where
  | allocAligned (commit : Nat → Nat → Bool) (size alignment : Nat)
  | reset
  | setPosition (position : Nat)

/-- The header after a call; `arena_alloc` is `allocAligned` at `defaultAlignment`. -/
def Call.apply (arena : ArenaAllocator) : Call → ArenaAllocator
  | .allocAligned commit size alignment => (arenaAllocAligned commit arena size alignment).2
  | .reset => arenaReset arena
  | .setPosition position => arenaSetPosition arena position

/-- The alignments callers may pass: powers of two. -/
def Call.Valid : Call → Prop
  | .allocAligned _ _ alignment => ∃ k, alignment = 2 ^ k ∧ alignment < sizeBound
  | _ => True

/-- Headers reachable from `start` by calls that `admits` lets through where they are made. -/
inductive Reachable (admits : ArenaAllocator → Call → Prop) (start : ArenaAllocator) :
    ArenaAllocator → Prop where
  | start : Reachable admits start start
  | step {arena : ArenaAllocator} (call : Call) :
      Reachable admits start arena → admits arena call → Reachable admits start (call.apply arena)

end MemoryAllocator.Arena
