import MemoryAllocator.Arena.Invariant

namespace MemoryAllocator.Arena

/-- A successful allocation hands out the rounded-up position. -/
theorem arenaAllocAligned_offset {commit : Nat → Nat → Bool} {arena : ArenaAllocator} {size alignment offset : Nat}
    (granted : (arenaAllocAligned commit arena size alignment).1 = .ok (some offset)) :
    offset = alignUp arena.position alignment := by
  rcases arenaAllocAligned_cases commit arena size alignment with
    unchanged | ⟨-, -, result⟩ | ⟨-, -, -, result⟩
  · rw [unchanged] at granted
    cases granted
  all_goals rw [result] at granted; exact Option.some.inj (zeroSlot_eq_ok granted).1

/-- Every slot is aligned to its power-of-two alignment, and so is its address up to the page size. -/
theorem arena_slots_aligned {page : PageSize} {base : Nat} (pageAligned : page.size ∣ base) (arena : ArenaAllocator) :
    (∀ (commit : Nat → Nat → Bool) size k offset, 2 ^ k < sizeBound →
        (arenaAllocAligned commit arena size (2 ^ k)).1 = .ok (some offset) →
          2 ^ k ∣ offset ∧ (2 ^ k ≤ page.size → 2 ^ k ∣ base + offset)) ∧
      (∀ (commit : Nat → Nat → Bool) size offset, (arenaAlloc commit arena size).1 = .ok (some offset) →
        defaultAlignment ∣ base + offset) := by
  have aligned : ∀ (commit : Nat → Nat → Bool) size k offset, 2 ^ k < sizeBound →
      (arenaAllocAligned commit arena size (2 ^ k)).1 = .ok (some offset) →
        2 ^ k ∣ offset ∧ (2 ^ k ≤ page.size → 2 ^ k ∣ base + offset) := by
    intro commit size k offset small granted
    have exponent : k < 64 := (Nat.pow_lt_pow_iff_right (by norm_num)).mp small
    have slot : 2 ^ k ∣ offset := by
      rw [arenaAllocAligned_offset granted]
      exact two_pow_dvd_alignUp exponent.le (Nat.two_pow_pos k) small.le dvd_rfl
    refine ⟨slot, fun below => dvd_add (dvd_trans ?_ pageAligned) slot⟩
    rw [page.power] at below ⊢
    exact Nat.pow_dvd_pow 2 ((Nat.pow_le_pow_iff_right (by norm_num)).mp below)
  refine ⟨aligned, fun commit size offset granted => ?_⟩
  have header := page.holdsHeader
  unfold arenaHeaderSize at header
  exact (aligned commit size 3 offset (by unfold sizeBound; norm_num) granted).2 (by norm_num; omega)

theorem arena_slots_aligned_one_page :
    PageSize.fallback.size ∣ 65536 ∧
      (arenaAllocAligned (fun _ _ => true) ⟨8192, 4096, 32, 4096⟩ 100 (2 ^ 4)).1 = .ok (some 32) ∧
      2 ^ 4 ∣ 32 ∧ (2 ^ 4 ≤ PageSize.fallback.size → 2 ^ 4 ∣ 65536 + 32) :=
  ⟨by decide, by decide,
    (arena_slots_aligned (show PageSize.fallback.size ∣ 65536 by decide) ⟨8192, 4096, 32, 4096⟩).1
      (fun _ _ => true) 100 4 32 (by decide) (by decide)⟩

/-- At an odd multiple of the page size, an 8192-aligned slot's address is 4096 past a multiple of 8192. -/
theorem arenaAllocAligned_above_page_misaligned :
    PageSize.fallback.size ∣ 69632 ∧
      arenaCreate PageSize.fallback 16384 4096 (some 69632) true = some (69632, ⟨16384, 4096, 32, 4096⟩) ∧
      (arenaAllocAligned (fun _ _ => true) ⟨16384, 4096, 32, 4096⟩ 1 8192).1 = .ok (some 8192) ∧
      ¬ 8192 ∣ 69632 + 8192 := by
  decide

/-- A commit with a power-of-two granule ends at the new position rounded up to it, or at the reservation's end. -/
theorem arenaAllocAligned_commit_granule {commit : Nat → Nat → Bool} {arena : ArenaAllocator} {size alignment k : Nat}
    (power : arena.commitSize = 2 ^ k)
    (fits : sizeAdd (alignUp arena.position alignment) size + (arena.commitSize - 1) < sizeBound)
    (grows : arena.commitPosition ≠ (arenaAllocAligned commit arena size alignment).2.commitPosition) :
    (arenaAllocAligned commit arena size alignment).2.commitPosition =
      minSize ((sizeAdd (alignUp arena.position alignment) size + (arena.commitSize - 1)) / arena.commitSize *
        arena.commitSize) arena.reserveSize := by
  rcases arenaAllocAligned_cases commit arena size alignment with
    unchanged | ⟨-, -, result⟩ | ⟨-, -, -, result⟩
  · rw [unchanged] at grows
    exact absurd rfl grows
  · rw [result] at grows
    exact absurd rfl grows
  · rw [result, alignUp_two_pow power fits]

example : (arenaAllocAligned (fun _ _ => true) ⟨65536, 8192, 32, 8192⟩ 8200 8).2.commitPosition = 16384 := by
  decide

/-- A 12288-byte granule is no power of two: moving to 12289 commits up to 16384, not 24576. -/
theorem arenaAlloc_commits_off_granule :
    arenaCreate PageSize.fallback 65536 12288 (some 65536) true = some (65536, ⟨65536, 12288, 32, 12288⟩) ∧
      arenaAlloc (fun _ _ => true) ⟨65536, 12288, 32, 12288⟩ 12257 =
        (.ok (some 32), ⟨65536, 12288, 12289, 16384⟩) ∧
      (12289 + (12288 - 1)) / 12288 * 12288 = 24576 ∧ ¬ 12288 ∣ 16384 := by
  decide

/-- Every commit the call asks for succeeds. -/
def Call.Granted : Call → Prop
  | .allocAligned commit _ _ => ∀ offset amount, commit offset amount = true
  | _ => True

/-- The header after the calls, in order. -/
def Call.run (arena : ArenaAllocator) (calls : List Call) : ArenaAllocator := calls.foldl Call.apply arena

/-- What a call returns: a slot or `NULL` for an allocation, nothing for the others, `none` when it faults. -/
def Call.result (arena : ArenaAllocator) : Call → Option (Option Nat)
  | .allocAligned commit size alignment => (arenaAllocAligned commit arena size alignment).1.toOption
  | _ => some none

/-- What the calls return, in order. -/
def Call.results : ArenaAllocator → List Call → List (Option (Option Nat))
  | _, [] => []
  | arena, call :: rest => call.result arena :: Call.results (call.apply arena) rest

/-- A committed prefix that ends where a commit can: inside the reservation, with room to round up. -/
def CommitEnd (arena : ArenaAllocator) (position : Nat) : Prop :=
  position ≤ arena.reserveSize ∧ position + sizeSub arena.commitSize 1 < sizeBound

/-- Two headers on which every later call with its commits granted returns the same. -/
def Agree (arena other : ArenaAllocator) : Prop :=
  arena.reserveSize = other.reserveSize ∧ arena.commitSize = other.commitSize ∧ arena.position = other.position ∧
    arena.reserveSize < sizeBound ∧
    (arena.commitPosition = other.commitPosition ∨ CommitEnd arena (max arena.commitPosition other.commitPosition))

/-- A commit of an allocation ends inside the reservation, with room to round up again. -/
theorem commitEnd_minSize (arena : ArenaAllocator) (position : Nat) :
    CommitEnd arena (minSize (alignUp position arena.commitSize) arena.reserveSize) :=
  ⟨minSize_le_right _ _, lt_of_le_of_lt (Nat.add_le_add_right (minSize_le_left _ _) _)
    (alignUp_add_sizeSub_lt position arena.commitSize)⟩

/-- A commit from a position inside the reservation, with room to round up, covers that position. -/
theorem le_minSize_alignUp {position reserveSize : Nat} (room : position ≤ reserveSize) (granule : Nat)
    (fits : position + sizeSub granule 1 < sizeBound) : position ≤ minSize (alignUp position granule) reserveSize := by
  rcases minSize_cases (alignUp position granule) reserveSize with equal | equal <;> rw [equal]
  · exact le_alignUp_of_fits fits
  · exact room

/-- With every commit granted, an allocation is one round-up of the prefix and one cleared slot. -/
theorem arenaAllocAligned_granted {commit : Nat → Nat → Bool} (granted : ∀ offset amount, commit offset amount = true)
    (arena : ArenaAllocator) (size alignment : Nat) :
    arenaAllocAligned commit arena size alignment =
      if size = 0 ∨ arena.reserveSize < sizeAdd (alignUp arena.position alignment) size then (.ok none, arena)
      else
        (zeroSlot { arena with
            commitPosition := if arena.commitPosition < sizeAdd (alignUp arena.position alignment) size then
              minSize (alignUp (sizeAdd (alignUp arena.position alignment) size) arena.commitSize) arena.reserveSize
            else arena.commitPosition
            position := sizeAdd (alignUp arena.position alignment) size } (alignUp arena.position alignment) size,
          { arena with
            commitPosition := if arena.commitPosition < sizeAdd (alignUp arena.position alignment) size then
              minSize (alignUp (sizeAdd (alignUp arena.position alignment) size) arena.commitSize) arena.reserveSize
            else arena.commitPosition
            position := sizeAdd (alignUp arena.position alignment) size }) := by
  unfold arenaAllocAligned
  dsimp only
  by_cases zero : size = 0
  · rw [if_pos zero, if_pos (.inl zero)]
  by_cases over : arena.reserveSize < sizeAdd (alignUp arena.position alignment) size
  · rw [if_neg zero, if_pos over, if_pos (.inr over)]
  rw [if_neg zero, if_neg over, if_neg (not_or.mpr ⟨zero, over⟩)]
  by_cases grows : arena.commitPosition < sizeAdd (alignUp arena.position alignment) size
  · rw [if_pos grows, if_pos grows, if_pos (granted _ _)]
  · rw [if_neg grows, if_neg grows]

/-- Two slots clear alike when the one test their `memset`s make agrees. -/
theorem zeroSlot_toOption_congr {arena other : ArenaAllocator} {offset size : Nat}
    (same : offset + size ≤ arena.commitPosition ↔ offset + size ≤ other.commitPosition) :
    (zeroSlot arena offset size).toOption = (zeroSlot other offset size).toOption := by
  unfold zeroSlot
  by_cases fits : offset + size ≤ arena.commitPosition
  · rw [if_pos fits, if_pos (same.mp fits)]
  · rw [if_neg fits, if_neg (mt same.mpr fits)]
    rfl

/-- One call with its commits granted keeps two agreeing headers agreeing, and returns the same. -/
theorem Agree.step {arena other : ArenaAllocator} (agree : Agree arena other) {call : Call} (granted : call.Granted) :
    call.result arena = call.result other ∧ Agree (call.apply arena) (call.apply other) := by
  obtain ⟨reserve, granule, position, fits, committed⟩ := agree
  cases call with
  | allocAligned commit size alignment =>
    simp only [Call.result, Call.apply, arenaAllocAligned_granted granted, ← reserve, ← granule, ← position]
    by_cases refused : size = 0 ∨ arena.reserveSize < sizeAdd (alignUp arena.position alignment) size
    · rw [if_pos refused, if_pos refused]
      exact ⟨rfl, reserve, granule, position, fits, committed⟩
    rw [if_neg refused, if_neg refused]
    have room : sizeAdd (alignUp arena.position alignment) size ≤ arena.reserveSize := by omega
    have wrapped := sizeAdd_cases (alignUp arena.position alignment) size
    have ended := commitEnd_minSize arena (sizeAdd (alignUp arena.position alignment) size)
    have reaches := le_minSize_alignUp room arena.commitSize
    unfold CommitEnd at committed ended
    refine ⟨zeroSlot_toOption_congr ?_, rfl, rfl, rfl, fits, ?_⟩
    · dsimp only
      split_ifs <;> omega
    · unfold CommitEnd
      dsimp only
      split_ifs <;> omega
  | reset => exact ⟨rfl, reserve, granule, rfl, fits, committed⟩
  | setPosition target =>
    refine ⟨rfl, ?_⟩
    simp only [Call.apply, arenaSetPosition, reserve]
    split_ifs
    · refine ⟨rfl, granule, rfl, reserve ▸ fits, ?_⟩
      rw [← reserve]
      exact committed
    · exact ⟨reserve, granule, position, fits, committed⟩

/-- Agreeing headers return the same to every sequence of calls whose commits succeed. -/
theorem Agree.results {arena other : ArenaAllocator} (agree : Agree arena other) :
    ∀ {calls : List Call}, (∀ call ∈ calls, call.Granted) → Call.results arena calls = Call.results other calls
  | [], _ => rfl
  | call :: rest, granted => by
    obtain ⟨same, next⟩ := agree.step (granted call (List.mem_cons_self _ _))
    rw [Call.results, Call.results, same, next.results fun later member => granted later (List.mem_cons_of_mem _ member)]

/-- The calls are allocations with power-of-two alignments, none computing a `size_t` sum that wraps. -/
def Call.Bumps : ArenaAllocator → List Call → Prop
  | _, [] => True
  | arena, call :: rest => (∃ commit size alignment, call = .allocAligned commit size alignment) ∧
      call.Valid ∧ call.NoWrap arena ∧ Call.Bumps (call.apply arena) rest

/-- The slot a call hands out, as its offset from the arena's base and its size. -/
def Call.slot (arena : ArenaAllocator) : Call → Option (Nat × Nat)
  | .allocAligned commit size alignment => (arenaAllocAligned commit arena size alignment).1.toOption.join.map (·, size)
  | _ => none

/-- The slots the calls hand out, in order. -/
def Call.slots : ArenaAllocator → List Call → List (Nat × Nat)
  | _, [] => []
  | arena, call :: rest => (call.slot arena).toList ++ Call.slots (call.apply arena) rest

/-- A non-wrapping allocation moves position and prefix up, its slot between the old and the new position. -/
theorem arenaAllocAligned_bumps {page : PageSize} {arena : ArenaAllocator} (holds : Invariant page arena)
    (commit : Nat → Nat → Bool) {size alignment k : Nat} (power : alignment = 2 ^ k)
    (noWrap : AllocNoWrap arena size alignment) :
    arena.position ≤ (arenaAllocAligned commit arena size alignment).2.position ∧
      arena.commitPosition ≤ (arenaAllocAligned commit arena size alignment).2.commitPosition ∧
      ∀ offset, (arenaAllocAligned commit arena size alignment).1 = .ok (some offset) →
        arena.position ≤ offset ∧ offset + size = (arenaAllocAligned commit arena size alignment).2.position ∧
          (arenaAllocAligned commit arena size alignment).2.position ≤
            (arenaAllocAligned commit arena size alignment).2.commitPosition := by
  have inCommit : ∀ offset, (arenaAllocAligned commit arena size alignment).1 = .ok (some offset) → _ :=
    fun _ granted => arenaAllocAligned_position_le_commit granted
  rcases arenaAllocAligned_cases commit arena size alignment with
    unchanged | ⟨nonzero, -, result⟩ | ⟨nonzero, room, beyond, result⟩
  · rw [unchanged]
    exact ⟨le_rfl, le_rfl, fun _ granted => by cases granted⟩
  all_goals
    obtain ⟨alignFits, sumFits, commitFits⟩ := noWrap nonzero
    have above := le_alignUp (power ▸ Nat.two_pow_pos k) alignFits
    rw [sizeAdd_of_lt sumFits] at result
    rw [result] at inCommit ⊢
    refine ⟨by dsimp only; omega, ?_, fun offset granted => ?_⟩
  · exact le_rfl
  · cases (zeroSlot_eq_ok granted).1
    exact ⟨above, rfl, inCommit _ granted⟩
  · rw [sizeAdd_of_lt sumFits] at room beyond
    have grows := le_alignUp holds.commitSize_pos (commitFits room)
    have := holds.commit_le_reserve
    dsimp only
    rcases minSize_cases (alignUp (alignUp arena.position alignment + size) arena.commitSize)
      arena.reserveSize with equal | equal <;> rw [equal] <;> omega
  · cases (zeroSlot_eq_ok granted).1
    exact ⟨above, rfl, inCommit _ granted⟩

/-- A run of non-wrapping allocations hands out increasing, disjoint slots inside what it commits. -/
theorem Call.slots_apart {page : PageSize} :
    ∀ {arena : ArenaAllocator} {calls : List Call}, Invariant page arena → Call.Bumps arena calls →
      arena.position ≤ (Call.run arena calls).position ∧
        arena.commitPosition ≤ (Call.run arena calls).commitPosition ∧
        (Call.slots arena calls).Pairwise (fun slot later => slot.1 + slot.2 ≤ later.1) ∧
        ∀ slot ∈ Call.slots arena calls, arena.position ≤ slot.1 ∧
          slot.1 + slot.2 ≤ (Call.run arena calls).position ∧ slot.1 + slot.2 ≤ (Call.run arena calls).commitPosition
  | _, [], _, _ => ⟨le_rfl, le_rfl, List.Pairwise.nil, fun _ member => by cases member⟩
  | arena, call :: rest, holds, ⟨shape, valid, noWrap, bumps⟩ => by
    obtain ⟨commit, size, alignment, rfl⟩ := shape
    obtain ⟨position, committed, bumped⟩ := arenaAllocAligned_bumps holds commit valid.choose_spec.1 noWrap
    obtain ⟨finalPosition, finalCommit, ordered, later⟩ := Call.slots_apart (holds.step valid noWrap) bumps
    simp only [Call.run, List.foldl_cons, Call.slots, Call.slot, Call.apply] at finalPosition finalCommit ordered later ⊢
    refine ⟨position.trans finalPosition, committed.trans finalCommit, ?_⟩
    rcases granted : (arenaAllocAligned commit arena size alignment).1 with _ | _ | offset
    all_goals simp only [granted, Except.toOption, Option.join, Option.bind, id_eq, Option.map, Option.toList, List.nil_append,
      List.singleton_append, List.pairwise_cons, List.mem_cons]
    · exact ⟨ordered, fun slot member => (later slot member).imp_left position.trans⟩
    · exact ⟨ordered, fun slot member => (later slot member).imp_left position.trans⟩
    · obtain ⟨low, high, inside⟩ := bumped offset granted
      refine ⟨⟨fun slot member => ?_, ordered⟩, fun slot member => ?_⟩
      · have := (later slot member).1
        omega
      · rcases member with rfl | member
        · exact ⟨low, by omega, by omega⟩
        · exact (later slot member).imp_left position.trans

/-- A fresh two-page arena hands out `[32, 132)` and then `[144, 344)`. -/
theorem slots_apart_two_allocs :
    let calls := [Call.allocAligned (fun _ _ => true) 100 8, Call.allocAligned (fun _ _ => true) 200 16]
    arenaCreate PageSize.fallback 8192 4096 (some 65536) true = some (65536, ⟨8192, 4096, 32, 4096⟩) ∧
      Call.slots ⟨8192, 4096, 32, 4096⟩ calls = [(32, 100), (144, 200)] ∧
      Invariant PageSize.fallback ⟨8192, 4096, 32, 4096⟩ ∧ Call.Bumps ⟨8192, 4096, 32, 4096⟩ calls ∧
      (32 ≤ (Call.run ⟨8192, 4096, 32, 4096⟩ calls).position ∧
        4096 ≤ (Call.run ⟨8192, 4096, 32, 4096⟩ calls).commitPosition ∧
        (Call.slots ⟨8192, 4096, 32, 4096⟩ calls).Pairwise (fun slot later => slot.1 + slot.2 ≤ later.1) ∧
        ∀ slot ∈ Call.slots ⟨8192, 4096, 32, 4096⟩ calls, 32 ≤ slot.1 ∧
          slot.1 + slot.2 ≤ (Call.run ⟨8192, 4096, 32, 4096⟩ calls).position ∧
          slot.1 + slot.2 ≤ (Call.run ⟨8192, 4096, 32, 4096⟩ calls).commitPosition) := by
  intro calls
  have created : arenaCreate PageSize.fallback 8192 4096 (some 65536) true = some (65536, ⟨8192, 4096, 32, 4096⟩) := by
    decide
  have holds := (arenaCreate_invariant created (by decide) (by decide)).1
  have bumps : Call.Bumps ⟨8192, 4096, 32, 4096⟩ calls :=
    ⟨⟨_, _, _, rfl⟩, ⟨3, rfl, by decide⟩, by unfold Call.NoWrap AllocNoWrap; decide,
      ⟨_, _, _, rfl⟩, ⟨4, rfl, by decide⟩, by unfold Call.NoWrap AllocNoWrap; decide, trivial⟩
  exact ⟨created, by decide, holds, bumps, Call.slots_apart holds bumps⟩

end MemoryAllocator.Arena
