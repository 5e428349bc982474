import MemoryAllocator.Arena.Allocator

namespace MemoryAllocator.Arena

/-- What one `arena_alloc_aligned` can do: refuse, or bump the position (committing more first) and clear the slot. -/
theorem arenaAllocAligned_cases (commit : Nat → Nat → Bool) (arena : ArenaAllocator) (size alignment : Nat) :
    arenaAllocAligned commit arena size alignment = (.ok none, arena) ∨
      (size ≠ 0 ∧ sizeAdd (alignUp arena.position alignment) size ≤ arena.commitPosition ∧
        arenaAllocAligned commit arena size alignment =
          (zeroSlot { arena with position := sizeAdd (alignUp arena.position alignment) size }
              (alignUp arena.position alignment) size,
            { arena with position := sizeAdd (alignUp arena.position alignment) size })) ∨
      (size ≠ 0 ∧ sizeAdd (alignUp arena.position alignment) size ≤ arena.reserveSize ∧
        arena.commitPosition < sizeAdd (alignUp arena.position alignment) size ∧
        arenaAllocAligned commit arena size alignment =
          (zeroSlot { arena with
              commitPosition := minSize (alignUp (sizeAdd (alignUp arena.position alignment) size)
                arena.commitSize) arena.reserveSize,
              position := sizeAdd (alignUp arena.position alignment) size } (alignUp arena.position alignment) size,
            { arena with
              commitPosition := minSize (alignUp (sizeAdd (alignUp arena.position alignment) size)
                arena.commitSize) arena.reserveSize,
              position := sizeAdd (alignUp arena.position alignment) size })) := by
  unfold arenaAllocAligned
  dsimp only
  split_ifs with zero outside beyond
  · exact .inl rfl
  · exact .inl rfl
  · exact .inr (.inr ⟨zero, by omega, beyond, rfl⟩)
  · exact .inl rfl
  · exact .inr (.inl ⟨zero, by omega, rfl⟩)

/-- The shape every reachable header keeps while no `size_t` sum wraps. -/
structure Invariant (page : PageSize) (arena : ArenaAllocator) : Prop where
  header_le_position : arenaHeaderSize ≤ arena.position
  position_le_reserve : arena.position ≤ arena.reserveSize
  header_le_commit : arenaHeaderSize ≤ arena.commitPosition
  commit_le_reserve : arena.commitPosition ≤ arena.reserveSize
  commitSize_pos : 0 < arena.commitSize
  commitSize_le : arena.commitSize ≤ arena.reserveSize
  page_dvd_commitSize : page.size ∣ arena.commitSize
  page_dvd_commitPosition : page.size ∣ arena.commitPosition
  page_dvd_reserve : page.size ∣ arena.reserveSize
  reserve_lt : arena.reserveSize < sizeBound

/-- The `size_t` sums the allocation computes stay below `2^64`: a refused request computes fewer. -/
def AllocNoWrap (arena : ArenaAllocator) (size alignment : Nat) : Prop :=
  size ≠ 0 → arena.position + (alignment - 1) < sizeBound ∧ alignUp arena.position alignment + size < sizeBound ∧
    (alignUp arena.position alignment + size ≤ arena.reserveSize →
      alignUp arena.position alignment + size + (arena.commitSize - 1) < sizeBound)

/-- The call does no `size_t` arithmetic that wraps. -/
def Call.NoWrap (arena : ArenaAllocator) : Call → Prop
  | .allocAligned _ size alignment => AllocNoWrap arena size alignment
  | _ => True

theorem PageSize.pos (page : PageSize) : 0 < page.size := by
  have := page.holdsHeader
  unfold arenaHeaderSize at this
  omega

theorem alignUp_page_dvd (page : PageSize) {value multiple : Nat} (positive : 0 < multiple)
    (fits : multiple < sizeBound) (divides : page.size ∣ multiple) : page.size ∣ alignUp value multiple := by
  have small : page.exponent < 32 := (Nat.pow_lt_pow_iff_right (by norm_num)).mp (page.power ▸ page.small)
  rw [page.power] at divides ⊢
  exact two_pow_dvd_alignUp (by omega) positive fits.le divides

theorem minSize_le_right (a b : Nat) : minSize a b ≤ b := by
  unfold minSize
  split_ifs <;> omega

theorem minSize_le_left (a b : Nat) : minSize a b ≤ a := by
  unfold minSize
  split_ifs <;> omega

theorem minSize_cases (a b : Nat) : minSize a b = a ∨ minSize a b = b := by
  unfold minSize
  split_ifs <;> simp

/-- A call that does not wrap keeps the invariant. -/
theorem Invariant.step {page : PageSize} {arena : ArenaAllocator} (holds : Invariant page arena)
    {call : Call} (valid : call.Valid) (noWrap : call.NoWrap arena) : Invariant page (call.apply arena) := by
  cases call with
  | reset =>
    exact { holds with
      header_le_position := le_rfl
      position_le_reserve := le_trans holds.header_le_commit holds.commit_le_reserve }
  | setPosition position =>
    simp only [Call.apply, arenaSetPosition]
    split_ifs with inRange
    · exact { holds with
        header_le_position := inRange.1
        position_le_reserve := inRange.2 }
    · exact holds
  | allocAligned commit size alignment =>
    obtain ⟨k, power, -⟩ := valid
    simp only [Call.apply]
    rcases arenaAllocAligned_cases commit arena size alignment with
      unchanged | ⟨nonzero, inside, result⟩ | ⟨nonzero, room, beyond, result⟩
    · rw [unchanged]
      exact holds
    all_goals
      obtain ⟨alignFits, sumFits, commitFits⟩ := noWrap nonzero
      have above := le_alignUp (power ▸ Nat.two_pow_pos k) alignFits
      have bumped : arenaHeaderSize ≤ alignUp arena.position alignment + size := by
        have := holds.header_le_position
        omega
      rw [result, sizeAdd_of_lt sumFits]
    · rw [sizeAdd_of_lt sumFits] at inside
      exact { holds with
        header_le_position := bumped
        position_le_reserve := le_trans inside holds.commit_le_reserve }
    · rw [sizeAdd_of_lt sumFits] at room beyond
      have newFits := commitFits room
      have grows := le_alignUp holds.commitSize_pos newFits
      have commitDvd := @alignUp_page_dvd page (alignUp arena.position alignment + size) _
        holds.commitSize_pos (lt_of_le_of_lt holds.commitSize_le holds.reserve_lt) holds.page_dvd_commitSize
      have header_le_commit : arenaHeaderSize ≤
          minSize (alignUp (alignUp arena.position alignment + size) arena.commitSize) arena.reserveSize := by
        have := holds.header_le_commit
        have := holds.commit_le_reserve
        rcases minSize_cases (alignUp (alignUp arena.position alignment + size) arena.commitSize)
          arena.reserveSize with equal | equal <;> rw [equal] <;> omega
      have page_dvd_commitPosition : page.size ∣
          minSize (alignUp (alignUp arena.position alignment + size) arena.commitSize) arena.reserveSize := by
        rcases minSize_cases (alignUp (alignUp arena.position alignment + size) arena.commitSize)
          arena.reserveSize with equal | equal <;> rw [equal]
        · exact commitDvd
        · exact holds.page_dvd_reserve
      exact { holds with
        header_le_position := bumped
        position_le_reserve := room
        header_le_commit := header_le_commit
        commit_le_reserve := minSize_le_right _ _
        page_dvd_commitPosition := page_dvd_commitPosition }

theorem alignUp_page_spec (page : PageSize) {value : Nat}
    (fits : value + (page.size - 1) < sizeBound) :
    value ≤ alignUp value page.size ∧ alignUp value page.size < sizeBound ∧
      page.size ∣ alignUp value page.size := by
  have rounded := alignUp_two_pow page.power fits
  refine ⟨le_alignUp page.pos fits, lt_of_le_of_lt (alignUp_le page.pos fits) fits, ?_⟩
  rw [rounded]
  exact Nat.dvd_mul_left _ _

/-- `arena_create` hands out a header with the invariant, its position inside the committed prefix. -/
theorem arenaCreate_invariant {page : PageSize} {reserveSize commitSize : Nat} {reserved : Option Nat}
    {committed : Bool} {base : Nat} {arena : ArenaAllocator}
    (created : arenaCreate page reserveSize commitSize reserved committed = some (base, arena))
    (reserveFits : reserveSize + (page.size - 1) < sizeBound)
    (commitFits : commitSize + (page.size - 1) < sizeBound) :
    Invariant page arena ∧ arena.position ≤ arena.commitPosition := by
  unfold arenaCreate at created
  rcases reserved with _ | reserved
  · simp at created
  simp only at created
  by_cases zero : reserveSize = 0 ∨ commitSize = 0
  · simp [zero] at created
  rw [if_neg zero] at created
  rw [if_pos (show alignUp reserveSize page.size ≠ 0 ∧ committed = true from by
    by_contra refused
    rw [if_neg refused] at created
    cases created)] at created
  cases created
  obtain ⟨reserveAbove, reserveBelow, reserveDvd⟩ := alignUp_page_spec page reserveFits
  obtain ⟨commitAbove, -, commitDvd⟩ := alignUp_page_spec page commitFits
  have header := page.holdsHeader
  have reservePage : page.size ≤ alignUp reserveSize page.size := Nat.le_of_dvd (by omega) reserveDvd
  have commitPage : page.size ≤ alignUp commitSize page.size := Nat.le_of_dvd (by omega) commitDvd
  split_ifs with larger
  · refine ⟨⟨?_, ?_, ?_, le_rfl, ?_, le_rfl, reserveDvd, reserveDvd, reserveDvd, reserveBelow⟩, ?_⟩ <;>
      dsimp only <;> omega
  · refine ⟨⟨?_, ?_, ?_, ?_, ?_, ?_, commitDvd, commitDvd, reserveDvd, reserveBelow⟩, ?_⟩ <;>
      dsimp only <;> omega

/-- An allocation that returns a slot leaves the position inside the committed prefix its `memset` cleared. -/
theorem arenaAllocAligned_position_le_commit {commit : Nat → Nat → Bool} {arena : ArenaAllocator}
    {size alignment offset : Nat} (granted : (arenaAllocAligned commit arena size alignment).1 = .ok (some offset)) :
    (arenaAllocAligned commit arena size alignment).2.position ≤
      (arenaAllocAligned commit arena size alignment).2.commitPosition := by
  rcases arenaAllocAligned_cases commit arena size alignment with
    unchanged | ⟨-, -, result⟩ | ⟨-, -, -, result⟩
  · rw [unchanged] at granted
    cases granted
  all_goals
    rw [result] at granted ⊢
    exact le_trans (Nat.mod_le _ _) (zeroSlot_eq_ok granted).2

/-- A sum that wraps into the committed prefix passes both checks, and the `memset` faults. -/
theorem arenaAllocAligned_wraps_faults {page : PageSize} {arena : ArenaAllocator} (holds : Invariant page arena)
    (commit : Nat → Nat → Bool) {size alignment : Nat} (nonzero : size ≠ 0)
    (wraps : sizeBound ≤ alignUp arena.position alignment + size)
    (inside : sizeAdd (alignUp arena.position alignment) size ≤ arena.commitPosition) :
    arenaAllocAligned commit arena size alignment =
      (.error (max (alignUp arena.position alignment) arena.commitPosition),
        { arena with position := sizeAdd (alignUp arena.position alignment) size }) := by
  have reserve := holds.commit_le_reserve
  have bounded := holds.reserve_lt
  unfold arenaAllocAligned
  dsimp only
  rw [if_neg nonzero, if_neg (by omega), if_neg (by omega), zeroSlot, if_neg (by dsimp only; omega)]

/-- On a one-page arena `arena_alloc(SIZE_MAX - 8)` wraps the position to 23 and faults at offset 4096. -/
theorem arenaAlloc_wraps_past_commit :
    arenaCreate PageSize.fallback 4096 4096 (some 65536) true = some (65536, ⟨4096, 4096, 32, 4096⟩) ∧
      arenaAlloc (fun _ _ => true) ⟨4096, 4096, 32, 4096⟩ (2 ^ 64 - 9) = (.error 4096, ⟨4096, 4096, 23, 4096⟩) := by
  have created : arenaCreate PageSize.fallback 4096 4096 (some 65536) true = some (65536, ⟨4096, 4096, 32, 4096⟩) := by
    decide
  have holds := (arenaCreate_invariant created (by decide) (by decide)).1
  exact ⟨created, arenaAllocAligned_wraps_faults holds (fun _ _ => true) (by decide) (by decide) (by decide)⟩

theorem sizeSub_of_le {a b : Nat} (below : b ≤ a) (fits : a < sizeBound) : sizeSub a b = a - b := by
  unfold sizeSub
  rw [show a + (sizeBound - b) = a - b + sizeBound by omega, Nat.add_mod_right, Nat.mod_eq_of_lt (by omega)]

/-- `arena_alloc_aligned` asks the platform for exactly the commit `commitRequest` names. -/
theorem arenaAllocAligned_consults {arena : ArenaAllocator} {size alignment : Nat}
    (commit other : Nat → Nat → Bool)
    (agree : ∀ request ∈ commitRequest arena size alignment, commit request.1 request.2 = other request.1 request.2) :
    arenaAllocAligned commit arena size alignment = arenaAllocAligned other arena size alignment := by
  unfold arenaAllocAligned
  dsimp only
  split_ifs with zero over grows accepted refused <;> try rfl
  all_goals
    have same := agree _ (by unfold commitRequest; rw [if_neg (by omega)]; rfl)
    simp only [same] at accepted
    contradiction

/-- Every commit starts at the committed prefix's end, on a page boundary, and stops inside the reservation. -/
theorem commitRequest_within {page : PageSize} {arena : ArenaAllocator} (holds : Invariant page arena)
    {size alignment : Nat} (noWrap : AllocNoWrap arena size alignment) {request : Nat × Nat}
    (requested : request ∈ commitRequest arena size alignment) :
    request.1 = arena.commitPosition ∧ page.size ∣ request.1 ∧ request.1 + request.2 ≤ arena.reserveSize := by
  unfold commitRequest at requested
  dsimp only at requested
  split_ifs at requested with skipped
  · simp at requested
  obtain ⟨-, sumFits, commitFits⟩ := noWrap fun zero => skipped (.inl zero)
  rw [sizeAdd_of_lt sumFits] at requested skipped
  have newFits := commitFits (by omega)
  simp only [Option.mem_def, Option.some.injEq] at requested
  subst requested
  have grows := le_alignUp holds.commitSize_pos newFits
  have above : arena.commitPosition ≤
      minSize (alignUp (alignUp arena.position alignment + size) arena.commitSize) arena.reserveSize := by
    rcases minSize_cases (alignUp (alignUp arena.position alignment + size) arena.commitSize)
      arena.reserveSize with equal | equal <;> rw [equal] <;> omega
  have below := minSize_le_right (alignUp (alignUp arena.position alignment + size) arena.commitSize)
    arena.reserveSize
  refine ⟨rfl, holds.page_dvd_commitPosition, ?_⟩
  dsimp only
  rw [sizeSub_of_le above (by have := holds.reserve_lt; omega)]
  omega

/-- Every header reachable by non-wrapping calls keeps the invariant. -/
theorem Reachable.invariant {page : PageSize} {start arena : ArenaAllocator} (initial : Invariant page start)
    (reached : Reachable (fun state call => call.Valid ∧ call.NoWrap state) start arena) :
    Invariant page arena := by
  induction reached with
  | start => exact initial
  | step call _ admitted holds => exact holds.step admitted.1 admitted.2

/-- Every reachable header keeps the invariant; commits stay in the reservation, granted slots in the commit. -/
theorem arena_reachable_invariant {page : PageSize} {reserveSize commitSize : Nat}
    {reserved : Option Nat} {committed : Bool} {base : Nat} {start arena : ArenaAllocator}
    (created : arenaCreate page reserveSize commitSize reserved committed = some (base, start))
    (reserveFits : reserveSize + (page.size - 1) < sizeBound)
    (commitFits : commitSize + (page.size - 1) < sizeBound)
    (reached : Reachable (fun state call => call.Valid ∧ call.NoWrap state) start arena) :
    Invariant page arena ∧ start.position ≤ start.commitPosition ∧
      (arenaReset arena).position ≤ (arenaReset arena).commitPosition ∧
      (∀ size alignment, AllocNoWrap arena size alignment →
        ∀ request ∈ commitRequest arena size alignment,
          page.size ∣ request.1 ∧ request.1 + request.2 ≤ arena.reserveSize) ∧
      (∀ (commit : Nat → Nat → Bool) size alignment offset,
        (arenaAllocAligned commit arena size alignment).1 = .ok (some offset) →
          (arenaAllocAligned commit arena size alignment).2.position ≤
            (arenaAllocAligned commit arena size alignment).2.commitPosition) := by
  obtain ⟨initial, startInside⟩ := arenaCreate_invariant created reserveFits commitFits
  have holds := reached.invariant initial
  exact ⟨holds, startInside, holds.header_le_commit,
    fun size alignment noWrap request requested => (commitRequest_within holds noWrap requested).2,
    fun _ _ _ _ granted => arenaAllocAligned_position_le_commit granted⟩

/-- After an allocation that commits the second page, a reset, `arena_set_position(100)` and `arena_alloc(16)`. -/
theorem arena_reachable_invariant_after_calls :
    let arena : ArenaAllocator := ⟨8192, 4096, 120, 8192⟩
    arenaCreate PageSize.fallback 8192 4096 (some 65536) true = some (65536, ⟨8192, 4096, 32, 4096⟩) ∧
      Reachable (fun state call => call.Valid ∧ call.NoWrap state) ⟨8192, 4096, 32, 4096⟩ arena ∧
      Invariant PageSize.fallback arena ∧ 32 ≤ 4096 ∧
      (arenaReset arena).position ≤ (arenaReset arena).commitPosition ∧
      (∀ size alignment, AllocNoWrap arena size alignment →
        ∀ request ∈ commitRequest arena size alignment,
          PageSize.fallback.size ∣ request.1 ∧ request.1 + request.2 ≤ arena.reserveSize) ∧
      (∀ (commit : Nat → Nat → Bool) size alignment offset,
        (arenaAllocAligned commit arena size alignment).1 = .ok (some offset) →
          (arenaAllocAligned commit arena size alignment).2.position ≤
            (arenaAllocAligned commit arena size alignment).2.commitPosition) := by
  intro arena
  have created : arenaCreate PageSize.fallback 8192 4096 (some 65536) true = some (65536, ⟨8192, 4096, 32, 4096⟩) := by
    decide
  have run : Reachable (fun state call => call.Valid ∧ call.NoWrap state) ⟨8192, 4096, 32, 4096⟩
      ((Call.allocAligned (fun _ _ => true) 16 8).apply ((Call.setPosition 100).apply (Call.reset.apply
        ((Call.allocAligned (fun _ _ => true) 5000 8).apply ⟨8192, 4096, 32, 4096⟩)))) :=
    .step _ (.step _ (.step _ (.step _ .start ⟨⟨3, rfl, by decide⟩, by unfold Call.NoWrap AllocNoWrap; decide⟩)
      ⟨trivial, trivial⟩) ⟨trivial, trivial⟩) ⟨⟨3, rfl, by decide⟩, by unfold Call.NoWrap AllocNoWrap; decide⟩
  have final : (Call.allocAligned (fun _ _ => true) 16 8).apply ((Call.setPosition 100).apply (Call.reset.apply
      ((Call.allocAligned (fun _ _ => true) 5000 8).apply ⟨8192, 4096, 32, 4096⟩))) = arena := by decide
  have reached := final ▸ run
  exact ⟨created, reached, arena_reachable_invariant created (by decide) (by decide) reached⟩

/-- `arena_set_position` accepts position 8192 while only the first 4096 bytes are committed. -/
theorem arenaSetPosition_passes_commit :
    arenaCreate PageSize.fallback 8192 4096 (some 65536) true = some (65536, ⟨8192, 4096, 32, 4096⟩) ∧
      arenaSetPosition ⟨8192, 4096, 32, 4096⟩ 8192 = ⟨8192, 4096, 8192, 4096⟩ := by
  decide

end MemoryAllocator.Arena
