import MemoryAllocator.Memalloc.Run

namespace MemoryAllocator.Memalloc

/-- The byte `y` lies in the block at `p`: past its header, inside the reservation the header starts. -/
def InBlock (s : State) (p y : Nat) : Prop :=
  ∃ length, (⟨p - headerSize, length⟩ : Region) ∈ s.regions ∧ p ≤ y ∧ y < p - headerSize + length

/-- The bytes a call may change: bytes of no block a client holds. -/
def Changeable (s : State) (live : List Nat) (y : Nat) : Prop :=
  ∀ p ∈ live, ¬ InBlock s p y

section Footprint

variable {s s' : State} {live nodes : List Nat} {y : Nat}

/-- A byte changeable for more blocks and more reservations is changeable. -/
theorem Changeable.anti {s₁ : State} {live₁ : List Nat} (changeable : Changeable s₁ live₁ y)
    (regions : ∀ region ∈ s.regions, region ∈ s₁.regions) (held : ∀ p ∈ live, p ∈ live₁) :
    Changeable s live y := fun p member ⟨length, mapped, low, high⟩ =>
  changeable p (held p member) ⟨length, regions _ mapped, low, high⟩

/-- A byte of a reservation apart from every live one lies in none of them. -/
theorem unmapped_of_apart {region : Region} (apart : ∀ other ∈ s.regions, other.Apart region)
    (inside : region.base ≤ y ∧ y < region.stop) : ∀ other ∈ s.regions, ¬ (other.base ≤ y ∧ y < other.stop) := by
  intro other mapped within
  have := apart other mapped
  unfold Region.Apart Region.stop at this
  unfold Region.stop at inside within
  omega

/-- A byte of no live reservation is changeable. -/
theorem changeable_of_unmapped (unmapped : ∀ region ∈ s.regions, ¬ (region.base ≤ y ∧ y < region.stop)) :
    Changeable s live y := fun _ _ ⟨_, mapped, low, high⟩ =>
  unmapped _ mapped ⟨by dsimp only; omega, by unfold Region.stop; dsimp only; omega⟩

/-- A byte of a reservation is changeable in its header, or when no client holds the header's block. -/
theorem Inv.changeable_of_region (inv : Inv s live nodes) {region : Region} (mapped : region ∈ s.regions)
    (inside : region.base ≤ y ∧ y < region.stop)
    (free : y < region.base + headerSize ∨ region.base + headerSize ∉ live) : Changeable s live y := by
  rintro p held ⟨length, own, low, high⟩
  obtain rfl := inv.region_eq mapped own inside ⟨by dsimp only; omega, by unfold Region.stop; dsimp only; omega⟩
  dsimp only at free
  rw [Nat.sub_add_cancel (inv.held p held).1] at free
  rcases free with below | unheld
  · omega
  · exact unheld held

/-- The bytes of a header on the list are changeable. -/
theorem Inv.changeable_of_header (inv : Inv s live nodes) {header : Nat} (node : header ∈ nodes)
    (low : header ≤ y) (high : y < header + headerSize) : Changeable s live y := by
  obtain ⟨length, longer, own⟩ := inv.own header node
  exact inv.changeable_of_region own ⟨low, by unfold Region.stop; dsimp only; omega⟩ (.inl high)

/-- The bytes reachable from the block of a header no client holds are changeable. -/
theorem Inv.changeable_of_unheld (inv : Inv s live nodes) {header : Nat} (node : header ∈ nodes)
    (unheld : header + headerSize ∉ live) {length : Nat} (reach : accessible s.regions (header + headerSize) length)
    (low : header + headerSize ≤ y) (high : y < header + headerSize + length) : Changeable s live y := by
  obtain ⟨reserved, own, within⟩ := inv.block_access node reach
  exact inv.changeable_of_region own ⟨by dsimp only; omega, by unfold Region.stop; dsimp only; omega⟩ (.inr unheld)

/-- What the reservations allow from a held block lies in that block. -/
theorem Inv.inBlock_of_access (inv : Inv s live nodes) {p length : Nat} (held : p ∈ live)
    (reach : accessible s.regions p length) (low : p ≤ y) (high : y < p + length) : InBlock s p y := by
  obtain ⟨above, node⟩ := inv.held p held
  have restored : p - headerSize + headerSize = p := Nat.sub_add_cancel above
  obtain ⟨reserved, own, within⟩ := inv.block_access node (restored ▸ reach)
  exact ⟨reserved, own, low, by omega⟩

/-- Two held blocks that share a byte are one. -/
theorem Inv.inBlock_unique (inv : Inv s live nodes) {p q : Nat} (held : p ∈ live) (heldQ : q ∈ live)
    (inP : InBlock s p y) (inQ : InBlock s q y) : p = q := by
  obtain ⟨length, mapped, low, high⟩ := inP
  obtain ⟨lengthQ, mappedQ, lowQ, highQ⟩ := inQ
  have same := congrArg Region.base (inv.region_eq (x := y) mapped mappedQ
    ⟨by dsimp only; omega, by unfold Region.stop; dsimp only; omega⟩
    ⟨by dsimp only; omega, by unfold Region.stop; dsimp only; omega⟩)
  have := (inv.held p held).1
  have := (inv.held q heldQ).1
  dsimp only at same
  omega

/-- The walk of `free` changes only the `next` field of a header it passes, and no reservation. -/
theorem unlinkTail_writes {tail : Nat} :
    ∀ {fuel tmp : Nat} {rest : List Nat}, Chain (nextOf s.memory) tmp rest →
      unlinkTail tail fuel tmp s = .ok ((), s') →
        s'.regions = s.regions ∧ ∀ y, s'.memory y ≠ s.memory y → ∃ header ∈ rest, header + 16 ≤ y ∧ y < header + headerSize
  | 0, _, _, _, h => absurd h throw_not_ok
  | fuel + 1, tmp, rest, chain, h => by
    rw [unlinkTail] at h
    rcases em (tmp = 0) with zero | nonzero
    · rw [if_pos zero] at h
      obtain ⟨-, rfl⟩ := pure_ok.mp h
      exact ⟨rfl, fun y changed => absurd rfl changed⟩
    rw [if_neg nonzero] at h
    obtain ⟨later, rfl, laterChain⟩ := chain.of_ne_zero nonzero
    obtain ⟨next, s₁, read, afterRead⟩ := bind_ok.mp h
    obtain ⟨-, loaded, same⟩ := load_ok.mp read
    subst s₁
    rcases em (next = tail) with found | passed
    · rw [if_pos found] at afterRead
      obtain ⟨⟨⟩, s₂, stored, tailed⟩ := bind_ok.mp afterRead
      obtain ⟨-, rfl⟩ := store_ok.mp stored
      obtain rfl := setTail_ok.mp tailed
      refine ⟨rfl, fun y changed => ⟨tmp, List.mem_cons_self _ _, ?_⟩⟩
      by_contra outside
      exact changed (Memory.store_outside (by unfold headerSize at outside; omega))
    · rw [if_neg passed] at afterRead
      obtain ⟨next', s₂, reread, walk⟩ := bind_ok.mp afterRead
      obtain ⟨-, reloaded, same⟩ := load_ok.mp reread
      subst s₂
      rw [← reloaded] at walk
      obtain ⟨regions, writes⟩ := unlinkTail_writes laterChain walk
      exact ⟨regions, fun y changed => (writes y changed).imp fun _ ⟨member, bytes⟩ =>
        ⟨List.mem_cons_of_mem _ member, bytes⟩⟩

/-- The header `get_free_block` returns, when not `NULL`, is on the list and starts no held block. -/
theorem Inv.getFreeBlock_node (inv : Inv s live nodes) {size header : Nat}
    (found : getFreeBlock size s = .ok (header, s)) (nonzero : header ≠ 0) : header ∈ nodes ∧ header + headerSize ∉ live := by
  rw [inv.getFreeBlock_ok size] at found
  obtain ⟨first, -⟩ := Prod.mk.inj (Except.ok.inj found)
  rcases firstFit_cases s.memory size nodes with none | ⟨node, free⟩
  · exact absurd (first.symm.trans none) nonzero
  rw [first] at node free
  exact ⟨node, fun held => free (by rw [inv.flags header node, if_pos held])⟩

/-- `malloc` changes header fields past the recorded size, or bytes of its new reservation. -/
theorem Inv.malloc_changes (inv : Inv s live nodes) {proposed : Option Nat} {size p : Nat}
    (h : Memalloc.malloc proposed size s = .ok (p, s')) (y : Nat) (changed : s'.memory y ≠ s.memory y) :
    (∃ header ∈ nodes, header + 8 ≤ y ∧ y < header + headerSize) ∨
      ∀ region ∈ s.regions, ¬ (region.base ≤ y ∧ y < region.stop) := by
  have header : headerSize = 24 := rfl
  rcases malloc_cases h with ⟨-, -, rfl⟩ | ⟨-, reused, found, nonzero, -, -, rfl⟩ | ⟨-, -, -, -, rfl⟩ |
    ⟨-, -, base, mapped, -, rfl⟩
  · exact absurd rfl changed
  · refine .inl ⟨reused, (inv.getFreeBlock_node found nonzero).1, ?_⟩
    by_contra outside
    exact changed (Memory.store_outside (by omega))
  · exact absurd rfl changed
  · obtain ⟨-, -, nonempty, -, apart⟩ := mapAt_fresh mapped
    by_cases inside : base ≤ y ∧ y < base + pageRound pageSize (sizeAdd headerSize size)
    · exact .inr (unmapped_of_apart apart inside)
    have room : headerSize < pageRound pageSize (sizeAdd headerSize size) := by
      unfold pageRound pageSize
      omega
    have fresh : (((s.memory.fill base (pageRound pageSize (sizeAdd headerSize size)) 0).store base 8 size).store
        (base + 8) 4 0).store (base + 16) 8 0 y = s.memory y := by
      rw [Memory.store_outside (by omega), Memory.store_outside (by omega), Memory.store_outside (by omega),
        Memory.fill_outside (by omega)]
    by_cases linked : s.tail ≠ 0 ∧ s.tail + 16 ≤ y ∧ y < s.tail + 24
    · exact .inl ⟨s.tail, inv.tail_mem linked.1, by omega, by omega⟩
    refine absurd ?_ changed
    dsimp only
    split
    · rw [Memory.store_outside (by omega), fresh]
    · exact fresh

/-- `malloc` changes no header's recorded size. -/
theorem Inv.malloc_keeps_size (inv : Inv s live nodes) {proposed : Option Nat} {size p : Nat}
    (h : Memalloc.malloc proposed size s = .ok (p, s')) {header : Nat} (node : header ∈ nodes) :
    sizeOf s'.memory header = sizeOf s.memory header := by
  have bytes : headerSize = 24 := rfl
  refine Memory.load_congr fun y low high => Classical.byContradiction fun changed => ?_
  obtain ⟨length, longer, own⟩ := inv.own header node
  rcases inv.malloc_changes h y changed with ⟨other, otherNode, otherLow, otherHigh⟩ | unmapped
  · by_cases same : other = header
    · omega
    · have := inv.headers_apart otherNode node same
      omega
  · exact unmapped _ own ⟨low, by unfold Region.stop; dsimp only; omega⟩

/-- `malloc` keeps every reservation and changes only changeable bytes, the block it returns included. -/
theorem Inv.malloc_writes (inv : Inv s live nodes) {proposed : Option Nat} {size p : Nat}
    (h : Memalloc.malloc proposed size s = .ok (p, s')) :
    (∀ region ∈ s.regions, region ∈ s'.regions) ∧ (∀ y, s'.memory y ≠ s.memory y → Changeable s live y) ∧
      (p ≠ 0 → ∀ length, accessible s'.regions p length → ∀ y, p ≤ y → y < p + length → Changeable s live y) := by
  have bytes : ∀ y, s'.memory y ≠ s.memory y → Changeable s live y := fun y changed =>
    (inv.malloc_changes h y changed).elim
      (fun ⟨_, node, low, high⟩ => inv.changeable_of_header node (by omega) high) changeable_of_unmapped
  rcases malloc_cases h with ⟨-, rfl, rfl⟩ | ⟨-, header, found, reused, -, rfl, rfl⟩ | ⟨-, -, -, rfl, rfl⟩ |
    ⟨-, -, base, mapped, rfl, rfl⟩
  · exact ⟨fun _ => id, bytes, fun nonzero => absurd rfl nonzero⟩
  · obtain ⟨node, unheld⟩ := inv.getFreeBlock_node found reused
    exact ⟨fun _ => id, bytes, fun _ _ reach _ low high => inv.changeable_of_unheld node unheld reach low high⟩
  · exact ⟨fun _ => id, bytes, fun nonzero => absurd rfl nonzero⟩
  · obtain ⟨-, -, nonempty, -, apart⟩ := mapAt_fresh mapped
    have room : headerSize < pageRound pageSize (sizeAdd headerSize size) := by
      unfold pageRound pageSize headerSize at *
      omega
    refine ⟨fun _ => List.mem_cons_of_mem _, bytes, fun _ length reach y low high => ?_⟩
    obtain ⟨region, member, holds⟩ := accessible_iff.mp reach
    unfold Region.Holds Region.stop at holds
    have inside : y < base + pageRound pageSize (sizeAdd headerSize size) := by
      rcases List.mem_cons.mp member with rfl | old
      · dsimp only at holds
        omega
      · have := apart region old
        unfold Region.Apart Region.stop at this
        dsimp only at this
        omega
    exact changeable_of_unmapped (unmapped_of_apart apart ⟨by dsimp only; omega, by unfold Region.stop; dsimp only; omega⟩)

/-- `free` changes only header bytes and releases no reservation but the freed block's. -/
theorem Inv.free_writes (inv : Inv s live nodes) {block : Nat} (passable : block = 0 ∨ block ∈ live)
    (h : Memalloc.free block s = .ok ((), s')) :
    (∀ region ∈ s.regions, region.base ≠ block - headerSize → region ∈ s'.regions) ∧
      ∀ y, s'.memory y ≠ s.memory y → Changeable s live y := by
  rcases free_cases h with ⟨-, rfl⟩ | ⟨-, -, -, rfl⟩ | ⟨-, -, -, s₁, walk, rfl⟩ | ⟨nonzero, -, -, rfl⟩
  · exact ⟨fun _ mapped _ => mapped, fun y changed => absurd rfl changed⟩
  · exact ⟨fun _ mapped kept => List.mem_filter.mpr ⟨mapped, decide_eq_true kept⟩, fun y changed => absurd rfl changed⟩
  · obtain ⟨regions, writes⟩ := unlinkTail_writes inv.chain walk
    refine ⟨fun _ mapped kept => List.mem_filter.mpr ⟨regions ▸ mapped, decide_eq_true kept⟩, fun y changed => ?_⟩
    obtain ⟨header, node, low, high⟩ := writes y changed
    exact inv.changeable_of_header node (by omega) high
  · obtain ⟨-, node⟩ := inv.held block (passable.resolve_left nonzero)
    refine ⟨fun _ mapped _ => mapped, fun y changed => ?_⟩
    have inside : block - headerSize + 8 ≤ y ∧ y < block - headerSize + 8 + 4 := by
      by_contra outside
      exact changed (Memory.store_outside (by omega))
    exact inv.changeable_of_header node (by omega) (by unfold headerSize at *; omega)

/-- `calloc` keeps every reservation and changes only changeable bytes. -/
theorem Inv.calloc_writes (inv : Inv s live nodes) {proposed : Option Nat} {num nsize p : Nat}
    (h : Memalloc.calloc proposed num nsize s = .ok (p, s')) :
    (∀ region ∈ s.regions, region ∈ s'.regions) ∧ ∀ y, s'.memory y ≠ s.memory y → Changeable s live y := by
  rcases calloc_cases h with ⟨-, rfl⟩ | ⟨s₁, allocation, ⟨-, rfl⟩ | ⟨nonzero, reach, rfl⟩⟩
  · exact ⟨fun _ => id, fun y changed => absurd rfl changed⟩
  · exact (inv.malloc_writes allocation).imp_right And.left
  · obtain ⟨regions, writes, reachable⟩ := inv.malloc_writes allocation
    refine ⟨regions, fun y changed => ?_⟩
    by_cases zeroed : p ≤ y ∧ y < p + sizeMul num nsize
    · exact reachable nonzero _ reach y zeroed.1 zeroed.2
    · exact writes y fun same => changed (by rw [← same]; exact Memory.fill_outside (by omega))

/-- `realloc` changes only changeable bytes and releases only a moved block's old reservation. -/
theorem Inv.realloc_writes (inv : Inv s live nodes) {proposed : Option Nat} {block size p : Nat}
    (passable : block = 0 ∨ block ∈ live) (h : Memalloc.realloc proposed block size s = .ok (p, s')) :
    (∀ region ∈ s.regions, (p = 0 ∨ p = block ∨ region.base ≠ block - headerSize) → region ∈ s'.regions) ∧
      ∀ y, s'.memory y ≠ s.memory y → Changeable s live y := by
  rcases realloc_cases h with ⟨-, allocation⟩ | ⟨-, -, rfl, rfl⟩ |
    ⟨given, -, s₁, allocation, ⟨rfl, rfl⟩ | ⟨nonzero, s₂, copied, freeing⟩⟩
  · exact ⟨fun region mapped _ => (inv.malloc_writes allocation).1 region mapped, (inv.malloc_writes allocation).2.1⟩
  · exact ⟨fun _ mapped _ => mapped, fun y changed => absurd rfl changed⟩
  · exact ⟨fun region mapped _ => (inv.malloc_writes allocation).1 region mapped, (inv.malloc_writes allocation).2.1⟩
  have held : block ∈ live := passable.resolve_left fun zero => given (.inl zero)
  obtain ⟨regions, writes, reachable⟩ := inv.malloc_writes allocation
  obtain ⟨fresh, nodes₁, -, -, reach, rfl, copiedInv⟩ := inv.realloc_copied allocation nonzero copied
  obtain ⟨released, freeWrites⟩ := copiedInv.free_writes (.inr (List.mem_cons_of_mem _ held)) freeing
  have moved : p ≠ block := fun same => fresh (same ▸ held)
  refine ⟨fun region mapped kept => released region (regions region mapped)
    ((kept.resolve_left nonzero).resolve_left moved), fun y changed => ?_⟩
  by_cases freedHere : s'.memory y = s₁.memory.copy p block (sizeOf s₁.memory (block - headerSize)) y
  · by_cases copiedHere : p ≤ y ∧ y < p + sizeOf s₁.memory (block - headerSize)
    · exact reachable nonzero _ reach y copiedHere.1 copiedHere.2
    · exact writes y fun same => changed (by rw [freedHere, ← same]; exact Memory.copy_outside (by omega))
  · exact (freeWrites y freedHere).anti regions fun _ => List.mem_cons_of_mem _

/-- A step changes only bytes of no held block, or is a store through a held block and changes only it. -/
theorem Step.footprint {sys sys' : Sys} {action : Action} (step : Step sys action sys') (inv : Inv sys.state sys.live nodes) :
    (∀ y, sys'.state.memory y ≠ sys.state.memory y → Changeable sys.state sys.live y) ∨
      ∃ p ∈ sys.live, action = .write p ∧ ∀ y, sys'.state.memory y ≠ sys.state.memory y → InBlock sys.state p y := by
  cases step with
  | malloc h => exact .inl (inv.malloc_writes h).2.1
  | calloc h => exact .inl (inv.calloc_writes h).2
  | realloc passable h => exact .inl (inv.realloc_writes passable h).2
  | free passable h => exact .inl (inv.free_writes passable h).2
  | write held low reach h =>
    rename_i p address length data
    refine .inr ⟨p, held, rfl, fun y changed => ?_⟩
    obtain ⟨-, rfl⟩ := write_ok.mp h
    have inside : address ≤ y ∧ y < address + length := by
      by_contra outside
      exact changed (Memory.write_outside (by omega))
    exact inv.inBlock_of_access held reach (by omega) (by omega)

/-- A step keeps the reservation of every block a client holds before and after it. -/
theorem Step.keeps_region {sys sys' : Sys} {action : Action} (step : Step sys action sys') (inv : Inv sys.state sys.live nodes) {q : Nat}
    (held : q ∈ sys.live) (kept : q ∈ sys'.live) {length : Nat}
    (mapped : (⟨q - headerSize, length⟩ : Region) ∈ sys.state.regions) :
    (⟨q - headerSize, length⟩ : Region) ∈ sys'.state.regions := by
  obtain ⟨low, node⟩ := inv.held q held
  have apart : ∀ {block}, (block = 0 ∨ block ∈ sys.live) → q ≠ block → q - headerSize ≠ block - headerSize := by
    rintro block (rfl | member) different same
    · exact inv.chain.mem_ne_zero _ node (same.trans (Nat.zero_sub _))
    · have := (inv.held block member).1
      omega
  cases step with
  | malloc h => exact (inv.malloc_writes h).1 _ mapped
  | calloc h => exact (inv.calloc_writes h).1 _ mapped
  | realloc passable h =>
    rename_i block _ p
    refine (inv.realloc_writes passable h).1 _ mapped ?_
    unfold reallocated at kept
    by_cases same : p = 0 ∨ p = block
    · exact same.elim .inl (.inr ∘ .inl)
    rw [if_neg same] at kept
    rcases List.mem_cons.mp kept with rfl | later
    · exact .inr (.inr (apart passable (not_or.mp same).2))
    · exact .inr (.inr (apart passable (mem_freed.mp later).2))
  | free passable h => exact (inv.free_writes passable h).1 _ mapped (apart passable (mem_freed.mp kept).2)
  | write _ _ _ h => rwa [(write_ok.mp h).2]

/-- No step but a client's store through a held block changes a byte of that block. -/
theorem Step.keeps_held_block {sys sys' : Sys} {action : Action} (step : Step sys action sys')
    (inv : Inv sys.state sys.live nodes) {q : Nat} (held : q ∈ sys.live) (notStore : action ≠ .write q) :
    ∀ y, InBlock sys.state q y → sys'.state.memory y = sys.state.memory y := by
  intro y inside
  by_contra changed
  rcases step.footprint inv with changes | ⟨p, member, rfl, changes⟩
  · exact changes y changed q held inside
  · exact notStore (congrArg Action.write (inv.inBlock_unique member held (changes y changed) inside))

end Footprint

/-- A run along which a client holds `q` after every step, and no step is a store through `q`. -/
inductive HeldRun (q : Nat) : Sys → Sys → Prop
  | refl (sys : Sys) : HeldRun q sys sys
  | tail {first middle last : Sys} {action : Action} : HeldRun q first middle → Step middle action last →
      q ∈ last.live → action ≠ .write q → HeldRun q first last

theorem HeldRun.holds {q : Nat} {first last : Sys} (run : HeldRun q first last) (held : q ∈ first.live) :
    q ∈ last.live := by
  cases run with
  | refl => exact held
  | tail _ _ kept _ => exact kept

/-- Along a run that keeps `q` held and never stores through it, `q`'s block stays in place with its bytes. -/
theorem HeldRun.keeps_block_data {q : Nat} {first last : Sys} (reach : Reachable first)
    (run : HeldRun q first last) (held : q ∈ first.live) {y : Nat} (inside : InBlock first.state q y) :
    Reachable last ∧ InBlock last.state q y ∧ last.state.memory y = first.state.memory y := by
  induction run with
  | refl => exact ⟨reach, inside, rfl⟩
  | tail earlier step kept untouched ih =>
    obtain ⟨reached, ⟨length, mapped, low, high⟩, same⟩ := ih
    obtain ⟨nodes, inv⟩ := reached.inv
    have heldMiddle := earlier.holds held
    refine ⟨reached.step step, ⟨length, step.keeps_region inv heldMiddle kept mapped, low, high⟩, ?_⟩
    rw [step.keeps_held_block inv heldMiddle untouched y ⟨length, mapped, low, high⟩, same]

/-- A second `malloc(16)` and its `free` leave the first block in place with its bytes. -/
theorem keeps_block_data_across_malloc_free :
    let m₁ : Memory := (((Memory.fill (fun _ => 0) 65536 4096 0).store 65536 8 16).store 65544 4 0).store 65552 8 0
    let s₁ : State := ⟨65536, 65536, m₁, [⟨65536, 4096⟩]⟩
    let m₂ : Memory :=
      ((((Memory.fill m₁ 131072 4096 0).store 131072 8 16).store 131080 4 0).store 131088 8 0).store 65552 8 131072
    let s₃ : State := ⟨65536, 65536, m₂.store 65552 8 0, [⟨65536, 4096⟩]⟩
    Reachable ⟨s₁, [65560]⟩ ∧ HeldRun 65560 ⟨s₁, [65560]⟩ ⟨s₃, [65560]⟩ ∧ InBlock s₁ 65560 65600 ∧
      Reachable ⟨s₃, [65560]⟩ ∧ InBlock s₃ 65560 65600 ∧ s₃.memory 65600 = s₁.memory 65600 := by
  intro m₁ s₁ m₂ s₃
  let s₂ : State := ⟨65536, 131072, m₂, [⟨131072, 4096⟩, ⟨65536, 4096⟩]⟩
  have first : malloc (some 65536) 16 ⟨0, 0, fun _ => 0, []⟩ = .ok (65560, s₁) := by unfold s₁ m₁; rfl
  have second : malloc (some 131072) 16 s₁ = .ok (131096, s₂) := by unfold s₁ s₂ m₁ m₂; rfl
  have third : free 131096 s₂ = .ok ((), s₃) := by unfold s₂ s₃ m₂ m₁; rfl
  have reach : Reachable ⟨s₁, allocated 65560 []⟩ := .step (.start _) (.malloc first)
  have start : allocated 65560 [] = [65560] := by decide
  have live : freed 131096 (allocated 131096 [65560]) = [65560] := by decide
  rw [start] at reach
  have run : HeldRun 65560 ⟨s₁, [65560]⟩ ⟨s₃, freed 131096 (allocated 131096 [65560])⟩ :=
    .tail (.tail (.refl _) (.malloc second) (by decide) (by decide)) (.free (.inr (by decide)) third) (by decide)
      (by decide)
  rw [live] at run
  have inside : InBlock s₁ 65560 65600 :=
    ⟨4096, show (⟨65560 - headerSize, 4096⟩ : Region) ∈ [(⟨65536, 4096⟩ : Region)] by decide, by decide, by decide⟩
  have final := HeldRun.keeps_block_data reach run (by decide) inside
  exact ⟨reach, run, inside, final⟩

end MemoryAllocator.Memalloc
