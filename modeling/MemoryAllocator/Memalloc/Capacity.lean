import MemoryAllocator.Memalloc.Client
import MemoryAllocator.Memalloc.Bounds

namespace MemoryAllocator.Memalloc

/-- Every reservation is longer than a header and holds the size its header records, unless the sum wraps. -/
def Recorded (s : State) : Prop :=
  ∀ region ∈ s.regions, headerSize < region.length ∧
    (sizeOf s.memory region.base + headerSize ≤ region.length ∨ sizeBound ≤ sizeOf s.memory region.base + headerSize)

/-- The byte `y` lies in no live reservation's `size` field. -/
def OffSizes (s : State) (y : Nat) : Prop :=
  ∀ region ∈ s.regions, ¬ (region.base ≤ y ∧ y < region.base + 8)

section Capacity

variable {s s' : State} {live nodes : List Nat} {y : Nat}

/-- A change off every `size` field leaves each live reservation's recorded size as it was. -/
theorem sizeOf_frame (off : ∀ y, s'.memory y ≠ s.memory y → OffSizes s y) {region : Region}
    (mapped : region ∈ s.regions) : sizeOf s'.memory region.base = sizeOf s.memory region.base :=
  Memory.load_congr fun y low high => Classical.byContradiction fun changed => off y changed region mapped ⟨low, high⟩

theorem Recorded.frame (recorded : Recorded s) (regions : ∀ region ∈ s'.regions, region ∈ s.regions)
    (off : ∀ y, s'.memory y ≠ s.memory y → OffSizes s y) : Recorded s' := fun region mapped => by
  rw [sizeOf_frame off (regions _ mapped)]
  exact recorded region (regions _ mapped)

/-- Bytes of no live reservation lie in no `size` field. -/
theorem Recorded.offSizes_of_unmapped (recorded : Recorded s)
    (unmapped : ∀ region ∈ s.regions, ¬ (region.base ≤ y ∧ y < region.stop)) : OffSizes s y :=
  fun region mapped within => unmapped region mapped
    ⟨within.1, by have := (recorded region mapped).1; unfold Region.stop headerSize at *; omega⟩

/-- The bytes of a live reservation past its `size` field lie in no `size` field. -/
theorem Inv.offSizes_of_within (inv : Inv s live nodes) {region : Region} (mapped : region ∈ s.regions)
    (low : region.base + 8 ≤ y) (high : y < region.stop) : OffSizes s y := by
  intro other otherMapped within
  by_cases same : other = region
  · subst same
    omega
  have apart := inv.apart.forall (fun _ _ => Region.Apart.symm) otherMapped mapped same
  unfold Region.stop at high
  unfold Region.Apart Region.stop at apart
  omega

/-- The fields of a header past its `size` lie in no `size` field. -/
theorem Inv.offSizes_of_header (inv : Inv s live nodes) {header : Nat} (node : header ∈ nodes)
    (low : header + 8 ≤ y) (high : y < header + headerSize) : OffSizes s y := by
  obtain ⟨length, longer, own⟩ := inv.own header node
  exact inv.offSizes_of_within own low (by unfold Region.stop; dsimp only; omega)

/-- The bytes a client may reach from a held block lie in no `size` field. -/
theorem Inv.offSizes_of_access (inv : Inv s live nodes) {p length : Nat} (held : p ∈ live)
    (reach : accessible s.regions p length) (low : p ≤ y) (high : y < p + length) : OffSizes s y := by
  obtain ⟨reserved, own, -, inside⟩ := inv.inBlock_of_access held reach low high
  have above := (inv.held p held).1
  unfold headerSize at above inside own
  exact inv.offSizes_of_within own (by dsimp only; omega) (by unfold Region.stop; dsimp only; omega)

/-- `malloc` keeps `Recorded`: a fresh header's reservation holds the request unless the sum wrapped. -/
theorem Inv.malloc_recorded (inv : Inv s live nodes) (recorded : Recorded s) {proposed : Option Nat} {size p : Nat}
    (h : Memalloc.malloc proposed size s = .ok (p, s')) : Recorded s' := by
  have off : ∀ y, s'.memory y ≠ s.memory y → OffSizes s y := fun y changed =>
    (inv.malloc_changes h y changed).elim (fun ⟨_, node, low, high⟩ => inv.offSizes_of_header node low high)
      recorded.offSizes_of_unmapped
  rcases malloc_cases h with ⟨-, -, rfl⟩ | ⟨-, reused, -, -, -, -, rfl⟩ | ⟨-, -, -, -, rfl⟩ |
    ⟨-, -, base, mapped, -, same⟩
  · exact recorded
  · exact recorded.frame (fun _ => id) off
  · exact recorded
  obtain ⟨-, -, nonempty, -, apart⟩ := mapAt_fresh mapped
  have stored : sizeOf s'.memory base = size % sizeBound := by
    rw [same]
    exact inv.fresh_header_size apart
  have regions : s'.regions = ⟨base, pageRound pageSize (sizeAdd headerSize size)⟩ :: s.regions := by rw [same]
  intro region member
  rw [regions] at member
  rcases List.mem_cons.mp member with rfl | old
  swap
  · rw [sizeOf_frame off old]
    exact recorded region old
  have total : sizeAdd headerSize size = (headerSize + size % sizeBound) % sizeBound := (Nat.add_mod_mod _ _ _).symm
  have bounded := Nat.mod_lt size (show 0 < sizeBound by unfold sizeBound; omega)
  rw [stored]
  refine ⟨by dsimp only; unfold headerSize at nonempty; unfold pageRound pageSize headerSize; omega, ?_⟩
  by_cases wraps : sizeBound ≤ size % sizeBound + headerSize
  · exact .inr wraps
  · rw [Nat.mod_eq_of_lt (by omega)] at total
    left
    dsimp only
    rw [total]
    unfold pageRound pageSize
    omega

/-- `free` of `NULL` or of a held block writes no `size` field and releases reservations only. -/
theorem Inv.free_recorded (inv : Inv s live nodes) (recorded : Recorded s) {block : Nat}
    (passable : block = 0 ∨ block ∈ live) (h : Memalloc.free block s = .ok ((), s')) : Recorded s' := by
  rcases free_cases h with ⟨-, rfl⟩ | ⟨-, -, -, rfl⟩ | ⟨-, -, -, s₁, walk, rfl⟩ | ⟨nonzero, -, -, rfl⟩
  · exact recorded
  · exact recorded.frame (fun _ member => List.mem_of_mem_filter member) fun y changed => absurd rfl changed
  · obtain ⟨regions, writes⟩ := unlinkTail_writes inv.chain walk
    refine recorded.frame (fun _ member => regions ▸ List.mem_of_mem_filter member) fun y changed => ?_
    obtain ⟨header, node, low, high⟩ := writes y changed
    exact inv.offSizes_of_header node (by omega) high
  · obtain ⟨-, node⟩ := inv.held block (passable.resolve_left nonzero)
    refine recorded.frame (fun _ => id) fun y changed => ?_
    have inside : block - headerSize + 8 ≤ y ∧ y < block - headerSize + 8 + 4 := by
      by_contra outside
      exact changed (Memory.store_outside (by omega))
    exact inv.offSizes_of_header node inside.1 (by have : headerSize = 24 := rfl; omega)

/-- `calloc` writes no `size` field but through its `malloc`. -/
theorem Inv.calloc_recorded (inv : Inv s live nodes) (recorded : Recorded s) {proposed : Option Nat}
    {num nsize p : Nat} (h : Memalloc.calloc proposed num nsize s = .ok (p, s')) : Recorded s' := by
  rcases calloc_cases h with ⟨-, rfl⟩ | ⟨s₁, allocation, ⟨-, rfl⟩ | ⟨nonzero, reach, rfl⟩⟩
  · exact recorded
  · exact inv.malloc_recorded recorded allocation
  obtain ⟨-, nodes₁, allocated'⟩ := inv.malloc allocation
  have held : p ∈ allocated p live := by rw [allocated, if_neg nonzero]; exact List.mem_cons_self _ _
  refine (inv.malloc_recorded recorded allocation).frame (fun _ => id) fun y changed => ?_
  have inside : p ≤ y ∧ y < p + sizeMul num nsize := by
    by_contra outside
    exact changed (Memory.fill_outside (by omega))
  exact allocated'.offSizes_of_access held reach inside.1 inside.2

/-- `realloc` writes no `size` field but through its `malloc` and its `free`. -/
theorem Inv.realloc_recorded (inv : Inv s live nodes) (recorded : Recorded s) {proposed : Option Nat}
    {block size p : Nat} (passable : block = 0 ∨ block ∈ live) (h : Memalloc.realloc proposed block size s = .ok (p, s')) :
    Recorded s' := by
  rcases realloc_cases h with ⟨-, allocation⟩ | ⟨-, -, -, rfl⟩ |
    ⟨given, -, s₁, allocation, ⟨-, rfl⟩ | ⟨nonzero, s₂, copied, freeing⟩⟩
  · exact inv.malloc_recorded recorded allocation
  · exact recorded
  · exact inv.malloc_recorded recorded allocation
  have held : block ∈ live := passable.resolve_left fun zero => given (.inl zero)
  obtain ⟨-, nodes₁, allocated', -, reach, rfl, copiedInv⟩ := inv.realloc_copied allocation nonzero copied
  refine copiedInv.free_recorded ?_ (.inr (List.mem_cons_of_mem _ held)) freeing
  refine (inv.malloc_recorded recorded allocation).frame (fun _ => id) fun y changed => ?_
  have inside : p ≤ y ∧ y < p + sizeOf s₁.memory (block - headerSize) := by
    by_contra outside
    exact changed (Memory.copy_outside (by omega))
  exact allocated'.offSizes_of_access (List.mem_cons_self _ _) reach inside.1 inside.2

/-- No step writes a live reservation's `size` field but `malloc`'s fresh header. -/
theorem Step.recorded {sys sys' : Sys} {action : Action} (step : Step sys action sys') (inv : Inv sys.state sys.live nodes)
    (recorded : Recorded sys.state) : Recorded sys'.state := by
  cases step with
  | malloc h => exact inv.malloc_recorded recorded h
  | calloc h => exact inv.calloc_recorded recorded h
  | realloc passable h => exact inv.realloc_recorded recorded passable h
  | free passable h => exact inv.free_recorded recorded passable h
  | write held low reach h =>
    rename_i address length data
    obtain ⟨-, rfl⟩ := write_ok.mp h
    refine recorded.frame (fun _ => id) fun y changed => ?_
    have inside : address ≤ y ∧ y < address + length := by
      by_contra outside
      exact changed (Memory.write_outside (by omega))
    exact inv.offSizes_of_access held reach (by omega) (by omega)

/-- A header whose size does not wrap with the header holds that size past the header. -/
theorem Inv.node_holds_size (inv : Inv s live nodes) (recorded : Recorded s) {header : Nat} (node : header ∈ nodes)
    (unwrapped : sizeOf s.memory header + headerSize < sizeBound) :
    accessible s.regions (header + headerSize) (sizeOf s.memory header) := by
  obtain ⟨length, -, own⟩ := inv.own header node
  have holds := (recorded _ own).2.resolve_right (not_le.mpr unwrapped)
  dsimp only at holds
  exact accessible_within own ⟨by dsimp only; omega, by unfold Region.stop; dsimp only; omega⟩

/-- Without a wrapped sum, the block `malloc` returns records the request and holds it past its header. -/
theorem Inv.malloc_holds (inv : Inv s live nodes) (recorded : Recorded s) {proposed : Option Nat} {size p : Nat}
    (h : Memalloc.malloc proposed size s = .ok (p, s')) (nonzero : p ≠ 0) (fits : size + headerSize < sizeBound)
    (unwrapped : ∀ region ∈ s.regions, sizeOf s.memory region.base + headerSize < sizeBound) :
    size ≤ sizeOf s'.memory (p - headerSize) ∧ accessible s'.regions p size := by
  rcases malloc_cases h with ⟨-, rfl, -⟩ | ⟨-, header, found, reused, -, rfl, rfl⟩ | ⟨-, -, -, rfl, -⟩ |
    ⟨-, found, base, mapped, rfl, -⟩
  · exact absurd rfl nonzero
  · obtain ⟨node, -⟩ := inv.getFreeBlock_node found reused
    rw [inv.getFreeBlock_ok size] at found
    obtain ⟨first, -⟩ := Prod.mk.inj (Except.ok.inj found)
    obtain ⟨-, -, -, ⟨-, enough⟩, -⟩ := firstFit_split s.memory size (first ▸ reused)
    rw [first] at enough
    obtain ⟨length, -, own⟩ := inv.own header node
    have kept : sizeOf (s.memory.store (header + 8) 4 0) header = sizeOf s.memory header :=
      Memory.load_congr (Memory.store_agree (.inr le_rfl))
    refine ⟨?_, accessible_of_le (inv.node_holds_size recorded node (unwrapped ⟨header, length⟩ own)) le_rfl
      (by omega)⟩
    show size ≤ sizeOf (s.memory.store (header + 8) 4 0) (header + headerSize - headerSize)
    rw [Nat.add_sub_cancel, kept]
    exact enough
  · exact absurd rfl nonzero
  · rw [inv.getFreeBlock_ok size] at found
    obtain ⟨mapped', stored, -⟩ := inv.malloc_fresh_header (by omega) (Prod.mk.inj (Except.ok.inj found)).1 h nonzero
    have total : sizeAdd headerSize size = headerSize + size := Nat.mod_eq_of_lt (by omega)
    refine ⟨stored.ge, accessible_within mapped' ⟨by dsimp only; omega, ?_⟩⟩
    unfold Region.stop
    dsimp only
    rw [total]
    unfold pageRound pageSize
    omega

end Capacity

theorem Reachable.recorded {sys : Sys} (reach : Reachable sys) :
    ∃ nodes, Inv sys.state sys.live nodes ∧ Recorded sys.state := by
  induction reach with
  | start memory => exact ⟨[], inv_empty memory, nofun⟩
  | step _ step reached =>
    obtain ⟨nodes, inv, recorded⟩ := reached
    obtain ⟨nodes', inv'⟩ := step.inv inv
    exact ⟨nodes', inv', step.recorded inv recorded⟩

/-- In every run without a wrapped sum, `malloc` returns a block that holds the request. -/
theorem reachable_malloc_holds_request {sys : Sys} (reach : Reachable sys) {proposed : Option Nat} {size p : Nat}
    {s' : State} (h : malloc proposed size sys.state = .ok (p, s')) (nonzero : p ≠ 0)
    (fits : size + headerSize < sizeBound)
    (unwrapped : ∀ region ∈ sys.state.regions, sizeOf sys.state.memory region.base + headerSize < sizeBound) :
    size ≤ sizeOf s'.memory (p - headerSize) ∧ accessible s'.regions p size := by
  obtain ⟨nodes, inv, recorded⟩ := reach.recorded
  exact inv.malloc_holds recorded h nonzero fits unwrapped

/-- A `malloc(8)` that reuses a freed 16-byte header gets a block that holds its 8 bytes. -/
theorem malloc_holds_request_on_reuse :
    let m₁ : Memory := (((Memory.fill (fun _ => 0) 65536 4096 0).store 65536 8 16).store 65544 4 0).store 65552 8 0
    let m₂ : Memory :=
      ((((Memory.fill m₁ 131072 4096 0).store 131072 8 16).store 131080 4 0).store 131088 8 0).store 65552 8 131072
    let s₃ : State := ⟨65536, 131072, m₂.store 65544 4 1, [⟨131072, 4096⟩, ⟨65536, 4096⟩]⟩
    let s₄ : State := ⟨65536, 131072, (m₂.store 65544 4 1).store 65544 4 0, [⟨131072, 4096⟩, ⟨65536, 4096⟩]⟩
    Reachable ⟨s₃, [131096]⟩ ∧ malloc (some 196608) 8 s₃ = .ok (65560, s₄) ∧
      8 ≤ sizeOf s₄.memory (65560 - headerSize) ∧ accessible s₄.regions 65560 8 := by
  intro m₁ m₂ s₃ s₄
  have first : malloc (some 65536) 16 ⟨0, 0, fun _ => 0, []⟩ = .ok (65560, ⟨65536, 65536, m₁, [⟨65536, 4096⟩]⟩) := by
    unfold m₁; rfl
  have second : malloc (some 131072) 16 ⟨65536, 65536, m₁, [⟨65536, 4096⟩]⟩ =
      .ok (131096, ⟨65536, 131072, m₂, [⟨131072, 4096⟩, ⟨65536, 4096⟩]⟩) := by unfold m₁ m₂; rfl
  have third : free 65560 ⟨65536, 131072, m₂, [⟨131072, 4096⟩, ⟨65536, 4096⟩]⟩ = .ok ((), s₃) := by
    unfold s₃ m₂ m₁; rfl
  have fourth : malloc (some 196608) 8 s₃ = .ok (65560, s₄) := by unfold s₃ s₄ m₂ m₁; rfl
  have held : (65560 : Nat) ∈ allocated 131096 (allocated 65560 []) := by decide
  have reach : Reachable ⟨s₃, freed 65560 (allocated 131096 (allocated 65560 []))⟩ :=
    .step (.step (.step (.start _) (.malloc first)) (.malloc second)) (.free (.inr held) third)
  have live : freed 65560 (allocated 131096 (allocated 65560 [])) = [131096] := by decide
  rw [live] at reach
  have unwrapped : ∀ region ∈ s₃.regions, sizeOf s₃.memory region.base + headerSize < sizeBound := by
    unfold s₃ m₂ m₁; decide
  have final := reachable_malloc_holds_request reach fourth (by decide) (by decide) unwrapped
  exact ⟨reach, fourth, final⟩

section Returns

variable {s : State} {live nodes : List Nat}

/-- Without a wrapped sum, `calloc` returns: its block holds the bytes `memset` clears. -/
theorem Inv.calloc_returns (inv : Inv s live nodes) (recorded : Recorded s)
    (unwrapped : ∀ region ∈ s.regions, sizeOf s.memory region.base + headerSize < sizeBound) (proposed : Option Nat)
    {num nsize : Nat} (fits : sizeMul num nsize + headerSize < sizeBound) :
    ∃ p s', Memalloc.calloc proposed num nsize s = .ok (p, s') := by
  unfold Memalloc.calloc
  split
  · exact ⟨0, s, rfl⟩
  dsimp only
  split
  · exact ⟨0, s, rfl⟩
  obtain ⟨p, s₁, allocation⟩ := inv.malloc_returns proposed (sizeMul num nsize)
  rw [bind_of_ok allocation]
  split
  · exact ⟨0, s₁, rfl⟩
  rename_i nonzero
  have holds := (inv.malloc_holds recorded allocation nonzero fits unwrapped).2
  rw [bind_of_ok ((memset_ok (u := ())).mpr ⟨holds, rfl⟩)]
  exact ⟨p, _, rfl⟩

/-- Without a wrapped sum, `realloc` of `NULL` or of a held block returns without a fault. -/
theorem Inv.realloc_returns (inv : Inv s live nodes) (recorded : Recorded s)
    (unwrapped : ∀ region ∈ s.regions, sizeOf s.memory region.base + headerSize < sizeBound) (proposed : Option Nat)
    {block size : Nat} (passable : block = 0 ∨ block ∈ live) (fits : size + headerSize < sizeBound) :
    ∃ p s', Memalloc.realloc proposed block size s = .ok (p, s') := by
  unfold Memalloc.realloc
  split
  · exact inv.malloc_returns proposed size
  rename_i given
  have held : block ∈ live := passable.resolve_left fun zero => given (.inl zero)
  obtain ⟨above, node⟩ := inv.held block held
  obtain ⟨length, -, own⟩ := inv.own _ node
  have header : accessible s.regions (block - headerSize) 8 :=
    accessible_of_le (inv.header_accessible node) le_rfl (by unfold headerSize; omega)
  dsimp only
  rw [bind_of_ok (load_ok.mpr ⟨header, rfl, rfl⟩)]
  split
  · exact ⟨block, s, rfl⟩
  rename_i short
  have short : sizeOf s.memory (block - headerSize) < size := Nat.lt_of_not_le short
  obtain ⟨p, s₁, allocation⟩ := inv.malloc_returns proposed size
  rw [bind_of_ok allocation]
  split
  swap
  · exact ⟨p, s₁, rfl⟩
  rename_i nonzero
  obtain ⟨regions, -, -⟩ := inv.malloc_writes allocation
  have transport {address width : Nat} (reach : accessible s.regions address width) :
      accessible s₁.regions address width :=
    let ⟨_, mapped, inside⟩ := accessible_iff.mp reach
    accessible_within (regions _ mapped) inside
  have kept := inv.malloc_keeps_size allocation node
  have source := inv.node_holds_size recorded node (unwrapped ⟨block - headerSize, length⟩ own)
  rw [Nat.sub_add_cancel above, ← kept] at source
  have destination := accessible_of_le (inv.malloc_holds recorded allocation nonzero fits unwrapped).2 le_rfl
    (show p + sizeOf s₁.memory (block - headerSize) ≤ p + size by rw [kept]; omega)
  have copied : memcpy p block (s₁.memory.load (block - headerSize) 8) s₁ = _ :=
    (memcpy_ok (u := ())).mpr ⟨transport source, destination, rfl⟩
  obtain ⟨-, nodes₁, -, -, -, -, copiedInv⟩ := inv.realloc_copied allocation nonzero copied
  obtain ⟨s₃, -, freeing, -⟩ := copiedInv.free_returns (.inr (List.mem_cons_of_mem _ held))
  rw [bind_of_ok (load_ok.mpr ⟨transport header, rfl, rfl⟩), bind_of_ok copied, bind_of_ok freeing]
  exact ⟨p, s₃, rfl⟩

end Returns

/-- In every run without a wrapped header size, `calloc` and `realloc` return when their sums fit. -/
theorem reachable_calloc_realloc_return {sys : Sys} (reach : Reachable sys)
    (unwrapped : ∀ region ∈ sys.state.regions, sizeOf sys.state.memory region.base + headerSize < sizeBound)
    (proposed : Option Nat) :
    (∀ num nsize, sizeMul num nsize + headerSize < sizeBound →
        ∃ p s', calloc proposed num nsize sys.state = .ok (p, s')) ∧
      ∀ block size, (block = 0 ∨ block ∈ sys.live) → size + headerSize < sizeBound →
        ∃ p s', realloc proposed block size sys.state = .ok (p, s') := by
  obtain ⟨nodes, inv, recorded⟩ := reach.recorded
  exact ⟨fun _ _ fits => inv.calloc_returns recorded unwrapped proposed fits,
    fun _ _ passable fits => inv.realloc_returns recorded unwrapped proposed passable fits⟩

/-- After a `malloc(16)`, `calloc(4, 8)` returns, and so does a moving `realloc` to 32 bytes. -/
theorem calloc_realloc_return_after_malloc :
    let m₁ : Memory := (((Memory.fill (fun _ => 0) 65536 4096 0).store 65536 8 16).store 65544 4 0).store 65552 8 0
    let s₁ : State := ⟨65536, 65536, m₁, [⟨65536, 4096⟩]⟩
    Reachable ⟨s₁, [65560]⟩ ∧ (∃ p s', calloc (some 131072) 4 8 s₁ = .ok (p, s')) ∧
      ∃ p s', realloc (some 131072) 65560 32 s₁ = .ok (p, s') := by
  intro m₁ s₁
  have first : malloc (some 65536) 16 ⟨0, 0, fun _ => 0, []⟩ = .ok (65560, s₁) := by unfold s₁ m₁; rfl
  have reach : Reachable ⟨s₁, allocated 65560 []⟩ := .step (.start _) (.malloc first)
  have start : allocated 65560 [] = [65560] := by decide
  rw [start] at reach
  have unwrapped : ∀ region ∈ s₁.regions, sizeOf s₁.memory region.base + headerSize < sizeBound := by
    unfold s₁ m₁; decide
  have final := reachable_calloc_realloc_return reach unwrapped (some 131072)
  exact ⟨reach, final.1 4 8 (by decide), final.2 65560 32 (.inr (by decide)) (by decide)⟩

/-- A wrapped `sizeof(header_t) + num * nsize` with no fitting header makes the `memset` of `calloc` fault. -/
theorem calloc_wrapped_faults {s : State} {live nodes : List Nat} (inv : Inv s live nodes) {proposed : Option Nat}
    {num nsize base : Nat} (given : num ≠ 0 ∧ nsize ≠ 0) (exact : nsize = sizeMul num nsize / num)
    (wraps : sizeBound - headerSize < sizeMul num nsize) (noFit : firstFit s.memory (sizeMul num nsize) nodes = 0)
    (mapped : mapAt allocationGranularity pageSize s.regions proposed (sizeAdd headerSize (sizeMul num nsize)) =
      some base) :
    calloc proposed num nsize s = .error (.memory (base + headerSize) (sizeMul num nsize)) := by
  have product : sizeMul num nsize < sizeBound := Nat.mod_lt _ (by unfold sizeBound; omega)
  obtain ⟨p, s₁, allocation⟩ := inv.malloc_returns proposed (sizeMul num nsize)
  rcases malloc_cases allocation with ⟨zero, -⟩ | ⟨-, header, found, reused, -⟩ | ⟨-, -, refused, -⟩ |
    ⟨-, -, base', mapped', returned, same⟩
  · unfold headerSize at wraps
    omega
  · rw [inv.getFreeBlock_ok, noFit] at found
    exact absurd (Prod.mk.inj (Except.ok.inj found)).1.symm reused
  · rw [mapped] at refused
    cases refused
  have reserved : base' = base := Option.some.inj (mapped'.symm.trans mapped)
  rw [reserved] at returned same
  subst returned
  obtain ⟨-, -, -, -, apart⟩ := mapAt_fresh mapped
  rw [pageRound_of_wraps wraps product] at same apart
  have beyond : ¬ accessible s₁.regions (base + headerSize) (sizeMul num nsize) := fun reach => by
    obtain ⟨region, member, inside⟩ := accessible_iff.mp reach
    rw [same] at member
    rcases List.mem_cons.mp member with rfl | old
    · unfold Region.Holds Region.stop pageSize headerSize at inside
      unfold headerSize sizeBound at wraps
      dsimp only at inside
      omega
    · have apart := apart _ old
      unfold Region.Holds Region.stop headerSize at inside
      unfold Region.Apart Region.stop pageSize at apart
      dsimp only at apart
      omega
  unfold calloc
  rw [if_neg (by omega), if_neg (not_not.mpr exact), bind_of_ok allocation, if_neg (by omega)]
  exact bind_of_error (by unfold memset; rw [if_neg beyond])

/-- `calloc(1, SIZE_MAX)` from the empty list reserves one page at `0x10000` and faults in its `memset`. -/
theorem calloc_wrapped_faults_from_start :
    calloc (some 65536) 1 (sizeBound - 1) ⟨0, 0, fun _ => 0, []⟩ = .error (.memory 65560 (sizeBound - 1)) :=
  calloc_wrapped_faults (inv_empty _) ⟨by decide, by decide⟩ (by decide) (by decide) rfl rfl

end MemoryAllocator.Memalloc
