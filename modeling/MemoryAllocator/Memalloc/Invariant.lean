import MemoryAllocator.Memalloc.Spec

namespace MemoryAllocator.Memalloc

/-- The blocks clients hold after a call returned `p`: `NULL` adds nothing. -/
def allocated (p : Nat) (live : List Nat) : List Nat := if p = 0 then live else p :: live

/-- The blocks clients hold after `block` is freed. -/
def freed (block : Nat) (live : List Nat) : List Nat := live.filter (· ≠ block)

@[simp] theorem mem_freed {block p : Nat} {live : List Nat} : p ∈ freed block live ↔ p ∈ live ∧ p ≠ block := by
  simp [freed]

/-- The invariant over the state, the held blocks and the list's headers in order. -/
structure Inv (s : State) (live nodes : List Nat) : Prop where
  chain : Chain (nextOf s.memory) s.head nodes
  tail : s.tail = nodes.getLastD 0
  nodup : nodes.Nodup
  own : ∀ header ∈ nodes, ∃ length, headerSize < length ∧ (⟨header, length⟩ : Region) ∈ s.regions
  apart : s.regions.Pairwise Region.Apart
  positive : ∀ region ∈ s.regions, 0 < region.length
  flags : ∀ header ∈ nodes, isFreeOf s.memory header = if header + headerSize ∈ live then 0 else 1
  held : ∀ p ∈ live, headerSize ≤ p ∧ p - headerSize ∈ nodes
  liveNodup : live.Nodup

/-- The first header of `nodes` that is free and holds `size` bytes, `0` when there is none. -/
def firstFit (memory : Memory) (size : Nat) : List Nat → Nat
  | [] => 0
  | header :: rest =>
    if isFreeOf memory header ≠ 0 ∧ size ≤ sizeOf memory header then header else firstFit memory size rest

theorem firstFit_cases (memory : Memory) (size : Nat) :
    ∀ nodes : List Nat, firstFit memory size nodes = 0 ∨
      (firstFit memory size nodes ∈ nodes ∧ isFreeOf memory (firstFit memory size nodes) ≠ 0)
  | [] => .inl rfl
  | header :: rest => by
    rw [firstFit]
    split_ifs with fit
    · exact .inr ⟨List.mem_cons_self _ _, fit.1⟩
    · exact (firstFit_cases memory size rest).imp_right fun ⟨member, free⟩ => ⟨List.mem_cons_of_mem _ member, free⟩

/-- A nonzero first fit splits the list at it: it fits, and no header before it does. -/
theorem firstFit_split (memory : Memory) (size : Nat) :
    ∀ {nodes : List Nat}, firstFit memory size nodes ≠ 0 → ∃ pre rest,
      nodes = pre ++ firstFit memory size nodes :: rest ∧
      (isFreeOf memory (firstFit memory size nodes) ≠ 0 ∧ size ≤ sizeOf memory (firstFit memory size nodes)) ∧
      ∀ header ∈ pre, ¬ (isFreeOf memory header ≠ 0 ∧ size ≤ sizeOf memory header)
  | [], nonzero => absurd rfl nonzero
  | header :: rest, nonzero => by
    rw [firstFit] at nonzero ⊢
    split_ifs with fit
    · exact ⟨[], rest, rfl, fit, fun _ member => by cases member⟩
    · rw [if_neg fit] at nonzero
      obtain ⟨pre, after, split, fits, before⟩ := firstFit_split memory size nonzero
      refine ⟨header :: pre, after, congrArg (List.cons header) split, fits, fun other member => ?_⟩
      rcases List.mem_cons.mp member with rfl | earlier
      · exact fit
      · exact before other earlier

/-- With no header `NULL`, a first fit of `0` means no header fits. -/
theorem firstFit_eq_zero (memory : Memory) (size : Nat) :
    ∀ {nodes : List Nat}, (∀ header ∈ nodes, header ≠ 0) → firstFit memory size nodes = 0 →
      ∀ header ∈ nodes, ¬ (isFreeOf memory header ≠ 0 ∧ size ≤ sizeOf memory header)
  | [], _, _ => fun _ member => by cases member
  | header :: rest, nonzero, noFit => by
    rw [firstFit] at noFit
    split_ifs at noFit with fit
    · exact absurd noFit (nonzero header (List.mem_cons_self _ _))
    · intro other member
      rcases List.mem_cons.mp member with rfl | later
      · exact fit
      · exact firstFit_eq_zero memory size (fun node member => nonzero node (List.mem_cons_of_mem _ member)) noFit
          other later

section Invariant

variable {s : State} {live nodes : List Nat}

/-- Before the first call: no header, no reservation, no block held. -/
theorem inv_empty (memory : Memory) : Inv ⟨0, 0, memory, []⟩ [] [] :=
  ⟨.null, rfl, List.nodup_nil, nofun, List.Pairwise.nil, nofun, nofun, nofun, List.nodup_nil⟩

/-- A nonzero `tail` is the last header of the list. -/
theorem Inv.tail_mem (inv : Inv s live nodes) (nonzero : s.tail ≠ 0) : s.tail ∈ nodes := by
  have last := List.getLastD_mem_cons nodes 0
  rw [← inv.tail] at last
  exact (List.mem_cons.mp last).resolve_left nonzero

/-- A nonzero `tail` links to `NULL`. -/
theorem Inv.next_tail (inv : Inv s live nodes) (nonzero : s.tail ≠ 0) : nextOf s.memory s.tail = 0 := by
  rcases List.eq_nil_or_concat nodes with none | ⟨pre, last, rfl⟩
  · rw [inv.tail, none] at nonzero
    exact absurd rfl nonzero
  · rw [List.concat_eq_append] at inv
    rw [inv.tail, List.getLastD_concat]
    exact inv.chain.next_last

/-- `head` is `NULL` exactly when `tail` is. -/
theorem Inv.head_eq_zero_iff (inv : Inv s live nodes) : s.head = 0 ↔ s.tail = 0 := by
  constructor
  · intro empty
    have chain := inv.chain
    rw [empty] at chain
    rw [inv.tail, chain.eq_nil]
    rfl
  · intro noTail
    by_contra started
    obtain ⟨rest, same, -⟩ := inv.chain.of_ne_zero started
    have last := List.getLastD_mem_cons rest s.head
    rw [← List.getLastD_cons, ← same, ← inv.tail, noTail] at last
    exact inv.chain.mem_ne_zero 0 last rfl

/-- Two live reservations that share a byte are one. -/
theorem Inv.region_eq (inv : Inv s live nodes) {region other : Region} (mapped : region ∈ s.regions)
    (otherMapped : other ∈ s.regions) {x : Nat} (inside : region.base ≤ x ∧ x < region.stop)
    (otherInside : other.base ≤ x ∧ x < other.stop) : region = other := by
  by_contra different
  have apart := inv.apart.forall (fun _ _ => Region.Apart.symm) mapped otherMapped different
  unfold Region.Apart at apart
  omega

/-- The headers of two different nodes share no byte. -/
theorem Inv.headers_apart (inv : Inv s live nodes) {header other : Nat} (node : header ∈ nodes)
    (otherNode : other ∈ nodes) (different : header ≠ other) :
    header + headerSize ≤ other ∨ other + headerSize ≤ header := by
  obtain ⟨length, longer, mapped⟩ := inv.own header node
  obtain ⟨otherLength, otherLonger, otherMapped⟩ := inv.own other otherNode
  have apart := inv.apart.forall (fun _ _ => Region.Apart.symm) mapped otherMapped
    fun same => different (congrArg Region.base same)
  unfold Region.Apart Region.stop at apart
  dsimp only at apart
  omega

theorem Inv.header_accessible (inv : Inv s live nodes) {header : Nat} (node : header ∈ nodes) :
    accessible s.regions header headerSize := by
  obtain ⟨length, longer, mapped⟩ := inv.own header node
  exact accessible_within mapped ⟨le_rfl, by unfold Region.stop; dsimp only; omega⟩

theorem Inv.ptr_ne_zero (inv : Inv s live nodes) {p : Nat} (held : p ∈ live) : p ≠ 0 := by
  have := (inv.held p held).1
  unfold headerSize at this
  omega

theorem Inv.length_le (inv : Inv s live nodes) : nodes.length ≤ s.regions.length := by
  have bases : nodes ⊆ s.regions.map Region.base := fun header node => by
    obtain ⟨length, -, mapped⟩ := inv.own header node
    exact List.mem_map.mpr ⟨_, mapped, rfl⟩
  simpa using (List.subperm_of_subset inv.nodup bases).length_le

/-- The invariant reads only the headers of the list: a memory that agrees on them keeps it. -/
theorem Inv.transport (inv : Inv s live nodes) {memory : Memory}
    (agree : ∀ header ∈ nodes, ∀ x, header ≤ x → x < header + headerSize → memory x = s.memory x) :
    Inv { s with memory := memory } live nodes := by
  have field : ∀ header ∈ nodes, ∀ {offset width : Nat}, offset + width ≤ headerSize →
      memory.load (header + offset) width = s.memory.load (header + offset) width := fun header node _ _ within =>
    Memory.load_congr fun x low high => agree header node x (by omega) (by omega)
  refine ⟨inv.chain.frame fun header node => field header node (by decide), inv.tail, inv.nodup, inv.own, inv.apart,
    inv.positive, fun header node => ?_, inv.held, inv.liveNodup⟩
  rw [← inv.flags header node]
  exact field header node (by decide)

/-- A change inside one reservation, past the header of a listed one, keeps the invariant. -/
theorem Inv.confined (inv : Inv s live nodes) {region : Region} (mapped : region ∈ s.regions) {memory : Memory}
    (confined : ∀ x, memory x ≠ s.memory x →
      region.base ≤ x ∧ x < region.stop ∧ (region.base ∈ nodes → region.base + headerSize ≤ x)) :
    Inv { s with memory := memory } live nodes := by
  refine inv.transport fun header node x low high => by_contra fun changed => ?_
  obtain ⟨inside, below, past⟩ := confined x changed
  obtain ⟨length, longer, own⟩ := inv.own header node
  have same := inv.region_eq mapped own ⟨inside, below⟩ ⟨low, by unfold Region.stop; dsimp only; omega⟩
  subst same
  have := past node
  dsimp only at this
  omega

/-- An access the reservations allow from a block's address stays in the block's reservation. -/
theorem Inv.block_access (inv : Inv s live nodes) {header : Nat} (node : header ∈ nodes) {length : Nat}
    (reach : accessible s.regions (header + headerSize) length) :
    ∃ reserved, (⟨header, reserved⟩ : Region) ∈ s.regions ∧ header + headerSize + length ≤ header + reserved := by
  obtain ⟨reserved, longer, own⟩ := inv.own header node
  refine ⟨reserved, own, ?_⟩
  by_cases empty : length = 0
  · omega
  obtain ⟨region, mapped, low, high⟩ := accessible_iff.mp reach
  have same := inv.region_eq mapped own ⟨low, by omega⟩ ⟨Nat.le_add_right _ _, by unfold Region.stop; dsimp only; omega⟩
  subst same
  exact high

/-- A change from a block's address on, inside the reservations, keeps the invariant. -/
theorem Inv.write_block (inv : Inv s live nodes) {header : Nat} (node : header ∈ nodes) {length : Nat}
    (reach : accessible s.regions (header + headerSize) length) {memory : Memory}
    (outside : ∀ x, x < header + headerSize ∨ header + headerSize + length ≤ x → memory x = s.memory x) :
    Inv { s with memory := memory } live nodes := by
  obtain ⟨reserved, own, high⟩ := inv.block_access node reach
  refine inv.confined own fun x changed => ?_
  have low : header + headerSize ≤ x := by by_contra below; exact changed (outside x (by omega))
  have below : x < header + headerSize + length := by by_contra above; exact changed (outside x (by omega))
  exact ⟨by dsimp only; omega, by unfold Region.stop; dsimp only; omega, fun _ => low⟩

/-- A store inside one header leaves the bytes of every other header as they were. -/
theorem Inv.load_store_apart (inv : Inv s live nodes) {header other : Nat} (node : header ∈ nodes)
    (otherNode : other ∈ nodes) (different : other ≠ header) {memory : Memory} {offset width value offset' width' : Nat}
    (inside : offset + width ≤ headerSize) (inside' : offset' + width' ≤ headerSize) :
    (memory.store (header + offset) width value).load (other + offset') width' = memory.load (other + offset') width' := by
  have := inv.headers_apart node otherNode (Ne.symm different)
  exact Memory.load_congr (Memory.store_agree (by omega))

/-- Setting one header's `is_free` as a new set of held blocks asks keeps the invariant. -/
theorem Inv.mark (inv : Inv s live nodes) {header : Nat} (node : header ∈ nodes) {live' : List Nat} {flag : Nat}
    (marked : flag = if header + headerSize ∈ live' then 0 else 1)
    (others : ∀ other ∈ nodes, other ≠ header → (other + headerSize ∈ live' ↔ other + headerSize ∈ live))
    (held : ∀ p ∈ live', headerSize ≤ p ∧ p - headerSize ∈ nodes) (liveNodup : live'.Nodup) :
    Inv { s with memory := s.memory.store (header + 8) 4 flag } live' nodes := by
  have untouched : ∀ other ∈ nodes, ∀ {offset width : Nat}, offset + width ≤ headerSize →
      (other = header → 12 ≤ offset) →
      (s.memory.store (header + 8) 4 flag).load (other + offset) width = s.memory.load (other + offset) width := by
    intro other otherNode offset width inside apart
    by_cases here : other = header
    · subst here
      exact Memory.load_congr (Memory.store_agree (.inl (by have := apart rfl; omega)))
    · exact inv.load_store_apart node otherNode here (by decide) inside
  refine ⟨inv.chain.frame fun other otherNode => untouched other otherNode (by decide) fun _ => by decide,
    inv.tail, inv.nodup, inv.own, inv.apart, inv.positive, fun other otherNode => ?_, held, liveNodup⟩
  unfold isFreeOf
  by_cases here : other = header
  · subst here
    rw [Memory.load_store_self, marked]
    split <;> rfl
  · rw [untouched other otherNode (by decide) (absurd · here), ← isFreeOf, inv.flags other otherNode]
    exact if_congr (others other otherNode here).symm rfl rfl

/-- A new reservation apart from the live ones keeps the invariant. -/
theorem Inv.extend (inv : Inv s live nodes) {region : Region} (apart : ∀ other ∈ s.regions, other.Apart region)
    (positive : 0 < region.length) : Inv { s with regions := region :: s.regions } live nodes :=
  ⟨inv.chain, inv.tail, inv.nodup,
    fun header node => (inv.own header node).imp fun _ ⟨longer, mapped⟩ => ⟨longer, List.mem_cons_of_mem _ mapped⟩,
    List.pairwise_cons.mpr ⟨fun other mapped => (apart other mapped).symm, inv.apart⟩,
    fun other mapped => (List.mem_cons.mp mapped).elim (fun same => same ▸ positive) (inv.positive other),
    inv.flags, inv.held, inv.liveNodup⟩

/-- A header starting a fresh reservation, in use with no `next`, goes behind the tail with its block held. -/
theorem Inv.snoc (inv : Inv s live nodes) {base length : Nat} (mapped : ⟨base, length⟩ ∈ s.regions)
    (longer : headerSize < length) (fresh : base ∉ nodes) (nonzero : base ≠ 0) (fits : base < sizeBound)
    (used : isFreeOf s.memory base = 0) (ends : nextOf s.memory base = 0) :
    Inv ⟨if s.head = 0 then base else s.head, base,
        if s.tail ≠ 0 then s.memory.store (s.tail + 16) 8 base else s.memory, s.regions⟩
      ((base + headerSize) :: live) (nodes ++ [base]) := by
  have apartBase : ∀ other ∈ nodes, other + headerSize ≤ base ∨ base + headerSize ≤ other := by
    intro other node
    obtain ⟨otherLength, otherLonger, otherMapped⟩ := inv.own other node
    have apart := inv.apart.forall (fun _ _ => Region.Apart.symm) otherMapped mapped fun same => by
      have moved := congrArg Region.base same
      dsimp only at moved
      exact fresh (moved ▸ node)
    unfold Region.Apart Region.stop at apart
    dsimp only at apart
    omega
  have baseBytes : s.tail ≠ 0 → ∀ {offset width : Nat}, offset + width ≤ headerSize →
      (s.memory.store (s.tail + 16) 8 base).load (base + offset) width = s.memory.load (base + offset) width := by
    intro linked offset width inside
    have := apartBase s.tail (inv.tail_mem linked)
    exact Memory.load_congr (Memory.store_agree (by unfold headerSize at *; omega))
  have nodeBytes : s.tail ≠ 0 → ∀ other ∈ nodes, ∀ {offset width : Nat}, offset + width ≤ headerSize →
      (other = s.tail → offset + width ≤ 16) →
      (s.memory.store (s.tail + 16) 8 base).load (other + offset) width = s.memory.load (other + offset) width := by
    intro linked other node offset width inside last
    by_cases here : other = s.tail
    · exact Memory.load_congr (Memory.store_agree (.inr (by have := last here; omega)))
    · exact inv.load_store_apart (inv.tail_mem linked) node here (by decide) inside
  have chain : Chain (nextOf (if s.tail ≠ 0 then s.memory.store (s.tail + 16) 8 base else s.memory))
      (if s.head = 0 then base else s.head) (nodes ++ [base]) := by
    by_cases empty : s.head = 0
    · have none := (empty ▸ inv.chain).eq_nil
      rw [if_pos empty, none, if_neg (not_not.mpr (inv.head_eq_zero_iff.mp empty))]
      exact .link nonzero (by rw [ends]; exact .null)
    rw [if_neg empty]
    rcases List.eq_nil_or_concat nodes with none | ⟨pre, last, rfl⟩
    · exact absurd (none ▸ inv.chain).head_mem (by simp [empty])
    rw [List.concat_eq_append] at inv fresh nodeBytes ⊢
    have isLast : s.tail = last := by rw [inv.tail, List.getLastD_concat]
    have linked : s.tail ≠ 0 := isLast ▸ inv.chain.mem_ne_zero last (by simp)
    rw [if_pos linked, List.append_assoc]
    refine Chain.snoc ?_ nonzero ?_ inv.chain fun other member => ?_
    · unfold nextOf
      rw [← isLast, Memory.load_store_self, Nat.mod_eq_of_lt (by unfold sizeBound at fits; omega)]
    · unfold nextOf
      rw [baseBytes linked (by decide), ← nextOf, ends]
    · have notLast : other ≠ s.tail := fun same => by
        rw [isLast] at same
        exact (List.nodup_append.mp inv.nodup).2.2 member (List.mem_singleton.mpr same)
      exact nodeBytes linked other (List.mem_append_left _ member) (by decide) (absurd · notLast)
  have flagsKept : ∀ header ∈ nodes ++ [base],
      isFreeOf (if s.tail ≠ 0 then s.memory.store (s.tail + 16) 8 base else s.memory) header =
        isFreeOf s.memory header := by
    intro header node
    unfold isFreeOf
    split
    · rcases List.mem_append.mp node with old | new
      · exact nodeBytes ‹_› header old (by decide) fun _ => by decide
      · obtain rfl := List.mem_singleton.mp new
        exact baseBytes ‹_› (by decide)
    · rfl
  refine ⟨chain, by rw [List.getLastD_concat], ?_, fun header node => ?_, inv.apart, inv.positive,
    fun header node => ?_, fun p member => ?_, List.nodup_cons.mpr ⟨fun member => ?_, inv.liveNodup⟩⟩
  · rw [← List.concat_eq_append]
    exact inv.nodup.concat fresh
  · rcases List.mem_append.mp node with old | new
    · exact inv.own header old
    · obtain rfl := List.mem_singleton.mp new
      exact ⟨length, longer, mapped⟩
  · show isFreeOf _ header = _
    rw [flagsKept header node]
    rcases List.mem_append.mp node with old | new
    · have different : header ≠ base := fun same => fresh (same ▸ old)
      rw [inv.flags header old]
      simp only [List.mem_cons, Nat.add_right_cancel_iff, different, false_or]
    · obtain rfl := List.mem_singleton.mp new
      rw [used, if_pos (List.mem_cons_self _ _)]
  · rcases List.mem_cons.mp member with rfl | old
    · exact ⟨Nat.le_add_left _ _, by rw [Nat.add_sub_cancel]; simp⟩
    · exact (inv.held p old).imp_right (List.mem_append_left _)
  · have := (inv.held _ member).2
    rw [Nat.add_sub_cancel] at this
    exact fresh this

/-- Cutting the tail off the list, as `free` of its block does, keeps the invariant. -/
theorem Inv.dropTail {pre : List Nat} {block last : Nat} (inv : Inv s live (pre ++ [block, last])) :
    Inv ⟨s.head, block, s.memory.store (block + 16) 8 0, s.regions.filter fun region => region.base ≠ last⟩
      (freed (last + headerSize) live) (pre ++ [block]) := by
  have sublist : (pre ++ [block]).Sublist (pre ++ [block, last]) := by
    rw [show pre ++ [block, last] = pre ++ [block] ++ [last] by simp]
    exact List.sublist_append_left _ _
  have kept : ∀ {header}, header ∈ pre ++ [block] → header ≠ last := fun node same => by
    rw [show pre ++ [block, last] = pre ++ [block] ++ [last] by simp] at inv
    exact (List.nodup_append.mp inv.nodup).2.2 node (List.mem_singleton.mpr same)
  have bytes : ∀ other ∈ pre ++ [block], ∀ {offset width : Nat}, offset + width ≤ headerSize →
      (other = block → offset + width ≤ 16) →
      (s.memory.store (block + 16) 8 0).load (other + offset) width = s.memory.load (other + offset) width := by
    intro other node offset width inside same
    by_cases here : other = block
    · exact Memory.load_congr (Memory.store_agree (.inr (by have := same here; omega)))
    · exact inv.load_store_apart (by simp) (sublist.subset node) here (by decide) inside
  refine ⟨?_, by rw [List.getLastD_concat], inv.nodup.sublist sublist, fun header node => ?_,
    inv.apart.sublist (List.filter_sublist _), fun region mapped => inv.positive region (List.mem_of_mem_filter mapped),
    fun header node => ?_, fun p member => ?_, inv.liveNodup.filter _⟩
  · refine Chain.dropLast ?_ inv.chain fun other member => ?_
    · unfold nextOf
      rw [Memory.load_store_self, Nat.zero_mod]
    · exact bytes other (List.mem_append_left _ member) (by decide) fun same =>
        absurd (List.mem_singleton.mpr same) ((List.nodup_append.mp (inv.nodup.sublist sublist)).2.2 member)
  · obtain ⟨length, longer, mapped⟩ := inv.own header (sublist.subset node)
    exact ⟨length, longer, List.mem_filter.mpr ⟨mapped, by simpa using kept node⟩⟩
  · unfold isFreeOf
    rw [bytes header node (by decide) fun _ => by decide, ← isFreeOf, inv.flags header (sublist.subset node)]
    simp only [mem_freed, ne_eq, Nat.add_right_cancel_iff, kept node, not_false_eq_true, and_true]
  · obtain ⟨inLive, notLast⟩ := mem_freed.mp member
    obtain ⟨low, node⟩ := inv.held p inLive
    refine ⟨low, ?_⟩
    rw [show pre ++ [block, last] = pre ++ [block] ++ [last] by simp] at node
    rcases List.mem_append.mp node with kept | dropped
    · exact kept
    · exact absurd (by rw [← List.mem_singleton.mp dropped]; omega) notLast

/-- Emptying a list of one header, as `free` of its block does, keeps the invariant. -/
theorem Inv.clearLast {last : Nat} (inv : Inv s live [last]) :
    Inv ⟨0, 0, s.memory, s.regions.filter fun region => region.base ≠ last⟩ (freed (last + headerSize) live) [] := by
  have none : freed (last + headerSize) live = [] := List.eq_nil_iff_forall_not_mem.mpr fun p member => by
    obtain ⟨inLive, notLast⟩ := mem_freed.mp member
    obtain ⟨low, node⟩ := inv.held p inLive
    exact notLast (by rw [← List.mem_singleton.mp node]; omega)
  rw [none]
  exact ⟨.null, rfl, List.nodup_nil, nofun, inv.apart.sublist (List.filter_sublist _),
    fun region mapped => inv.positive region (List.mem_of_mem_filter mapped), nofun, nofun, List.nodup_nil⟩

theorem fits_ok {header size : Nat} (reach : accessible s.regions header headerSize) :
    fits size header s = .ok (decide (isFreeOf s.memory header ≠ 0 ∧ size ≤ sizeOf s.memory header), s) := by
  unfold fits
  rw [bind_of_ok (load_ok.mpr ⟨accessible_of_le reach (by omega) (by unfold headerSize; omega), rfl, rfl⟩)]
  by_cases free : s.memory.load (header + 8) 4 = 0
  · simp only [free, if_true, isFreeOf, ne_eq, not_true_eq_false, false_and, decide_False]
    rfl
  · rw [if_neg free, bind_of_ok (load_ok.mpr ⟨accessible_of_le reach le_rfl (by unfold headerSize; omega), rfl, rfl⟩)]
    simp only [isFreeOf, sizeOf, free, ne_eq, not_false_eq_true, true_and]
    rfl

/-- The walk of `get_free_block` from a header returns the first fit after it, given enough fuel. -/
theorem Inv.getFreeBlockFrom_ok (inv : Inv s live nodes) (size : Nat) {curr : Nat} {rest : List Nat}
    (chain : Chain (nextOf s.memory) curr rest) :
    (∀ header ∈ rest, header ∈ nodes) → ∀ {fuel}, rest.length < fuel →
      getFreeBlockFrom size fuel curr s = .ok (firstFit s.memory size rest, s) := by
  induction chain with
  | null =>
    intro _ fuel positive
    obtain ⟨fuel, rfl⟩ : ∃ f, fuel = f + 1 := ⟨fuel - 1, by omega⟩
    rfl
  | link nonzero rest ih =>
    rename_i header later
    intro onList fuel enough
    obtain ⟨fuel, rfl⟩ : ∃ f, fuel = f + 1 := ⟨fuel - 1, by omega⟩
    have node := onList header (List.mem_cons_self _ _)
    rw [getFreeBlockFrom, if_neg nonzero, bind_of_ok (fits_ok (inv.header_accessible node)), firstFit]
    by_cases fit : isFreeOf s.memory header ≠ 0 ∧ size ≤ sizeOf s.memory header
    · rw [decide_eq_true fit, if_pos rfl, if_pos fit]
      rfl
    · rw [decide_eq_false fit, if_neg Bool.false_ne_true, if_neg fit, bind_of_ok (load_ok.mpr ⟨accessible_of_le (inv.header_accessible node) (by omega)
        (by unfold headerSize; omega), rfl, rfl⟩)]
      exact ih (fun other member => onList other (List.mem_cons_of_mem _ member))
        (by simp only [List.length_cons] at enough; omega)

theorem Inv.getFreeBlock_ok (inv : Inv s live nodes) (size : Nat) :
    getFreeBlock size s = .ok (firstFit s.memory size nodes, s) := by
  rw [getFreeBlock, bind_of_ok (get_ok.mpr ⟨rfl, rfl⟩)]
  exact inv.getFreeBlockFrom_ok size inv.chain (fun _ => id) (by have := inv.length_le; omega)

/-- The walk of `free` finds the tail's predecessor `block` and makes it the tail. -/
theorem Inv.unlinkTail_ok (inv : Inv s live nodes) {block last : Nat} :
    ∀ {pre : List Nat} {tmp fuel : Nat}, Chain (nextOf s.memory) tmp (pre ++ [block, last]) →
      (pre ++ [block, last]).Nodup → (∀ header ∈ pre ++ [block], header ∈ nodes) → pre.length + 1 < fuel →
      unlinkTail last fuel tmp s = .ok ((), { s with memory := s.memory.store (block + 16) 8 0, tail := block })
  | [], tmp, fuel, chain, nodup, onList, enough => by
    obtain ⟨fuel, rfl⟩ : ∃ f, fuel = f + 1 := ⟨fuel - 1, by omega⟩
    obtain rfl := chain.head_eq
    have reach := inv.header_accessible (onList tmp (List.mem_singleton_self _))
    have linked : nextOf s.memory tmp = last := @Chain.next_of_append (nextOf s.memory) tmp [] [] tmp last chain
    rw [unlinkTail, if_neg (chain.mem_ne_zero tmp (List.mem_cons_self _ _)),
      bind_of_ok (load_ok.mpr ⟨accessible_of_le reach (by omega) (by unfold headerSize; omega), rfl, rfl⟩),
      if_pos (show s.memory.load (tmp + 16) 8 = last from linked), bind_of_ok (store_ok.mpr ⟨accessible_of_le reach (by omega) (by unfold headerSize; omega), rfl⟩ :
        store (tmp + 16) 8 0 s = .ok ((), _))]
    rfl
  | y :: pre, tmp, fuel, chain, nodup, onList, enough => by
    obtain ⟨fuel, rfl⟩ : ∃ f, fuel = f + 1 := ⟨fuel - 1, by omega⟩
    obtain rfl := chain.head_eq
    have reach := inv.header_accessible (onList tmp (List.mem_cons_self _ _))
    have nonzero := chain.mem_ne_zero tmp (List.mem_cons_self _ _)
    obtain ⟨rest, same, restChain⟩ := chain.of_ne_zero nonzero
    obtain ⟨-, rfl⟩ := List.cons_eq_cons.mp same
    have later := (List.nodup_cons.mp nodup).2
    have notLast : s.memory.load (tmp + 16) 8 ≠ last := by
      intro linked
      change nextOf s.memory tmp = last at linked
      rw [linked] at restChain
      cases pre with
      | nil => exact (List.nodup_cons.mp later).1 (by rw [restChain.head_eq]; exact List.mem_singleton_self _)
      | cons w pre => exact (List.nodup_cons.mp later).1 (by rw [← restChain.head_eq]; simp)
    rw [unlinkTail, if_neg nonzero,
      bind_of_ok (load_ok.mpr ⟨accessible_of_le reach (by omega) (by unfold headerSize; omega), rfl, rfl⟩),
      if_neg notLast, bind_of_ok (load_ok.mpr ⟨accessible_of_le reach (by omega) (by unfold headerSize; omega), rfl, rfl⟩)]
    exact inv.unlinkTail_ok restChain later (fun header member => onList header (List.mem_cons_of_mem _ member))
      (by simp only [List.length_cons] at enough; omega)

end Invariant

end MemoryAllocator.Memalloc
