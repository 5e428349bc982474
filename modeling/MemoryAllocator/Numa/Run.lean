import MemoryAllocator.Numa.Init

namespace MemoryAllocator.Numa

/-- The allocator's state, the blocks clients hold, and the blocks refills have carved. -/
structure Sys where
  state : State
  live : List Live
  carved : List Nat

/-- A pointer a client may free on `thread`: `NULL` or a held block, `thread`'s when `sameThread` holds. -/
def Passable (sameThread : Bool) (live : List Live) (thread ptr : Nat) : Prop :=
  ptr = 0 ∨ ∃ x ∈ live, x.ptr = ptr ∧ (sameThread = true → x.thread = thread)

/-- What a step is: a call and the thread making it, or a store through the block at `ptr`. -/
inductive Action
  | numalloc (thread : Nat)
  | calloc (thread : Nat)
  | realloc (thread ptr : Nat)
  | free (thread ptr : Nat)
  | write (ptr : Nat)
deriving DecidableEq, Repr

/-- The thread whose call the step is; a client's store is no call. -/
def Action.caller : Action → Option Nat
  | .numalloc thread | .calloc thread | .realloc thread _ | .free thread _ => some thread
  | .write _ => none

/-- One call of a thread with the platform's answers `env`, or a store inside a held block. -/
inductive Step (sameThread : Bool) : Sys → Action → Sys → Prop
  | numalloc {sys : Sys} {thread : Nat} {env : Env} {size p : Nat} {s' : State} :
      numalloc thread env size sys.state = .ok (p, s') →
      Step sameThread sys (.numalloc thread) ⟨s', allocated thread p sys.live, carvedBetween sys.state s' ++ sys.carved⟩
  | calloc {sys : Sys} {thread : Nat} {env : Env} {num size p : Nat} {s' : State} :
      numallocCalloc thread env num size sys.state = .ok (p, s') →
      Step sameThread sys (.calloc thread) ⟨s', allocated thread p sys.live, carvedBetween sys.state s' ++ sys.carved⟩
  | realloc {sys : Sys} {thread : Nat} {env : Env} {ptr size p : Nat} {s' : State} :
      Passable sameThread sys.live thread ptr → numallocRealloc thread env ptr size sys.state = .ok (p, s') →
      Step sameThread sys (.realloc thread ptr)
        ⟨s', reallocated thread ptr size p sys.live, carvedBetween sys.state s' ++ sys.carved⟩
  | free {sys : Sys} {thread : Nat} {env : Env} {ptr : Nat} {s' : State} :
      Passable sameThread sys.live thread ptr → numallocFree thread env ptr sys.state = .ok ((), s') →
      Step sameThread sys (.free thread ptr) ⟨s', freed ptr sys.live, sys.carved⟩
  | write {sys : Sys} {x : Live} {address length : Nat} {data : Nat → Nat} {s' : State} :
      x ∈ sys.live → x.ptr ≤ address → address + length ≤ x.ptr + capacity sys.state.memory x.ptr →
      write address length data sys.state = .ok ((), s') → Step sameThread sys (.write x.ptr) ⟨s', sys.live, sys.carved⟩

/-- The runs from the first `numalloc_init`; with `sameThread`, blocks go back to their threads. -/
inductive Reachable (sameThread : Bool) : Sys → Prop
  | init {s₀ s : State} {platform : Platform} {poolSize : Nat} :
      Pristine s₀ → numallocInit platform poolSize s₀ = .ok (0, s) → Reachable sameThread ⟨s, [], []⟩
  | step {sys sys' : Sys} {action : Action} : Reachable sameThread sys → Step sameThread sys action sys' →
      Reachable sameThread sys'

/-- `p` is on `thread`'s free list of `sizeClass`: the links from the head reach it. -/
def OnFreeList (s : State) (thread : Nat) (sizeClass : Fin 8) (p : Nat) : Prop :=
  ∃ arena blocks, s.arenas thread = some arena ∧ Chain (linkOf s.memory) (arena.freeLists sizeClass) blocks ∧
    p ∈ blocks

section Invariant

variable {s : State} {live : List Live} {heap : Heap}

/-- The free lists in memory are the heap's. -/
theorem Inv.onFreeList_iff (inv : Inv s live heap) {thread : Nat} {sizeClass : Fin 8} {p : Nat} :
    OnFreeList s thread sizeClass p ↔ p ∈ heap.lists thread sizeClass := by
  constructor
  · rintro ⟨arena, blocks, found, chain, member⟩
    rwa [chain.unique (inv.chains thread arena found sizeClass)] at member
  · intro listed
    rcases found : s.arenas thread with _ | arena
    · rw [inv.unused thread found sizeClass] at listed
      cases listed
    · exact ⟨arena, _, found, inv.chains thread arena found sizeClass, listed⟩

theorem Inv.live_unique (inv : Inv s live heap) {x y : Live} (member : x ∈ live) (other : y ∈ live)
    (same : x.ptr = y.ptr) : x = y :=
  List.inj_on_of_nodup_map inv.liveNodup member other same

/-- A pointer passed by its holder's thread is no other thread's. -/
theorem Passable.owned {sameThread : Bool} {thread ptr : Nat} (passable : Passable sameThread live thread ptr)
    (inv : Inv s live heap) (same : sameThread = true) : ∀ x ∈ live, x.ptr = ptr → x.thread = thread := by
  intro x member pointer
  rcases passable with rfl | ⟨y, other, rfl, taken⟩
  · exact absurd pointer (inv.ptr_ne_zero member)
  · rw [inv.live_unique member other pointer]
    exact taken same

theorem Passable.held {sameThread : Bool} {thread ptr : Nat} (passable : Passable sameThread live thread ptr) :
    ptr = 0 ∨ ∃ x ∈ live, x.ptr = ptr :=
  passable.imp_right fun ⟨x, member, pointer, _⟩ => ⟨x, member, pointer⟩

end Invariant

/-- What a run keeps: a heap for the state, whose blocks are the carved ones. -/
def Sys.Sound (sameThread : Bool) (sys : Sys) (heap : Heap) : Prop :=
  Inv sys.state sys.live heap ∧ heap.blocks.map Block.ptr = sys.carved ∧
    (sameThread = true → Settled sys.state sys.live heap)

theorem Kept.sound {s s' : State} {live live' : List Live} {heap heap' : Heap} {owned : Prop} {sameThread : Bool}
    {carved : List Nat} (kept : Kept s s' live live' heap heap' owned) (sound : Sys.Sound sameThread ⟨s, live, carved⟩ heap)
    (owns : sameThread = true → owned) :
    Sys.Sound sameThread ⟨s', live', carvedBetween s s' ++ carved⟩ heap' ∧ heap.blocks ⊆ heap'.blocks := by
  obtain ⟨fresh, blocks, pointers⟩ := kept.carved
  refine ⟨⟨kept.inv, ?_, fun same => kept.settled (sound.2.2 same) (owns same)⟩, ?_⟩
  · rw [blocks, List.map_append, pointers, sound.2.1]
  · rw [blocks]
    exact List.subset_append_right _ _

/-- One step of a run keeps the invariant, with the carved blocks kept. -/
theorem Step.sound {sameThread : Bool} {sys sys' : Sys} {action : Action} (step : Step sameThread sys action sys') {heap : Heap}
    (sound : sys.Sound sameThread heap) : ∃ heap', sys'.Sound sameThread heap' ∧ heap.blocks ⊆ heap'.blocks := by
  obtain ⟨inv, carved, settled⟩ := sound
  cases step with
  | numalloc h =>
    obtain ⟨heap', done⟩ := inv.numalloc h
    exact ⟨heap', (done.kept True).sound ⟨inv, carved, settled⟩ fun _ => trivial⟩
  | calloc h =>
    obtain ⟨heap', done⟩ := inv.numallocCalloc h
    exact ⟨heap', (done.kept True).sound ⟨inv, carved, settled⟩ fun _ => trivial⟩
  | realloc passable h =>
    obtain ⟨heap', done⟩ := inv.numallocRealloc passable.held h
    exact ⟨heap', done.sound ⟨inv, carved, settled⟩ (passable.owned inv)⟩
  | free passable h =>
    obtain ⟨heap', done⟩ := inv.numallocFree passable.held h
    refine ⟨heap', ⟨done.inv, by rw [done.blocks]; exact carved,
      fun same => done.settled (settled same) (passable.owned inv same)⟩, ?_⟩
    rw [done.blocks]
    exact List.Subset.refl _
  | write member low high h =>
    obtain ⟨written, arenas, -⟩ := inv.write member low high h
    exact ⟨heap, ⟨written, carved, fun same => (settled same).congr arenas⟩, List.Subset.refl _⟩

/-- Every reachable state keeps the invariant. -/
theorem Reachable.sound {sameThread : Bool} {sys : Sys} (reach : Reachable sameThread sys) :
    ∃ heap, sys.Sound sameThread heap := by
  induction reach with
  | init pristine h =>
    obtain ⟨inv, settled⟩ := pristine.numallocInit h
    exact ⟨_, inv, rfl, fun _ => settled⟩
  | step _ step ih =>
    obtain ⟨heap, sound⟩ := ih
    obtain ⟨heap', sound', -⟩ := step.sound sound
    exact ⟨heap', sound'⟩

end MemoryAllocator.Numa
