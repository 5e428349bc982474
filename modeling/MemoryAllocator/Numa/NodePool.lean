import MemoryAllocator.Numa.SizeClass

namespace MemoryAllocator.Numa

/-- `node_pool_t` without its mutex: each locked section of the code is one step of the model. -/
structure NodePool where
  nodeId : Int
  baseAddr : Nat
  totalSize : Nat
  used : Nat
deriving DecidableEq, Repr

/-- `(block_size + sizeof(block_header_t)) * REFILL_BATCH_SIZE`: the bytes one refill takes. -/
def batchBytes (sizeClass : Fin 8) : Nat := (sizeClassSizes sizeClass + headerSize) * refillBatchSize

/-- The locked section of `slow_path_alloc`: the batch's offset and the advanced pool, or no batch. -/
def reserveBatch (pool : NodePool) (sizeClass : Fin 8) : Option Nat × NodePool :=
  if sizeAdd pool.used (batchBytes sizeClass) > pool.totalSize then (none, pool)
  else (some pool.used, { pool with used := sizeAdd pool.used (batchBytes sizeClass) })

theorem batchBytes_le (sizeClass : Fin 8) : batchBytes sizeClass ≤ batchBytes 7 := by
  fin_cases sizeClass <;> decide

theorem sixteen_dvd_batchBytes (sizeClass : Fin 8) : 16 ∣ batchBytes sizeClass := by
  fin_cases sizeClass <;> decide

/-- A pool the platform can map leaves room for one more batch below `2^64`. -/
def NodePool.Fits (pool : NodePool) : Prop := pool.totalSize + batchBytes 7 < sizeBound

instance (pool : NodePool) : Decidable pool.Fits := inferInstanceAs (Decidable (_ < _))

/-- What one refill can do to a pool whose watermark is within it. -/
theorem reserveBatch_cases {pool : NodePool} (fits : pool.Fits) (within : pool.used ≤ pool.totalSize)
    (sizeClass : Fin 8) :
    (reserveBatch pool sizeClass = (none, pool) ∧ pool.totalSize < pool.used + batchBytes sizeClass) ∨
      (reserveBatch pool sizeClass =
          (some pool.used, { pool with used := pool.used + batchBytes sizeClass }) ∧
        pool.used + batchBytes sizeClass ≤ pool.totalSize) := by
  have bounded := batchBytes_le sizeClass
  have noWrap : sizeAdd pool.used (batchBytes sizeClass) = pool.used + batchBytes sizeClass :=
    sizeAdd_of_lt (by unfold NodePool.Fits at fits; omega)
  unfold reserveBatch
  rw [noWrap]
  split_ifs with exhausted
  · exact .inl ⟨rfl, exhausted⟩
  · exact .inr ⟨rfl, by omega⟩

/-- One refill as the lock admits it: the pool before, the class, the batch handed out, the pool after. -/
structure Refill where
  before : NodePool
  sizeClass : Fin 8
  batch : Option Nat
  after : NodePool

/-- Refills of one pool in the order the lock admits them, standing for any interleaving of threads. -/
def refillRun (pool : NodePool) : List (Fin 8) → List Refill
  | [] => []
  | sizeClass :: rest =>
    ⟨pool, sizeClass, (reserveBatch pool sizeClass).1, (reserveBatch pool sizeClass).2⟩ ::
      refillRun (reserveBatch pool sizeClass).2 rest

/-- The bytes `[offset, offset + batchBytes sizeClass)` of the pool a granted refill hands out. -/
def Refill.range (refill : Refill) : Option (Nat × Nat) :=
  refill.batch.map fun offset => (offset, offset + batchBytes refill.sizeClass)

/-- What each refill of a run does, for a pool that starts within its bounds. -/
structure Refill.Sound (start : NodePool) (refill : Refill) : Prop where
  after_start : start.used ≤ refill.before.used
  monotone : refill.before.used ≤ refill.after.used
  bounded : refill.after.used ≤ start.totalSize
  size : refill.after.totalSize = start.totalSize
  refused : refill.batch = none → refill.after = refill.before
  granted : ∀ offset ∈ refill.batch,
    offset = refill.before.used ∧ offset + batchBytes refill.sizeClass = refill.after.used

theorem refillRun_sound {pool : NodePool} (fits : pool.Fits) (within : pool.used ≤ pool.totalSize) :
    ∀ requests, ∀ refill ∈ refillRun pool requests, refill.Sound pool := by
  intro requests
  induction requests generalizing pool with
  | nil => simp [refillRun]
  | cons sizeClass rest inductionHypothesis =>
    intro refill member
    rcases reserveBatch_cases fits within sizeClass with ⟨step, short⟩ | ⟨step, room⟩
    all_goals
      simp only [refillRun, step, List.mem_cons] at member
      rcases member with rfl | later
    · exact ⟨le_rfl, le_rfl, within, rfl, fun _ => rfl, by simp⟩
    · exact inductionHypothesis fits within refill later
    · exact ⟨le_rfl, by simp, by simpa using room, rfl, by simp, by simp⟩
    · have next := @inductionHypothesis { pool with used := pool.used + batchBytes sizeClass }
        fits (by simpa using room) refill later
      exact ⟨by have := next.after_start; simp at this; omega, next.monotone, next.bounded,
        next.size, next.refused, next.granted⟩

/-- Later refills start where earlier ones ended. -/
theorem refillRun_ordered {pool : NodePool} (fits : pool.Fits) (within : pool.used ≤ pool.totalSize) :
    ∀ requests, (refillRun pool requests).Pairwise fun earlier later =>
      earlier.after.used ≤ later.before.used := by
  intro requests
  induction requests generalizing pool with
  | nil => simp [refillRun]
  | cons sizeClass rest inductionHypothesis =>
    have afterWithin : (reserveBatch pool sizeClass).2.used ≤ (reserveBatch pool sizeClass).2.totalSize := by
      rcases reserveBatch_cases fits within sizeClass with ⟨step, -⟩ | ⟨step, room⟩ <;> simp [step, *]
    have afterFits : (reserveBatch pool sizeClass).2.Fits := by
      rcases reserveBatch_cases fits within sizeClass with ⟨step, -⟩ | ⟨step, -⟩ <;>
        simpa [step, NodePool.Fits] using fits
    refine List.Pairwise.cons (fun later member => ?_) (inductionHypothesis afterFits afterWithin)
    exact (refillRun_sound afterFits afterWithin rest later member).after_start

/-- Any interleaving of refills of one pool hands out disjoint ranges inside it, never moving back. -/
theorem refillRun_safe (pool : NodePool) (empty : pool.used = 0) (fits : pool.Fits)
    (requests : List (Fin 8)) :
    let run := refillRun pool requests
    (pool.used :: run.map fun refill => refill.after.used).Sorted (· ≤ ·) ∧
      (∀ refill ∈ run, refill.after.used ≤ pool.totalSize) ∧
      (∀ refill ∈ run, refill.batch = none → refill.after.used = refill.before.used) ∧
      (∀ refill ∈ run, ∀ range ∈ refill.range, range.2 ≤ pool.totalSize) ∧
      (run.filterMap Refill.range).Pairwise fun range other => range.2 ≤ other.1 ∨ other.2 ≤ range.1 := by
  have within : pool.used ≤ pool.totalSize := by omega
  have sound := refillRun_sound fits within requests
  have ordered := refillRun_ordered fits within requests
  refine ⟨?_, fun refill member => (sound refill member).bounded,
    fun refill member refused => by rw [(sound refill member).refused refused], ?_, ?_⟩
  · refine List.sorted_cons.mpr ⟨fun used member => ?_, ?_⟩
    · obtain ⟨refill, inRun, rfl⟩ := List.mem_map.mp member
      exact le_trans (sound refill inRun).after_start (sound refill inRun).monotone
    · refine List.pairwise_map.mpr (ordered.imp_of_mem fun first second earlier => ?_)
      exact le_trans earlier (sound _ second).monotone
  · intro refill member range granted
    obtain ⟨offset, given, rfl⟩ := Option.mem_map.mp granted
    have := (sound refill member).granted offset given
    have := (sound refill member).bounded
    simp only
    omega
  · refine List.pairwise_filterMap.mpr (ordered.imp_of_mem fun first second earlier => ?_)
    intro range firstRange other secondRange
    obtain ⟨offset, given, rfl⟩ := Option.mem_map.mp firstRange
    obtain ⟨otherOffset, otherGiven, rfl⟩ := Option.mem_map.mp secondRange
    have := ((sound _ first).granted offset given).2
    have := ((sound _ second).granted otherOffset otherGiven).1
    left
    simp only
    omega

theorem refillRun_safe_small_pool :
    (⟨0, 4096, 200000, 0⟩ : NodePool).used = 0 ∧ (⟨0, 4096, 200000, 0⟩ : NodePool).Fits ∧
      let run := refillRun ⟨0, 4096, 200000, 0⟩ [7, 7, 0]
      ((⟨0, 4096, 200000, 0⟩ : NodePool).used :: run.map fun refill => refill.after.used).Sorted (· ≤ ·) ∧
        (∀ refill ∈ run, refill.after.used ≤ (⟨0, 4096, 200000, 0⟩ : NodePool).totalSize) ∧
        (∀ refill ∈ run, refill.batch = none → refill.after.used = refill.before.used) ∧
        (∀ refill ∈ run, ∀ range ∈ refill.range, range.2 ≤ (⟨0, 4096, 200000, 0⟩ : NodePool).totalSize) ∧
        (run.filterMap Refill.range).Pairwise fun range other => range.2 ≤ other.1 ∨ other.2 ≤ range.1 :=
  ⟨rfl, by decide, refillRun_safe _ rfl (by decide) [7, 7, 0]⟩

end MemoryAllocator.Numa
