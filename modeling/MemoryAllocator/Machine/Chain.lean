import Mathlib.Data.List.Basic

namespace MemoryAllocator

/-- A `NULL`-terminated linked list: from `head`, each `next` is the following block. -/
inductive Chain (next : Nat → Nat) : Nat → List Nat → Prop
  | null : Chain next 0 []
  | link {block : Nat} {rest : List Nat} : block ≠ 0 → Chain next (next block) rest → Chain next block (block :: rest)

theorem Chain.of_ne_zero {next : Nat → Nat} {head : Nat} {blocks : List Nat} (chain : Chain next head blocks)
    (nonzero : head ≠ 0) : ∃ rest, blocks = head :: rest ∧ Chain next (next head) rest := by
  cases chain with
  | null => exact absurd rfl nonzero
  | link _ rest => exact ⟨_, rfl, rest⟩

theorem Chain.eq_nil {next : Nat → Nat} {blocks : List Nat} (chain : Chain next 0 blocks) : blocks = [] := by
  cases chain with
  | null => rfl
  | link nonzero _ => exact absurd rfl nonzero

/-- A chain survives any change of links outside its blocks. -/
theorem Chain.frame {next other : Nat → Nat} :
    ∀ {head : Nat} {blocks : List Nat}, Chain next head blocks →
      (∀ block ∈ blocks, other block = next block) → Chain other head blocks
  | _, _, .null, _ => .null
  | block, _, .link nonzero rest, agree => by
    refine .link nonzero ?_
    rw [agree block (by simp)]
    exact rest.frame fun later member => agree later (by simp [member])

theorem Chain.head_mem {next : Nat → Nat} {head : Nat} {blocks : List Nat} (chain : Chain next head blocks) :
    head = 0 ∨ head ∈ blocks := by
  cases chain with
  | null => exact .inl rfl
  | link _ _ => exact .inr (List.mem_cons_self _ _)

theorem Chain.unique {next : Nat → Nat} {head : Nat} {blocks other : List Nat} (chain : Chain next head blocks)
    (otherChain : Chain next head other) : blocks = other := by
  induction chain generalizing other with
  | null => exact otherChain.eq_nil.symm
  | link nonzero _ ih =>
    obtain ⟨rest, rfl, restChain⟩ := otherChain.of_ne_zero nonzero
    rw [ih restChain]

/-- A chain ending at `last` gets `block` after it: `last` links to `block`, and `block` ends it. -/
theorem Chain.snoc {next other : Nat → Nat} {last block : Nat} (linked : other last = block) (nonzero : block ≠ 0)
    (ends : other block = 0) :
    ∀ {head : Nat} {pre : List Nat}, Chain next head (pre ++ [last]) → (∀ y ∈ pre, other y = next y) →
      Chain other head (pre ++ [last, block])
  | _, [], .link lastNonzero _, _ => .link lastNonzero (by rw [linked]; exact .link nonzero (by rw [ends]; exact .null))
  | _, y :: pre, .link first rest, agree => .link first (by
      rw [agree y (List.mem_cons_self _ _)]
      exact Chain.snoc linked nonzero ends rest fun z member => agree z (List.mem_cons_of_mem _ member))

/-- A chain cut before its last block: the block before it ends it. -/
theorem Chain.dropLast {next other : Nat → Nat} {block last : Nat} (ends : other block = 0) :
    ∀ {head : Nat} {pre : List Nat}, Chain next head (pre ++ [block, last]) → (∀ y ∈ pre, other y = next y) →
      Chain other head (pre ++ [block])
  | _, [], .link nonzero _, _ => .link nonzero (by rw [ends]; exact .null)
  | _, y :: pre, .link first rest, agree => .link first (by
      rw [agree y (List.mem_cons_self _ _)]
      exact Chain.dropLast ends rest fun z member => agree z (List.mem_cons_of_mem _ member))

theorem Chain.mem_ne_zero {next : Nat → Nat} {head : Nat} {blocks : List Nat} (chain : Chain next head blocks) :
    ∀ block ∈ blocks, block ≠ 0 := by
  induction chain with
  | null => exact fun _ member => absurd member (List.not_mem_nil _)
  | link nonzero _ ih =>
    intro block member
    rcases List.mem_cons.mp member with rfl | later
    · exact nonzero
    · exact ih block later

theorem Chain.head_eq {next : Nat → Nat} {head block : Nat} {rest : List Nat} (chain : Chain next head (block :: rest)) :
    head = block := by
  cases chain
  rfl

/-- Each block of a chain links to the block after it. -/
theorem Chain.next_of_append {next : Nat → Nat} :
    ∀ {head : Nat} {pre rest : List Nat} {block after : Nat}, Chain next head (pre ++ block :: after :: rest) →
      next block = after
  | _, [], _, _, _, .link _ rest => rest.head_eq
  | _, _ :: _, _, _, _, .link _ rest => rest.next_of_append

theorem Chain.eq_zero_of_nil {next : Nat → Nat} {head : Nat} (chain : Chain next head []) : head = 0 := by
  cases chain
  rfl

/-- The last block of a chain links to `NULL`. -/
theorem Chain.next_last {next : Nat → Nat} {last : Nat} :
    ∀ {head : Nat} {pre : List Nat}, Chain next head (pre ++ [last]) → next last = 0
  | _, [], .link _ rest => rest.eq_zero_of_nil
  | _, _ :: _, .link _ rest => rest.next_last

end MemoryAllocator
