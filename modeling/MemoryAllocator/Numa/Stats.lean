import MemoryAllocator.Numa.Spec

namespace MemoryAllocator.Numa

variable {s s' : State}

/-- A `numalloc_free` of a large block leaves every arena, and so every counter, as it was. -/
theorem numallocFree_large_uncounted {thread : Nat} {env : Env} {ptr : Nat}
    (large : int32OfBits (s.memory.load (ptr - headerSize + 8) 4) < 0)
    (h : numallocFree thread env ptr s = .ok ((), s')) :
    s'.arenas = s.arenas ∧ ∀ other, numallocGetThreadStats other s' = numallocGetThreadStats other s := by
  have kept : s'.arenas = s.arenas := by
    rcases numallocFree_cases h with ⟨-, rfl⟩ | ⟨-, -, ⟨-, freed⟩ | ⟨small, -⟩ | ⟨_, _, slot, -, same, -⟩⟩
    · rfl
    · rcases freeLargeBlock_cases freed with ⟨-, rfl⟩ | ⟨-, -, rfl⟩ <;> rfl
    · omega
    · omega
  exact ⟨kept, fun other => by rw [numallocGetThreadStats, numallocGetThreadStats, kept]⟩

/-- A 4096-byte large block taken and freed counts one allocation and no free. -/
theorem numallocFree_large_uncounted_one_page :
    let platform : Platform := ⟨true, true, 0, 1, 1, true, fun _ => 0, fun _ => true, fun _ => some 1048576⟩
    let env : Env := ⟨0, true, none, some 4194304⟩
    let s : State := ⟨some ⟨1, 1, [0]⟩, Function.update (fun _ => none) 0 (some ⟨0, 1048576, 65536, 0⟩), true,
      Function.update (fun _ => none) 0 (some ⟨0, fun _ => 0, 1, 0⟩),
      largeMemory (Memory.fill (fun _ => 0) 1048576 65536 0) 4194304 4112 0, [⟨4194304, 8192⟩, ⟨1048576, 65536⟩]⟩
    ((numallocInit platform 65536 >>= fun _ => numalloc 0 env 4096)
        ⟨none, fun _ => none, false, fun _ => none, fun _ => 0, []⟩).toOption.map
          (fun run => (run.1, numallocGetThreadStats 0 run.2, run.2.regions, run.2.memory.load 4194312 4)) =
      some (4194320, (1, 0), s.regions, s.memory.load 4194312 4) ∧
      int32OfBits (s.memory.load (4194320 - headerSize + 8) 4) < 0 ∧
      ∃ s', numallocFree 0 env 4194320 s = .ok ((), s') ∧ numallocGetThreadStats 0 s' = (1, 0) := by
  intro platform env s
  obtain ⟨s', free⟩ : ∃ s', numallocFree 0 env 4194320 s = .ok ((), s') := by
    have ran : (numallocFree 0 env 4194320 s).toOption.isSome = true := by decide
    rcases done : numallocFree 0 env 4194320 s with _ | ⟨⟨⟩, s'⟩
    · rw [done] at ran
      cases ran
    · exact ⟨s', rfl⟩
  have large : int32OfBits (s.memory.load (4194320 - headerSize + 8) 4) < 0 := by decide
  exact ⟨by decide, large, s', free, ((numallocFree_large_uncounted large free).2 0).trans (by decide)⟩

end MemoryAllocator.Numa
