import Mathlib.Control.Basic

namespace MemoryAllocator

section Call

variable {σ ε α β : Type} {s s' : σ}

theorem bind_ok {x : StateT σ (Except ε) α} {f : α → StateT σ (Except ε) β} {r : β} :
    (x >>= f) s = .ok (r, s') ↔ ∃ a s₁, x s = .ok (a, s₁) ∧ f a s₁ = .ok (r, s') := by
  show (x s >>= fun p => f p.1 p.2) = _ ↔ _
  rcases x s with e | ⟨a, s₁⟩
  · simp [bind, Except.bind]
  · exact ⟨fun h => ⟨a, s₁, rfl, h⟩, fun ⟨_, _, same, h⟩ => by cases same; exact h⟩

theorem pure_ok {a r : α} : (pure a : StateT σ (Except ε) α) s = .ok (r, s') ↔ a = r ∧ s = s' := by
  simp [pure, StateT.pure, Except.pure]

theorem get_ok {r : σ} : (get : StateT σ (Except ε) σ) s = .ok (r, s') ↔ r = s ∧ s' = s := by
  simp [get, getThe, MonadStateOf.get, StateT.get, pure, Except.pure, eq_comm]

theorem modify_ok {f : σ → σ} {u : Unit} : (modify f : StateT σ (Except ε) Unit) s = .ok (u, s') ↔ s' = f s := by
  simp [modify, modifyGet, MonadStateOf.modifyGet, StateT.modifyGet, pure, Except.pure, eq_comm]

theorem throw_not_ok {e : ε} {r : α} : (throw e : StateT σ (Except ε) α) s ≠ .ok (r, s') := by
  simp [throw, throwThe, MonadExceptOf.throw, StateT.lift, bind, Except.bind, Except.pure]

theorem bind_of_error {x : StateT σ (Except ε) α} {f : α → StateT σ (Except ε) β} {e : ε} (first : x s = .error e) :
    (x >>= f) s = .error e := by
  show (x s >>= fun p => f p.1 p.2) = _
  rw [first]
  rfl

theorem bind_of_ok {x : StateT σ (Except ε) α} {f : α → StateT σ (Except ε) β} {a : α} {s₁ : σ} (first : x s = .ok (a, s₁)) :
    (x >>= f) s = f a s₁ := by
  show (x s >>= fun p => f p.1 p.2) = _
  rw [first]
  rfl

/-- A call whose result, read through `Except.toOption`, is `r` returns `r` in some state. -/
theorem ok_of_toOption {x : Except ε (α × σ)} {r : α} (returned : x.toOption.map Prod.fst = some r) :
    ∃ s', x = .ok (r, s') := by
  rcases x with e | ⟨a, s'⟩
  · cases returned
  · obtain rfl : a = r := Option.some.inj returned
    exact ⟨s', rfl⟩

end Call

end MemoryAllocator
