import Constellation.Monad.Keeps

/-! # Programs that read only part of the state

Let `f : σ → σ` forget part of the state. A program commutes with `f` when running
it from `f s` gives what running it from `s` gives, with `f` applied to the state it
ends in. Such a program reads nothing that `f` forgets: from two states that `f`
identifies it returns the same. As with `Ensures`, this is proved along the program;
a read of the state must be followed by what depends only on what `f` keeps.
-/

namespace Constellation

variable {ε σ α β : Type}

/-- Applies `f` to the state a run ends in. -/
def mapState (f : σ → σ) : EStateM.Result ε σ α → EStateM.Result ε σ α
  | .ok a s => .ok a (f s)
  | .error e s => .error e (f s)

/-- What a run returns or throws. -/
def outcome : EStateM.Result ε σ α → Except ε α
  | .ok a _ => .ok a
  | .error e _ => .error e

/-- A run returns `a` exactly when it ends returning `a` in the state it ends in. -/
theorem outcome_eq_ok {r : EStateM.Result ε σ α} {a : α} :
    outcome r = .ok a ↔ r = .ok a (finalState r) := by
  cases r with
  | ok a' s =>
    simp only [outcome, finalState, Except.ok.injEq, EStateM.Result.ok.injEq, and_true]
  | error e s =>
    simp only [outcome, finalState, reduceCtorEq]

@[simp] theorem outcome_mapState (f : σ → σ) (r : EStateM.Result ε σ α) :
    outcome (mapState f r) = outcome r := by
  cases r <;> rfl

@[simp] theorem finalState_mapState (f : σ → σ) (r : EStateM.Result ε σ α) :
    finalState (mapState f r) = f (finalState r) := by
  cases r <;> rfl

/-- `x` commutes with `f`. -/
def Commutes (f : σ → σ) (x : EStateM ε σ α) : Prop :=
  ∀ s, x.run (f s) = mapState f (x.run s)

namespace Commutes

variable {f : σ → σ}

theorem pure (a : α) : Commutes f (Pure.pure a : EStateM ε σ α) := fun _ => rfl

theorem throw (e : ε) : Commutes f (MonadExcept.throw e : EStateM ε σ α) := fun _ => rfl

theorem bind {x : EStateM ε σ α} {g : α → EStateM ε σ β} (hx : Commutes f x)
    (hg : ∀ a, Commutes f (g a)) : Commutes f (x >>= g) := by
  intro s
  rw [EStateM.run_bind, EStateM.run_bind, hx s]
  cases x.run s with
  | ok a s' => exact hg a s'
  | error e s' => rfl

theorem modifyGet {h : σ → α × σ} (hh : ∀ s, h (f s) = ((h s).1, f (h s).2)) :
    Commutes f (MonadStateOf.modifyGet h : EStateM ε σ α) := by
  intro s
  show EStateM.Result.ok (h (f s)).1 (h (f s)).2 = mapState f (.ok (h s).1 (h s).2)
  rw [hh s]
  rfl

theorem modify {h : σ → σ} (hh : ∀ s, h (f s) = f (h s)) :
    Commutes f (MonadStateOf.modifyGet fun s => (PUnit.unit, h s) : EStateM ε σ PUnit) :=
  modifyGet fun s => by rw [hh s]

/-- A read of the state, followed by a program that depends only on what `f` keeps. -/
theorem get_bind {g : σ → EStateM ε σ α} (hg : ∀ s, g (f s) = g s)
    (hc : ∀ s, Commutes f (g s)) : Commutes f (MonadStateOf.get >>= g : EStateM ε σ α) := by
  intro s
  show (g (f s)).run (f s) = mapState f ((g s).run s)
  rw [hg s]
  exact hc s s

theorem ite {c : Prop} [Decidable c] {x y : EStateM ε σ α} (hx : c → Commutes f x)
    (hy : ¬ c → Commutes f y) : Commutes f (if c then x else y) := by
  split
  · exact hx ‹c›
  · exact hy ‹¬ c›

/-- A program that commutes with `f` keeps the states that `f` fixes. -/
theorem keeps_fixed {x : EStateM ε σ α} (hx : Commutes f x) : Keeps (fun s => f s = s) x := by
  intro s hs
  refine ⟨?_, fun _ _ _ => trivial⟩
  have h := hx s
  rw [hs] at h
  calc f (finalState (x.run s)) = finalState (mapState f (x.run s)) :=
        (finalState_mapState f _).symm
    _ = finalState (x.run s) := by rw [← h]

/-- From two states that `f` identifies, a program that commutes with `f` returns the
same. -/
theorem outcome_eq {x : EStateM ε σ α} (hx : Commutes f x) {s s' : σ} (h : f s = f s') :
    outcome (x.run s) = outcome (x.run s') := by
  rw [← outcome_mapState f, ← hx s, h, hx s', outcome_mapState]

end Commutes

end Constellation
