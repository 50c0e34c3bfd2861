import Mathlib

/-! # Invariants of state-monad programs

A program of `EStateM ε σ` ensures `I` and `Q` when, started in a state that
satisfies the invariant `I`, it ends in one, by a normal return or by an error,
and what it returns normally satisfies `Q`. This is proved along the program:
`pure`, `modifyGet`, `bind`, a branch, and a read of the state followed by what
depends on it.
-/

namespace Constellation

variable {ε σ α β : Type}

/-- The state a run ends in. -/
def finalState : EStateM.Result ε σ α → σ
  | .ok _ s => s
  | .error _ s => s

/-- `x` keeps `I`, and what it returns satisfies `Q`. -/
def Ensures (I : σ → Prop) (Q : α → Prop) (x : EStateM ε σ α) : Prop :=
  ∀ s, I s → I (finalState (x.run s)) ∧ ∀ a s', x.run s = .ok a s' → Q a

/-- `x` keeps `I`. -/
abbrev Keeps (I : σ → Prop) (x : EStateM ε σ α) : Prop := Ensures I (fun _ => True) x

namespace Ensures

variable {I : σ → Prop} {Q : α → Prop} {R : β → Prop}

theorem pure {a : α} (h : Q a) : Ensures I Q (Pure.pure a : EStateM ε σ α) := by
  intro s hs
  refine ⟨hs, fun a' s' he => ?_⟩
  cases he
  exact h

theorem throw (e : ε) : Ensures I Q (MonadExcept.throw e : EStateM ε σ α) :=
  fun _ hs => ⟨hs, fun _ _ he => by cases he⟩

theorem bind {x : EStateM ε σ α} {f : α → EStateM ε σ β} (hx : Ensures I Q x)
    (hf : ∀ a, Q a → Ensures I R (f a)) : Ensures I R (x >>= f) := by
  intro s hs
  obtain ⟨hs', hq⟩ := hx s hs
  rw [EStateM.run_bind]
  cases hr : x.run s with
  | ok a s' =>
    rw [hr] at hs'
    exact hf a (hq a s' hr) s' hs'
  | error e s' =>
    rw [hr] at hs'
    exact ⟨hs', fun _ _ he => by cases he⟩

theorem modifyGet {f : σ → α × σ} (hf : ∀ s, I s → I (f s).2 ∧ Q (f s).1) :
    Ensures I Q (MonadStateOf.modifyGet f : EStateM ε σ α) := by
  intro s hs
  refine ⟨(hf s hs).1, fun a s' he => ?_⟩
  cases he
  exact (hf s hs).2

theorem get_bind {f : σ → EStateM ε σ α} (hf : ∀ s, I s → Ensures I Q (f s)) :
    Ensures I Q (MonadStateOf.get >>= f : EStateM ε σ α) := fun s hs => hf s hs s hs

theorem ite {c : Prop} [Decidable c] {x y : EStateM ε σ α} (hx : c → Ensures I Q x)
    (hy : ¬ c → Ensures I Q y) : Ensures I Q (if c then x else y) := by
  split
  · exact hx ‹c›
  · exact hy ‹¬ c›

theorem mono {x : EStateM ε σ α} {Q' : α → Prop} (hx : Ensures I Q x) (hq : ∀ a, Q a → Q' a) :
    Ensures I Q' x := fun s hs => ⟨(hx s hs).1, fun a s' he => hq a ((hx s hs).2 a s' he)⟩

theorem and {J : σ → Prop} {Q' : α → Prop} {x : EStateM ε σ α} (hx : Ensures I Q x)
    (hx' : Ensures J Q' x) : Ensures (fun s => I s ∧ J s) (fun a => Q a ∧ Q' a) x :=
  fun s hs => ⟨⟨(hx s hs.1).1, (hx' s hs.2).1⟩,
    fun a s' he => ⟨(hx s hs.1).2 a s' he, (hx' s hs.2).2 a s' he⟩⟩

/-- A program whose first part establishes an invariant `J` stronger than `I`, which the rest
keeps, keeps `I`. -/
theorem bind_strengthen (J : σ → Prop) {x : EStateM ε σ α} {f : α → EStateM ε σ β}
    (hx : ∀ s, I s → J (finalState (x.run s))) (hJ : ∀ s, J s → I s)
    (hf : ∀ a, Ensures J R (f a)) : Ensures I R (x >>= f) := by
  intro s hs
  have hmid := hx s hs
  rw [EStateM.run_bind]
  cases hr : x.run s with
  | ok a s' =>
    rw [hr] at hmid
    obtain ⟨hend, hq⟩ := hf a s' hmid
    exact ⟨hJ _ hend, hq⟩
  | error e s' =>
    rw [hr] at hmid
    exact ⟨hJ s' hmid, fun _ _ he => by cases he⟩

/-- A program that, from every state of `I`, returns a value of `Q` in a state of `I`. -/
theorem of_run {x : EStateM ε σ α} (h : ∀ s, I s → ∃ a t, x.run s = .ok a t ∧ I t ∧ Q a) :
    Ensures I Q x := by
  intro s hs
  obtain ⟨a, t, hrun, ht, hq⟩ := h s hs
  rw [hrun]
  refine ⟨ht, fun a' t' he => ?_⟩
  cases he
  exact hq

/-- A read of the state, followed by a program that keeps an invariant `J s`, relative to the
state `s` read, that holds at `s` and is stronger than `I`. -/
theorem get_bind_strengthen (J : σ → σ → Prop) {f : σ → EStateM ε σ α}
    (hJ : ∀ s, I s → J s s) (hI : ∀ s t, J s t → I t) (hf : ∀ s, I s → Ensures (J s) Q (f s)) :
    Ensures I Q (MonadStateOf.get >>= f) := by
  intro s hs
  obtain ⟨hend, hq⟩ := hf s hs s (hJ s hs)
  exact ⟨hI s _ hend, hq⟩

end Ensures

theorem Keeps.modify {I : σ → Prop} {f : σ → σ} (hf : ∀ s, I s → I (f s)) :
    Keeps I (MonadStateOf.modifyGet fun s => (PUnit.unit, f s) : EStateM ε σ PUnit) :=
  Ensures.modifyGet fun s hs => ⟨hf s hs, trivial⟩

/-- A loop over a list keeps what each iteration keeps. -/
theorem Keeps.forM {γ : Type} {I : σ → Prop} {f : γ → EStateM ε σ PUnit}
    (hf : ∀ c, Keeps I (f c)) : ∀ cs : List γ, Keeps I (cs.forM f)
  | [] => Ensures.pure trivial
  | c :: cs => (hf c).bind fun _ _ => Keeps.forM hf cs

/-- A loop over a list keeps what each iteration over a member of the list keeps. -/
theorem Keeps.forM_of_mem {γ : Type} {I : σ → Prop} {f : γ → EStateM ε σ PUnit} :
    ∀ cs : List γ, (∀ c ∈ cs, Keeps I (f c)) → Keeps I (cs.forM f)
  | [], _ => Ensures.pure trivial
  | c :: cs, hf => (hf c List.mem_cons_self).bind fun _ _ =>
      Keeps.forM_of_mem cs fun c' hc' => hf c' (List.mem_cons_of_mem c hc')

/-- A loop whose iterations never throw establishes what one of its iterations establishes
from any state, when every iteration keeps it. -/
theorem Keeps.forM_establishes {γ : Type} {P : σ → Prop} {f : γ → EStateM ε σ PUnit}
    (hok : ∀ c s, ∃ t, (f c).run s = .ok ⟨⟩ t) (hkeep : ∀ c, Keeps P (f c)) {c : γ}
    (hc : ∀ s, P (finalState ((f c).run s))) :
    ∀ cs : List γ, c ∈ cs → ∀ s, P (finalState ((cs.forM f).run s))
  | [], hmem, _ => by cases hmem
  | c' :: cs, hmem, s => by
    obtain ⟨t, ht⟩ := hok c' s
    change P (finalState ((f c' >>= fun _ => cs.forM f).run s))
    rw [EStateM.run_bind, ht]
    rcases List.mem_cons.mp hmem with rfl | hmem
    · have hP : P t := by simpa only [ht, finalState] using hc s
      exact (Keeps.forM hkeep cs t hP).1
    · exact Keeps.forM_establishes hok hkeep hc cs hmem t

/-! ## From the first state to the last

What a run that returns does, as a relation between the state it starts in, what it
returns and the state it ends in. A run that throws is not constrained. -/

/-- Every run of `x` that returns `a`, from `s` to `t`, has `R s a t`. -/
def Returns (R : σ → α → σ → Prop) (x : EStateM ε σ α) : Prop :=
  ∀ s a t, x.run s = .ok a t → R s a t

namespace Returns

variable {R : σ → α → σ → Prop}

theorem pure {a : α} (h : ∀ s, R s a s) : Returns R (Pure.pure a : EStateM ε σ α) := by
  intro s a' t he
  cases he
  exact h s

theorem throw (e : ε) : Returns R (MonadExcept.throw e : EStateM ε σ α) :=
  fun _ _ _ he => by cases he

theorem bind {P : σ → α → σ → Prop} {Q : α → σ → β → σ → Prop} {S : σ → β → σ → Prop}
    {x : EStateM ε σ α} {f : α → EStateM ε σ β} (hx : Returns P x)
    (hf : ∀ a, Returns (Q a) (f a)) (hc : ∀ s a t b u, P s a t → Q a t b u → S s b u) :
    Returns S (x >>= f) := by
  intro s b u he
  rw [EStateM.run_bind] at he
  cases hr : x.run s with
  | ok a t =>
    rw [hr] at he
    exact hc s a t b u (hx s a t hr) (hf a t b u he)
  | error e t =>
    rw [hr] at he
    cases he

theorem modifyGet {f : σ → α × σ} (h : ∀ s, R s (f s).1 (f s).2) :
    Returns R (MonadStateOf.modifyGet f : EStateM ε σ α) := by
  intro s a t he
  cases he
  exact h s

theorem modify {f : σ → σ} :
    Returns (fun s _ t => t = f s)
      (MonadStateOf.modifyGet fun s => (PUnit.unit, f s) : EStateM ε σ PUnit) :=
  modifyGet fun _ => rfl

theorem ite {c : Prop} [Decidable c] {x y : EStateM ε σ α} (hx : c → Returns R x)
    (hy : ¬ c → Returns R y) : Returns R (if c then x else y) := by
  split
  · exact hx ‹c›
  · exact hy ‹¬ c›

theorem mono {x : EStateM ε σ α} {R' : σ → α → σ → Prop} (hx : Returns R x)
    (h : ∀ s a t, R s a t → R' s a t) : Returns R' x :=
  fun s a t he => h s a t (hx s a t he)

theorem and {R' : σ → α → σ → Prop} {x : EStateM ε σ α} (h : Returns R x) (h' : Returns R' x) :
    Returns (fun s a t => R s a t ∧ R' s a t) x :=
  fun s a t he => ⟨h s a t he, h' s a t he⟩

/-- What a program ensures from the states of an invariant holds of what it returns. -/
theorem of_ensures {I : σ → Prop} {Q : α → Prop} {x : EStateM ε σ α} (hx : Ensures I Q x) :
    Returns (fun s a _ => I s → Q a) x :=
  fun s a t he hs => (hx s hs).2 a t he

/-- Under a precondition that the first part keeps, what the rest returns decides what the
whole returns. -/
theorem keeps_bind {P : σ → Prop} {Q : β → σ → Prop} {x : EStateM ε σ α}
    {f : α → EStateM ε σ β} (hx : Keeps P x) (hf : ∀ a, Returns (fun s b t => P s → Q b t) (f a)) :
    Returns (fun s b t => P s → Q b t) (x >>= f) := by
  intro s b u he hs
  have hmid := (hx s hs).1
  rw [EStateM.run_bind] at he
  cases hr : x.run s with
  | ok a t =>
    rw [hr] at he hmid
    exact hf a t b u he hmid
  | error e t =>
    rw [hr] at he
    cases he

/-- A program whose result depends only on what its first part returned. -/
theorem bind_result {A : α → Prop} {P : β → Prop} {x : EStateM ε σ α} {f : α → EStateM ε σ β}
    (hx : Returns (fun _ a _ => A a) x) (hf : ∀ a, A a → Returns (fun _ b _ => P b) (f a)) :
    Returns (fun _ b _ => P b) (x >>= f) := by
  intro s b u he
  rw [EStateM.run_bind] at he
  cases hr : x.run s with
  | ok a t =>
    rw [hr] at he
    exact hf a (hx s a t hr) t b u he
  | error e t =>
    rw [hr] at he
    cases he

/-- A program followed by a value computed from what it returned. -/
theorem bind_pure {R : σ → α → σ → Prop} {x : EStateM ε σ α} {g : α → β} (hx : Returns R x) :
    Returns (fun s b t => ∃ a, R s a t ∧ b = g a) (x >>= fun a => Pure.pure (g a)) := by
  intro s b u he
  rw [EStateM.run_bind] at he
  cases hr : x.run s with
  | ok a t =>
    rw [hr] at he
    cases he
    exact ⟨a, hx s a u hr, rfl⟩
  | error e t =>
    rw [hr] at he
    cases he

/-- A read of the state, followed by what depends on the state read. -/
theorem get_bind {P : σ → Prop} {Q : α → σ → Prop} {f : σ → EStateM ε σ α}
    (hf : ∀ s, P s → Returns (fun s' a t => s' = s → Q a t) (f s)) :
    Returns (fun s a t => P s → Q a t) (MonadStateOf.get >>= f) :=
  fun s a t he hs => hf s hs s a t he rfl

/-- A program that keeps `R₀ s` from every `s` on relates its first state to its last. -/
theorem of_keeps {R₀ : σ → σ → Prop} {x : EStateM ε σ α} (hx : ∀ s, Keeps (R₀ s) x)
    (hrefl : ∀ s, R₀ s s) : Returns (fun s _ t => R₀ s t) x := by
  intro s a t he
  have h := (hx s s (hrefl s)).1
  rwa [he] at h

end Returns

/-! ## Folds in `Except`

A fold that succeeds succeeded at every step: what each step keeps holds at its end. -/

theorem except_bind_eq_ok {x : Except ε α} {f : α → Except ε β} {b : β} :
    x >>= f = .ok b ↔ ∃ a, x = .ok a ∧ f a = .ok b := by
  cases x with
  | error e =>
    constructor
    · intro h
      cases h
    · rintro ⟨_, h, _⟩
      cases h
  | ok a =>
    constructor
    · intro h
      exact ⟨a, rfl, h⟩
    · rintro ⟨_, h, hf⟩
      cases h
      exact hf

theorem foldlM_invariant {step : β → α → Except ε β} (P : β → Prop) :
    ∀ (l : List α), (∀ a ∈ l, ∀ x y, P x → step x a = .ok y → P y) →
      ∀ {x y : β}, P x → l.foldlM step x = .ok y → P y
  | [], _, x, y, hx, h => by
    cases h
    exact hx
  | a :: rest, hstep, x, y, hx, h => by
    rw [List.foldlM_cons, except_bind_eq_ok] at h
    obtain ⟨mid, hmid, hrest⟩ := h
    exact foldlM_invariant P rest (fun b hb => hstep b (List.mem_cons_of_mem a hb))
      (hstep a List.mem_cons_self x mid hx hmid) hrest

end Constellation
