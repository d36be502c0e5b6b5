import Mathlib.Tactic

/-!
# Simulation of programs with state and exceptions

An `EStateM ε σ α` is a program that changes a state of type `σ` and ends with a value of type
`α` or an exception of type `ε`; the state is kept when it throws.

`Simulates inv abs m w` says that the concrete program `m`, started in a state with the
invariant `inv`, does step for step what the abstract program `w` does on the abstraction `abs`
of that state: both return the same value or throw the same exception, the invariant holds
again, and the final states correspond.

`Along r m` says that `m` changes the state along the relation `r` only. It composes along `bind`,
so that it has to be proved for the primitive operations only.
-/

namespace Libgpsfile2

variable {ε σ τ α β : Type} {inv : σ → Prop} {abs : σ → τ}

/-! ### Running a program from a state -/

theorem bind_apply (m : EStateM ε σ α) (k : α → EStateM ε σ β) (s : σ) :
    (m >>= k) s = match m s with
      | .ok a s' => k a s'
      | .error e s' => .error e s' := rfl

/-- A program that returns has gone through its first part. -/
theorem bind_ok {m : EStateM ε σ α} {k : α → EStateM ε σ β} {s s' : σ} {b : β}
    (h : (m >>= k) s = .ok b s') : ∃ a t, m s = .ok a t ∧ k a t = .ok b s' := by
  rw [bind_apply] at h
  cases hm : m s with
  | error e t =>
    rw [hm] at h
    cases h
  | ok a t =>
    rw [hm] at h
    exact ⟨a, t, rfl, h⟩

theorem pure_apply (a : α) (s : σ) : (pure a : EStateM ε σ α) s = .ok a s := rfl

theorem throw_apply (e : ε) (s : σ) : (throw e : EStateM ε σ α) s = .error e s := rfl

theorem get_apply (s : σ) : (get : EStateM ε σ σ) s = .ok s s := rfl

theorem set_apply (s t : σ) : (set t : EStateM ε σ PUnit) s = .ok ⟨⟩ t := rfl

theorem modify_apply (f : σ → σ) (s : σ) : (modify f : EStateM ε σ PUnit) s = .ok ⟨⟩ (f s) := rfl

/-- What the caller sees of a call: the value returned or the exception thrown. -/
def outcome : EStateM.Result ε σ α → Except ε α
  | .ok a _ => .ok a
  | .error e _ => .error e

/-- The state a call leaves behind, also when it throws. -/
def after : EStateM.Result ε σ α → σ
  | .ok _ s => s
  | .error _ s => s

@[simp] theorem outcome_ok (a : α) (s : σ) : outcome (.ok a s : EStateM.Result ε σ α) = .ok a := rfl
@[simp] theorem outcome_error (e : ε) (s : σ) :
    outcome (.error e s : EStateM.Result ε σ α) = .error e := rfl
@[simp] theorem after_ok (a : α) (s : σ) : after (.ok a s : EStateM.Result ε σ α) = s := rfl
@[simp] theorem after_error (e : ε) (s : σ) : after (.error e s : EStateM.Result ε σ α) = s := rfl

/-- What is made of the value returned does not matter to the state. -/
theorem after_bind_pure (m : EStateM ε σ α) (f : α → β) (s : σ) :
    after ((do return f (← m) : EStateM ε σ β) s) = after (m s) := by
  rw [bind_apply]
  cases m s <;> rfl

theorem outcome_bind_pure (m : EStateM ε σ α) (f : α → β) (s : σ) :
    outcome ((do return f (← m) : EStateM ε σ β) s) = (outcome (m s)).map f := by
  rw [bind_apply]
  cases m s <;> rfl

theorem result_ext {r r' : EStateM.Result ε σ α} (ho : outcome r = outcome r')
    (ha : after r = after r') : r = r' := by
  cases r <;> cases r' <;> cases ho <;> cases ha <;> rfl

/-- The same result, with what `f` sees of the state. -/
def withState (f : σ → τ) : EStateM.Result ε σ α → EStateM.Result ε τ α
  | .ok a s => .ok a (f s)
  | .error e s => .error e (f s)

@[simp] theorem outcome_withState (f : σ → τ) (r : EStateM.Result ε σ α) :
    outcome (withState f r) = outcome r := by
  cases r <;> rfl

@[simp] theorem after_withState (f : σ → τ) (r : EStateM.Result ε σ α) :
    after (withState f r) = f (after r) := by
  cases r <;> rfl

/-- A program over a part of the state, run on the whole state. -/
def onPart (part : σ → τ) (put : τ → σ → σ) (m : EStateM ε τ α) : EStateM ε σ α := fun s =>
  match m (part s) with
  | .ok a t => .ok a (put t s)
  | .error e t => .error e (put t s)

/-- A program over the first component of the state. -/
def onFst (m : EStateM ε σ α) : EStateM ε (σ × τ) α := onPart Prod.fst (fun s x => (s, x.2)) m

/-- A program over the second component of the state. -/
def onSnd (m : EStateM ε τ α) : EStateM ε (σ × τ) α := onPart Prod.snd (fun t x => (x.1, t)) m

@[simp] theorem outcome_onSnd (m : EStateM ε τ α) (x : σ × τ) :
    outcome (onSnd m x) = outcome (m x.2) := by
  unfold onSnd onPart
  cases m x.2 <;> rfl

@[simp] theorem after_onSnd (m : EStateM ε τ α) (x : σ × τ) :
    after (onSnd m x) = (x.1, after (m x.2)) := by
  unfold onSnd onPart
  cases m x.2 <;> rfl

/-! ### Relations along a program -/

/-- Whether it returns or throws, `m` changes the state along `r` only. -/
def Along (r : σ → σ → Prop) (m : EStateM ε σ α) : Prop := ∀ s, r s (after (m s))

namespace Along

variable {r : σ → σ → Prop}

theorem pure (hrefl : ∀ s, r s s) (a : α) : Along r (Pure.pure a : EStateM ε σ α) :=
  fun s => hrefl s

theorem get (hrefl : ∀ s, r s s) : Along r (MonadState.get : EStateM ε σ σ) := fun s => hrefl s

theorem bind {m : EStateM ε σ α} {k : α → EStateM ε σ β}
    (htrans : ∀ s t u, r s t → r t u → r s u) (hm : Along r m) (hk : ∀ a, Along r (k a)) :
    Along r (m >>= k) := by
  intro s
  have h := hm s
  rw [bind_apply]
  cases hr : m s with
  | ok a t =>
    rw [hr] at h
    exact htrans s t _ h (hk a t)
  | error e t =>
    rw [hr] at h
    exact h

theorem ite {c : Prop} [Decidable c] {m m' : EStateM ε σ α} (hm : Along r m) (hm' : Along r m') :
    Along r (if c then m else m') := by
  by_cases hc : c
  · rwa [if_pos hc]
  · rwa [if_neg hc]

end Along

/-! ### Programs that return -/

/-- The program throws in no state. -/
def Returns (m : EStateM ε σ α) : Prop := ∀ s, ∃ a s', m s = .ok a s'

namespace Returns

theorem pure (a : α) : Returns (Pure.pure a : EStateM ε σ α) := fun s => ⟨a, s, rfl⟩

theorem get : Returns (MonadState.get : EStateM ε σ σ) := fun s => ⟨s, s, rfl⟩

theorem bind {m : EStateM ε σ α} {k : α → EStateM ε σ β} (hm : Returns m)
    (hk : ∀ a, Returns (k a)) : Returns (m >>= k) := by
  intro s
  obtain ⟨a, t, ht⟩ := hm s
  rw [bind_apply, ht]
  exact hk a t

theorem ite {c : Prop} [Decidable c] {m m' : EStateM ε σ α} (hm : Returns m)
    (hm' : Returns m') : Returns (if c then m else m') := by
  by_cases hc : c
  · rwa [if_pos hc]
  · rwa [if_neg hc]

end Returns

/-! ### Simulation -/

/-- The result of a concrete program corresponds to the result of an abstract one. -/
inductive Matches (inv : σ → Prop) (abs : σ → τ) :
    EStateM.Result ε σ α → EStateM.Result ε τ α → Prop
  | ok (a : α) {s : σ} (hs : inv s) : Matches inv abs (.ok a s) (.ok a (abs s))
  | error (e : ε) {s : σ} (hs : inv s) : Matches inv abs (.error e s) (.error e (abs s))

/-- The program `m` does on the states with `inv` what `w` does on their abstractions. -/
def Simulates (inv : σ → Prop) (abs : σ → τ) (m : EStateM ε σ α) (w : EStateM ε τ α) : Prop :=
  ∀ s, inv s → Matches inv abs (m s) (w (abs s))

theorem Matches.of_ok {a a' : α} {s : σ} {t : τ} (hs : inv s) (ha : a = a') (ht : abs s = t) :
    Matches inv abs (.ok a s : EStateM.Result ε σ α) (.ok a' t) := by
  subst ha ht
  exact .ok a hs

/-- The state that a program leaves, also when it throws. -/
theorem Matches.after {r : EStateM.Result ε σ α} {w : EStateM.Result ε τ α}
    (h : Matches inv abs r w) :
    inv (Libgpsfile2.after r) ∧ abs (Libgpsfile2.after r) = Libgpsfile2.after w := by
  cases h with
  | ok a hs => exact ⟨hs, rfl⟩
  | error e hs => exact ⟨hs, rfl⟩

theorem Matches.ok_right {r : EStateM.Result ε σ α} {a : α} {t : τ}
    (h : Matches inv abs r (.ok a t)) : ∃ s, r = .ok a s ∧ inv s ∧ abs s = t := by
  cases h with
  | ok _ hs => exact ⟨_, rfl, hs, rfl⟩

theorem Matches.error_right {r : EStateM.Result ε σ α} {e : ε} {t : τ}
    (h : Matches inv abs r (.error e t)) : ∃ s, r = .error e s ∧ inv s ∧ abs s = t := by
  cases h with
  | error _ hs => exact ⟨_, rfl, hs, rfl⟩

namespace Simulates

theorem pure (a : α) : Simulates inv abs (Pure.pure a : EStateM ε σ α)
    (Pure.pure a : EStateM ε τ α) := fun _ hs => .ok a hs

theorem throw (e : ε) : Simulates inv abs (MonadExcept.throw e : EStateM ε σ α)
    (MonadExcept.throw e : EStateM ε τ α) := fun _ hs => .error e hs

theorem bind {m : EStateM ε σ α} {w : EStateM ε τ α} {k : α → EStateM ε σ β}
    {k' : α → EStateM ε τ β} (hm : Simulates inv abs m w)
    (hk : ∀ a, Simulates inv abs (k a) (k' a)) :
    Simulates inv abs (m >>= k) (w >>= k') := by
  intro s hs
  have h := hm s hs
  rw [bind_apply, bind_apply]
  generalize m s = r at h ⊢
  generalize w (abs s) = r' at h ⊢
  cases h with
  | ok a hs' => exact hk a _ hs'
  | error e hs' => exact .error e hs'

theorem ite {c : Prop} [Decidable c] {m m' : EStateM ε σ α} {w w' : EStateM ε τ α}
    (hm : Simulates inv abs m w) (hm' : Simulates inv abs m' w') :
    Simulates inv abs (if c then m else m') (if c then w else w') := by
  by_cases hc : c
  · rwa [if_pos hc, if_pos hc]
  · rwa [if_neg hc, if_neg hc]

end Simulates

end Libgpsfile2
