import Libgpsfile2.Library.Simulation

/-!
# Sessions with an object

An `Object` is a state together with the calls a caller may make on it. A call is a program with
state and exceptions; what it did to the state before it threw is kept. A `Session` is a finite
sequence of calls by a caller that catches every exception and goes on, unless the exception is
fatal and ended the process. Its history lists the calls with their outcomes, oldest first.

A statement about every reachable state is a statement about every session, and is proved with
`Session.invariant`: it holds at the start and every call preserves it. `Session.always_iff` says
when something holds in all states of one session, in terms of its calls.
-/

namespace Libgpsfile2

variable {κ ρ ε σ : Type}

/-- The calls of an object: what each does, which ones the caller may make in a state, and which
exceptions end the process. -/
structure Object (κ ρ ε σ : Type) where
  call : κ → EStateM ε σ ρ
  permitted : σ → κ → Prop
  fatal : ε → Prop

/-- The history of a session: the calls made and their outcomes. -/
abbrev History (κ ρ ε : Type) := List (κ × Except ε ρ)

/-- No call of the history ended the process. -/
def Object.Alive (O : Object κ ρ ε σ) (h : History κ ρ ε) : Prop :=
  ∀ x ∈ h, ∀ e, x.2 = .error e → ¬ O.fatal e

/-- `Session O s₀ h s`: a caller that starts in `s₀` and makes the calls of `h` ends in `s`. -/
inductive Session (O : Object κ ρ ε σ) (s₀ : σ) : History κ ρ ε → σ → Prop
  | start : Session O s₀ [] s₀
  | call {h : History κ ρ ε} {s : σ} (c : κ) (hs : Session O s₀ h s) (hc : O.permitted s c)
      (ha : O.Alive h) :
      Session O s₀ (h ++ [(c, outcome (O.call c s))]) (after (O.call c s))

variable {O : Object κ ρ ε σ} {s₀ s : σ} {h : History κ ρ ε}

/-- What holds at the start and is preserved by every call holds after every session. -/
theorem Session.invariant {I : History κ ρ ε → σ → Prop} (start : I [] s₀)
    (step : ∀ h s c, I h s → O.permitted s c →
      I (h ++ [(c, outcome (O.call c s))]) (after (O.call c s)))
    (hs : Session O s₀ h s) : I h s := by
  induction hs with
  | start => exact start
  | call c _ hc _ ih => exact step _ _ c ih hc

/-- A first part of a session is a session. -/
theorem Session.split {h' : History κ ρ ε} (hs : Session O s₀ (h ++ h') s) :
    ∃ s₁, Session O s₀ h s₁ := by
  generalize hh : h ++ h' = hall at hs
  induction hs generalizing h' with
  | start =>
    rw [(List.append_eq_nil_iff.1 hh).1]
    exact ⟨s₀, .start⟩
  | call c hs hc ha ih =>
    -- the last call belongs to `h` when nothing follows, and to the rest otherwise
    rcases List.eq_nil_or_concat h' with rfl | ⟨later, x, rfl⟩
    · rw [List.append_nil] at hh
      rw [hh]
      exact ⟨_, .call c hs hc ha⟩
    · rw [List.concat_eq_append, ← List.append_assoc] at hh
      exact ih (List.append_inj_left' hh rfl)

/-- A session is extended by a call that returns. -/
theorem Session.returned (hs : Session O s₀ h s) {c : κ} (hc : O.permitted s c) (ha : O.Alive h)
    {r : ρ} {s' : σ} (hcall : O.call c s = .ok r s') :
    Session O s₀ (h ++ [(c, .ok r)]) s' := by
  have := Session.call c hs hc ha
  rwa [hcall] at this

/-- A session is extended by a call that throws. -/
theorem Session.threw (hs : Session O s₀ h s) {c : κ} (hc : O.permitted s c) (ha : O.Alive h)
    {e : ε} {s' : σ} (hcall : O.call c s = .error e s') :
    Session O s₀ (h ++ [(c, .error e)]) s' := by
  have := Session.call c hs hc ha
  rwa [hcall] at this

/-! ### All states of a session -/

/-- `P` holds in every state that the session goes through. -/
def Object.Always (O : Object κ ρ ε σ) (s₀ : σ) (h : History κ ρ ε) (P : σ → Prop) : Prop :=
  ∀ before later s, h = before ++ later → Session O s₀ before s → P s

/-- Every call of the session is made in a state where `P` allows it. -/
def Object.EachCall (O : Object κ ρ ε σ) (s₀ : σ) (h : History κ ρ ε) (P : σ → κ → Prop) : Prop :=
  ∀ before c x later s, h = before ++ (c, x) :: later → Session O s₀ before s → P s c

/-- The last call of a session. -/
theorem Session.last {c : κ} {x : Except ε ρ} (hs : Session O s₀ (h ++ [(c, x)]) s) :
    ∃ s', Session O s₀ h s' ∧ O.permitted s' c ∧ s = after (O.call c s') := by
  generalize hh : h ++ [(c, x)] = hall at hs
  cases hs with
  | start => simp at hh
  | call c' hs hc ha =>
    obtain ⟨rfl, hlast⟩ := List.append_inj' hh rfl
    cases hlast
    exact ⟨_, hs, hc, rfl⟩

/-- The calls determine the state. -/
theorem Session.unique (hs : Session O s₀ h s) {s' : σ} (hs' : Session O s₀ h s') : s = s' := by
  induction hs generalizing s' with
  | start =>
    generalize hh : ([] : History κ ρ ε) = h at hs'
    cases hs' with
    | start => rfl
    | call c hs hc ha => simp at hh
  | call c hs hc ha ih =>
    obtain ⟨s₁, hs₁, -, rfl⟩ := hs'.last
    rw [ih hs₁]

/-- What comes after a first part of a session is a session. -/
theorem Session.rest {h' : History κ ρ ε} {s₁ : σ} (hs : Session O s₀ (h ++ h') s)
    (hs₁ : Session O s₀ h s₁) : Session O s₁ h' s := by
  generalize hh : h ++ h' = hall at hs
  induction hs generalizing h' with
  | start =>
    obtain ⟨rfl, rfl⟩ := List.append_eq_nil_iff.1 hh
    rw [hs₁.unique .start]
    exact .start
  | @call hall s c hs hc ha ih =>
    rcases List.eq_nil_or_concat h' with rfl | ⟨later, x, rfl⟩
    · rw [List.append_nil] at hh
      subst hh
      rw [hs₁.unique (Session.call c hs hc ha)]
      exact .start
    · rw [List.concat_eq_append, ← List.append_assoc] at hh
      obtain ⟨rfl, hx⟩ := List.append_inj' hh rfl
      cases hx
      rw [List.concat_eq_append]
      exact .call c (ih rfl) hc fun y hy => ha y (List.mem_append_right _ hy)

/-- The first call of a session, and the session that comes after it. -/
theorem Session.head {c : κ} {x : Except ε ρ} (hs : Session O s₀ ((c, x) :: h) s) :
    x = outcome (O.call c s₀) ∧ Session O (after (O.call c s₀)) h s := by
  obtain ⟨s₁, hs₁⟩ := Session.split (h := [(c, x)]) hs
  have hrest := Session.rest (h := [(c, x)]) hs hs₁
  generalize hh : [(c, x)] = hall at hs₁
  cases hs₁ with
  | start => cases hh
  | @call h' s' c' hs' hc ha =>
    obtain ⟨rfl, hlast⟩ := List.append_inj' (show [] ++ [(c, x)] = h' ++ [_] from hh) rfl
    cases hlast
    rw [hs'.unique .start] at hrest ⊢
    exact ⟨rfl, hrest⟩

/-- After every call of the session made as `E` says, `P` holds of the state it leaves and of what
comes later. -/
def Object.AfterEach (O : Object κ ρ ε σ) (s₀ : σ) (h : History κ ρ ε) (E : σ → κ → Prop)
    (P : σ → History κ ρ ε → Prop) : Prop :=
  ∀ before c x later s, h = before ++ (c, x) :: later → Session O s₀ before s → E s c →
    P (after (O.call c s)) later

theorem Object.always_nil {P : σ → Prop} : O.Always s₀ [] P ↔ P s₀ := by
  constructor
  · intro h
    exact h [] [] s₀ rfl .start
  · intro h before later s heq hs
    obtain rfl : before = [] := (List.append_eq_nil_iff.1 heq.symm).1
    rwa [hs.unique .start]

theorem Session.always_concat {c : κ} {x : Except ε ρ} {P : σ → Prop}
    (hs : Session O s₀ (h ++ [(c, x)]) s) :
    O.Always s₀ (h ++ [(c, x)]) P ↔ O.Always s₀ h P ∧ P s := by
  constructor
  · intro hall
    refine ⟨fun before later s₁ heq => ?_, hall _ [] s (List.append_nil _).symm hs⟩
    exact hall before (later ++ [(c, x)]) s₁ (by rw [heq, List.append_assoc])
  · rintro ⟨hall, hend⟩ before later s₁ heq hs₁
    rcases List.eq_nil_or_concat later with rfl | ⟨later, y, rfl⟩
    · rw [List.append_nil] at heq
      subst heq
      rwa [hs₁.unique hs]
    · rw [List.concat_eq_append, ← List.append_assoc] at heq
      exact hall before later s₁ (List.append_inj_left' heq rfl) hs₁

theorem Object.eachCall_nil {P : σ → κ → Prop} : O.EachCall s₀ [] P := by
  intro before c x later s heq
  simp at heq

theorem Session.eachCall_concat (hs : Session O s₀ h s) (c : κ) (x : Except ε ρ)
    {P : σ → κ → Prop} :
    O.EachCall s₀ (h ++ [(c, x)]) P ↔ O.EachCall s₀ h P ∧ P s c := by
  constructor
  · intro hall
    refine ⟨?_, hall h c x [] s rfl hs⟩
    rintro before c' x' later s₁ rfl hs₁
    exact hall before c' x' (later ++ [(c, x)]) s₁ (by simp) hs₁
  · rintro ⟨hall, hend⟩ before c' x' later s₁ heq hs₁
    rcases List.eq_nil_or_concat later with rfl | ⟨later, y, rfl⟩
    · obtain ⟨rfl, hlast⟩ := List.append_inj' heq rfl
      cases hlast
      rwa [hs₁.unique hs]
    · rw [List.concat_eq_append, ← List.cons_append, ← List.append_assoc] at heq
      exact hall before c' x' later s₁ (List.append_inj_left' heq rfl) hs₁

/-- When every call leads from a good state with the invariant to a good state exactly if it meets
a condition, then all states of a session are good exactly if all its calls meet the condition. -/
theorem Session.always_iff {I Good : σ → Prop} {Meets : σ → κ → Prop} (hI : I s₀) (hgood : Good s₀)
    (hstep : ∀ s c, I s → Good s → O.permitted s c →
      (Good (after (O.call c s)) ↔ Meets s c) ∧
        (Good (after (O.call c s)) → I (after (O.call c s))))
    (hs : Session O s₀ h s) : O.Always s₀ h Good ↔ O.EachCall s₀ h Meets := by
  -- the invariant holds as long as the states are good
  suffices hboth : (O.Always s₀ h Good ↔ O.EachCall s₀ h Meets) ∧ (O.Always s₀ h Good → I s) from
    hboth.1
  induction hs with
  | start => exact ⟨⟨fun _ => Object.eachCall_nil, fun _ => Object.always_nil.2 hgood⟩, fun _ => hI⟩
  | @call h s c hs hc ha ih =>
    obtain ⟨hiff, hinv⟩ := ih
    have hlast := Session.call c hs hc ha
    have hend : O.Always s₀ h Good → Good s := fun hall => hall h [] s (List.append_nil h).symm hs
    rw [hlast.always_concat, hs.eachCall_concat, ← hiff]
    constructor
    · refine and_congr_right fun hall => ?_
      exact (hstep s c (hinv hall) (hend hall) hc).1
    · rintro ⟨hall, hafter⟩
      exact (hstep s c (hinv hall) (hend hall) hc).2 hafter

end Libgpsfile2
