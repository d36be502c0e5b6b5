import Libgpsfile2.Library.Session

/-!
# What an observer sees of an object

An observer looks at a part of the state, its `view`, and makes some of the calls of an object, the
ones that `keep` selects. `Object.Observes` says that this is all that matters to it: the other
calls do not change the view, and what its own calls return and do to the view depends on the view
only.

* `Session.leaveOut`: the calls of everybody else can be left out of a session, and the observer
  sees the same.
* `Session.observed`: two sessions that have the same calls of the observer, between whatever other
  calls, look the same to it.
* `Session.interleaving`: when several observers together see all of the state, their calls may be
  interleaved in any way.

`Respects view m` says of a program that the view decides what it returns and does to the view. It
composes along `bind`.
-/

namespace Libgpsfile2

variable {κ ρ ε σ ω α β : Type}

/-! ### Programs -/

/-- What `m` returns and does to the view depends on the view only. -/
def Respects (view : σ → ω) (m : EStateM ε σ α) : Prop :=
  ∀ s t, view s = view t → outcome (m s) = outcome (m t) ∧ view (after (m s)) = view (after (m t))

namespace Respects

variable {view : σ → ω}

theorem pure (a : α) : Respects view (Pure.pure a : EStateM ε σ α) := fun _ _ h => ⟨rfl, h⟩

theorem bind {m : EStateM ε σ α} {k : α → EStateM ε σ β} (hm : Respects view m)
    (hk : ∀ a, Respects view (k a)) : Respects view (m >>= k) := by
  intro s t h
  obtain ⟨hout, hview⟩ := hm s t h
  rw [bind_apply, bind_apply]
  cases hs : m s with
  | ok a s' =>
    cases ht : m t with
    | ok b t' =>
      rw [hs, ht] at hout hview
      cases hout
      exact hk a s' t' hview
    | error e t' =>
      rw [hs, ht] at hout
      cases hout
  | error e s' =>
    cases ht : m t with
    | ok b t' =>
      rw [hs, ht] at hout
      cases hout
    | error e' t' =>
      rw [hs, ht] at hout hview
      cases hout
      exact ⟨rfl, hview⟩

theorem ite {c : Prop} [Decidable c] {m m' : EStateM ε σ α} (hm : Respects view m)
    (hm' : Respects view m') : Respects view (if c then m else m') := by
  by_cases hc : c
  · rwa [if_pos hc]
  · rwa [if_neg hc]

end Respects

/-! ### Observers -/

/-- The view is all that matters to an observer that makes the calls in `keep`, in the states with
the invariant `I`. -/
structure Object.Observes (O : Object κ ρ ε σ) (I : σ → Prop) (view : σ → ω) (keep : κ → Bool) :
    Prop where
  invariant : ∀ s c, I s → O.permitted s c → I (after (O.call c s))
  skip : ∀ s c, I s → O.permitted s c → keep c = false → view (after (O.call c s)) = view s
  permitted : ∀ s t c, I s → I t → view s = view t → keep c = true → O.permitted s c →
    O.permitted t c
  respects : ∀ s t c, I s → I t → view s = view t → keep c = true → O.permitted s c →
    outcome (O.call c s) = outcome (O.call c t) ∧
      view (after (O.call c s)) = view (after (O.call c t))

/-- The calls of an observer, with their outcomes. -/
def History.seen (keep : κ → Bool) (h : History κ ρ ε) : History κ ρ ε :=
  List.filter (fun x => keep x.1) h

theorem History.seen_concat_kept {keep : κ → Bool} (h : History κ ρ ε) {c : κ} (x : Except ε ρ)
    (hc : keep c = true) : seen keep (h ++ [(c, x)]) = seen keep h ++ [(c, x)] := by
  simp [seen, hc]

theorem History.seen_concat_skipped {keep : κ → Bool} (h : History κ ρ ε) {c : κ} (x : Except ε ρ)
    (hc : keep c = false) : seen keep (h ++ [(c, x)]) = seen keep h := by
  simp [seen, hc]

theorem History.map_seen (keep : κ → Bool) (h : History κ ρ ε) :
    (seen keep h).map Prod.fst = (h.map Prod.fst).filter keep := by
  unfold seen
  rw [List.filter_map]
  rfl

variable {O : Object κ ρ ε σ} {s₀ s t : σ} {h h' : History κ ρ ε} {I : σ → Prop} {view : σ → ω}
  {keep : κ → Bool}

/-- **The calls of the others can be left out.** -/
theorem Session.leaveOut (hO : O.Observes I view keep) (hI : I s₀) (hs : Session O s₀ h s) :
    ∃ t, Session O s₀ (h.seen keep) t ∧ view t = view s := by
  suffices hboth : I s ∧ ∃ t, Session O s₀ (h.seen keep) t ∧ I t ∧ view t = view s by
    obtain ⟨-, t, ht, -, hview⟩ := hboth
    exact ⟨t, ht, hview⟩
  induction hs with
  | start => exact ⟨hI, s₀, .start, hI, rfl⟩
  | @call h s c hs hc ha ih =>
    obtain ⟨hs', t, ht, ht', hview⟩ := ih
    refine ⟨hO.invariant s c hs' hc, ?_⟩
    cases hkeep : keep c with
    | false =>
      rw [History.seen_concat_skipped h _ hkeep]
      exact ⟨t, ht, ht', hview.trans (hO.skip s c hs' hc hkeep).symm⟩
    | true =>
      have hc' := hO.permitted s t c hs' ht' hview.symm hkeep hc
      have ha' : O.Alive (h.seen keep) := fun x hx => ha x (List.mem_of_mem_filter hx)
      obtain ⟨hout, hafter⟩ := hO.respects s t c hs' ht' hview.symm hkeep hc
      rw [History.seen_concat_kept h _ hkeep, hout]
      exact ⟨_, .call c ht hc' ha', hO.invariant t c ht' hc', hafter.symm⟩

/-- The calls decide what is returned. -/
theorem Session.determined (hs : Session O s₀ h s) (ht : Session O s₀ h' t)
    (hcalls : h.map Prod.fst = h'.map Prod.fst) : h = h' ∧ s = t := by
  induction hs generalizing h' t with
  | start =>
    obtain rfl := List.map_eq_nil_iff.1 hcalls.symm
    exact ⟨rfl, Session.unique .start ht⟩
  | @call h s c hs hc ha ih =>
    rw [List.map_append] at hcalls
    obtain ⟨l, l', rfl, hl, hl'⟩ := List.map_eq_append_iff.1 hcalls.symm
    obtain ⟨⟨c', x⟩, rfl, hx⟩ := List.map_eq_singleton_iff.1 hl'
    obtain ⟨t', ht', -, rfl⟩ := ht.last
    obtain rfl : c' = c := hx
    obtain ⟨rfl, rfl⟩ := ih ht' hl.symm
    obtain ⟨hout, -⟩ := (ht.rest ht').head
    exact ⟨by rw [hout], rfl⟩

/-- **An observer cannot tell two sessions apart** in which it makes the same calls. -/
theorem Session.observed (hO : O.Observes I view keep) (hI : I s₀) (hs : Session O s₀ h s)
    (ht : Session O s₀ h' t)
    (hcalls : (h.map Prod.fst).filter keep = (h'.map Prod.fst).filter keep) :
    h.seen keep = h'.seen keep ∧ view s = view t := by
  obtain ⟨s', hs', hview⟩ := hs.leaveOut hO hI
  obtain ⟨t', ht', hview'⟩ := ht.leaveOut hO hI
  rw [← History.map_seen, ← History.map_seen] at hcalls
  obtain ⟨hseen, rfl⟩ := hs'.determined ht' hcalls
  exact ⟨hseen, hview.symm.trans hview'⟩

/-- **The calls of several observers may be interleaved in any way**, when together they see all of
the state. -/
theorem Session.interleaving {ι : Type} {keep : ι → κ → Bool} {view : ι → σ → ω}
    (hO : ∀ i, O.Observes I (view i) (keep i)) (hI : I s₀)
    (hall : ∀ s t, (∀ i, view i s = view i t) → s = t) (hs : Session O s₀ h s)
    (ht : Session O s₀ h' t)
    (hcalls : ∀ i, (h.map Prod.fst).filter (keep i) = (h'.map Prod.fst).filter (keep i)) :
    s = t ∧ ∀ i, h.seen (keep i) = h'.seen (keep i) := by
  have hseen := fun i => hs.observed (hO i) hI ht (hcalls i)
  exact ⟨hall s t fun i => (hseen i).2, fun i => (hseen i).1⟩

end Libgpsfile2
