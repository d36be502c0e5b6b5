import Libgpsfile2.Provider.ProviderStore

/-!
# Refused calls of the provider

A mutator that returns false, or throws `std::out_of_range`, has changed nothing, with one
exception: `addTrackPointData` adds the point first when the route does not have it, and does not
remove it again when its data are refused (`run_refused`).
-/

namespace Libgpsfile2

/-- Unless it returns true, the call changes nothing. -/
def AllOrNothing {ε σ : Type} (m : EStateM ε σ Bool) : Prop :=
  ∀ s, outcome (m s) ≠ .ok true → after (m s) = s

/-- The member functions of a route that can refuse what they are given change nothing then. -/
structure RouteClass.Careful {ρ τ : Type} (R : RouteClass ρ τ) : Prop where
  setTitle : ∀ s, AllOrNothing (R.setTitle s)
  setSummary : ∀ s, AllOrNothing (R.setSummary s)
  setDetails : ∀ s, AllOrNothing (R.setDetails s)
  setActivityType : ∀ s, AllOrNothing (R.setActivityType s)
  addPointDataString : ∀ k t type value b, AllOrNothing (R.addPointDataString k t type value b)
  addPointData : ∀ k t type value, AllOrNothing (R.addPointData k t type value)

/-- The point a call adds data to: its route, its segment and its time. -/
def RouteCall.dataPoint {τ : Type} : RouteCall τ → Option (UInt16 × UInt16 × τ)
  | .addTrackPointDataString j k t _ _ => some (j, k, t)
  | .addTrackPointData j k t _ _ => some (j, k, t)
  | _ => none

namespace ProviderGpsRouteWriter

variable {ρ τ : Type} {R : RouteClass ρ τ} {filing : ρ → Filing UInt16 τ}
  {p : ProviderGpsRouteWriter ρ} {r : ρ}

/-- What the caller sees of a call that was refused. -/
def Refused (x : Except Exn Bool) : Prop := x = .ok false ∨ x = .error .outOfRange

/-- The call is an `addTrackPointData` on an open provider, for a point that the route, which is
there, does not have. -/
def NewDataPoint (R : RouteClass ρ τ) (p : ProviderGpsRouteWriter ρ) (c : RouteCall τ)
    (j k : UInt16) (t : τ) : Prop :=
  c.dataPoint = some (j, k, t) ∧ p.finished = false ∧
    ∃ r, p.routes[j.toNat]? = some (some r) ∧ R.hasPoint r t = false

theorem Refused.ne_ok_true {x : Except Exn Bool} (h : Refused x) : x ≠ .ok true := by
  rintro rfl
  rcases h with h | h <;> cases h

/-- A call of a member function of a route, on any slot. -/
theorem onRoute_refused {m : EStateM Exn ρ Bool} (hm : AllOrNothing m) (j : UInt16)
    (h : Refused (outcome (onRoute j m p))) : after (onRoute j m p) = p := by
  cases hj : p.routes[j.toNat]? with
  | none => rw [onRoute_outOfRange m hj, after_error]
  | some x =>
    cases x with
    | none =>
      simp only [onRoute, hj]
      rfl
    | some r =>
      rw [outcome_onRoute m hj] at h
      rw [after_onRoute m hj, hm r h.ne_ok_true, setRoute_self hj]

/-- The first question to a route: a call on a slot that holds no route ends with it. -/
theorem hasPoint_none {α : Type} {j : UInt16} (t : τ)
    (k : Bool → EStateM Exn (ProviderGpsRouteWriter ρ) α)
    (hj : ¬ ∃ r, p.routes[j.toNat]? = some (some r)) :
    after ((hasPoint R j t >>= k) p) = p := by
  rw [bind_apply]
  cases hj' : p.routes[j.toNat]? with
  | none => rw [hasPoint, onRoute_outOfRange _ hj', after_error]
  | some x =>
    cases x with
    | none =>
      simp only [hasPoint, onRoute, hj']
      rfl
    | some r => exact absurd ⟨r, hj'⟩ hj

/-- `addTrackPoint` is refused when the route is not there, or has a point with this time. -/
theorem addTrackPoint_refused (hR : R.Lawful filing) (j k : UInt16) (t : τ)
    (hp : p.finished = false) (h : Refused (outcome (addTrackPoint R j k t p))) :
    after (addTrackPoint R j k t p) = p := by
  by_cases hj : ∃ r, p.routes[j.toNat]? = some (some r)
  · obtain ⟨r, hj⟩ := hj
    cases hmem : R.hasPoint r t with
    | true =>
      unfold addTrackPoint
      rw [whenOpen_apply _ hp, bind_apply, hasPoint_apply t hj, hmem]
      rfl
    | false =>
      obtain ⟨r', hrun, -⟩ := addTrackPoint_apply (k := k) (t := t) hR hp hj
      rw [hrun, outcome_ok, hmem] at h
      exact absurd rfl h.ne_ok_true
  · unfold addTrackPoint
    rw [whenOpen_apply _ hp]
    exact hasPoint_none t _ hj

/-- `addTrackPointData` that is refused has added the point, if it was not there. -/
theorem addTrackPointDataWith_refused (hR : R.Lawful filing) {m : EStateM Exn ρ Bool}
    (hm : AllOrNothing m) (j k : UInt16) (t : τ) (hp : p.finished = false)
    (h : Refused (outcome (addTrackPointDataWith R m j k t p))) :
    ((¬ ∃ r, p.routes[j.toNat]? = some (some r) ∧ R.hasPoint r t = false) ∧
        after (addTrackPointDataWith R m j k t p) = p) ∨
      (∃ r, p.routes[j.toNat]? = some (some r) ∧ R.hasPoint r t = false) ∧
        after (addTrackPointDataWith R m j k t p) = after (addTrackPoint R j k t p) := by
  by_cases hj : ∃ r, p.routes[j.toNat]? = some (some r)
  · obtain ⟨r, hj⟩ := hj
    unfold addTrackPointDataWith at h ⊢
    rw [whenOpen_apply _ hp] at h ⊢
    simp only [bind_apply, hasPoint_apply t hj] at h ⊢
    cases hmem : R.hasPoint r t with
    | true =>
      -- the data are for a point that is there
      simp only [hmem, Bool.not_true, Bool.false_eq_true, if_false] at h ⊢
      refine .inl ⟨?_, onRoute_refused hm j h⟩
      rintro ⟨r', hr', hfalse⟩
      rw [hj, Option.some.injEq, Option.some.injEq] at hr'
      rw [← hr', hmem] at hfalse
      cases hfalse
    | false =>
      obtain ⟨r', hrun, -⟩ := addTrackPoint_apply (k := k) (t := t) hR hp hj
      simp only [hmem, Bool.not_false, if_true, bind_apply, hrun] at h ⊢
      exact .inr ⟨⟨r, hj, hmem⟩, onRoute_refused hm j h⟩
  · refine .inl ⟨fun ⟨r, hr, _⟩ => hj ⟨r, hr⟩, ?_⟩
    unfold addTrackPointDataWith
    rw [whenOpen_apply _ hp]
    exact hasPoint_none t _ hj

theorem not_newDataPoint {c : RouteCall τ} (hc : c.dataPoint = none) (j k : UInt16) (t : τ) :
    ¬ NewDataPoint R p c j k t := by
  intro hnew
  rw [hnew.1] at hc
  cases hc

/-- The setters of a route. -/
theorem setter_refused {c : RouteCall τ} {j : UInt16} {m : EStateM Exn ρ Bool}
    (hrun : run R c = whenOpen (onRoute j m)) (hm : AllOrNothing m) (hp : p.finished = false)
    (h : Refused (outcome (run R c p))) : after (run R c p) = p := by
  rw [hrun, whenOpen_apply _ hp] at h ⊢
  exact onRoute_refused hm j h

/-- The overloads of `addTrackPointData`. -/
theorem data_refused (hR : R.Lawful filing) {c : RouteCall τ} {j k : UInt16} {t : τ}
    {m : EStateM Exn ρ Bool} (hc : c.dataPoint = some (j, k, t))
    (hrun : run R c = addTrackPointDataWith R m j k t) (hm : AllOrNothing m)
    (hp : p.finished = false) (h : Refused (outcome (run R c p))) :
    ((∀ j k t, ¬ NewDataPoint R p c j k t) ∧ after (run R c p) = p) ∨
      ∃ j k t, NewDataPoint R p c j k t ∧ after (run R c p) = after (addTrackPoint R j k t p) := by
  rw [hrun] at h ⊢
  rcases addTrackPointDataWith_refused hR hm j k t hp h with ⟨hold, hsame⟩ | ⟨hnew, hadded⟩
  · refine .inl ⟨fun j' k' t' hnew => ?_, hsame⟩
    -- the point is the one that the call names
    have hnamed := hc.symm.trans hnew.1
    cases hnamed
    exact hold hnew.2.2
  · exact .inr ⟨j, k, t, ⟨hc, hp, hnew⟩, hadded⟩

/-- **What a refused call has changed.** -/
theorem run_refused (hR : R.Lawful filing) (hcareful : R.Careful) (p : ProviderGpsRouteWriter ρ)
    (c : RouteCall τ) (h : Refused (outcome (run R c p))) :
    ((∀ j k t, ¬ NewDataPoint R p c j k t) ∧ after (run R c p) = p) ∨
      ∃ j k t, NewDataPoint R p c j k t ∧ after (run R c p) = after (addTrackPoint R j k t p) := by
  cases hfin : p.finished with
  | true =>
    rw [run_of_finished c hfin, after_ok]
    refine .inl ⟨fun j k t hnew => ?_, rfl⟩
    rw [hnew.2.1] at hfin
    cases hfin
  | false =>
    cases c with
    | setNumTracks num =>
      refine .inl ⟨not_newDataPoint rfl, ?_⟩
      rw [run, setNumTracks_apply num hfin] at h ⊢
      by_cases hlt : num.toNat < p.routes.length
      · rw [if_pos hlt, after_ok]
      · rw [if_neg hlt] at h
        exact absurd rfl h.ne_ok_true
    | setTrackTitle j title =>
      exact .inl ⟨not_newDataPoint rfl, setter_refused rfl (hcareful.setTitle title) hfin h⟩
    | setTrackSummary j summary =>
      exact .inl ⟨not_newDataPoint rfl, setter_refused rfl (hcareful.setSummary summary) hfin h⟩
    | setTrackDetails j details =>
      exact .inl ⟨not_newDataPoint rfl, setter_refused rfl (hcareful.setDetails details) hfin h⟩
    | setTrackActivityType j type =>
      exact .inl ⟨not_newDataPoint rfl, setter_refused rfl (hcareful.setActivityType type) hfin h⟩
    | setTrackOriginalHash j hash =>
      -- it returns true
      rw [run, setTrackOriginalHash, whenOpen_apply _ hfin] at h
      exact absurd rfl h.ne_ok_true
    | addTrackPoint j k t =>
      exact .inl ⟨not_newDataPoint rfl, addTrackPoint_refused hR j k t hfin h⟩
    | addTrackPointDataString j k t type value =>
      apply data_refused hR rfl rfl _ hfin h
      exact hcareful.addPointDataString k t type value true
    | addTrackPointData j k t type value =>
      apply data_refused hR rfl rfl _ hfin h
      exact hcareful.addPointData k t type value

/-- A class of routes that keeps the times of the points, and refuses all data. -/
def refusingRoute : RouteClass (List (UInt16 × List ℕ)) ℕ :=
  { timesRoute with
    addPointDataString := fun _ _ _ _ _ => return false
    addPointData := fun _ _ _ _ => return false }

theorem refusingRoute_lawful : refusingRoute.Lawful timesFiling :=
  { timesRoute_lawful with }

theorem refusingRoute_careful : refusingRoute.Careful := by
  constructor <;> intros <;> exact fun _ _ => rfl

/-- Data that were refused have left a segment and a point. -/
theorem refused_data_leave_point :
    refusingRoute.Lawful timesFiling ∧ refusingRoute.Careful ∧
      ∃ p, Session (object refusingRoute) (create false)
          [(.mutator (.setNumTracks 1), .ok (some true))] p ∧
        outcome (run refusingRoute (.addTrackPointDataString 0 0 5 [] []) p) = .ok false ∧
        p.routes = [some []] ∧
        (after (run refusingRoute (.addTrackPointDataString 0 0 5 [] []) p)).routes =
          [some [(0, [5])]] ∧
        after (run refusingRoute (.addTrackPointDataString 0 0 5 [] []) p) ≠ p := by
  have h₀ : Session (object refusingRoute) (create false) [] _ := .start
  have h₁ := h₀.returned (c := .mutator (.setNumTracks 1)) (r := some true) trivial
    (by simp [Object.Alive]) rfl
  refine ⟨refusingRoute_lawful, refusingRoute_careful, _, h₁, rfl, rfl, rfl, fun hsame => ?_⟩
  exact absurd (congrArg ProviderGpsRouteWriter.routes hsame) (by decide)

/-- Data that were refused for a point that was there. -/
theorem refused_data_old_point :
    after (run refusingRoute (.addTrackPointDataString 0 1 5 [] []) ⟨false, [some [(0, [5])]]⟩) =
      ⟨false, [some [(0, [5])]]⟩ := by
  rcases run_refused refusingRoute_lawful refusingRoute_careful ⟨false, [some [(0, [5])]]⟩
    (.addTrackPointDataString 0 1 5 [] []) (.inl rfl) with ⟨-, hsame⟩ | ⟨j, k, t, hnew, -⟩
  · exact hsame
  · obtain ⟨hpoint, -, r, hr, hfalse⟩ := hnew
    cases hpoint
    cases hr
    cases hfalse

end ProviderGpsRouteWriter

end Libgpsfile2
