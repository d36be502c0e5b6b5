import Libgpsfile2.Gpx.Indices
import Libgpsfile2.Library.View

/-!
# Routes do not interfere with each other

A mutator works on one route, except `setNumTracks`. Who is interested in the route `j` sees the
flag, the number of routes, and the slot `j` (`glimpse`), and that is all that matters to the calls
that concern the route (`glimpse_observes`). So the calls for the other routes can be left out of a
session (`session_route`), and the calls for different routes may be interleaved in any way
(`session_interleaving`).
-/

namespace Libgpsfile2

namespace ProviderGpsRouteWriter

variable {ρ τ α : Type} {R : RouteClass ρ τ}

/-- The calls that concern the route `j`: those for this route, and those for all routes. -/
def Call.concerns (j : ℕ) : Call τ → Bool
  | .mutator c => c.routeNum.all fun i => decide (i.toNat = j)
  | .finished => true

/-- What is to be seen of the route `j`. -/
def glimpse (j : ℕ) (p : ProviderGpsRouteWriter ρ) : Bool × ℕ × Option (Option ρ) :=
  (p.finished, p.routes.length, p.routes[j]?)

theorem glimpse_eq_iff {j : ℕ} {p q : ProviderGpsRouteWriter ρ} :
    glimpse j p = glimpse j q ↔
      p.finished = q.finished ∧ p.routes.length = q.routes.length ∧
        p.routes[j]? = q.routes[j]? := by
  simp [glimpse]

/-- Who sees every route sees everything. -/
theorem glimpse_ext {p q : ProviderGpsRouteWriter ρ} (h : ∀ j, glimpse j p = glimpse j q) :
    p = q := by
  obtain ⟨finished, routes⟩ := p
  obtain ⟨finished', routes'⟩ := q
  obtain rfl : finished = finished' := (glimpse_eq_iff.1 (h 0)).1
  obtain rfl : routes = routes' := List.ext_getElem? fun j => (glimpse_eq_iff.1 (h j)).2.2
  rfl

/-! ### The calls for a route -/

theorem whenOpen_respects {j : ℕ} {m : EStateM Exn (ProviderGpsRouteWriter ρ) Bool}
    (hm : Respects (glimpse j) m) : Respects (glimpse j) (whenOpen m) := by
  intro p q h
  have hflag := (glimpse_eq_iff.1 h).1
  simp only [whenOpen, bind_apply, get_apply, hflag]
  exact (Respects.ite (.pure false) hm) p q h

theorem onRoute_respects (i : UInt16) (m : EStateM Exn ρ α) :
    Respects (glimpse i.toNat) (onRoute i m) := by
  intro p q h
  obtain ⟨hflag, hlen, hslot⟩ := glimpse_eq_iff.1 h
  unfold onRoute
  rw [hslot]
  split
  · exact ⟨rfl, h⟩
  · exact ⟨rfl, h⟩
  · case h_3 r _ =>
    unfold onPart
    cases m r <;> refine ⟨rfl, glimpse_eq_iff.2 ⟨hflag, ?_, ?_⟩⟩ <;>
      simp only [after_ok, after_error, List.length_set, List.getElem?_set_self', hlen, hslot]

theorem addTrackPoint_respects (i k : UInt16) (t : τ) :
    Respects (glimpse i.toNat) (addTrackPoint R i k t) := by
  refine whenOpen_respects (.bind (onRoute_respects i _) fun found => ?_)
  refine .ite (.pure false) (.bind (onRoute_respects i _) fun seg => ?_)
  refine .ite ?_ (onRoute_respects i _)
  exact .bind (onRoute_respects i _) fun _ => onRoute_respects i _

theorem addTrackPointDataWith_respects (m : EStateM Exn ρ Bool) (i k : UInt16) (t : τ) :
    Respects (glimpse i.toNat) (addTrackPointDataWith R m i k t) := by
  refine whenOpen_respects (.bind (onRoute_respects i _) fun found => ?_)
  refine .ite ?_ (onRoute_respects i m)
  exact .bind (addTrackPoint_respects i k t) fun _ => onRoute_respects i m

/-- `setNumTracks` does the same to every slot. -/
theorem setNumTracks_respects (j : ℕ) (num : UInt16) :
    Respects (glimpse j) (setNumTracks R num) := by
  intro p q h
  obtain ⟨hflag, hlen, hslot⟩ := glimpse_eq_iff.1 h
  by_cases hp : p.finished = true
  · have hq : q.finished = true := hflag ▸ hp
    rw [← run, run_of_finished _ hp, run_of_finished _ hq]
    exact ⟨rfl, h⟩
  · have hp' : p.finished = false := by simpa using hp
    have hq' : q.finished = false := hflag ▸ hp'
    rw [setNumTracks_apply num hp', setNumTracks_apply num hq', hlen]
    split_ifs
    · exact ⟨rfl, h⟩
    · refine ⟨rfl, glimpse_eq_iff.2 ⟨hflag, ?_, ?_⟩⟩
      · simp only [after_ok, resize, List.length_map, List.length_append, List.length_replicate,
          hlen]
      · simp only [after_ok, resize, List.getElem?_map, List.getElem?_append, hlen, hslot]

theorem run_respects {j : ℕ} {c : RouteCall τ} (hc : (Call.mutator c).concerns j = true) :
    Respects (glimpse j) (run R c) := by
  have hnum : ∀ i, c.routeNum = some i → i.toNat = j := by
    intro i hi
    simpa [Call.concerns, hi] using hc
  cases c with
  | setNumTracks num => exact setNumTracks_respects j num
  | setTrackOriginalHash i hash => exact whenOpen_respects (.pure true)
  | addTrackPoint i k t =>
    obtain rfl := hnum i rfl
    exact addTrackPoint_respects i k t
  | addTrackPointDataString i k t type value =>
    obtain rfl := hnum i rfl
    exact addTrackPointDataWith_respects _ i k t
  | addTrackPointData i k t type value =>
    obtain rfl := hnum i rfl
    exact addTrackPointDataWith_respects _ i k t
  | _ =>
    obtain rfl := hnum _ rfl
    exact whenOpen_respects (onRoute_respects _ _)

/-! ### The calls for other routes -/

/-- Nothing is to be seen of the change in the slot `j`. -/
def Unseen (j : ℕ) (p q : ProviderGpsRouteWriter ρ) : Prop := glimpse j q = glimpse j p

theorem Unseen.refl (j : ℕ) (p : ProviderGpsRouteWriter ρ) : Unseen j p p := rfl

theorem Unseen.trans (j : ℕ) (p q r : ProviderGpsRouteWriter ρ) (h : Unseen j p q)
    (h' : Unseen j q r) : Unseen j p r := Eq.trans h' h

theorem whenOpen_unseen {j : ℕ} {m : EStateM Exn (ProviderGpsRouteWriter ρ) Bool}
    (hm : Along (Unseen j) m) : Along (Unseen j) (whenOpen m) := by
  refine .bind (Unseen.trans j) (.get (Unseen.refl j)) fun p => ?_
  exact .ite (.pure (Unseen.refl j) false) hm

theorem onRoute_unseen {i : UInt16} {j : ℕ} (hij : i.toNat ≠ j) (m : EStateM Exn ρ α) :
    Along (Unseen j) (onRoute i m : EStateM Exn (ProviderGpsRouteWriter ρ) α) := by
  intro p
  unfold onRoute
  split
  · exact Unseen.refl j p
  · exact Unseen.refl j p
  · case h_3 r _ =>
    unfold onPart
    cases m r <;> refine glimpse_eq_iff.2 ⟨rfl, List.length_set .., ?_⟩ <;>
      exact List.getElem?_set_ne hij

theorem addTrackPoint_unseen {i : UInt16} {j : ℕ} (hij : i.toNat ≠ j) (k : UInt16) (t : τ) :
    Along (Unseen j) (addTrackPoint R i k t) := by
  have htrans := Unseen.trans (ρ := ρ) j
  refine whenOpen_unseen (.bind htrans (onRoute_unseen hij _) fun found => ?_)
  refine .ite (.pure (Unseen.refl j) false) (.bind htrans (onRoute_unseen hij _) fun seg => ?_)
  refine .ite ?_ (onRoute_unseen hij _)
  exact .bind htrans (onRoute_unseen hij _) fun _ => onRoute_unseen hij _

theorem addTrackPointDataWith_unseen {i : UInt16} {j : ℕ} (hij : i.toNat ≠ j)
    (m : EStateM Exn ρ Bool) (k : UInt16) (t : τ) :
    Along (Unseen j) (addTrackPointDataWith R m i k t) := by
  have htrans := Unseen.trans (ρ := ρ) j
  refine whenOpen_unseen (.bind htrans (onRoute_unseen hij _) fun found => ?_)
  refine .ite ?_ (onRoute_unseen hij m)
  exact .bind htrans (addTrackPoint_unseen hij k t) fun _ => onRoute_unseen hij m

theorem run_unseen {j : ℕ} {c : RouteCall τ} (hc : (Call.mutator c).concerns j = false) :
    Along (Unseen j) (run R c) := by
  have hnum : ∀ i, c.routeNum = some i → i.toNat ≠ j := by
    intro i hi
    simpa [Call.concerns, hi] using hc
  cases c with
  | setNumTracks num => simp [Call.concerns, RouteCall.routeNum] at hc
  | setTrackOriginalHash i hash => exact whenOpen_unseen (.pure (Unseen.refl j) true)
  | addTrackPoint i k t => exact addTrackPoint_unseen (hnum i rfl) k t
  | addTrackPointDataString i k t type value =>
    exact addTrackPointDataWith_unseen (hnum i rfl) _ k t
  | addTrackPointData i k t type value => exact addTrackPointDataWith_unseen (hnum i rfl) _ k t
  | _ => exact whenOpen_unseen (onRoute_unseen (hnum _ rfl) _)

/-! ### Sessions -/

theorem outcome_mutator (c : RouteCall τ) (p : ProviderGpsRouteWriter ρ) :
    outcome ((object R).call (.mutator c) p) = (outcome (run R c p)).map some := by
  show outcome ((Call.mutator c).run R p) = _
  unfold Call.run
  exact outcome_bind_pure (run R c) some p

theorem outcome_finished (p : ProviderGpsRouteWriter ρ) :
    outcome ((object R).call .finished p) = .ok none := by
  show outcome (Call.finished.run R p) = _
  simp only [Call.run, finish, bind_apply, get_apply]
  by_cases hp : p.finished = true
  · rw [if_pos hp]
    rfl
  · rw [if_neg hp]
    rfl

/-- **The slot of a route is all that matters to the calls that concern it.** -/
theorem glimpse_observes (R : RouteClass ρ τ) (j : ℕ) :
    (object R).Observes (fun _ => True) (glimpse j) (Call.concerns j) where
  invariant _ _ _ _ := trivial
  skip p c _ _ hc := by
    cases c with
    | mutator c =>
      rw [after_mutator]
      exact run_unseen hc p
    | finished => cases hc
  permitted _ _ _ _ _ _ _ _ := trivial
  respects p q c _ _ h hc _ := by
    cases c with
    | mutator c =>
      obtain ⟨hout, hview⟩ := run_respects (R := R) hc p q h
      rw [outcome_mutator, outcome_mutator, after_mutator, after_mutator, hout]
      exact ⟨rfl, hview⟩
    | finished =>
      obtain ⟨-, hlen, hslot⟩ := glimpse_eq_iff.1 h
      rw [outcome_finished, outcome_finished, after_finished, after_finished]
      exact ⟨rfl, glimpse_eq_iff.2 ⟨rfl, hlen, hslot⟩⟩

variable {v : Bool} {h h' : History (Call τ) (Option Bool) Exn} {p p' : ProviderGpsRouteWriter ρ}

/-- **A route depends on its own calls only**: without the calls for the other routes the session is
a session, its calls return the same, and the route is the same in the end. -/
theorem session_route (hs : Session (object R) (create v) h p) (j : ℕ) :
    ∃ q, Session (object R) (create v) (h.seen (Call.concerns j)) q ∧
      q.finished = p.finished ∧ q.routes.length = p.routes.length ∧
        q.routes[j]? = p.routes[j]? := by
  obtain ⟨q, hq, hview⟩ := hs.leaveOut (glimpse_observes R j) trivial
  exact ⟨q, hq, glimpse_eq_iff.1 hview⟩

/-- The point of the other route can be left out. -/
theorem session_route_alone :
    ∃ p q, Session (object timesRoute) (create false)
        [(.mutator (.setNumTracks 2), .ok (some true)),
          (.mutator (.addTrackPoint 0 0 5), .ok (some true)),
          (.mutator (.addTrackPoint 1 3 5), .ok (some true))] p ∧
      Session (object timesRoute) (create false)
        [(.mutator (.setNumTracks 2), .ok (some true)),
          (.mutator (.addTrackPoint 1 3 5), .ok (some true))] q ∧ q.routes[1]? = p.routes[1]? := by
  have h₀ : Session (object timesRoute) (create false) [] _ := .start
  have h₁ := h₀.returned (c := .mutator (.setNumTracks 2)) (r := some true) trivial
    (by simp [Object.Alive]) rfl
  have h₂ := h₁.returned (c := .mutator (.addTrackPoint 0 0 5)) (r := some true) trivial
    (by simp [Object.Alive]) rfl
  have h₃ := h₂.returned (c := .mutator (.addTrackPoint 1 3 5)) (r := some true) trivial
    (by simp [Object.Alive]) rfl
  obtain ⟨q, hq, -, -, hroute⟩ := session_route h₃ 1
  exact ⟨_, q, h₃, hq, hroute⟩

/-- **The calls for different routes may be interleaved in any way.** -/
theorem session_interleaving (hs : Session (object R) (create v) h p)
    (hs' : Session (object R) (create v) h' p')
    (hcalls : ∀ j, (h.map Prod.fst).filter (Call.concerns j) =
      (h'.map Prod.fst).filter (Call.concerns j)) :
    p = p' ∧ ∀ j, h.seen (Call.concerns j) = h'.seen (Call.concerns j) :=
  hs.interleaving (glimpse_observes R) trivial (fun _ _ => glimpse_ext) hs' hcalls

/-- Two points of different routes, in either order. -/
theorem session_interleaving_swap :
    ∃ p, Session (object timesRoute) (create false)
        [(.mutator (.setNumTracks 2), .ok (some true)),
          (.mutator (.addTrackPoint 0 0 5), .ok (some true)),
          (.mutator (.addTrackPoint 1 3 5), .ok (some true))] p ∧
      Session (object timesRoute) (create false)
        [(.mutator (.setNumTracks 2), .ok (some true)),
          (.mutator (.addTrackPoint 1 3 5), .ok (some true)),
          (.mutator (.addTrackPoint 0 0 5), .ok (some true))] p := by
  have h₀ : Session (object timesRoute) (create false) [] _ := .start
  have h₁ := h₀.returned (c := .mutator (.setNumTracks 2)) (r := some true) trivial
    (by simp [Object.Alive]) rfl
  have h₂ := h₁.returned (c := .mutator (.addTrackPoint 0 0 5)) (r := some true) trivial
    (by simp [Object.Alive]) rfl
  have h₃ := h₂.returned (c := .mutator (.addTrackPoint 1 3 5)) (r := some true) trivial
    (by simp [Object.Alive]) rfl
  have h₂' := h₁.returned (c := .mutator (.addTrackPoint 1 3 5)) (r := some true) trivial
    (by simp [Object.Alive]) rfl
  have h₃' := h₂'.returned (c := .mutator (.addTrackPoint 0 0 5)) (r := some true) trivial
    (by simp [Object.Alive]) rfl
  obtain ⟨heq, -⟩ := session_interleaving h₃ h₃' fun j => by
    rcases j with _ | _ | j <;> rfl
  exact ⟨_, h₃, heq ▸ h₃'⟩

end ProviderGpsRouteWriter

end Libgpsfile2
