import Libgpsfile2.Gpx.Indices
import Libgpsfile2.Provider.ProviderStore

/-!
# A provider as a family of routes

A mutator asks something of one route (`RouteCall.ask`), and the provider passes it on to the route
in the slot: `run_onRoute`. So what a list of calls makes of a route is what the route itself makes
of them, one after the other (`RouteCall.askAll`), whatever else the provider is asked in between.
-/

namespace Libgpsfile2

variable {ρ τ α β : Type}

/-- `addTrackPoint`, as the route sees it. -/
def RouteClass.takePoint (R : RouteClass ρ τ) (segmentNum : UInt16) (time : τ) :
    EStateM Exn ρ Bool := do
  if R.hasPoint (← get) time then return false
  else
    if !R.hasSegment (← get) segmentNum then R.addSegment segmentNum
    R.addPoint segmentNum time

/-- `addTrackPointData`, as the route sees it. -/
def RouteClass.takeData (R : RouteClass ρ τ) (addPointData : EStateM Exn ρ Bool)
    (segmentNum : UInt16) (time : τ) : EStateM Exn ρ Bool := do
  if !R.hasPoint (← get) time then
    let _ ← R.takePoint segmentNum time
  addPointData

/-- What a mutator asks of its route. `setNumTracks` asks nothing. -/
def RouteCall.ask (R : RouteClass ρ τ) : RouteCall τ → EStateM Exn ρ Bool
  | .setNumTracks _ => return true
  | .setTrackTitle _ title => R.setTitle title
  | .setTrackSummary _ summary => R.setSummary summary
  | .setTrackDetails _ details => R.setDetails details
  | .setTrackActivityType _ type => R.setActivityType type
  | .setTrackOriginalHash _ _ => return true
  | .addTrackPoint _ segmentNum time => R.takePoint segmentNum time
  | .addTrackPointDataString _ segmentNum time type value =>
      R.takeData (R.addPointDataString segmentNum time type value true) segmentNum time
  | .addTrackPointData _ segmentNum time type value =>
      R.takeData (R.addPointData segmentNum time type value) segmentNum time

/-- A route after it was asked what the calls ask. -/
def RouteCall.askAll (R : RouteClass ρ τ) (calls : List (RouteCall τ)) (r : ρ) : ρ :=
  calls.foldl (fun r c => after (c.ask R r)) r

namespace ProviderGpsRouteWriter

variable {R : RouteClass ρ τ} {filing : ρ → Filing UInt16 τ} {p : ProviderGpsRouteWriter ρ} {r : ρ}
  {j : UInt16}

/-! ### Programs over one route -/

theorem onRoute_pure (a : α) (hj : p.routes[j.toNat]? = some (some r)) :
    onRoute j (pure a) p = .ok a p := by
  rw [onRoute_apply _ hj, pure_apply]
  simp only [setRoute_self hj]

theorem onRoute_bind (m : EStateM Exn ρ α) (k : α → EStateM Exn ρ β)
    (hj : p.routes[j.toNat]? = some (some r)) :
    onRoute j (m >>= k) p = (onRoute j m >>= fun a => onRoute j (k a)) p := by
  rw [bind_apply, onRoute_apply _ hj, onRoute_apply _ hj, bind_apply]
  cases m r with
  | error e r' => rfl
  | ok a r' =>
    simp only
    rw [onRoute_apply _ (getElem?_setRoute hj r')]
    simp only [setRoute_setRoute]

/-- The slot of a route that was asked something holds a route. -/
theorem exists_route_of_ok {m : EStateM Exn ρ α} {a : α} {p' : ProviderGpsRouteWriter ρ}
    (h : onRoute j m p = .ok a p') : ∃ r, p.routes[j.toNat]? = some (some r) := by
  unfold onRoute at h
  split at h
  · cases h
  · cases h
  · case h_3 r hj => exact ⟨r, hj⟩

theorem takePoint_onRoute (hp : p.finished = false) (k : UInt16) (t : τ)
    (hj : p.routes[j.toNat]? = some (some r)) :
    addTrackPoint R j k t p = onRoute j (R.takePoint k t) p := by
  unfold addTrackPoint RouteClass.takePoint
  rw [whenOpen_apply _ hp, onRoute_bind _ _ hj, bind_apply, bind_apply, hasPoint_apply t hj,
    onRoute_apply _ hj, get_apply]
  simp only [setRoute_self hj]
  by_cases hmem : R.hasPoint r t = true
  · rw [if_pos hmem, if_pos hmem, onRoute_pure false hj, pure_apply]
  · rw [if_neg hmem, if_neg hmem, onRoute_bind _ _ hj, bind_apply, bind_apply,
      hasSegment_apply k hj, onRoute_apply _ hj, get_apply]
    simp only [setRoute_self hj]
    by_cases hseg : R.hasSegment r k = true
    · simp only [hseg, Bool.not_true, Bool.false_eq_true, if_false]
    · simp only [hseg, Bool.not_false, if_true]
      exact (onRoute_bind _ _ hj).symm

theorem takeData_onRoute (hp : p.finished = false) (m : EStateM Exn ρ Bool) (k : UInt16) (t : τ)
    (hj : p.routes[j.toNat]? = some (some r)) :
    addTrackPointDataWith R m j k t p = onRoute j (R.takeData m k t) p := by
  unfold addTrackPointDataWith RouteClass.takeData
  rw [whenOpen_apply _ hp, onRoute_bind _ _ hj, bind_apply, bind_apply, hasPoint_apply t hj,
    onRoute_apply _ hj, get_apply]
  simp only [setRoute_self hj]
  by_cases hmem : R.hasPoint r t = true
  · simp only [hmem, Bool.not_true, Bool.false_eq_true, if_false]
  · simp only [hmem, Bool.not_false, if_true]
    rw [onRoute_bind _ _ hj, bind_apply, bind_apply, takePoint_onRoute hp k t hj]

/-- **A mutator passes what it asks on to its route.** -/
theorem run_onRoute (hp : p.finished = false) {c : RouteCall τ} (hc : c.routeNum = some j)
    (hj : p.routes[j.toNat]? = some (some r)) : run R c p = onRoute j (c.ask R) p := by
  cases c with
  | setNumTracks num => cases hc
  | setTrackOriginalHash i hash =>
    cases hc
    rw [RouteCall.ask, onRoute_pure true hj]
    exact whenOpen_apply _ hp
  | addTrackPoint i k t =>
    cases hc
    exact takePoint_onRoute hp k t hj
  | addTrackPointDataString i k t type value =>
    cases hc
    exact takeData_onRoute hp _ k t hj
  | addTrackPointData i k t type value =>
    cases hc
    exact takeData_onRoute hp _ k t hj
  | _ =>
    cases hc
    exact whenOpen_apply _ hp

/-- A call that returns, other than `setTrackOriginalHash`, has found its route. -/
theorem run_ok {c : RouteCall τ} (hp : p.finished = false) (hc : c.routeNum = some j)
    (hhash : ∀ i hash, c ≠ .setTrackOriginalHash i hash) {b : Bool} {p' : ProviderGpsRouteWriter ρ}
    (h : run R c p = .ok b p') : ∃ r, p.routes[j.toNat]? = some (some r) := by
  have hfound : ∀ (t : τ) (k : Bool → EStateM Exn (ProviderGpsRouteWriter ρ) Bool),
      (hasPoint R j t >>= k) p = .ok b p' → ∃ r, p.routes[j.toNat]? = some (some r) := by
    intro t k h
    rw [bind_apply] at h
    cases hrun : hasPoint R j t p with
    | ok found q => exact exists_route_of_ok hrun
    | error e q =>
      rw [hrun] at h
      cases h
  cases c with
  | setNumTracks num => cases hc
  | setTrackOriginalHash i hash => exact absurd rfl (hhash i hash)
  | addTrackPoint i k t =>
    cases hc
    rw [run, addTrackPoint, whenOpen_apply _ hp] at h
    exact hfound t _ h
  | addTrackPointDataString i k t type value =>
    cases hc
    rw [run, addTrackPointDataString, addTrackPointDataWith, whenOpen_apply _ hp] at h
    exact hfound t _ h
  | addTrackPointData i k t type value =>
    cases hc
    rw [run, addTrackPointData, addTrackPointDataWith, whenOpen_apply _ hp] at h
    exact hfound t _ h
  | _ =>
    cases hc
    exact exists_route_of_ok ((whenOpen_apply _ hp).symm.trans h)

/-! ### The points of a route -/

/-- A route files the point that it is asked about. -/
theorem filing_ask (hR : R.Lawful filing) (c : RouteCall τ) (r : ρ) :
    filing (after (c.ask R r)) =
      c.point.elim (filing r) fun x => (filing r).add x.2.1 x.2.2 := by
  -- the route stands alone in a provider
  have hp : (⟨false, [some r]⟩ : ProviderGpsRouteWriter ρ).finished = false := rfl
  have hj : (⟨false, [some r]⟩ : ProviderGpsRouteWriter ρ).routes[(0 : UInt16).toNat]? =
    some (some r) := rfl
  have hslot : ∀ x y : ρ, (⟨false, [some r]⟩ : ProviderGpsRouteWriter ρ).setRoute 0 x =
      (⟨false, [some r]⟩ : ProviderGpsRouteWriter ρ).setRoute 0 y → x = y := by
    intro x y h
    cases h
    rfl
  have hdata : ∀ k t (m : EStateM Exn ρ Bool), (∀ r, filing (after (m r)) = filing r) →
      filing (after (R.takeData m k t r)) = (filing r).add k t := by
    intro k t m hm
    obtain ⟨r', hrun, hr'⟩ := addTrackPointDataWith_apply (k := k) (t := t) hR m hm hp hj
    rw [takeData_onRoute hp m k t hj, after_onRoute _ hj] at hrun
    rw [hslot _ _ hrun, hr']
  cases c with
  | addTrackPoint i k t =>
    obtain ⟨r', hrun, hr'⟩ := addTrackPoint_apply (k := k) (t := t) hR hp hj
    have hafter := congrArg after hrun
    rw [takePoint_onRoute hp k t hj, after_onRoute _ hj, after_ok] at hafter
    show filing (after (R.takePoint k t r)) = (filing r).add k t
    rw [hslot _ _ hafter, hr']
  | addTrackPointDataString i k t type value =>
    exact hdata k t _ fun r => hR.addPointDataString r k t type value true
  | addTrackPointData i k t type value =>
    exact hdata k t _ fun r => hR.addPointData r k t type value
  | setTrackTitle i s => exact hR.setTitle r s
  | setTrackSummary i s => exact hR.setSummary r s
  | setTrackDetails i s => exact hR.setDetails r s
  | setTrackActivityType i s => exact hR.setActivityType r s
  | setNumTracks num => rfl
  | setTrackOriginalHash i hash => rfl

end ProviderGpsRouteWriter

end Libgpsfile2
