import Libgpsfile2.Gpx.Extensions
import Libgpsfile2.Gpx.Points
import Libgpsfile2.Provider.Routes

/-!
# What a document makes of a provider

Every track of a document asks for a list of calls, `TRK.calls`. In the requests of the document
the tracks come one after the other, and an open `ProviderGpsRouteWriter` passes every request on
to the route with the number of its track. So when `parseData` returns, the route `j` is what the
calls of the track `j` have made of the route that was there (`parseData_provider`), and it returns
when the routes throw nothing, no name is too short and the number of tracks fits
(`parseData_returns`).
-/

namespace Libgpsfile2

variable {π ρ τ : Type} {R : RouteClass ρ τ} {parseTime : TimeParser τ}

theorem RouteClass.Lawful.create_ne_none {filing : ρ → Filing UInt16 τ} (hR : R.Lawful filing) :
    R.create ≠ none := by
  obtain ⟨r, hr, -⟩ := hR.create
  rw [hr]
  exact Option.some_ne_none r

/-! ### The requests of one track -/

/-- The actions for the track number `j`. -/
def TRK.actions (parseTime : TimeParser τ) (j : ℕ) (track : TRK) : List (Action τ) :=
  [.request (.title j (cStr track.name)), .request (.summary j (cStr track.cmt)),
    .request (.details j (cStr track.desc))] ++ segmentsActions parseTime j 0 track.trksegs

/-- What the track number `j` asks for. -/
def TRK.requests (parseTime : TimeParser τ) (j : ℕ) (track : TRK) : List (Request τ) :=
  reached (track.actions parseTime j)

/-- The calls for the track number `j`. -/
def TRK.calls (parseTime : TimeParser τ) (j : ℕ) (track : TRK) : List (RouteCall τ) :=
  (track.requests parseTime j).map Request.call

/-- The calls for the track number `j` of a document. -/
def GPX.trackCalls (parseTime : TimeParser τ) (root : GPX) (j : ℕ) : List (RouteCall τ) :=
  root.trks[j]?.elim [] (TRK.calls parseTime j)

theorem tracksActions_cons (parseTime : TimeParser τ) (j : ℕ) (track : TRK) (tracks : List TRK) :
    tracksActions parseTime j (track :: tracks) =
      track.actions parseTime j ++ tracksActions parseTime (j + 1) tracks := by
  rw [tracksActions, TRK.actions, List.append_assoc]

theorem TRK.track_requests {j : ℕ} {track : TRK} {r : Request τ}
    (h : r ∈ track.requests parseTime j) : r.track = j := by
  have hwithin : ∀ a ∈ track.actions parseTime j, a.Within j (j + 1) := by
    intro a ha
    rcases List.mem_append.1 ha with ha | ha
    · simp only [List.mem_cons, List.not_mem_nil, or_false] at ha
      rcases ha with rfl | rfl | rfl <;> exact ⟨le_rfl, Nat.lt_succ_self j⟩
    · exact segmentsActions_within ha
  rcases mem_reached h with h | h
  · obtain ⟨hle, hlt⟩ := hwithin _ h
    omega
  · obtain ⟨hle, hlt⟩ := hwithin _ h
    omega

/-- The requests of a track are those of the document that are about it. -/
theorem filter_tracks (tracks : List TRK) (j : ℕ)
    (hend : .terminate ∉ tracksActions parseTime j tracks) (i : ℕ) :
    (reached (tracksActions parseTime j tracks)).filter (fun r => r.track = j + i) =
      tracks[i]?.elim [] (TRK.requests parseTime (j + i)) := by
  induction tracks generalizing j i with
  | nil => rfl
  | cons track tracks ih =>
    rw [tracksActions_cons, List.mem_append, not_or] at hend
    rw [tracksActions_cons, reached_append hend.1, List.filter_append]
    cases i with
    | zero =>
      -- the later tracks have larger numbers
      have hown : (reached (track.actions parseTime j)).filter (fun r => r.track = j + 0) =
          reached (track.actions parseTime j) :=
        List.filter_eq_self.2 fun r hr => decide_eq_true (TRK.track_requests hr)
      have hlater : (reached (tracksActions parseTime (j + 1) tracks)).filter
          (fun r => r.track = j + 0) = [] := by
        apply List.filter_eq_nil_iff.2
        intro r hr
        have hle : j + 1 ≤ r.track := by
          rcases mem_reached hr with h | h <;> exact (tracksActions_within h).1
        simp only [decide_eq_true_eq]
        omega
      rw [hown, hlater, List.append_nil]
      rfl
    | succ i =>
      have hown : (reached (track.actions parseTime j)).filter (fun r => r.track = j + (i + 1)) =
          [] := by
        apply List.filter_eq_nil_iff.2
        intro r hr
        have := TRK.track_requests hr
        simp only [decide_eq_true_eq]
        omega
      have hnum : j + (i + 1) = j + 1 + i := by omega
      rw [hown, List.nil_append, hnum, ih (j + 1) hend.2 i]
      rfl

theorem GPX.filter_requests {root : GPX}
    (hend : .terminate ∉ tracksActions parseTime 0 root.trks) (j : ℕ) :
    ((root.requests parseTime).filter fun r => r.track = j).map Request.call =
      root.trackCalls parseTime j := by
  have hfilter := filter_tracks root.trks 0 hend j
  rw [Nat.zero_add] at hfilter
  rw [GPX.requests, hfilter, GPX.trackCalls]
  cases root.trks[j]? <;> rfl

theorem Request.routeNum_call (r : Request τ) : r.call.routeNum = some (UInt16.ofNat r.track) := by
  cases r <;> rfl

theorem Request.call_ne_hash (r : Request τ) (i : UInt16) (hash : StdString) :
    r.call ≠ .setTrackOriginalHash i hash := by
  cases r <;> exact fun h => by cases h

/-! ### Documents that can be passed on -/

/-- No name below an extensions element is too short. -/
def GPX.NamesFit (root : GPX) : Prop :=
  ∀ track ∈ root.trks, ∀ segment ∈ track.trksegs, ∀ point ∈ segment.trkpts,
    Libgpsfile2.NamesFit [] point.extensions

/-- The document can be passed on: its tracks can be numbered, and no name is too short. -/
structure GPX.Importable (root : GPX) : Prop where
  length : root.trks.length < 65536
  names : root.NamesFit

section Names

variable (parseTime : TimeParser τ)

theorem terminate_pointActions (j k : ℕ) (point : WPT) :
    .terminate ∉ pointActions parseTime j k point ↔ NamesFit [] point.extensions := by
  rw [pointActions, List.mem_append, not_or,
    terminate_elementsActions zero_carried point.extensions]
  exact and_iff_right (by simp)

theorem terminate_segmentsActions (j k : ℕ) (segments : List TRKSeg) :
    .terminate ∉ segmentsActions parseTime j k segments ↔
      ∀ segment ∈ segments, ∀ point ∈ segment.trkpts, NamesFit [] point.extensions := by
  induction segments generalizing k with
  | nil => simp [segmentsActions]
  | cons segment segments ih =>
    rw [segmentsActions, List.mem_append, not_or, ih, List.forall_mem_cons]
    simp only [List.mem_flatMap, not_exists, not_and, terminate_pointActions]

theorem terminate_tracksActions (j : ℕ) (tracks : List TRK) :
    .terminate ∉ tracksActions parseTime j tracks ↔ ∀ track ∈ tracks,
      ∀ segment ∈ track.trksegs, ∀ point ∈ segment.trkpts, NamesFit [] point.extensions := by
  induction tracks generalizing j with
  | nil => simp [tracksActions]
  | cons track tracks ih =>
    rw [tracksActions_cons, TRK.actions, List.mem_append, List.mem_append, not_or, not_or, ih,
      terminate_segmentsActions, List.forall_mem_cons]
    exact and_congr_left fun _ => and_iff_right (by simp)

end Names

theorem GPX.Importable.terminate {root : GPX} (hroot : root.Importable)
    (parseTime : TimeParser τ) : .terminate ∉ tracksActions parseTime 0 root.trks :=
  (terminate_tracksActions parseTime 0 root.trks).2 hroot.names

/-! ### Routes that throw nothing -/

/-- No member function of the routes throws. -/
structure RouteClass.Quiet (R : RouteClass ρ τ) : Prop where
  setTitle : ∀ s, Returns (R.setTitle s)
  setSummary : ∀ s, Returns (R.setSummary s)
  setDetails : ∀ s, Returns (R.setDetails s)
  setActivityType : ∀ s, Returns (R.setActivityType s)
  addSegment : ∀ k, Returns (R.addSegment k)
  addPoint : ∀ k t, Returns (R.addPoint k t)
  addPointDataString : ∀ k t type value b, Returns (R.addPointDataString k t type value b)
  addPointData : ∀ k t type value, Returns (R.addPointData k t type value)

theorem RouteClass.Quiet.takePoint (hR : R.Quiet) (k : UInt16) (t : τ) :
    Returns (R.takePoint k t) := by
  refine .bind .get fun r => .ite (.pure false) (.bind .get fun r' => .ite ?_ (hR.addPoint k t))
  exact .bind (hR.addSegment k) fun _ => hR.addPoint k t

theorem RouteClass.Quiet.takeData (hR : R.Quiet) {m : EStateM Exn ρ Bool} (hm : Returns m)
    (k : UInt16) (t : τ) : Returns (R.takeData m k t) := by
  refine .bind .get fun r => .ite ?_ hm
  exact .bind (hR.takePoint k t) fun _ => hm

theorem RouteClass.Quiet.ask (hR : R.Quiet) (c : RouteCall τ) : Returns (c.ask R) := by
  cases c with
  | setNumTracks num => exact .pure true
  | setTrackTitle i s => exact hR.setTitle s
  | setTrackSummary i s => exact hR.setSummary s
  | setTrackDetails i s => exact hR.setDetails s
  | setTrackActivityType i s => exact hR.setActivityType s
  | setTrackOriginalHash i hash => exact .pure true
  | addTrackPoint i k t => exact hR.takePoint k t
  | addTrackPointDataString i k t type value =>
    exact hR.takeData (hR.addPointDataString k t type value true) k t
  | addTrackPointData i k t type value => exact hR.takeData (hR.addPointData k t type value) k t

namespace ProviderGpsRouteWriter

variable {p p' : ProviderGpsRouteWriter ρ} {r : Request τ}

theorem timesRoute_quiet : timesRoute.Quiet where
  setTitle _ r := ⟨true, r, rfl⟩
  setSummary _ r := ⟨true, r, rfl⟩
  setDetails _ r := ⟨true, r, rfl⟩
  setActivityType _ r := ⟨true, r, rfl⟩
  addSegment _ _ := ⟨_, _, rfl⟩
  addPoint _ _ _ := ⟨_, _, rfl⟩
  addPointDataString _ _ _ _ _ _ := ⟨_, _, rfl⟩
  addPointData _ _ _ _ _ := ⟨_, _, rfl⟩

/-! ### One request -/

/-- A request that returns has changed its route, and nothing else. -/
theorem run_request (hp : p.finished = false) {b : Bool} (h : run R r.call p = .ok b p') :
    ∃ x, p.routes[(UInt16.ofNat r.track).toNat]? = some (some x) ∧
      p' = p.setRoute (UInt16.ofNat r.track) (after (r.call.ask R x)) := by
  obtain ⟨x, hx⟩ := run_ok hp r.routeNum_call r.call_ne_hash h
  refine ⟨x, hx, ?_⟩
  rw [← after_onRoute _ hx, ← run_onRoute hp r.routeNum_call hx, h, after_ok]

/-! ### Several requests -/

/-- What returns inside of `noexcept` has returned. -/
theorem noexcept_ok {σ α : Type} {m : EStateM Exn σ α} {s s' : σ} {a : α}
    (h : noexcept m s = .ok a s') : m s = .ok a s' := by
  unfold noexcept at h
  cases hm : m s with
  | ok b t =>
    rw [hm] at h
    exact h
  | error e t =>
    rw [hm] at h
    simp only at h
    split_ifs at h

/-- An action that returns was a request that did. -/
theorem run_action {a : Action τ} {u : Unit} (h : a.run (provider R) p = .ok u p') :
    ∃ r b, (a = .request r ∨ a = .guarded r) ∧ run R r.call p = .ok b p' := by
  cases a with
  | terminate => cases h
  | request r =>
    obtain ⟨b, q, hrun, hpure⟩ := bind_ok h
    cases hpure
    exact ⟨r, b, .inl rfl, hrun⟩
  | guarded r =>
    obtain ⟨b, q, hrun, hpure⟩ := bind_ok (noexcept_ok h)
    cases hpure
    exact ⟨r, b, .inr rfl, hrun⟩

/-- The calls for the requests that are about the route `j`. -/
def callsFor (rs : List (Request τ)) (j : ℕ) : List (RouteCall τ) :=
  (rs.filter fun r => (UInt16.ofNat r.track).toNat = j).map Request.call

theorem callsFor_self {rs : List (Request τ)} {j : ℕ} (hj : (UInt16.ofNat r.track).toNat = j) :
    callsFor (r :: rs) j = r.call :: callsFor rs j := by
  unfold callsFor
  rw [List.filter_cons_of_pos (by simpa using hj), List.map_cons]

theorem callsFor_of_ne {rs : List (Request τ)} {j : ℕ} (hj : (UInt16.ofNat r.track).toNat ≠ j) :
    callsFor (r :: rs) j = callsFor rs j := by
  unfold callsFor
  rw [List.filter_cons_of_neg (by simpa using hj)]

/-- Every route was there, and was asked what the actions for it ask. -/
theorem exec_routes {as : List (Action τ)} {u : Unit} (hp : p.finished = false)
    (h : exec (provider R) as p = .ok u p') :
    .terminate ∉ as ∧ (∀ r ∈ reached as, (UInt16.ofNat r.track).toNat < p.routes.length) ∧
      p'.finished = false ∧ ∀ j : ℕ,
      p'.routes[j]? =
        p.routes[j]?.map (Option.map (RouteCall.askAll R (callsFor (reached as) j))) := by
  induction as generalizing p with
  | nil =>
    cases h
    refine ⟨List.not_mem_nil, fun r hr => absurd hr List.not_mem_nil, hp, fun j => ?_⟩
    have hid : (RouteCall.askAll R (callsFor (reached ([] : List (Action τ))) j)) = id := rfl
    rw [hid, Option.map_id, Option.map_id]
    rfl
  | cons a as ih =>
    obtain ⟨u', q, ha, hrest⟩ := bind_ok h
    obtain ⟨r, b, har, hrun⟩ := run_action ha
    obtain ⟨x, hx, rfl⟩ := run_request hp hrun
    obtain ⟨hend, hthere, hopen, hroutes⟩ := ih (p := p.setRoute _ _) hp hrest
    rw [show (p.setRoute (UInt16.ofNat r.track) (after (r.call.ask R x))).routes.length =
      p.routes.length from List.length_set ..] at hthere
    refine ⟨fun hmem => ?_, ?_, hopen, fun j => ?_⟩
    · rcases List.mem_cons.1 hmem with hmem | hmem
      · rcases har with rfl | rfl <;> cases hmem
      · exact hend hmem
    · rw [reached_cons har, List.forall_mem_cons]
      exact ⟨(List.getElem?_eq_some_iff.1 hx).1, hthere⟩
    · rw [hroutes, reached_cons har]
      by_cases hj : (UInt16.ofNat r.track).toNat = j
      · rw [callsFor_self hj]
        subst hj
        rw [getElem?_setRoute hx, hx]
        rfl
      · have hne : (p.setRoute (UInt16.ofNat r.track) (after (r.call.ask R x))).routes[j]? =
            p.routes[j]? := List.getElem?_set_ne hj
        rw [callsFor_of_ne hj, hne]

/-! ### Requests that throw -/

/-- A request for a route that is not there. -/
theorem run_outOfRange (hp : p.finished = false)
    (hj : p.routes[(UInt16.ofNat r.track).toNat]? = none) :
    run R r.call p = .error .outOfRange p := by
  cases r <;> simp only [Request.track] at hj <;>
    simp only [Request.call, run, setTrackTitle, setTrackSummary, setTrackDetails, addTrackPoint,
      addTrackPointDataString, addTrackPointDataWith, whenOpen_apply _ hp, bind_apply, hasPoint,
      onRoute_outOfRange _ hj]

/-- When the routes throw nothing, a request either returns or finds no route. -/
theorem run_request_cases (hR : R.Quiet) (hp : p.finished = false) (hfull : p.Full)
    (r : Request τ) :
    (∃ b x, (UInt16.ofNat r.track).toNat < p.routes.length ∧
        run R r.call p = .ok b (p.setRoute (UInt16.ofNat r.track) x)) ∨
      p.routes.length ≤ (UInt16.ofNat r.track).toNat ∧ run R r.call p = .error .outOfRange p := by
  rcases hfull.route (UInt16.ofNat r.track).toNat with hnone | ⟨x, hx⟩
  · exact .inr ⟨List.getElem?_eq_none_iff.1 hnone, run_outOfRange hp hnone⟩
  · obtain ⟨b, x', hask⟩ := hR.ask r.call x
    refine .inl ⟨b, x', (List.getElem?_eq_some_iff.1 hx).1, ?_⟩
    rw [run_onRoute hp r.routeNum_call hx, onRoute_apply _ hx, hask]

/-- What an action does to an open provider. -/
theorem action_cases (hR : R.Quiet) (hp : p.finished = false) (hfull : p.Full) (a : Action τ) :
    (a = .terminate ∧ a.run (provider R) p = .error .terminate p) ∨
      ∃ r, (a = .request r ∨ a = .guarded r) ∧
        ((∃ x, (UInt16.ofNat r.track).toNat < p.routes.length ∧
            a.run (provider R) p = .ok () (p.setRoute (UInt16.ofNat r.track) x)) ∨
          p.routes.length ≤ (UInt16.ofNat r.track).toNat ∧
            ∃ e, (e = .outOfRange ∨ e = .terminate) ∧ a.run (provider R) p = .error e p) := by
  have hcall : ∀ r : Request τ, (provider R).call r.call p = run R r.call p := fun r => rfl
  cases a with
  | terminate => exact .inl ⟨rfl, rfl⟩
  | request r =>
    refine .inr ⟨r, .inl rfl, ?_⟩
    rw [Action.run, bind_apply, hcall]
    rcases run_request_cases hR hp hfull r with ⟨b, x, hlt, hrun⟩ | ⟨hle, hrun⟩
    · rw [hrun]
      exact .inl ⟨x, hlt, rfl⟩
    · rw [hrun]
      exact .inr ⟨hle, .outOfRange, .inl rfl, rfl⟩
  | guarded r =>
    refine .inr ⟨r, .inr rfl, ?_⟩
    rw [Action.run, noexcept, bind_apply, hcall]
    rcases run_request_cases hR hp hfull r with ⟨b, x, hlt, hrun⟩ | ⟨hle, hrun⟩
    · rw [hrun]
      exact .inl ⟨x, hlt, rfl⟩
    · rw [hrun]
      exact .inr ⟨hle, .terminate, .inr rfl, rfl⟩

/-- The actions come to their end when every route is there and no name is too short. Otherwise
they end with the exception of `at ()`, or the process ends. -/
theorem exec_quiet (hR : R.Quiet) (hp : p.finished = false) (hfull : p.Full)
    (as : List (Action τ)) :
    ((∃ p', exec (provider R) as p = .ok () p') ↔ .terminate ∉ as ∧
      ∀ r ∈ reached as, (UInt16.ofNat r.track).toNat < p.routes.length) ∧
    ∀ e p', exec (provider R) as p = .error e p' →
      p'.finished = false ∧ (e = .outOfRange ∨ e = .terminate) := by
  induction as generalizing p with
  | nil =>
    refine ⟨⟨fun _ => ⟨List.not_mem_nil, fun r hr => absurd hr List.not_mem_nil⟩, fun _ => ?_⟩, ?_⟩
    · exact ⟨p, rfl⟩
    · rintro e p' h
      cases h
  | cons a as ih =>
    rw [exec, bind_apply]
    rcases action_cases hR hp hfull a with ⟨rfl, hrun⟩ | ⟨r, ha, ⟨x, hlt, hrun⟩ |
      ⟨hle, e, he, hrun⟩⟩
    · rw [hrun]
      refine ⟨iff_of_false ?_ fun h => h.1 List.mem_cons_self, ?_⟩
      · rintro ⟨p', h⟩
        cases h
      · rintro e p' h
        cases h
        exact ⟨hp, .inr rfl⟩
    · rw [hrun, reached_cons ha]
      have hne : a ≠ .terminate := by
        rcases ha with rfl | rfl <;> exact fun h => by cases h
      obtain ⟨hiff, herror⟩ := ih (p := p.setRoute (UInt16.ofNat r.track) x) hp
        (hfull.setRoute _ _)
      refine ⟨hiff.trans ?_, herror⟩
      have hlen : (p.setRoute (UInt16.ofNat r.track) x).routes.length = p.routes.length :=
        List.length_set ..
      rw [hlen, List.mem_cons, not_or, and_iff_right hne.symm, List.forall_mem_cons,
        and_iff_right hlt]
    · rw [hrun, reached_cons ha]
      refine ⟨iff_of_false ?_ fun h => ?_, ?_⟩
      · rintro ⟨p', h⟩
        cases h
      · exact absurd (h.2 r List.mem_cons_self) (Nat.not_lt.2 hle)
      · rintro e' p' h
        cases h
        exact ⟨hp, he⟩

/-! ### The whole document -/

/-- The provider with `num` slots at least, and a route in every slot. -/
def sized (R : RouteClass ρ τ) (num : ℕ) (p : ProviderGpsRouteWriter ρ) :
    ProviderGpsRouteWriter ρ :=
  { p with routes := (resize num p.routes).map (· <|> R.create) }

/-- The provider with the document in it: every track was passed on to the route with its
number. -/
def imported (R : RouteClass ρ τ) (parseTime : TimeParser τ) (root : GPX)
    (p : ProviderGpsRouteWriter ρ) : ProviderGpsRouteWriter ρ :=
  { p with routes := (sized R root.trks.length p).routes.mapIdx fun j route =>
      route.map (RouteCall.askAll R (root.trackCalls parseTime j)) }

theorem sized_full (hcreate : R.create ≠ none) (num : ℕ) (p : ProviderGpsRouteWriter ρ) :
    (sized R num p).Full := by
  intro x hx
  obtain ⟨y, -, rfl⟩ := List.mem_map.1 hx
  cases y with
  | none => exact hcreate
  | some y => exact Option.some_ne_none y

theorem length_sized (num : ℕ) (p : ProviderGpsRouteWriter ρ) :
    (sized R num p).routes.length = max p.routes.length num := by
  simp only [sized, resize, List.length_map, List.length_append, List.length_replicate]
  omega

/-- No slot is null: the routes that are there are kept. -/
theorem Full.orElse (hfull : p.Full) : p.routes.map (· <|> R.create) = p.routes := by
  refine (List.map_congr_left fun x hx => ?_).trans p.routes.map_id
  cases x with
  | none => exact absurd rfl (hfull none hx)
  | some x => rfl

theorem resize_of_le {num : ℕ} {routes : List (Option ρ)} (h : num ≤ routes.length) :
    resize num routes = routes := by
  unfold resize
  rw [Nat.sub_eq_zero_of_le h, List.replicate_zero, List.append_nil]

/-- `setNumTracks`, whose answer is not looked at. -/
theorem setNumTracks_sized (hp : p.finished = false) (hfull : p.Full) (num : UInt16) :
    ∃ b, run R (.setNumTracks num) p = .ok b (sized R num.toNat p) := by
  rw [run, setNumTracks_apply num hp, sized]
  split_ifs with hlt
  · rw [resize_of_le hlt.le, hfull.orElse]
    exact ⟨false, rfl⟩
  · exact ⟨true, rfl⟩

theorem callsFor_requests {root : GPX} (hroot : root.Importable) (j : ℕ) :
    callsFor (root.requests parseTime) j = root.trackCalls parseTime j := by
  rw [← GPX.filter_requests (hroot.terminate parseTime), callsFor]
  apply congrArg
  apply List.filter_congr
  intro r hr
  rw [(toNat_ofNat_iff _).2 ((GPX.track_lt hr).trans hroot.length)]

/-- The routes are there under the numbers of the tracks when these can be numbered. -/
theorem tracks_there_iff {root : GPX} (hend : .terminate ∉ tracksActions parseTime 0 root.trks)
    (hlen : p.routes.length < 65536) :
    (∀ r ∈ root.requests parseTime, (UInt16.ofNat r.track).toNat <
      (sized R (UInt16.ofNat root.trks.length).toNat p).routes.length) ↔
      root.trks.length < 65536 := by
  rw [length_sized]
  have hwrap := (UInt16.ofNat root.trks.length).toNat_lt
  constructor
  · intro hall
    by_contra hmany
    -- the first track without a route has a title
    obtain ⟨s, hs⟩ := mem_requests_title hend
      (i := max p.routes.length (UInt16.ofNat root.trks.length).toNat) (by omega)
    have hlt := hall _ hs
    rw [Request.track, (toNat_ofNat_iff _).2 (by omega)] at hlt
    exact lt_irrefl _ hlt
  · intro hfits r hr
    have hr := GPX.track_lt hr
    rw [(toNat_ofNat_iff _).2 hfits, (toNat_ofNat_iff _).2 (hr.trans hfits)]
    omega

theorem exec_imported {root : GPX} (hroot : root.Importable) (hp : p.finished = false) {u : Unit}
    (h : exec (provider R) (tracksActions parseTime 0 root.trks) (sized R root.trks.length p) =
      .ok u p') : p' = imported R parseTime root p := by
  obtain ⟨-, -, hopen, hroutes⟩ := exec_routes (p := sized R root.trks.length p) hp h
  have hlist : p'.routes = (imported R parseTime root p).routes := by
    apply List.ext_getElem?
    intro j
    have hcalls : callsFor (reached (tracksActions parseTime 0 root.trks)) j =
      root.trackCalls parseTime j := callsFor_requests hroot j
    rw [hroutes, hcalls, imported, List.getElem?_mapIdx]
  obtain ⟨finished, routes⟩ := p'
  change finished = false at hopen
  change routes = _ at hlist
  subst hopen hlist
  rw [imported, hp]

/-- When `parseData` returns, the document could be passed on, and was. -/
theorem parseData_imported (hp : p.finished = false) (hfull : p.Full)
    (hlen : p.routes.length < 65536) {root : GPX} (hne : 0 < root.trks.length) {b : Bool}
    (h : parseData (provider R) parseTime root p = .ok b p') :
    b = true ∧ root.Importable ∧ p' = imported R parseTime root p := by
  obtain ⟨b', hnum⟩ := setNumTracks_sized (R := R) hp hfull (UInt16.ofNat root.trks.length)
  rw [parseData_eq_exec, if_neg (Nat.not_lt.2 hne)] at h
  obtain ⟨b₁, q, hcall, h⟩ := bind_ok h
  obtain ⟨u, q', hrun, h⟩ := bind_ok h
  cases h
  change run R (.setNumTracks (UInt16.ofNat root.trks.length)) p = _ at hcall
  rw [hnum] at hcall
  cases hcall
  obtain ⟨hend, hthere, -⟩ := exec_routes (p := sized R _ p) hp hrun
  have hroot : root.Importable :=
    ⟨(tracks_there_iff hend hlen).1 hthere, (terminate_tracksActions parseTime 0 root.trks).1 hend⟩
  rw [(toNat_ofNat_iff _).2 hroot.length] at hrun
  exact ⟨rfl, hroot, exec_imported hroot hp hrun⟩

/-- **`parseData` over an open provider** whose routes throw nothing: it returns when the document
can be passed on, and has then passed on every track. Otherwise the provider stays open. -/
theorem parseData_provider (parseTime : TimeParser τ) (hR : R.Quiet) (hcreate : R.create ≠ none)
    (hp : p.finished = false) (hfull : p.Full) (hlen : p.routes.length < 65536) {root : GPX}
    (hne : 0 < root.trks.length) :
    (root.Importable ∧
      parseData (provider R) parseTime root p = .ok true (imported R parseTime root p)) ∨
    ¬ root.Importable ∧ ∃ e p', parseData (provider R) parseTime root p = .error e p' ∧
      p'.finished = false ∧ (e = .outOfRange ∨ e = .terminate) := by
  obtain ⟨b, hnum⟩ := setNumTracks_sized (R := R) hp hfull (UInt16.ofNat root.trks.length)
  have hcall : (provider R).call (.setNumTracks (UInt16.ofNat root.trks.length)) p = _ := hnum
  have hopen : (sized R (UInt16.ofNat root.trks.length).toNat p).finished = false := hp
  obtain ⟨hreturns, hthrows⟩ := exec_quiet hR hopen (sized_full hcreate _ p)
    (tracksActions parseTime 0 root.trks)
  have himportable : root.Importable ↔ ∃ p', exec (provider R)
      (tracksActions parseTime 0 root.trks)
      (sized R (UInt16.ofNat root.trks.length).toNat p) = .ok () p' := by
    rw [hreturns]
    constructor
    · intro hroot
      exact ⟨hroot.terminate parseTime,
        (tracks_there_iff (hroot.terminate parseTime) hlen).2 hroot.length⟩
    · rintro ⟨hend, hthere⟩
      exact ⟨(tracks_there_iff hend hlen).1 hthere,
        (terminate_tracksActions parseTime 0 root.trks).1 hend⟩
  rw [parseData_eq_exec, if_neg (Nat.not_lt.2 hne), bind_apply, hcall]
  simp only [bind_apply]
  cases hrun : exec (provider R) (tracksActions parseTime 0 root.trks)
    (sized R (UInt16.ofNat root.trks.length).toNat p) with
  | error e p' =>
    obtain ⟨hopen', he⟩ := hthrows e p' hrun
    refine .inr ⟨fun hroot => ?_, e, p', rfl, hopen', he⟩
    obtain ⟨p', hok⟩ := himportable.1 hroot
    rw [hrun] at hok
    cases hok
  | ok u p' =>
    have hroot := himportable.2 ⟨p', hrun⟩
    refine .inl ⟨hroot, ?_⟩
    rw [(toNat_ofNat_iff _).2 hroot.length] at hrun
    rw [exec_imported hroot hp hrun]
    rfl

end ProviderGpsRouteWriter

end Libgpsfile2
