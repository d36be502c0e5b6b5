import Libgpsfile2.Gpx.Result

/-!
# Where the points of a document are stored

The calls for a track ask its route to file the points of the track, some of them several times,
each in the segment that it stands in. A route files a time once. So a point is stored in the first
segment of its track that has a point with its time, and every point that is stored is one of the
document or was there before (`parseData_store`).
-/

namespace Libgpsfile2

variable {ρ τ : Type} {R : RouteClass ρ τ} {parseTime : TimeParser τ}

/-- The points of a segment, by their times. -/
def TRKSeg.points (parseTime : TimeParser τ) (k : ℕ) (segment : TRKSeg) : List (UInt16 × τ) :=
  (segment.times parseTime).map fun t => (UInt16.ofNat k, t)

/-- The points of a track in the order of the document, with the numbers of their segments. -/
def TRK.points (parseTime : TimeParser τ) (track : TRK) : List (UInt16 × τ) :=
  (track.trksegs.mapIdx (TRKSeg.points parseTime)).flatten

/-- What a list of calls asks a route to file. -/
def RouteCall.pairs (calls : List (RouteCall τ)) : List (UInt16 × τ) :=
  calls.filterMap fun c => c.point.map Prod.snd

section Points

open ProviderGpsRouteWriter

variable {filing : ρ → Filing UInt16 τ} {f : Filing UInt16 τ}

theorem pairs_cons (c : RouteCall τ) (calls : List (RouteCall τ)) :
    RouteCall.pairs (c :: calls) = (c.point.map Prod.snd).toList ++ RouteCall.pairs calls := by
  unfold RouteCall.pairs
  rw [List.filterMap_cons]
  cases c.point <;> rfl

/-- A route files the points that it is asked about. -/
theorem filing_askAll (hR : R.Lawful filing) (calls : List (RouteCall τ)) (r : ρ) :
    filing (RouteCall.askAll R calls r) = (filing r).addAll (RouteCall.pairs calls) := by
  induction calls generalizing r with
  | nil => rfl
  | cons c calls ih =>
    have hask := filing_ask hR c r
    show filing (RouteCall.askAll R calls (after (c.ask R r))) = _
    rw [ih, hask, pairs_cons]
    cases c.point <;> rfl

theorem pairs_append (calls calls' : List (RouteCall τ)) :
    RouteCall.pairs (calls ++ calls') = RouteCall.pairs calls ++ RouteCall.pairs calls' :=
  List.filterMap_append

/-- The calls for a point ask to file the point, several times. -/
theorem addAll_point (parseTime : TimeParser τ) (j k : ℕ) (point : WPT) :
    f.addAll (RouteCall.pairs
      ((reached (pointActions parseTime j k point)).map Request.call)) =
      f.add (UInt16.ofNat k) (parseTime (cStr point.time)) := by
  obtain ⟨ds, hreached, hds⟩ := reached_pointActions parseTime j k point
  rw [hreached, List.map_cons]
  show (f.add (UInt16.ofNat k) (parseTime (cStr point.time))).addAll
    (RouteCall.pairs (ds.map Request.call)) = _
  refine Filing.addAll_of_mem (Filing.mem_add_iff.2 (.inr rfl)) fun x hx => ?_
  obtain ⟨c, hc, hx⟩ := List.mem_filterMap.1 hx
  obtain ⟨r, hr, rfl⟩ := List.mem_map.1 hc
  obtain ⟨type, value, rfl⟩ := hds r hr
  cases hx
  rfl

theorem addAll_points (j k : ℕ) (points : List WPT)
    (hend : .terminate ∉ points.flatMap (pointActions parseTime j k)) :
    f.addAll (RouteCall.pairs
      ((reached (points.flatMap (pointActions parseTime j k))).map Request.call)) =
      f.addAll (points.map fun point => (UInt16.ofNat k, parseTime (cStr point.time))) := by
  induction points generalizing f with
  | nil => rfl
  | cons point points ih =>
    rw [List.flatMap_cons, List.mem_append, not_or] at hend
    rw [List.flatMap_cons, reached_append hend.1, List.map_append, pairs_append,
      Filing.addAll_append, addAll_point, ih hend.2, List.map_cons, Filing.addAll_cons]

theorem addAll_segments (j k : ℕ) (segments : List TRKSeg)
    (hend : .terminate ∉ segmentsActions parseTime j k segments) :
    f.addAll (RouteCall.pairs
      ((reached (segmentsActions parseTime j k segments)).map Request.call)) =
      f.addAll (segments.mapIdx fun i => TRKSeg.points parseTime (k + i)).flatten := by
  induction segments generalizing f k with
  | nil => rfl
  | cons segment segments ih =>
    rw [segmentsActions, List.mem_append, not_or] at hend
    rw [segmentsActions, reached_append hend.1, List.map_append, pairs_append,
      Filing.addAll_append, addAll_points j k _ hend.1, ih (k + 1) hend.2, List.mapIdx_cons,
      List.flatten_cons, Filing.addAll_append, TRKSeg.points, TRKSeg.times, List.map_map]
    simp only [Nat.add_zero, Nat.add_assoc, Nat.add_comm 1]
    rfl

/-- **The points of a track** are filed in the segments where their times stand first. -/
theorem filing_track (hR : R.Lawful filing) (parseTime : TimeParser τ) (j : ℕ) {track : TRK}
    (hend : .terminate ∉ segmentsActions parseTime j 0 track.trksegs) (r : ρ) :
    filing (RouteCall.askAll R (track.calls parseTime j) r) =
      (filing r).addAll (track.points parseTime) := by
  rw [filing_askAll hR]
  show (filing r).addAll (RouteCall.pairs
    ((reached (segmentsActions parseTime j 0 track.trksegs)).map Request.call)) = _
  rw [addAll_segments j 0 _ hend, TRK.points]
  simp only [Nat.zero_add]

/-! ### The store of the provider -/

variable {p : ProviderGpsRouteWriter ρ} {root : GPX} {j : ℕ} {k : UInt16} {t : τ} {r : ρ}

theorem at_store_iff (hfull : p.Full) :
    (p.store filing).At j k t ↔ ∃ r, p.routes[j]? = some (some r) ∧ (filing r).At k t := by
  unfold Store.At
  rcases hfull.route j with hj | ⟨r, hj⟩ <;> simp [store, hj]

theorem mem_store_iff (hfull : p.Full) :
    (p.store filing).Mem j t ↔ ∃ r, p.routes[j]? = some (some r) ∧ (filing r).Mem t := by
  unfold Store.Mem
  rcases hfull.route j with hj | ⟨r, hj⟩ <;> simp [store, hj]

/-- The routes that are there and those that are new. -/
theorem sized_route_iff (hfull : p.Full) (num : ℕ) :
    (sized R num p).routes[j]? = some (some r) ↔
      p.routes[j]? = some (some r) ∨ p.routes.length ≤ j ∧ j < num ∧ R.create = some r := by
  simp only [sized, resize, List.getElem?_map, List.getElem?_append]
  by_cases hj : j < p.routes.length
  · rw [if_pos hj]
    rcases hfull.route j with hnone | ⟨x, hx⟩
    · exact absurd (List.getElem?_eq_none_iff.1 hnone) (Nat.not_le.2 hj)
    · simp [hx, Nat.not_le.2 hj]
  · have hle := Nat.not_lt.1 hj
    rw [if_neg hj, List.getElem?_eq_none_iff.2 hle, List.getElem?_replicate]
    by_cases hnum : j < num
    · simp [hle, hnum, show j - p.routes.length < num - p.routes.length by omega]
    · simp [hnum, show ¬ j - p.routes.length < num - p.routes.length by omega]

theorem imported_full (hcreate : R.create ≠ none) : (imported R parseTime root p).Full := by
  intro x hx
  obtain ⟨i, hi, rfl⟩ := List.mem_mapIdx.1 hx
  have hne := sized_full hcreate root.trks.length p _ (List.getElem_mem hi)
  revert hne
  cases (sized R root.trks.length p).routes[i] with
  | none => exact fun h => absurd rfl h
  | some r => exact fun _ => Option.some_ne_none _

/-- A route that was asked for the points of a track. -/
theorem filing_trackCalls (hR : R.Lawful filing) (parseTime : TimeParser τ)
    (hroot : root.Importable) (j : ℕ) (r : ρ) :
    filing (RouteCall.askAll R (root.trackCalls parseTime j) r) =
      (filing r).addAll (root.trks[j]?.elim [] (TRK.points parseTime)) := by
  unfold GPX.trackCalls
  cases hj : root.trks[j]? with
  | none => rfl
  | some track =>
    refine filing_track hR parseTime j ((terminate_segmentsActions parseTime j 0 _).2 ?_) r
    exact hroot.names track (List.mem_of_getElem? hj)

/-- **Where the points of a document are stored**: in the segment that names their time first,
unless the route had a point with this time before; and nothing else is stored. -/
theorem imported_store (hR : R.Lawful filing) (hfull : p.Full) (hroot : root.Importable) (j : ℕ)
    (k : UInt16) (t : τ) :
    ((imported R parseTime root p).store filing).At j k t ↔
      (p.store filing).At j k t ∨ ¬ (p.store filing).Mem j t ∧
        ∃ track, root.trks[j]? = some track ∧ Filing.First (track.points parseTime) k t := by
  obtain ⟨r₀, hr₀, hempty⟩ := hR.create
  have hcreate : R.create ≠ none := by
    rw [hr₀]
    exact Option.some_ne_none r₀
  have hfirst : Filing.First (root.trks[j]?.elim [] (TRK.points parseTime)) k t ↔
      ∃ track, root.trks[j]? = some track ∧ Filing.First (track.points parseTime) k t := by
    cases root.trks[j]? with
    | none =>
      refine iff_of_false ?_ (by simp)
      rintro ⟨before, later, heq, -⟩
      simp at heq
    | some track => simp
  have hroute : ∀ x, (imported R parseTime root p).routes[j]? = some (some x) ↔
      ∃ r, (sized R root.trks.length p).routes[j]? = some (some r) ∧
        RouteCall.askAll R (root.trackCalls parseTime j) r = x := by
    intro x
    rw [imported, List.getElem?_mapIdx]
    rcases (sized_full hcreate root.trks.length p).route j with hj | ⟨r, hj⟩ <;> simp [hj]
  rw [at_store_iff (imported_full hcreate), at_store_iff hfull, mem_store_iff hfull, ← hfirst]
  simp only [hroute, sized_route_iff hfull]
  constructor
  · rintro ⟨x, ⟨r, hr, rfl⟩, hat⟩
    rw [filing_trackCalls hR parseTime hroot, Filing.at_addAll_iff] at hat
    rcases hr with hr | ⟨hle, -, hr⟩
    · -- the route was there
      refine hat.imp (fun h => ⟨r, hr, h⟩) fun h => ⟨?_, h.2⟩
      rintro ⟨r', hr', hmem⟩
      rw [hr, Option.some.injEq, Option.some.injEq] at hr'
      exact h.1 (hr' ▸ hmem)
    · -- the route is new, and was empty
      obtain rfl : r₀ = r := Option.some.inj (hr₀.symm.trans hr)
      rw [hempty] at hat
      refine .inr ⟨?_, (hat.resolve_left (Filing.not_at_empty k t)).2⟩
      rintro ⟨r', hr', -⟩
      rw [List.getElem?_eq_none_iff.2 hle] at hr'
      cases hr'
  · rintro (⟨r, hr, hat⟩ | ⟨hnew, h⟩)
    · refine ⟨_, ⟨r, .inl hr, rfl⟩, ?_⟩
      rw [filing_trackCalls hR parseTime hroot, Filing.at_addAll_iff]
      exact .inl hat
    · obtain ⟨track, htrack, -⟩ := hfirst.1 h
      have hlt := (List.getElem?_eq_some_iff.1 htrack).1
      rcases hfull.route j with hnone | ⟨r, hr⟩
      · refine ⟨_, ⟨r₀, .inr ⟨List.getElem?_eq_none_iff.1 hnone, hlt, hr₀⟩, rfl⟩, ?_⟩
        rw [filing_trackCalls hR parseTime hroot, Filing.at_addAll_iff, hempty]
        exact .inr ⟨Filing.not_mem_empty t, h⟩
      · refine ⟨_, ⟨r, .inl hr, rfl⟩, ?_⟩
        rw [filing_trackCalls hR parseTime hroot, Filing.at_addAll_iff]
        exact .inr ⟨fun hmem => hnew ⟨r, hr, hmem⟩, h⟩

/-- **What `parseData` stores**, in an open provider and after any session with it, when it
returns: every point of the document lies in the segment that names its time first, unless the
route had a point with this time before; and nothing else is new. -/
theorem parseData_store (hR : R.Lawful filing)
    {hist : History (ProviderGpsRouteWriter.Call τ) (Option Bool) Exn}
    (hs : Session (object R) (create false) hist p) (hopen : p.finished = false) {b : Bool}
    {p' : ProviderGpsRouteWriter ρ} (h : parseData (provider R) parseTime root p = .ok b p')
    (j : ℕ) (k : UInt16) (t : τ) :
    (p'.store filing).At j k t ↔ (p.store filing).At j k t ∨ ¬ (p.store filing).Mem j t ∧
      ∃ track, root.trks[j]? = some track ∧ Filing.First (track.points parseTime) k t := by
  obtain ⟨hfull, hlen⟩ := session_full hR hs
  rcases Nat.eq_zero_or_pos root.trks.length with hne | hne
  · rw [parseData_eq_exec, if_pos (by omega)] at h
    cases h
    rw [List.length_eq_zero_iff.1 hne]
    simp
  · obtain ⟨-, hroot, rfl⟩ := parseData_imported hopen hfull hlen hne h
    exact imported_store hR hfull hroot j k t

/-- A track with a segment for every string, and in it a point with this time. -/
def pointTrack (times : List StdString) : GPX :=
  ⟨[⟨[], [], [], times.map fun time => ⟨[⟨time, [], [], [], []⟩]⟩⟩]⟩

theorem pointTrack_importable (times : List StdString) : (pointTrack times).Importable := by
  refine ⟨Nat.lt_of_sub_eq_succ rfl, fun track htrack segment hsegment point hpoint => ?_⟩
  obtain rfl := List.mem_singleton.1 htrack
  obtain ⟨time, -, rfl⟩ := List.mem_map.1 hsegment
  obtain rfl := List.mem_singleton.1 hpoint
  trivial

/-- Two points at one time, in two segments: the second one is not stored. The times are the
lengths of the strings. -/
theorem parseData_store_first :
    ∃ p', parseData (provider timesRoute) List.length (pointTrack [[49], [50]]) (create false) =
          .ok true p' ∧
      (p'.store timesFiling).At 0 0 1 ∧ ¬ (p'.store timesFiling).At 0 1 1 := by
  have hcreate : timesRoute.create ≠ none := Option.some_ne_none _
  have hdata : parseData (provider timesRoute) List.length (pointTrack [[49], [50]])
      (create false) = .ok true _ :=
    ((parseData_provider _ timesRoute_quiet hcreate (p := create false) rfl
      (fun x hx => absurd hx List.not_mem_nil) (by decide) (by decide)).resolve_right
        fun h => h.1 (pointTrack_importable _)).2
  have hstore := parseData_store timesRoute_lawful .start rfl hdata 0
  have hnew : ¬ ((create false : ProviderGpsRouteWriter _).store timesFiling).Mem 0 1 := by
    rintro ⟨f, hf, -⟩
    cases hf
  refine ⟨_, hdata, (hstore 0 1).2 (.inr ⟨hnew, _, rfl, ?_⟩), fun h => ?_⟩
  · exact ⟨[], [(1, 1)], rfl, List.not_mem_nil⟩
  · obtain ⟨f, hf, -⟩ | ⟨-, track, htrack, before, later, heq, hfirst⟩ := (hstore 1 1).1 h
    · cases hf
    · cases htrack
      rcases before with _ | ⟨x, before⟩
      · cases heq
      · obtain ⟨rfl, -⟩ := List.cons.inj heq
        exact hfirst List.mem_cons_self

end Points

end Libgpsfile2
