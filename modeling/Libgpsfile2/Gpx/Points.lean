import Libgpsfile2.Gpx.Indices
import Libgpsfile2.Provider.ProviderStore

/-!
# Which points of a document are stored

A `ProviderGpsRouteWriter` takes a point when its route has no point with that time yet. So it
takes all the points of a document if and only if the times of the points of every track are all
different, and new to the route (`fresh_requests`, `points_accepted_iff`). The data for a point
then reaches a route that has the point in the segment named (`data_stored`).
-/

namespace Libgpsfile2

variable {ρ τ : Type} {F : ℕ → τ → Prop} {j k : ℕ} {t : τ}

/-! ### Times that are new -/

/-- The times `ts` filed for the track `j`, besides those of `F`. -/
def Filed (F : ℕ → τ → Prop) (j : ℕ) (ts : List τ) : ℕ → τ → Prop := fun i u =>
  F i u ∨ i = j ∧ u ∈ ts

/-- The times are all different, and not filed yet for the track `j`. -/
def NewTimes (F : ℕ → τ → Prop) (j : ℕ) (ts : List τ) : Prop := ts.Nodup ∧ ∀ t ∈ ts, ¬ F j t

theorem filed_nil (F : ℕ → τ → Prop) (j : ℕ) : Filed F j [] = F := by
  funext i u
  simp [Filed]

theorem filed_append (F : ℕ → τ → Prop) (j : ℕ) (ts us : List τ) :
    Filed F j (ts ++ us) = Filed (Filed F j ts) j us := by
  funext i u
  simp only [Filed, List.mem_append, and_or_left, or_assoc]

theorem filed_of_filed (h : F j t) : Filed F j [t] = F := by
  funext i u
  apply propext
  constructor
  · rintro (hF | ⟨rfl, hu⟩)
    · exact hF
    · rwa [List.mem_singleton.1 hu]
  · exact .inl

theorem newTimes_append (ts us : List τ) :
    NewTimes F j (ts ++ us) ↔ NewTimes F j ts ∧ NewTimes (Filed F j ts) j us := by
  simp only [NewTimes, Filed, List.nodup_append, List.mem_append]
  constructor
  · rintro ⟨⟨hts, hus, hne⟩, hF⟩
    refine ⟨⟨hts, fun t ht => hF t (.inl ht)⟩, hus, fun t ht => ?_⟩
    rintro (hfiled | ⟨-, hmem⟩)
    · exact hF t (.inr ht) hfiled
    · exact hne t hmem t ht rfl
  · rintro ⟨⟨hts, hF⟩, hus, hF'⟩
    refine ⟨⟨hts, hus, ?_⟩, ?_⟩
    · rintro t ht u hu rfl
      exact hF' t hu (.inr ⟨trivial, ht⟩)
    · rintro t (ht | ht)
      · exact hF t ht
      · exact fun hfiled => hF' t ht (.inl hfiled)

theorem filed_cons (F : ℕ → τ → Prop) (j : ℕ) (t : τ) (ts : List τ) :
    Filed F j (t :: ts) = Filed (Filed F j [t]) j ts :=
  filed_append F j [t] ts

theorem newTimes_cons (t : τ) (ts : List τ) :
    NewTimes F j (t :: ts) ↔ ¬ F j t ∧ NewTimes (Filed F j [t]) j ts := by
  rw [← List.singleton_append, newTimes_append]
  simp [NewTimes]

/-- Another track does not matter. -/
theorem newTimes_filed {i : ℕ} (hij : i ≠ j) (ts us : List τ) :
    NewTimes (Filed F j ts) i us ↔ NewTimes F i us := by
  simp [NewTimes, Filed, hij]

/-- No point is asked for at a time that was filed before. -/
def Fresh : (ℕ → τ → Prop) → List (Request τ) → Prop
  | _, [] => True
  | F, .point j _ t :: rs => ¬ F j t ∧ Fresh (Filed F j [t]) rs
  | F, .data j _ t _ _ :: rs => Fresh (Filed F j [t]) rs
  | F, .title _ _ :: rs => Fresh F rs
  | F, .summary _ _ :: rs => Fresh F rs
  | F, .details _ _ :: rs => Fresh F rs

/-- Data is asked for only for a point that was asked for before, in the same segment. -/
def Anchored : (ℕ → ℕ → τ → Prop) → List (Request τ) → Prop
  | _, [] => True
  | G, .point j k t :: rs => Anchored (fun i l u => G i l u ∨ i = j ∧ l = k ∧ u = t) rs
  | G, .data j k t _ _ :: rs => G j k t ∧ Anchored G rs
  | G, .title _ _ :: rs => Anchored G rs
  | G, .summary _ _ :: rs => Anchored G rs
  | G, .details _ _ :: rs => Anchored G rs

/-- What is filed after a request. -/
def Request.file (F : ℕ → τ → Prop) : Request τ → ℕ → τ → Prop
  | .point j _ t => Filed F j [t]
  | .data j _ t _ _ => Filed F j [t]
  | _ => F

theorem fresh_cons (r : Request τ) (rs : List (Request τ)) :
    Fresh F (r :: rs) ↔ (∀ j k t, r = .point j k t → ¬ F j t) ∧ Fresh (r.file F) rs := by
  cases r <;> simp [Fresh, Request.file]

theorem anchored_cons (G : ℕ → ℕ → τ → Prop) (r : Request τ) (rs : List (Request τ)) :
    Anchored G (r :: rs) ↔ (∀ j k t type value, r = .data j k t type value → G j k t) ∧
      Anchored (fun i l u => G i l u ∨ r = .point i l u) rs := by
  cases r with
  | data j k t type value =>
    have hsame : (fun i l u => G i l u ∨ Request.data j k t type value = .point i l u) = G := by
      funext i l u
      simp
    rw [Anchored, hsame]
    refine and_congr_left fun _ => ⟨?_, fun h => h j k t type value rfl⟩
    rintro hG _ _ _ _ _ ⟨⟩
    exact hG
  | _ => simp [Anchored, eq_comm]

/-! ### The times of a document -/

/-- The times of the points of a track. -/
def TRKSeg.times (parseTime : TimeParser τ) (segment : TRKSeg) : List τ :=
  segment.trkpts.map fun point => parseTime (cStr point.time)

def TRK.times (parseTime : TimeParser τ) (track : TRK) : List τ :=
  track.trksegs.flatMap (TRKSeg.times parseTime)

theorem reached_append {as bs : List (Action τ)} (h : .terminate ∉ as) :
    reached (as ++ bs) = reached as ++ reached bs := by
  induction as with
  | nil => rfl
  | cons a as ih =>
    have hrest : .terminate ∉ as := fun hmem => h (List.mem_cons_of_mem a hmem)
    cases a with
    | terminate => exact absurd List.mem_cons_self h
    | request r => rw [List.cons_append, reached, reached, ih hrest, List.cons_append]
    | guarded r => rw [List.cons_append, reached, reached, ih hrest, List.cons_append]

section Document

variable {parseTime : TimeParser τ} {G : ℕ → ℕ → τ → Prop} {rs : List (Request τ)}

/-- What is reached of the actions for a point: the point and its data. -/
theorem reached_pointActions (parseTime : TimeParser τ) (j k : ℕ) (point : WPT) :
    ∃ ds, reached (pointActions parseTime j k point) =
        .point j k (parseTime (cStr point.time)) :: ds ∧
      ∀ r ∈ ds, ∃ type value, r = .data j k (parseTime (cStr point.time)) type value := by
  refine ⟨.data j k _ (lit "LAT") point.lat :: .data j k _ (lit "LON") point.lon ::
    .data j k _ (lit "ALT") point.ele ::
    reached (elementsActions j k (parseTime (cStr point.time)) 0 point.extensions), rfl,
    fun r hr => ?_⟩
  simp only [List.mem_cons] at hr
  rcases hr with rfl | rfl | rfl | hr
  · exact ⟨_, _, rfl⟩
  · exact ⟨_, _, rfl⟩
  · exact ⟨_, _, rfl⟩
  · rcases mem_reached hr with hr | hr
    · rcases mem_elementsActions hr with h | ⟨type, value, h⟩ <;> cases h
    · rcases mem_elementsActions hr with h | ⟨type, value, h⟩
      · cases h
      · cases h
        exact ⟨type, value, rfl⟩

/-- The data for a point files nothing new. -/
theorem fresh_data {ds : List (Request τ)}
    (hds : ∀ r ∈ ds, ∃ type value, r = .data j k t type value)
    (hF : F j t) : Fresh F (ds ++ rs) ↔ Fresh F rs := by
  induction ds with
  | nil => rfl
  | cons r ds ih =>
    obtain ⟨type, value, rfl⟩ := hds r List.mem_cons_self
    rw [List.cons_append, Fresh, filed_of_filed hF]
    exact ih fun r hr => hds r (List.mem_cons_of_mem _ hr)

theorem anchored_data {ds : List (Request τ)}
    (hds : ∀ r ∈ ds, ∃ type value, r = .data j k t type value) (hG : G j k t) :
    Anchored G (ds ++ rs) ↔ Anchored G rs := by
  induction ds with
  | nil => rfl
  | cons r ds ih =>
    obtain ⟨type, value, rfl⟩ := hds r List.mem_cons_self
    rw [List.cons_append, Anchored, and_iff_right hG]
    exact ih fun r hr => hds r (List.mem_cons_of_mem _ hr)

theorem fresh_points (points : List WPT)
    (hend : .terminate ∉ points.flatMap (pointActions parseTime j k)) :
    Fresh F (reached (points.flatMap (pointActions parseTime j k)) ++ rs) ↔
      NewTimes F j (points.map fun point => parseTime (cStr point.time)) ∧
        Fresh (Filed F j (points.map fun point => parseTime (cStr point.time))) rs := by
  induction points generalizing F with
  | nil => simp [NewTimes, filed_nil, reached]
  | cons point points ih =>
    rw [List.flatMap_cons, List.mem_append, not_or] at hend
    obtain ⟨ds, hreached, hds⟩ := reached_pointActions parseTime j k point
    have hfiled : Filed F j [parseTime (cStr point.time)] j (parseTime (cStr point.time)) :=
      .inr ⟨rfl, List.mem_singleton.2 rfl⟩
    rw [List.flatMap_cons, reached_append hend.1, hreached, List.cons_append, List.cons_append,
      Fresh, List.append_assoc, fresh_data hds hfiled, ih hend.2, List.map_cons,
      newTimes_cons, filed_cons F j _ (points.map fun point => parseTime (cStr point.time)),
      and_assoc]

theorem fresh_segments (segments : List TRKSeg)
    (hend : .terminate ∉ segmentsActions parseTime j k segments) :
    Fresh F (reached (segmentsActions parseTime j k segments) ++ rs) ↔
      NewTimes F j (segments.flatMap (TRKSeg.times parseTime)) ∧
        Fresh (Filed F j (segments.flatMap (TRKSeg.times parseTime))) rs := by
  induction segments generalizing F k with
  | nil => simp [segmentsActions, NewTimes, filed_nil, reached]
  | cons segment segments ih =>
    rw [segmentsActions, List.mem_append, not_or] at hend
    rw [segmentsActions, reached_append hend.1, List.append_assoc, fresh_points _ hend.1,
      ih hend.2, List.flatMap_cons, newTimes_append, filed_append, and_assoc]
    rfl

theorem fresh_tracks (tracks : List TRK) (hend : .terminate ∉ tracksActions parseTime j tracks) :
    Fresh F (reached (tracksActions parseTime j tracks)) ↔
      ∀ (i : ℕ) (track : TRK), tracks[i]? = some track →
        NewTimes F (j + i) (track.times parseTime) := by
  induction tracks generalizing F j with
  | nil => simp [tracksActions, reached, Fresh]
  | cons track tracks ih =>
    rw [tracksActions, List.mem_append, List.mem_append, not_or, not_or] at hend
    rw [tracksActions, reached_append hend.1, reached_append hend.2.1]
    show Fresh F (reached (segmentsActions parseTime j 0 track.trksegs) ++ _) ↔ _
    rw [fresh_segments _ hend.2.1, ih hend.2.2]
    -- the times of this track do not matter to the later ones
    constructor
    · rintro ⟨hnew, hrest⟩ i track' hi
      cases i with
      | zero =>
        cases hi
        exact hnew
      | succ i =>
        have := hrest i track' hi
        rw [newTimes_filed (by omega)] at this
        rwa [show j + (i + 1) = j + 1 + i by omega]
    · intro hall
      refine ⟨hall 0 track rfl, fun i track' hi => ?_⟩
      rw [newTimes_filed (by omega), show j + 1 + i = j + (i + 1) by omega]
      exact hall (i + 1) track' hi

/-- **The points of a document are new** when the times of every track are. -/
theorem fresh_requests {root : GPX} (hend : .terminate ∉ tracksActions parseTime 0 root.trks) :
    Fresh F (root.requests parseTime) ↔ ∀ (j : ℕ) (track : TRK), root.trks[j]? = some track →
      NewTimes F j (track.times parseTime) := by
  unfold GPX.requests
  rw [fresh_tracks _ hend]
  simp only [Nat.zero_add]

theorem anchored_points (points : List WPT)
    (hend : .terminate ∉ points.flatMap (pointActions parseTime j k))
    (hrs : ∀ G, Anchored G rs) :
    Anchored G (reached (points.flatMap (pointActions parseTime j k)) ++ rs) := by
  induction points generalizing G with
  | nil => exact hrs G
  | cons point points ih =>
    rw [List.flatMap_cons, List.mem_append, not_or] at hend
    obtain ⟨ds, hreached, hds⟩ := reached_pointActions parseTime j k point
    rw [List.flatMap_cons, reached_append hend.1, hreached, List.cons_append, List.cons_append,
      Anchored, List.append_assoc, anchored_data hds (.inr ⟨rfl, rfl, rfl⟩)]
    exact ih hend.2

theorem anchored_segments (segments : List TRKSeg)
    (hend : .terminate ∉ segmentsActions parseTime j k segments) (hrs : ∀ G, Anchored G rs) :
    Anchored G (reached (segmentsActions parseTime j k segments) ++ rs) := by
  induction segments generalizing G k with
  | nil => exact hrs G
  | cons segment segments ih =>
    rw [segmentsActions, List.mem_append, not_or] at hend
    rw [segmentsActions, reached_append hend.1, List.append_assoc]
    exact anchored_points _ hend.1 fun G => ih hend.2

theorem anchored_tracks (tracks : List TRK) (hend : .terminate ∉ tracksActions parseTime j tracks) :
    Anchored G (reached (tracksActions parseTime j tracks)) := by
  induction tracks generalizing G j with
  | nil => trivial
  | cons track tracks ih =>
    rw [tracksActions, List.mem_append, List.mem_append, not_or, not_or] at hend
    rw [tracksActions, reached_append hend.1, reached_append hend.2.1]
    show Anchored G (reached (segmentsActions parseTime j 0 track.trksegs) ++ _)
    exact anchored_segments _ hend.2.1 fun G => ih hend.2.2

/-- **The data of a document** is for points that were asked for before. -/
theorem anchored_requests {root : GPX} (hend : .terminate ∉ tracksActions parseTime 0 root.trks) :
    Anchored G (root.requests parseTime) :=
  anchored_tracks _ hend

/-- The title of every track is asked for. -/
theorem mem_requests_title {root : GPX} (hend : .terminate ∉ tracksActions parseTime 0 root.trks)
    {i : ℕ} (hi : i < root.trks.length) : ∃ s, .title i s ∈ root.requests parseTime := by
  have htracks : ∀ (tracks : List TRK) (j : ℕ), .terminate ∉ tracksActions parseTime j tracks →
      ∀ i < tracks.length, ∃ s, .title (j + i) s ∈ reached (tracksActions parseTime j tracks) := by
    intro tracks
    induction tracks with
    | nil => exact fun j _ i hi => absurd hi (Nat.not_lt_zero i)
    | cons track tracks ih =>
      intro j hend i hi
      rw [tracksActions, List.mem_append, List.mem_append, not_or, not_or] at hend
      rw [tracksActions, reached_append hend.1, reached_append hend.2.1]
      cases i with
      | zero => exact ⟨cStr track.name, List.mem_cons_self⟩
      | succ i =>
        obtain ⟨s, hs⟩ := ih (j + 1) hend.2.2 i (Nat.lt_of_succ_lt_succ hi)
        rw [show j + 1 + i = j + (i + 1) by omega] at hs
        exact ⟨s, List.mem_append_right _ (List.mem_append_right _ hs)⟩
  obtain ⟨s, hs⟩ := htracks root.trks 0 hend i hi
  rw [Nat.zero_add] at hs
  exact ⟨s, hs⟩

end Document

/-! ### The calls of a provider -/

/-- The call is one of `addTrackPoint`. -/
def RouteCall.IsPoint : RouteCall τ → Prop
  | .addTrackPoint _ _ _ => True
  | _ => False

/-- The call gives the latitude, the longitude or the altitude of a point. -/
def RouteCall.IsPosition : RouteCall τ → Prop
  | .addTrackPointDataString _ _ _ type _ => type ∈ [lit "LAT", lit "LON", lit "ALT"]
  | _ => False

namespace ProviderGpsRouteWriter

variable {R : RouteClass ρ τ} {filing : ρ → Filing UInt16 τ} {p : ProviderGpsRouteWriter ρ}
  {r : Request τ} {rs : List (Request τ)} {b : Bool}

/-- The provider refuses a point of the track `j` at the time `t`: it is closed, or has one. -/
def Taken (filing : ρ → Filing UInt16 τ) (p : ProviderGpsRouteWriter ρ) (j : ℕ) (t : τ) : Prop :=
  p.finished = true ∨ (p.store filing).Mem j t

/-- A call for a request that returns has found its route. -/
theorem request_route (hp : p.Full) (hopen : p.finished = false) (hr : r.track < 65536)
    (hok : outcome (run R r.call p) = .ok b) : ∃ x, p.routes[r.track]? = some (some x) := by
  rcases hp.route r.track with hnone | hsome
  · rw [← (toNat_ofNat_iff _).2 hr] at hnone
    have hthrow : outcome (run R r.call p) = .error .outOfRange := by
      cases r <;> simp only [Request.track] at hnone <;>
        simp only [Request.call, run, setTrackTitle, setTrackSummary, setTrackDetails,
          addTrackPoint, addTrackPointDataString, addTrackPointDataWith, whenOpen_apply _ hopen,
          bind_apply, hasPoint, onRoute_outOfRange _ hnone, outcome_error]
    rw [hthrow] at hok
    cases hok
  · exact hsome

/-- What a request that was answered does to the times that are taken. -/
theorem taken_request (hR : R.Lawful filing) (hp : p.Full)
    (hr : p.finished = false → r.track < 65536) (hok : outcome (run R r.call p) = .ok b) :
    Taken filing (after (run R r.call p)) = r.file (Taken filing p) := by
  by_cases hfin : p.finished = true
  · rw [run_of_finished _ hfin, after_ok]
    cases r with
    | point j k t => exact (filed_of_filed (.inl hfin)).symm
    | data j k t type value => exact (filed_of_filed (.inl hfin)).symm
    | _ => rfl
  · have hopen : p.finished = false := by simpa using hfin
    obtain ⟨x, hx⟩ := request_route hp hopen (hr hopen) hok
    have htrack := (toNat_ofNat_iff _).2 (hr hopen)
    have hlt : (UInt16.ofNat r.track).toNat < (p.store filing).routes.length := by
      rw [htrack]
      simpa [store] using (List.getElem?_eq_some_iff.1 hx).1
    have hflag := run_finished (R := R) r.call p
    have hstore := (run_simulates hR hp r.call).2
    unfold Store.apply at hstore
    rw [if_neg (show ¬ (p.store filing).closed = true from hfin)] at hstore
    generalize after (run R r.call p) = p' at hflag hstore ⊢
    have hsame : p'.store filing = p.store filing → Taken filing p' = Taken filing p := by
      intro h
      unfold Taken
      rw [h, hflag]
    have hfile : ∀ k t, p'.store filing = (p.store filing).file (UInt16.ofNat r.track) k t →
        Taken filing p' = Filed (Taken filing p) r.track [t] := by
      intro k t h
      funext j u
      simp only [Taken, Filed, hflag, h, Store.mem_file_iff hlt, htrack, or_assoc,
        List.mem_singleton]
    cases r with
    | point j k t => exact hfile _ _ hstore
    | data j k t type value => exact hfile _ _ hstore
    | _ => exact hsame hstore

/-- What a request for a point returns. -/
theorem point_result (hR : R.Lawful filing) (hp : p.Full) {j k : ℕ} {t : τ}
    (hr : p.finished = false → j < 65536)
    (hok : outcome (run R (Request.point j k t).call p) = .ok b) :
    b = true ↔ ¬ Taken filing p j t := by
  by_cases hfin : p.finished = true
  · rw [run_of_finished _ hfin] at hok
    cases hok
    simp [Taken, hfin]
  · have hopen : p.finished = false := by simpa using hfin
    obtain ⟨x, hx⟩ := request_route (r := .point j k t) hp hopen (hr hopen) hok
    have htrack := (toNat_ofNat_iff _).2 (hr hopen)
    change p.routes[j]? = some (some x) at hx
    rw [← htrack] at hx
    obtain ⟨x', hadd, -⟩ := addTrackPoint_apply (k := UInt16.ofNat k) (t := t) hR hopen hx
    rw [Request.call, run, hadd] at hok
    cases hok
    have hmem : (p.store filing).Mem j t ↔ (filing x).Mem t := by
      rw [htrack] at hx
      simp [Store.Mem, store, hx]
    unfold Taken
    rw [hopen, hmem, ← hR.hasPoint x t]
    simp

/-- A point that was taken is in its segment afterwards. -/
theorem point_stored (hR : R.Lawful filing) (hp : p.Full) {j k : ℕ} {t : τ}
    (hr : p.finished = false → j < 65536)
    (hok : outcome (run R (Request.point j k t).call p) = .ok true) :
    p.finished = false ∧ ((after (run R (Request.point j k t).call p)).store filing).At j
      (UInt16.ofNat k) t := by
  have hnew := (point_result hR hp hr hok).1 rfl
  unfold Taken at hnew
  rw [not_or, Bool.not_eq_true] at hnew
  obtain ⟨hopen, hnew⟩ := hnew
  obtain ⟨x, hx⟩ := request_route (r := .point j k t) hp hopen (hr hopen) hok
  have htrack := (toNat_ofNat_iff _).2 (hr hopen)
  have hlt : (UInt16.ofNat j).toNat < (p.store filing).routes.length := by
    rw [htrack]
    change p.routes[j]? = some (some x) at hx
    simpa [store] using (List.getElem?_eq_some_iff.1 hx).1
  refine ⟨hopen, ?_⟩
  rw [(run_simulates hR hp _).2]
  unfold Store.apply
  rw [if_neg (show ¬ (p.store filing).closed = true by simpa [store] using hopen)]
  have hat := Store.at_file_self (k := UInt16.ofNat k) (t := t) hlt (by rwa [htrack])
  rwa [htrack] at hat

/-- **The provider takes all points** exactly when no time is taken. -/
theorem points_accepted_iff (hR : R.Lawful filing) (hp : p.Full)
    (hrs : p.finished = false → ∀ r ∈ rs, r.track < 65536)
    (hok : ∀ m ∈ made (provider R) (rs.map Request.call) p, ∃ b, m.result = .ok b) :
    (∀ m ∈ made (provider R) (rs.map Request.call) p, m.call.IsPoint → m.result = .ok true) ↔
      Fresh (Taken filing p) rs := by
  induction rs generalizing p with
  | nil => exact iff_of_true (fun m hm => absurd hm List.not_mem_nil) trivial
  | cons r rs ih =>
    obtain ⟨b, p', hrun, hmade⟩ := made_cons_ok hok
    change run R r.call p = .ok b p' at hrun
    have hr := fun hopen => hrs hopen r List.mem_cons_self
    have hanswer : outcome (run R r.call p) = .ok b := by rw [hrun, outcome_ok]
    have htaken := taken_request hR hp hr hanswer
    have hfull := (run_simulates hR hp r.call).1
    have hflag := run_finished (R := R) r.call p
    rw [hrun, after_ok] at htaken hfull hflag
    rw [List.map_cons, hmade] at hok ⊢
    -- the times filed so far are the times that are taken in the state of the provider
    have hrest := ih hfull
      (fun hopen r hr => hrs (hflag ▸ hopen) r (List.mem_cons_of_mem _ hr))
      fun m hm => hok m (List.mem_cons_of_mem _ hm)
    rw [fresh_cons, List.forall_mem_cons, hrest, htaken]
    refine and_congr_left fun _ => ?_
    cases r with
    | point j k t =>
      have hresult := point_result hR hp hr hanswer
      constructor
      · rintro hpoint _ _ _ ⟨⟩
        exact hresult.1 (by simpa using hpoint trivial)
      · rintro hnew -
        rw [hresult.2 (hnew j k t rfl)]
    | _ => simp [Request.call, RouteCall.IsPoint]

/-- A call of `addTrackPointData` finds the point, in the segment it names. -/
def Stored (filing : ρ → Filing UInt16 τ) (m : Made (ProviderGpsRouteWriter ρ) τ) : Prop :=
  ∀ i k t type value, m.call = .addTrackPointDataString i k t type value →
    m.state.finished = false ∧ ∃ x, m.state.routes[i.toNat]? = some (some x) ∧ (filing x).At k t

/-- **The data for a point** reaches the route and the segment of the point, when the points were
taken. -/
theorem data_stored {G : ℕ → ℕ → τ → Prop} (hR : R.Lawful filing) (hp : p.Full)
    (hrs : p.finished = false → ∀ r ∈ rs, r.track < 65536)
    (hok : ∀ m ∈ made (provider R) (rs.map Request.call) p, ∃ b, m.result = .ok b)
    (hacc : ∀ m ∈ made (provider R) (rs.map Request.call) p, m.call.IsPoint → m.result = .ok true)
    (hanchored : Anchored G rs)
    (hG : ∀ j k t, G j k t → p.finished = false ∧ (p.store filing).At j (UInt16.ofNat k) t) :
    ∀ m ∈ made (provider R) (rs.map Request.call) p, Stored filing m := by
  induction rs generalizing p G with
  | nil => exact fun m hm => absurd hm List.not_mem_nil
  | cons r rs ih =>
    obtain ⟨b, p', hrun, hmade⟩ := made_cons_ok hok
    change run R r.call p = .ok b p' at hrun
    have hr := fun hopen => hrs hopen r List.mem_cons_self
    obtain ⟨hfull, hstore⟩ := run_simulates hR hp r.call
    have hflag := run_finished (R := R) r.call p
    rw [hrun, after_ok] at hfull hstore hflag
    rw [anchored_cons] at hanchored
    rw [List.map_cons, hmade] at hok hacc ⊢
    refine List.forall_mem_cons.2 ⟨?_, ih hfull
      (fun hopen r hr => hrs (hflag ▸ hopen) r (List.mem_cons_of_mem _ hr))
      (fun m hm => hok m (List.mem_cons_of_mem _ hm))
      (fun m hm => hacc m (List.mem_cons_of_mem _ hm)) hanchored.2 ?_⟩
    · intro i k t type value hcall
      cases r with
      | data j l u type' value' =>
        obtain ⟨hopen, f, hf, hat⟩ := hG j l u (hanchored.1 j l u type' value' rfl)
        have htrack : (UInt16.ofNat j).toNat = j := (toNat_ofNat_iff _).2 (hr hopen)
        cases hcall
        refine ⟨hopen, ?_⟩
        rw [htrack]
        rcases hp.route j with hnone | ⟨x, hx⟩
        · simp [store, hnone] at hf
        · unfold store at hf
          rw [List.getElem?_map, hx] at hf
          cases hf
          exact ⟨x, hx, hat⟩
      | _ => cases hcall
    · -- the points stored so far, and the one of this request
      rintro j k t (hold | rfl)
      · obtain ⟨hopen, hat⟩ := hG j k t hold
        rw [hflag, hstore]
        exact ⟨hopen, (Store.sub_apply _ _).at hat⟩
      · have htrue : b = true := by simpa using hacc _ List.mem_cons_self trivial
        have hanswer : outcome (run R (Request.point j k t).call p) = .ok true := by
          rw [hrun, outcome_ok, htrue]
        obtain ⟨hopen, hat⟩ := point_stored (j := j) hR hp hr hanswer
        rw [hrun, after_ok] at hat
        exact ⟨hflag.trans hopen, hat⟩

/-- Data for a stored point is up to `addPointData`. -/
theorem stored_result (hR : R.Lawful filing) {m : Made (ProviderGpsRouteWriter ρ) τ}
    {calls : List (RouteCall τ)} (hm : m ∈ made (provider R) calls p) (hstored : Stored filing m)
    {i k : UInt16} {t : τ} {type value : StdString}
    (hcall : m.call = .addTrackPointDataString i k t type value) :
    ∃ x, m.state.routes[i.toNat]? = some (some x) ∧ (filing x).At k t ∧
      m.result = outcome (R.addPointDataString k t type value true x) := by
  obtain ⟨hopen, x, hx, hat⟩ := hstored i k t type value hcall
  refine ⟨x, hx, hat, ?_⟩
  rw [made_result hm, hcall]
  exact addTrackPointDataWith_stored _ hopen hx ((hR.hasPoint x t).2 ⟨k, hat⟩)

/-! ### The calls for a document -/

section Document

variable {parseTime : TimeParser τ} {root : GPX}

/-- A provider that answers every call for a document has a route for every track. -/
theorem tracks_lt (hlen : p.routes.length < 65536) (hopen : p.finished = false)
    (hend : .terminate ∉ tracksActions parseTime 0 root.trks)
    (hok : ∀ m ∈ made (provider R) ((root.requests parseTime).map Request.call) p,
      ∃ b, m.result = .ok b) : root.trks.length < 65536 := by
  by_contra hge
  -- the title of the track 65535 would have found no route
  obtain ⟨s, hs⟩ := mem_requests_title (i := 65535) hend (by omega)
  have hmem := List.mem_map_of_mem (f := Request.call) hs
  rw [← made_all hok] at hmem
  obtain ⟨m, hm, hcall⟩ := List.mem_map.1 hmem
  have hsame := made_sameSize R (fun c hc num hnum => ?_) p m hm
  · obtain ⟨b, hb⟩ := hok m hm
    rw [made_result hm, hcall] at hb
    have hnone : m.state.routes[(UInt16.ofNat 65535).toNat]? = none := by
      rw [List.getElem?_eq_none_iff, hsame.length]
      exact Nat.le_of_lt_succ hlen
    have hthrow : run R (.setTrackTitle (UInt16.ofNat 65535) s) m.state =
        .error .outOfRange m.state := by
      rw [run, setTrackTitle, whenOpen_apply _ (hsame.finished.trans hopen),
        onRoute_outOfRange _ hnone]
    change outcome (run R (.setTrackTitle (UInt16.ofNat 65535) s) m.state) = _ at hb
    rw [hthrow] at hb
    cases hb
  · obtain ⟨r, -, rfl⟩ := List.mem_map.1 hc
    cases r <;> cases hnum

/-- Every point has a time of its own: one that no other point of its track has, and that the
route has no point at yet. -/
def OwnTimes (filing : ρ → Filing UInt16 τ) (parseTime : TimeParser τ) (root : GPX)
    (p : ProviderGpsRouteWriter ρ) : Prop :=
  ∀ (j : ℕ) (track : TRK), root.trks[j]? = some track →
    NewTimes (Taken filing p) j (track.times parseTime)

/-- The calls for a document when all of them are answered. -/
theorem document_points (hR : R.Lawful filing) (hp : p.Full) (hlen : p.routes.length < 65536)
    (hne : 0 < root.trks.length) (hend : .terminate ∉ tracksActions parseTime 0 root.trks)
    (hok : ∀ m ∈ made (provider R) (root.calls parseTime) p, ∃ b, m.result = .ok b) :
    ((∀ m ∈ made (provider R) (root.calls parseTime) p, m.call.IsPoint → m.result = .ok true) ↔
        OwnTimes filing parseTime root p) ∧
      (OwnTimes filing parseTime root p →
        ∀ m ∈ made (provider R) (root.calls parseTime) p, Stored filing m) := by
  rw [GPX.calls_of_pos hne] at hok ⊢
  obtain ⟨b, p', hrun, hmade⟩ := made_cons_ok hok
  change run R (.setNumTracks (UInt16.ofNat root.trks.length)) p = .ok b p' at hrun
  obtain ⟨hfull, hstore⟩ := run_simulates hR hp (.setNumTracks (UInt16.ofNat root.trks.length))
  have hflag := run_finished (R := R) (.setNumTracks (UInt16.ofNat root.trks.length)) p
  rw [hrun, after_ok] at hfull hstore hflag
  have hlen' : p'.routes.length < 65536 := by
    have := Store.length_apply (s := p.store filing)
      (c := .setNumTracks (UInt16.ofNat root.trks.length)) (by simpa [store] using hlen)
    rw [← hstore] at this
    simpa [store] using this
  -- new routes have no points
  have htaken : Taken filing p' = Taken filing p := by
    funext j t
    unfold Taken
    rw [hflag, hstore]
    unfold Store.apply
    split_ifs
    · rfl
    · simp only [Store.mem_enlarge_iff]
  rw [hmade] at hok ⊢
  have hok' := fun m hm => hok m (List.mem_cons_of_mem _ hm)
  have hrs : p'.finished = false → ∀ r ∈ root.requests parseTime, r.track < 65536 :=
    fun hopen r hr => (root.track_lt hr).trans (tracks_lt hlen' hopen hend hok')
  have hpoints := points_accepted_iff hR hfull hrs hok'
  rw [fresh_requests hend, htaken] at hpoints
  have hiff : (∀ m ∈ ⟨.setNumTracks (UInt16.ofNat root.trks.length), p, .ok b⟩ ::
      made (provider R) ((root.requests parseTime).map Request.call) p',
      m.call.IsPoint → m.result = .ok true) ↔ OwnTimes filing parseTime root p := by
    rw [List.forall_mem_cons, hpoints]
    exact and_iff_right fun h => h.elim
  refine ⟨hiff, fun htimes => List.forall_mem_cons.2 ⟨fun i k t type value hcall => ?_, ?_⟩⟩
  · cases hcall
  · exact data_stored hR hfull hrs hok' (hpoints.2 htimes) (anchored_requests hend)
      (G := fun _ _ _ => False) fun j k t h => h.elim

end Document

end ProviderGpsRouteWriter

end Libgpsfile2
