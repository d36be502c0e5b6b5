import Libgpsfile2.Gpx.Requests
import Libgpsfile2.Provider.ProviderGpsRouteWriter

/-!
# Track and segment numbers

`parseData` counts tracks and segments in `unsigned short` variables, and passes the number of
tracks in one. `Indexed` says that the provider is told the numbers of the document all the same,
`InRange` that a `ProviderGpsRouteWriter` finds a route under every number it is given.

`parseData_indices_iff`: this is so for every provider if and only if the document has less than
`2 ^ 16` tracks and every track point that is reached lies in one of the first `2 ^ 16` segments of
its track.
-/

namespace Libgpsfile2

variable {π ρ τ : Type}

/-- The route number of a call. -/
def RouteCall.routeNum : RouteCall τ → Option UInt16
  | .setNumTracks _ => none
  | .setTrackTitle j _ => some j
  | .setTrackSummary j _ => some j
  | .setTrackDetails j _ => some j
  | .setTrackActivityType j _ => some j
  | .setTrackOriginalHash j _ => some j
  | .addTrackPoint j _ _ => some j
  | .addTrackPointDataString j _ _ _ _ => some j
  | .addTrackPointData j _ _ _ _ => some j

/-- The segment number of a call. -/
def RouteCall.segmentNum : RouteCall τ → Option UInt16
  | .addTrackPoint _ k _ => some k
  | .addTrackPointDataString _ k _ _ _ => some k
  | .addTrackPointData _ k _ _ _ => some k
  | _ => none

/-- The call for a request has the numbers of its track and segment. -/
def Request.Carried (r : Request τ) : Prop :=
  r.call.routeNum.map UInt16.toNat = some r.track ∧
    r.call.segmentNum.map UInt16.toNat = r.segment

/-- The calls made for a document: `setNumTracks` with the number of its tracks, and then the calls
for its requests, in order, each with the numbers of its track and segment. -/
structure Indexed (parseTime : TimeParser τ) (root : GPX) (ms : List (Made π τ)) : Prop where
  announced : ∃ m, ms.head? = some m ∧ ∃ num : UInt16, m.call = .setNumTracks num ∧
    num.toNat = root.trks.length
  carried : ∀ (i : ℕ) (m : Made π τ), ms.tail[i]? = some m →
    ∃ r : Request τ, (root.requests parseTime)[i]? = some r ∧ m.call = r.call ∧ r.Carried

/-- No `at ()` of a `ProviderGpsRouteWriter` throws: it is not reached, or the index is in range. -/
def InRange (ms : List (Made (ProviderGpsRouteWriter ρ) τ)) : Prop :=
  ∀ m ∈ ms, ∀ j, m.call.routeNum = some j →
    m.state.finished = true ∨ j.toNat < m.state.routes.length

theorem toNat_ofNat_iff (n : ℕ) : (UInt16.ofNat n).toNat = n ↔ n < 65536 := by
  rw [UInt16.toNat_ofNat']
  omega

/-- Numbers are carried when they fit. -/
theorem Request.carried_iff (r : Request τ) :
    r.Carried ↔ r.track < 65536 ∧ ∀ k, r.segment = some k → k < 65536 := by
  cases r <;>
    simp [Carried, Request.call, RouteCall.routeNum, RouteCall.segmentNum, track, segment]

/-! ### The calls made -/

/-- The calls made are a first part of the calls. -/
theorem made_calls (dp : ProviderRouteWriterBase π τ) (calls : List (RouteCall τ)) (p : π) :
    (made dp calls p).map Made.call <+: calls := by
  induction calls generalizing p with
  | nil => exact List.prefix_rfl
  | cons c calls ih =>
    rw [made]
    cases dp.call c p with
    | ok b p' => exact List.cons_prefix_cons.2 ⟨rfl, ih p'⟩
    | error e p' => exact List.cons_prefix_cons.2 ⟨rfl, List.nil_prefix⟩

/-- A provider that takes every call. -/
def takesAll : ProviderRouteWriterBase Unit τ where
  call _ := return true
  finished := return ()

theorem made_takesAll (calls : List (RouteCall τ)) :
    (made takesAll calls ()).map Made.call = calls := by
  induction calls with
  | nil => rfl
  | cons c calls ih =>
    have hcall : (takesAll : ProviderRouteWriterBase Unit τ).call c () = .ok true () := rfl
    rw [made, hcall, List.map_cons, ih]

section Providers

variable {parseTime : TimeParser τ} {root : GPX}

theorem GPX.calls_of_pos (hne : 0 < root.trks.length) :
    root.calls parseTime = .setNumTracks (UInt16.ofNat root.trks.length) ::
      (root.requests parseTime).map Request.call := if_neg (by omega)

theorem indexed_of_fits (hne : 0 < root.trks.length) (hlen : root.trks.length < 65536)
    (hseg : ∀ r ∈ root.requests parseTime, ∀ k, r.segment = some k → k < 65536)
    (dp : ProviderRouteWriterBase π τ) (p : π) :
    Indexed parseTime root (made dp (root.calls parseTime) p) := by
  have hcalls := made_calls dp (root.calls parseTime) p
  have hhead : ∃ m ms, made dp (root.calls parseTime) p = m :: ms := by
    rw [GPX.calls_of_pos hne, made]
    split <;> exact ⟨_, _, rfl⟩
  obtain ⟨m, ms, hms⟩ := hhead
  rw [hms, GPX.calls_of_pos hne, List.map_cons] at hcalls
  obtain ⟨hm, htail⟩ := List.cons_prefix_cons.1 hcalls
  rw [hms]
  refine ⟨⟨m, rfl, _, hm, (toNat_ofNat_iff _).2 hlen⟩, fun i m' hi => ?_⟩
  have hcall : (ms.map Made.call)[i]? = some m'.call := by
    rw [List.getElem?_map, show ms[i]? = some m' from hi]
    rfl
  obtain ⟨rest, hrest⟩ := htail
  have hlt := (List.getElem?_eq_some_iff.1 hcall).1
  have happend : (ms.map Made.call ++ rest)[i]? = (ms.map Made.call)[i]? :=
    List.getElem?_append_left hlt
  rw [← happend, hrest, List.getElem?_map, Option.map_eq_some_iff] at hcall
  obtain ⟨r, hr, hcall⟩ := hcall
  have hmem := List.mem_of_getElem? hr
  exact ⟨r, hr, hcall.symm, r.carried_iff.2 ⟨(root.track_lt hmem).trans hlen, hseg r hmem⟩⟩

/-- Every request is carried to a provider that takes all calls only if the numbers fit. -/
theorem fits_of_indexed (hne : 0 < root.trks.length)
    (h : Indexed parseTime root (made takesAll (root.calls parseTime) ())) :
    root.trks.length < 65536 ∧
      ∀ r ∈ root.requests parseTime, ∀ k, r.segment = some k → k < 65536 := by
  have hcalls := made_takesAll (root.calls parseTime)
  obtain ⟨⟨m, hm, num, hcall, hnum⟩, hcarried⟩ := h
  generalize made takesAll (root.calls parseTime) () = ms at hcalls hm hcarried
  rw [GPX.calls_of_pos hne] at hcalls
  obtain ⟨m', ms, rfl⟩ := List.exists_cons_of_ne_nil (show ms ≠ [] by rintro rfl; cases hm)
  obtain rfl : m' = m := Option.some.inj hm
  rw [List.map_cons, List.cons.injEq] at hcalls
  constructor
  · rw [hcall, RouteCall.setNumTracks.injEq] at hcalls
    rw [← toNat_ofNat_iff, ← hcalls.1, hnum]
  · intro r hr k hk
    -- the request is carried by the call at its position
    obtain ⟨i, hi⟩ := List.mem_iff_getElem?.1 hr
    have hmap : (ms.map Made.call)[i]? = some r.call := by
      rw [hcalls.2, List.getElem?_map, hi]
      rfl
    rw [List.getElem?_map, Option.map_eq_some_iff] at hmap
    obtain ⟨m₁, hm₁, -⟩ := hmap
    obtain ⟨r', hr', -, hr'carried⟩ := hcarried i m₁ hm₁
    rw [hi, Option.some.injEq] at hr'
    subst hr'
    exact (r.carried_iff.1 hr'carried).2 k hk

/-! ### The routes of a `ProviderGpsRouteWriter` -/

open ProviderGpsRouteWriter in
/-- Only `setNumTracks` changes the number of routes. -/
theorem made_sameSize (R : RouteClass ρ τ) {calls : List (RouteCall τ)}
    (hcalls : ∀ c ∈ calls, ∀ num, c ≠ .setNumTracks num) (p : ProviderGpsRouteWriter ρ) :
    ∀ m ∈ made (provider R) calls p, SameSize p m.state := by
  induction calls generalizing p with
  | nil => simp [made]
  | cons c calls ih =>
    intro m hm
    have hsame := run_along (hcalls c List.mem_cons_self) (R := R) p
    have hcall : (provider R).call c p = run R c p := rfl
    rw [made, hcall] at hm
    cases hrun : run R c p with
    | error e p' =>
      rw [hrun] at hm
      rw [List.mem_singleton.1 hm]
      exact .refl p
    | ok b p' =>
      rw [hrun] at hm hsame
      rcases List.mem_cons.1 hm with rfl | hm
      · exact .refl p
      · exact hsame.trans _ _ _
          (ih (fun c hc => hcalls c (List.mem_cons_of_mem _ hc)) p' m hm)

open ProviderGpsRouteWriter in
/-- After `setNumTracks (num)` an open provider has at least `num` routes. -/
theorem setNumTracks_length (R : RouteClass ρ τ) (num : UInt16) (p : ProviderGpsRouteWriter ρ) :
    (after (run R (.setNumTracks num) p)).finished = true ∨
      num.toNat ≤ (after (run R (.setNumTracks num) p)).routes.length := by
  by_cases hp : p.finished = true
  · rw [run_of_finished _ hp]
    exact .inl hp
  · rw [run, setNumTracks_apply num (by simpa using hp)]
    right
    split_ifs with hlt
    · exact hlt.le
    · simp only [after_ok, resize, List.length_map, List.length_append, List.length_replicate]
      omega

open ProviderGpsRouteWriter in
theorem inRange_of_fits (hlen : root.trks.length < 65536) (R : RouteClass ρ τ)
    (p : ProviderGpsRouteWriter ρ) :
    InRange (made (provider R) (root.calls parseTime) p) := by
  intro m hm j hj
  unfold GPX.calls at hm
  split_ifs at hm with hne
  · exact absurd hm List.not_mem_nil
  · have hsize := setNumTracks_length R (UInt16.ofNat root.trks.length) p
    have hcall : (provider R).call (.setNumTracks (UInt16.ofNat root.trks.length)) p =
      run R (.setNumTracks (UInt16.ofNat root.trks.length)) p := rfl
    rw [(toNat_ofNat_iff _).2 hlen] at hsize
    rw [made, hcall] at hm
    cases hrun : run R (.setNumTracks (UInt16.ofNat root.trks.length)) p with
    | error e p' =>
      rw [hrun] at hm
      rw [List.mem_singleton.1 hm] at hj
      cases hj
    | ok b p' =>
      rw [hrun] at hm hsize
      rcases List.mem_cons.1 hm with rfl | hm
      · cases hj
      · have hcalls : ∀ c ∈ (root.requests parseTime).map Request.call, ∀ num,
            c ≠ .setNumTracks num := by
          rintro c hc num rfl
          obtain ⟨r, -, hr⟩ := List.mem_map.1 hc
          cases r <;> cases hr
        -- a later call finds as many routes as `setNumTracks` has left
        obtain ⟨hfin, hroutes⟩ := made_sameSize R hcalls p' m hm
        rw [hfin, hroutes]
        refine hsize.imp id fun hle => ?_
        have hmem := (made_calls (provider R) _ p').subset (List.mem_map_of_mem hm)
        obtain ⟨r, hr, hrcall⟩ := List.mem_map.1 hmem
        have htrack := root.track_lt hr
        rw [← hrcall] at hj
        have : j = UInt16.ofNat r.track := by
          cases r <;> exact (Option.some.inj hj).symm
        rw [this, (toNat_ofNat_iff _).2 (htrack.trans hlen)]
        exact htrack.trans_le hle

/-! ### The numbers of a document -/

/-- **When every number arrives.** -/
theorem parseData_indices_iff (hne : 0 < root.trks.length) :
    ((∀ (π : Type) (dp : ProviderRouteWriterBase π τ) (p : π),
        Indexed parseTime root (after (parseData (traced dp) parseTime root (p, []))).2) ∧
      ∀ (ρ : Type) (R : RouteClass ρ τ) (p : ProviderGpsRouteWriter ρ),
        InRange (after (parseData (traced (ProviderGpsRouteWriter.provider R)) parseTime root
          (p, []))).2) ↔
      root.trks.length < 65536 ∧
        ∀ r ∈ root.requests parseTime, ∀ k, r.segment = some k → k < 65536 := by
  simp only [parseData_traced, List.nil_append]
  constructor
  · rintro ⟨hindexed, -⟩
    exact fits_of_indexed hne (hindexed Unit takesAll ())
  · rintro ⟨hlen, hseg⟩
    exact ⟨fun π dp p => indexed_of_fits hne hlen hseg dp p,
      fun ρ R p => inRange_of_fits hlen R p⟩

end Providers

/-- A document with `n` empty tracks. -/
def emptyTracks (n : ℕ) : GPX := ⟨List.replicate n ⟨[], [], [], []⟩⟩

/-- When it has `2 ^ 16` tracks `setNumTracks` is called with zero. -/
theorem parseData_indices_wrap :
    ¬ Indexed (fun _ => ()) (emptyTracks 65536)
      (after (parseData (traced takesAll) (fun _ => ()) (emptyTracks 65536) ((), []))).2 := by
  have hlen : (emptyTracks 65536).trks.length = 65536 := List.length_replicate
  rw [parseData_traced, List.nil_append]
  intro h
  have hfits := (fits_of_indexed (by rw [hlen]; decide) h).1
  rw [hlen] at hfits
  exact absurd hfits (lt_irrefl _)

/-- A document with one track and one point. -/
theorem parseData_indices_one :
    ∃ root : GPX, root.trks.length = 1 ∧
      Indexed (fun _ => ()) root
        (after (parseData (traced takesAll) (fun _ => ()) root ((), []))).2 := by
  refine ⟨⟨[⟨[], [], [], [⟨[⟨[], [], [], [], []⟩]⟩]⟩]⟩, rfl, ?_⟩
  refine ((parseData_indices_iff (by simp)).2 ⟨by simp, fun r hr k hk => ?_⟩).1 Unit takesAll ()
  have hreq : r ∈ [Request.title 0 [], .summary 0 [], .details 0 [], .point 0 0 (),
      .data 0 0 () (lit "LAT") [], .data 0 0 () (lit "LON") [], .data 0 0 () (lit "ALT") []] := hr
  simp only [List.mem_cons, List.not_mem_nil, or_false] at hreq
  rcases hreq with rfl | rfl | rfl | rfl | rfl | rfl | rfl <;> cases hk <;> decide

end Libgpsfile2
