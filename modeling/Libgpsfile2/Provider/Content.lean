import Libgpsfile2.Provider.ProviderStore

/-!
# What a provider holds

The points of a provider are a function of the calls that were made, whatever these have answered
and whatever else they have asked for:

* the calls after `finished` do not count (`opened`);
* there are as many routes as `setNumTracks` was ever asked for (`numTracks`);
* the points of a route are those that the calls name from when the route is there (`filedIn`),
  each in the segment that it is named in first;
* there is a segment if and only if it has a point.

`Store.made` is the provider that the calls make in this sense, and `made_apply` says that a mutator
keeps to it.
-/

namespace Libgpsfile2

variable {ρ τ : Type}

/-! ### The calls that count -/

namespace RouteCall

/-- The number of routes after a call, when there were `n` of them. -/
def tracks (n : ℕ) : RouteCall τ → ℕ
  | .setNumTracks num => max n num.toNat
  | _ => n

/-- The point that a call files in the route `j`, when there are `n` routes. -/
def filed (j n : ℕ) (c : RouteCall τ) : Option (UInt16 × τ) :=
  (c.point.filter fun x => x.1.toNat = j ∧ j < n).map Prod.snd

theorem le_tracks (n : ℕ) (c : RouteCall τ) : n ≤ c.tracks n := by
  cases c with
  | setNumTracks num => exact le_max_left n num.toNat
  | _ => exact le_rfl

/-- A route that is not there files nothing. -/
theorem filed_of_le {j n : ℕ} (h : n ≤ j) (c : RouteCall τ) : c.filed j n = none := by
  unfold filed
  cases c.point with
  | none => rfl
  | some x => simp [Nat.not_lt.2 h]

theorem filed_of_none {c : RouteCall τ} (hc : c.point = none) (j n : ℕ) : c.filed j n = none := by
  unfold filed
  rw [hc]
  rfl

theorem filed_of_some {c : RouteCall τ} {i k : UInt16} {t : τ} (hc : c.point = some (i, k, t))
    {j n : ℕ} (hj : j < n) :
    c.filed j n = if i.toNat = j then some (k, t) else none := by
  unfold filed
  rw [hc]
  by_cases hi : i.toNat = j <;> simp [hi, hj]

end RouteCall

/-- The number of routes that the calls make. -/
def numTracks (cs : List (RouteCall τ)) : ℕ := cs.foldl RouteCall.tracks 0

/-- The points that the calls file in the route `j`, when there are `n` routes before them. -/
def filedFrom (j : ℕ) : ℕ → List (RouteCall τ) → List (UInt16 × τ)
  | _, [] => []
  | n, c :: cs => (c.filed j n).toList ++ filedFrom j (c.tracks n) cs

/-- The points that the calls file in the route `j`. -/
def filedIn (j : ℕ) (cs : List (RouteCall τ)) : List (UInt16 × τ) := filedFrom j 0 cs

section Calls

variable {cs : List (RouteCall τ)} {j n : ℕ}

theorem numTracks_concat (cs : List (RouteCall τ)) (c : RouteCall τ) :
    numTracks (cs ++ [c]) = c.tracks (numTracks cs) := List.foldl_concat _ _ _ _

theorem filedFrom_concat (j n : ℕ) (cs : List (RouteCall τ)) (c : RouteCall τ) :
    filedFrom j n (cs ++ [c]) =
      filedFrom j n cs ++ (c.filed j (cs.foldl RouteCall.tracks n)).toList := by
  induction cs generalizing n with
  | nil =>
    show (c.filed j n).toList ++ [] = [] ++ (c.filed j n).toList
    rw [List.append_nil, List.nil_append]
  | cons c' cs ih =>
    rw [List.cons_append, filedFrom, filedFrom, ih, List.append_assoc]
    rfl

theorem filedIn_concat (j : ℕ) (cs : List (RouteCall τ)) (c : RouteCall τ) :
    filedIn j (cs ++ [c]) = filedIn j cs ++ (c.filed j (numTracks cs)).toList :=
  filedFrom_concat j 0 cs c

theorem filedFrom_of_le (h : cs.foldl RouteCall.tracks n ≤ j) : filedFrom j n cs = [] := by
  induction cs generalizing n with
  | nil => rfl
  | cons c cs ih =>
    have hle : ∀ (cs : List (RouteCall τ)) (n : ℕ), n ≤ cs.foldl RouteCall.tracks n := by
      intro cs
      induction cs with
      | nil => exact fun n => le_rfl
      | cons c cs ih => exact fun n => (c.le_tracks n).trans (ih _)
    have hn : n ≤ j := (hle (c :: cs) n).trans h
    rw [filedFrom, c.filed_of_le hn, ih h]
    rfl

/-- Nothing is filed in a route that is never there. -/
theorem filedIn_of_le (h : numTracks cs ≤ j) : filedIn j cs = [] := filedFrom_of_le h

end Calls

/-! ### The provider that the calls make -/

namespace Store

variable {cs : List (RouteCall τ)}

/-- The provider that the calls make. -/
noncomputable def made (closed : Bool) (cs : List (RouteCall τ)) : Store τ where
  closed := closed
  routes := (List.range (numTracks cs)).map fun j => Filing.empty.addAll (filedIn j cs)

theorem getElem?_made (closed : Bool) (cs : List (RouteCall τ)) (j : ℕ) :
    (made closed cs).routes[j]? =
      if j < numTracks cs then some (Filing.empty.addAll (filedIn j cs)) else none := by
  unfold made
  rw [List.getElem?_map]
  by_cases hj : j < numTracks cs
  · rw [if_pos hj, List.getElem?_range hj]
    rfl
  · rw [if_neg hj, List.getElem?_eq_none (by simpa using hj)]
    rfl

/-- A call that names no point, and asks for no routes. -/
theorem made_concat_of_none {c : RouteCall τ} (hc : c.point = none)
    (htracks : c.tracks (numTracks cs) = numTracks cs) :
    made false (cs ++ [c]) = made false cs := by
  unfold made
  rw [numTracks_concat, htracks]
  congr 1
  apply List.map_congr_left
  intro j _
  rw [filedIn_concat, c.filed_of_none hc, Option.toList_none, List.append_nil]

theorem enlarge_made (num : UInt16) (cs : List (RouteCall τ)) :
    (made false cs).enlarge num.toNat = made false (cs ++ [.setNumTracks num]) := by
  have hlen : (made false cs).routes.length = numTracks cs := by simp [made]
  have hfiled : ∀ j, filedIn j (cs ++ [.setNumTracks num]) = filedIn j cs := by
    intro j
    rw [filedIn_concat, RouteCall.filed_of_none rfl, Option.toList_none, List.append_nil]
  unfold enlarge
  rw [Store.mk.injEq]
  refine ⟨rfl, List.ext_getElem? fun j => ?_⟩
  rw [getElem?_made, numTracks_concat, hfiled, List.getElem?_append, hlen, getElem?_made,
    List.getElem?_replicate]
  show _ = if j < max (numTracks cs) num.toNat then _ else _
  by_cases hj : j < numTracks cs
  · rw [if_pos hj, if_pos hj, if_pos (lt_max_of_lt_left hj)]
  · rw [if_neg hj, filedIn_of_le (Nat.not_lt.1 hj)]
    have hiff : j - numTracks cs < num.toNat - numTracks cs ↔
        j < max (numTracks cs) num.toNat := by omega
    simp only [hiff]
    rfl

theorem file_made {c : RouteCall τ} {i k : UInt16} {t : τ} (hc : c.point = some (i, k, t))
    (htracks : c.tracks (numTracks cs) = numTracks cs) :
    (made false cs).file i k t = made false (cs ++ [c]) := by
  have hclosed : ((made false cs).file i k t).closed = (made false (cs ++ [c])).closed := rfl
  have hroutes : ((made false cs).file i k t).routes = (made false (cs ++ [c])).routes := by
    apply List.ext_getElem?
    intro j
    rw [getElem?_file, getElem?_made, getElem?_made, numTracks_concat, htracks, filedIn_concat]
    by_cases hj : j < numTracks cs
    · rw [if_pos hj, if_pos hj, c.filed_of_some hc hj, Option.map_some]
      by_cases hi : i.toNat = j
      · rw [if_pos hi, if_pos hi, Filing.addAll_append]
        rfl
      · rw [if_neg hi, if_neg hi, Option.toList_none, List.append_nil]
    · rw [if_neg hj, if_neg hj]
      rfl
  generalize (made false cs).file i k t = s at hclosed hroutes ⊢
  obtain ⟨closed, routes⟩ := s
  rw [show closed = _ from hclosed, show routes = _ from hroutes]

/-- **A mutator of an open provider.** -/
theorem made_apply (cs : List (RouteCall τ)) (c : RouteCall τ) :
    (made false cs).apply c = made false (cs ++ [c]) := by
  unfold apply
  rw [if_neg (show ¬ (made false cs).closed = true from Bool.false_ne_true)]
  cases c with
  | setNumTracks num => exact enlarge_made num cs
  | addTrackPoint i k t => exact file_made rfl rfl
  | addTrackPointDataString i k t type value => exact file_made rfl rfl
  | addTrackPointData i k t type value => exact file_made rfl rfl
  | _ => exact (made_concat_of_none rfl rfl).symm

end Store

/-! ### Sessions -/

namespace ProviderGpsRouteWriter

variable {R : RouteClass ρ τ} {filing : ρ → Filing UInt16 τ} {p : ProviderGpsRouteWriter ρ}
  {h : History (Call τ) (Option Bool) Exn}

/-- The mutators before the first `finished`. -/
def opened : List (Call τ) → List (RouteCall τ)
  | [] => []
  | .finished :: _ => []
  | .mutator c :: cs => c :: opened cs

theorem opened_concat_of_mem {cs : List (Call τ)} (h : .finished ∈ cs) (x : Call τ) :
    opened (cs ++ [x]) = opened cs := by
  induction cs with
  | nil => cases h
  | cons y cs ih =>
    cases y with
    | finished => rfl
    | mutator c =>
      have hcs : .finished ∈ cs := by simpa using h
      rw [List.cons_append, opened, opened, ih hcs]

theorem opened_concat_mutator {cs : List (Call τ)} (h : .finished ∉ cs) (c : RouteCall τ) :
    opened (cs ++ [.mutator c]) = opened cs ++ [c] := by
  induction cs with
  | nil => rfl
  | cons y cs ih =>
    rw [List.mem_cons, not_or] at h
    cases y with
    | finished => exact absurd rfl h.1
    | mutator c' => rw [List.cons_append, opened, opened, ih h.2, List.cons_append]

theorem opened_concat_finished (cs : List (Call τ)) :
    opened (cs ++ [.finished]) = opened cs := by
  induction cs with
  | nil => rfl
  | cons y cs ih =>
    cases y with
    | finished => rfl
    | mutator c => rw [List.cons_append, opened, opened, ih]

/-- The calls of a session make its provider. -/
theorem session_made (hR : R.Lawful filing) (hs : Session (object R) (create false) h p) :
    p.Full ∧ (p.finished = true ↔ .finished ∈ h.map Prod.fst) ∧
      p.store filing = .made p.finished (opened (h.map Prod.fst)) := by
  refine hs.invariant (I := fun h p => p.Full ∧ (p.finished = true ↔ .finished ∈ h.map Prod.fst) ∧
    p.store filing = .made p.finished (opened (h.map Prod.fst))) ?_ ?_
  · exact ⟨fun x hx => absurd hx List.not_mem_nil,
      iff_of_false Bool.false_ne_true List.not_mem_nil, rfl⟩
  · rintro h p x ⟨hfull, hfin, hstore⟩ -
    rw [List.map_append, List.map_singleton, List.mem_append, List.mem_singleton]
    cases x with
    | finished =>
      rw [after_finished, store_finished, hstore, opened_concat_finished]
      exact ⟨hfull, iff_of_true rfl (.inr rfl), rfl⟩
    | mutator c =>
      rw [after_mutator]
      obtain ⟨hfull', hstore'⟩ := run_simulates hR hfull c
      refine ⟨hfull', ?_⟩
      by_cases hp : p.finished = true
      · rw [run_of_finished c hp, after_ok, opened_concat_of_mem (hfin.1 hp)]
        exact ⟨iff_of_true hp (.inl (hfin.1 hp)), hstore⟩
      · have hopen : p.finished = false := by simpa using hp
        have hnew : .finished ∉ h.map Prod.fst := mt hfin.2 hp
        have hsame : (after (run R c p)).finished = false := (run_finished c p).trans hopen
        rw [hstore', hstore, hopen, Store.made_apply, opened_concat_mutator hnew, hsame]
        refine ⟨iff_of_false Bool.false_ne_true ?_, rfl⟩
        rintro (hmem | heq)
        · exact hnew hmem
        · cases heq

/-- When `addTrackPoint` adds a point. -/
theorem addTrackPoint_true_iff (hR : R.Lawful filing) (hfull : p.Full) (j k : UInt16) (t : τ) :
    outcome (addTrackPoint R j k t p) = .ok true ↔
      p.finished = false ∧ j.toNat < p.routes.length ∧ ¬ (p.store filing).Mem j.toNat t := by
  by_cases hp : p.finished = true
  · rw [show addTrackPoint R j k t p = .ok false p from run_of_finished (.addTrackPoint j k t) hp]
    simp [hp]
  · have hopen : p.finished = false := by simpa using hp
    rcases hfull.route j.toNat with hj | ⟨r, hj⟩
    · have hlen := List.getElem?_eq_none_iff.1 hj
      rw [addTrackPoint, whenOpen_apply _ hopen, bind_apply, hasPoint, onRoute_outOfRange _ hj]
      exact iff_of_false (fun h => by cases h) fun h => absurd h.2.1 (Nat.not_lt.2 hlen)
    · obtain ⟨hlt, -⟩ := List.getElem?_eq_some_iff.1 hj
      obtain ⟨r', hadd, -⟩ := addTrackPoint_apply (k := k) (t := t) hR hopen hj
      have hmem : (p.store filing).Mem j.toNat t ↔ (filing r).Mem t := by
        unfold Store.Mem
        simp [store, hj]
      rw [hadd, hmem, ← hR.hasPoint]
      simp [hopen, hlt]

/-- **What a provider holds**, by the calls that were made. -/
theorem session_content (hR : R.Lawful filing) (hs : Session (object R) (create false) h p) :
    p.routes.length = numTracks (opened (h.map Prod.fst)) ∧
      (∀ (j : ℕ) r, p.routes[j]? = some (some r) →
        (∀ k t, (filing r).At k t ↔
          Filing.First (filedIn j (opened (h.map Prod.fst))) k t) ∧
        ∀ k, R.hasSegment r k = true ↔ ∃ t, (filing r).At k t) ∧
      ∀ j k t, outcome (addTrackPoint R j k t p) = .ok true ↔
        .finished ∉ h.map Prod.fst ∧ j.toNat < numTracks (opened (h.map Prod.fst)) ∧
          t ∉ (filedIn j.toNat (opened (h.map Prod.fst))).map Prod.snd := by
  obtain ⟨hfull, hfin, hstore⟩ := session_made hR hs
  have hlen : p.routes.length = numTracks (opened (h.map Prod.fst)) := by
    have heq := congrArg (fun s => s.routes.length) hstore
    simpa [store, Store.made] using heq
  have hfiling : ∀ j r, p.routes[j]? = some (some r) →
      filing r = Filing.empty.addAll (filedIn j (opened (h.map Prod.fst))) := by
    intro j r hj
    obtain ⟨hlt, -⟩ := List.getElem?_eq_some_iff.1 hj
    have heq := congrArg (fun s => s.routes[j]?) hstore
    simp only [Store.getElem?_made, if_pos (hlen ▸ hlt)] at heq
    simpa [store, hj] using heq
  refine ⟨hlen, fun j r hj => ⟨fun k t => ?_, fun k => ?_⟩, fun j k t => ?_⟩
  · rw [hfiling j r hj, Filing.at_addAll_iff]
    simp [Filing.not_mem_empty]
  · rw [hR.hasSegment, hfiling j r hj]
    refine ⟨Filing.noneEmpty_empty.addAll _ k, ?_⟩
    rintro ⟨t, m, hm, -⟩
    rw [hm]
    exact Option.some_ne_none m
  · have hmem : (p.store filing).Mem j.toNat t ↔
        t ∈ (filedIn j.toNat (opened (h.map Prod.fst))).map Prod.snd := by
      rw [hstore]
      unfold Store.Mem
      rw [Store.getElem?_made]
      by_cases hj : j.toNat < numTracks (opened (h.map Prod.fst))
      · simp [hj, Filing.mem_addAll_iff, Filing.not_mem_empty]
      · simp [hj, filedIn_of_le (Nat.not_lt.1 hj)]
    rw [addTrackPoint_true_iff hR hfull, hlen, hmem, ← hfin, Bool.not_eq_true]

/-- A point, and another one at the same time. -/
theorem session_content_twice :
    ∃ h p r, Session (object timesRoute) (create false) h p ∧
      h.map Prod.fst = [.mutator (.setNumTracks 1), .mutator (.addTrackPoint 0 5 7),
        .mutator (.addTrackPoint 0 6 7)] ∧
      p.routes[0]? = some (some r) ∧ (timesFiling r).At 5 7 := by
  have h₀ : Session (object timesRoute) (create false) [] _ := .start
  have h₁ := h₀.returned (c := .mutator (.setNumTracks 1)) (r := some true) trivial
    (by simp [Object.Alive]) rfl
  have h₂ := h₁.returned (c := .mutator (.addTrackPoint 0 5 7)) (r := some true) trivial
    (by simp [Object.Alive]) rfl
  have h₃ := h₂.returned (c := .mutator (.addTrackPoint 0 6 7)) (r := some false) trivial
    (by simp [Object.Alive]) rfl
  refine ⟨_, _, _, h₃, rfl, rfl, ?_⟩
  refine (((session_content timesRoute_lawful h₃).2.1 0 _ rfl).1 5 7).2 ?_
  exact ⟨[], [(6, 7)], rfl, List.not_mem_nil⟩

end ProviderGpsRouteWriter

end Libgpsfile2
