import Libgpsfile2.Provider.ProviderGpsRouteWriter
import Libgpsfile2.Library.Filing

/-!
# What the provider stores

A route files the times of its points under segment numbers. `RouteClass.Lawful` says what the
provider relies on: that `hasPoint` and `hasSegment` report what is filed, that `addSegment` and
`addPoint` file, and that nothing else does. Seen like this a provider is a list of filings
(`Store`), and a mutator either enlarges the list by empty filings, or adds one point to one of
them, or does nothing: `run_simulates` says that `ProviderGpsRouteWriter.run` does the same as
`Store.apply`. The invariants of the provider are then those of `Filing.add`.
-/

namespace Libgpsfile2

/-! ### The stored points -/

/-- The provider as its flag and the points of its routes. -/
structure Store (τ : Type) where
  closed : Bool
  routes : List (Filing UInt16 τ)

/-- The point a call files: its route, its segment and its time. -/
def RouteCall.point {τ : Type} : RouteCall τ → Option (UInt16 × UInt16 × τ)
  | .addTrackPoint j k t => some (j, k, t)
  | .addTrackPointDataString j k t _ _ => some (j, k, t)
  | .addTrackPointData j k t _ _ => some (j, k, t)
  | _ => none

namespace Store

variable {τ : Type} {s s' s'' : Store τ} {c : RouteCall τ}

/-- The list of routes, enlarged to `num` routes when it is shorter. -/
def enlarge (num : ℕ) (s : Store τ) : Store τ :=
  { s with routes := s.routes ++ List.replicate (num - s.routes.length) .empty }

/-- A point filed in the route `j`, if there is one. -/
noncomputable def file (j k : UInt16) (t : τ) (s : Store τ) : Store τ :=
  { s with routes := s.routes.modify j.toNat fun f => f.add k t }

/-- The effect of a mutator. -/
noncomputable def apply (c : RouteCall τ) (s : Store τ) : Store τ :=
  if s.closed then s
  else
    match c with
    | .setNumTracks num => s.enlarge num.toNat
    | c =>
        match c.point with
        | some (j, k, t) => s.file j k t
        | none => s

/-- Everything a mutator can do. -/
theorem apply_cases (c : RouteCall τ) (s : Store τ) :
    s.apply c = s ∨ (∃ num, s.apply c = s.enlarge num) ∨
      ∃ j k t, c.point = some (j, k, t) ∧ s.apply c = s.file j k t := by
  unfold apply
  by_cases hs : s.closed = true
  · exact .inl (if_pos hs)
  · rw [if_neg hs]
    cases c with
    | setNumTracks num => exact .inr (.inl ⟨_, rfl⟩)
    | addTrackPoint j k t => exact .inr (.inr ⟨j, k, t, rfl, rfl⟩)
    | addTrackPointDataString j k t type value => exact .inr (.inr ⟨j, k, t, rfl, rfl⟩)
    | addTrackPointData j k t type value => exact .inr (.inr ⟨j, k, t, rfl, rfl⟩)
    | _ => exact .inl rfl

theorem getElem?_enlarge {num j : ℕ} {f : Filing UInt16 τ}
    (h : (s.enlarge num).routes[j]? = some f) : s.routes[j]? = some f ∨ f = .empty := by
  simp only [enlarge, List.getElem?_append] at h
  split_ifs at h with hj
  · exact .inl h
  · exact .inr (List.eq_of_mem_replicate (List.mem_of_getElem? h))

theorem getElem?_file (i k : UInt16) (t : τ) (s : Store τ) (j : ℕ) :
    (s.file i k t).routes[j]? =
      (s.routes[j]?).map fun f => if i.toNat = j then f.add k t else f := by
  simp only [file, List.getElem?_modify]
  cases s.routes[j]? <;> split_ifs <;> rfl

/-! ### Nothing is lost -/

/-- Every route of `s` is still there, with all its segments and points. -/
structure Sub (s s' : Store τ) : Prop where
  length : s.routes.length ≤ s'.routes.length
  route : ∀ (j : ℕ) (f : Filing UInt16 τ), s.routes[j]? = some f →
    ∃ f', s'.routes[j]? = some f' ∧ f.Sub f'

theorem Sub.refl (s : Store τ) : s.Sub s := ⟨le_rfl, fun _ f hf => ⟨f, hf, .refl f⟩⟩

theorem sub_enlarge (num : ℕ) (s : Store τ) : s.Sub (s.enlarge num) := by
  refine ⟨by simp [enlarge], fun j f hf => ⟨f, ?_, .refl f⟩⟩
  simp only [enlarge]
  rwa [List.getElem?_append_left (List.getElem?_eq_some_iff.1 hf).1]

theorem sub_file (i k : UInt16) (t : τ) (s : Store τ) : s.Sub (s.file i k t) := by
  refine ⟨by simp [file], fun j f hf => ?_⟩
  rw [getElem?_file, hf]
  refine ⟨_, rfl, ?_⟩
  split_ifs
  · exact Filing.sub_add f k t
  · exact .refl f

theorem sub_apply (c : RouteCall τ) (s : Store τ) : s.Sub (s.apply c) := by
  rcases apply_cases c s with h | ⟨num, h⟩ | ⟨j, k, t, -, h⟩ <;> rw [h]
  · exact .refl s
  · exact sub_enlarge num s
  · exact sub_file j k t s

/-! ### Every point is stored once -/

/-- Within one route no two points have the same time. -/
def Distinct (s : Store τ) : Prop := ∀ f ∈ s.routes, f.Distinct

theorem Distinct.apply (hs : s.Distinct) (c : RouteCall τ) : (s.apply c).Distinct := by
  intro f hf
  obtain ⟨j, hj⟩ := List.mem_iff_getElem?.1 hf
  rcases apply_cases c s with h | ⟨num, h⟩ | ⟨i, k, t, -, h⟩ <;> rw [h] at hj
  · exact hs f (List.mem_of_getElem? hj)
  · rcases getElem?_enlarge hj with hj | rfl
    · exact hs f (List.mem_of_getElem? hj)
    · exact Filing.distinct_empty
  · rw [getElem?_file] at hj
    obtain ⟨f₀, hf₀, rfl⟩ := Option.map_eq_some_iff.1 hj
    have hd := hs f₀ (List.mem_of_getElem? hf₀)
    split_ifs
    · exact hd.add k t
    · exact hd

/-- A point of the route `j`, in the segment `k`. -/
def At (s : Store τ) (j : ℕ) (k : UInt16) (t : τ) : Prop := ∃ f, s.routes[j]? = some f ∧ f.At k t

/-- The route `j` has a point with the time `t`. -/
def Mem (s : Store τ) (j : ℕ) (t : τ) : Prop := ∃ f, s.routes[j]? = some f ∧ f.Mem t

theorem Sub.at (h : s.Sub s') {j : ℕ} {k : UInt16} {t : τ} (hat : s.At j k t) : s'.At j k t := by
  obtain ⟨f, hf, hat⟩ := hat
  obtain ⟨f', hf', hsub⟩ := h.route j f hf
  exact ⟨f', hf', hsub.at hat⟩

/-- Filing a point in an existing route. -/
theorem mem_file_iff {i k : UInt16} {t u : τ} {j : ℕ} (hi : i.toNat < s.routes.length) :
    (s.file i k t).Mem j u ↔ s.Mem j u ∨ j = i.toNat ∧ u = t := by
  unfold Mem
  rw [getElem?_file]
  by_cases hij : i.toNat = j
  · subst hij
    rw [List.getElem?_eq_getElem hi]
    simp [Filing.mem_add_iff]
  · simp [hij, Ne.symm hij]

/-- Enlarging the list files nothing. -/
theorem mem_enlarge_iff {num j : ℕ} {t : τ} : (s.enlarge num).Mem j t ↔ s.Mem j t := by
  constructor
  · rintro ⟨f, hf, hmem⟩
    rcases getElem?_enlarge hf with hf | rfl
    · exact ⟨f, hf, hmem⟩
    · exact absurd hmem (Filing.not_mem_empty t)
  · rintro ⟨f, hf, hmem⟩
    obtain ⟨f', hf', hsub⟩ := (sub_enlarge num s).route j f hf
    obtain ⟨k, hat⟩ := hmem
    exact ⟨f', hf', k, hsub.at hat⟩

/-- There are never more routes than `setNumTracks` can ask for. -/
theorem length_apply (hs : s.routes.length < 65536) : (s.apply c).routes.length < 65536 := by
  unfold apply
  by_cases hclosed : s.closed = true
  · rwa [if_pos hclosed]
  · rw [if_neg hclosed]
    cases c with
    | setNumTracks num =>
      have := num.toNat_lt
      simp only [enlarge, List.length_append, List.length_replicate]
      omega
    | addTrackPoint j k t => simpa [RouteCall.point, file] using hs
    | addTrackPointDataString j k t type value => simpa [RouteCall.point, file] using hs
    | addTrackPointData j k t type value => simpa [RouteCall.point, file] using hs
    | _ => exact hs

theorem at_file_self {i k : UInt16} {t : τ} (hi : i.toNat < s.routes.length)
    (hnew : ¬ s.Mem i.toNat t) : (s.file i k t).At i.toNat k t := by
  have hf := List.getElem?_eq_getElem hi
  refine ⟨(s.routes[i.toNat]).add k t, by rw [getElem?_file, hf]; simp, ?_⟩
  exact Filing.at_add_iff.2 (.inr ⟨fun hmem => hnew ⟨_, hf, hmem⟩, rfl, rfl⟩)

/-- Where a point of the store after a mutator comes from. -/
theorem at_apply {j : ℕ} {k : UInt16} {t : τ} (h : (s.apply c).At j k t) :
    s.At j k t ∨ (∃ i, c.point = some (i, k, t) ∧ i.toNat = j) ∧ ¬ s.Mem j t := by
  obtain ⟨f, hj, hf⟩ := h
  rcases apply_cases c s with h | ⟨num, h⟩ | ⟨i, k', t', hc, h⟩ <;> rw [h] at hj
  · exact .inl ⟨f, hj, hf⟩
  · rcases getElem?_enlarge hj with hj | rfl
    · exact .inl ⟨f, hj, hf⟩
    · exact absurd hf (Filing.not_at_empty k t)
  · rw [getElem?_file] at hj
    obtain ⟨f₀, hf₀, rfl⟩ := Option.map_eq_some_iff.1 hj
    split_ifs at hf with hi
    · rcases Filing.at_add_iff.1 hf with hf | ⟨hnew, rfl, rfl⟩
      · exact .inl ⟨f₀, hf₀, hf⟩
      · refine .inr ⟨⟨i, hc, hi⟩, ?_⟩
        rintro ⟨f₁, hf₁, hmem⟩
        rw [hf₀, Option.some.injEq] at hf₁
        exact hnew (hf₁ ▸ hmem)
    · exact .inl ⟨f₀, hf₀, hf⟩

end Store

/-! ### The class of the routes -/

/-- What the provider relies on: `filing` are the points of a route. -/
structure RouteClass.Lawful {ρ τ : Type} (R : RouteClass ρ τ) (filing : ρ → Filing UInt16 τ) :
    Prop where
  create : ∃ r, R.create = some r ∧ filing r = .empty
  hasPoint : ∀ r t, R.hasPoint r t = true ↔ (filing r).Mem t
  hasSegment : ∀ r k, R.hasSegment r k = true ↔ filing r k ≠ none
  addSegment : ∀ r k, filing r k = none →
    ∃ r', R.addSegment k r = .ok () r' ∧ filing r' = (filing r).openFolder k
  addPoint : ∀ r k t, filing r k ≠ none → ¬ (filing r).Mem t →
    ∃ r', R.addPoint k t r = .ok true r' ∧ filing r' = (filing r).insert k t
  setTitle : ∀ r s, filing (after (R.setTitle s r)) = filing r
  setSummary : ∀ r s, filing (after (R.setSummary s r)) = filing r
  setDetails : ∀ r s, filing (after (R.setDetails s r)) = filing r
  setActivityType : ∀ r s, filing (after (R.setActivityType s r)) = filing r
  addPointDataString : ∀ r k t type value b,
    filing (after (R.addPointDataString k t type value b r)) = filing r
  addPointData : ∀ r k t type value, filing (after (R.addPointData k t type value r)) = filing r

namespace ProviderGpsRouteWriter

variable {ρ τ : Type} {R : RouteClass ρ τ} {filing : ρ → Filing UInt16 τ}
  {p : ProviderGpsRouteWriter ρ} {r : ρ}

/-- The store of a provider. -/
def store (filing : ρ → Filing UInt16 τ) (p : ProviderGpsRouteWriter ρ) : Store τ where
  closed := p.finished
  routes := p.routes.map fun x => (x.map filing).getD .empty

/-- No slot of the vector is null. -/
def Full (p : ProviderGpsRouteWriter ρ) : Prop := ∀ x ∈ p.routes, x ≠ none

/-- The provider with another route in the slot `j`. -/
def setRoute (p : ProviderGpsRouteWriter ρ) (j : UInt16) (r : ρ) : ProviderGpsRouteWriter ρ :=
  { p with routes := p.routes.set j.toNat (some r) }

/-! ### One route -/

theorem onRoute_outOfRange {α : Type} {j : UInt16} (m : EStateM Exn ρ α)
    (hj : p.routes[j.toNat]? = none) : onRoute j m p = .error .outOfRange p := by
  simp only [onRoute, hj]

theorem onRoute_apply {α : Type} {j : UInt16} (m : EStateM Exn ρ α)
    (hj : p.routes[j.toNat]? = some (some r)) :
    onRoute j m p = match m r with
      | .ok a r' => .ok a (p.setRoute j r')
      | .error e r' => .error e (p.setRoute j r') := by
  simp only [onRoute, hj, onPart]
  cases m r <;> rfl

theorem after_onRoute {α : Type} {j : UInt16} (m : EStateM Exn ρ α)
    (hj : p.routes[j.toNat]? = some (some r)) :
    after (onRoute j m p) = p.setRoute j (after (m r)) := by
  rw [onRoute_apply m hj]
  cases m r <;> rfl

theorem outcome_onRoute {α : Type} {j : UInt16} (m : EStateM Exn ρ α)
    (hj : p.routes[j.toNat]? = some (some r)) : outcome (onRoute j m p) = outcome (m r) := by
  rw [onRoute_apply m hj]
  cases m r <;> rfl

theorem setRoute_self {j : UInt16} (hj : p.routes[j.toNat]? = some (some r)) :
    p.setRoute j r = p := by
  obtain ⟨hlt, heq⟩ := List.getElem?_eq_some_iff.1 hj
  unfold setRoute
  rw [← heq, List.set_getElem_self]

@[simp] theorem setRoute_setRoute (p : ProviderGpsRouteWriter ρ) (j : UInt16) (r r' : ρ) :
    (p.setRoute j r).setRoute j r' = p.setRoute j r' := by
  simp [setRoute]

theorem getElem?_setRoute {j : UInt16} (hj : p.routes[j.toNat]? = some (some r)) (r' : ρ) :
    (p.setRoute j r').routes[j.toNat]? = some (some r') := by
  obtain ⟨hlt, -⟩ := List.getElem?_eq_some_iff.1 hj
  simp [setRoute, hlt]

theorem hasPoint_apply {j : UInt16} (t : τ) (hj : p.routes[j.toNat]? = some (some r)) :
    hasPoint R j t p = .ok (R.hasPoint r t) p := by
  rw [hasPoint, onRoute_apply _ hj]
  simp only [bind_apply, get_apply, pure_apply]
  rw [setRoute_self hj]

theorem hasSegment_apply {j : UInt16} (k : UInt16) (hj : p.routes[j.toNat]? = some (some r)) :
    hasSegment R j k p = .ok (R.hasSegment r k) p := by
  rw [hasSegment, onRoute_apply _ hj]
  simp only [bind_apply, get_apply, pure_apply]
  rw [setRoute_self hj]

theorem Full.setRoute (hp : p.Full) (j : UInt16) (r : ρ) : (p.setRoute j r).Full := by
  intro x hx
  rcases List.mem_or_eq_of_mem_set hx with hx | rfl
  · exact hp x hx
  · simp

/-- Every slot in range holds a route. -/
theorem Full.route (hp : p.Full) (j : ℕ) :
    p.routes[j]? = none ∨ ∃ r, p.routes[j]? = some (some r) := by
  cases hj : p.routes[j]? with
  | none => exact .inl rfl
  | some x =>
    cases x with
    | none => exact absurd rfl (hp none (List.mem_of_getElem? hj))
    | some r => exact .inr ⟨r, rfl⟩

theorem store_setRoute {j : UInt16} {r' : ρ} (hj : p.routes[j.toNat]? = some (some r)) :
    (p.setRoute j r').store filing = { p.store filing with
      routes := (p.store filing).routes.modify j.toNat fun _ => filing r' } := by
  simp only [store, setRoute, Store.mk.injEq, true_and]
  refine List.ext_getElem? fun i => ?_
  simp only [List.getElem?_map, List.getElem?_set, List.getElem?_modify]
  by_cases hi : j.toNat = i
  · subst hi
    obtain ⟨hlt, -⟩ := List.getElem?_eq_some_iff.1 hj
    simp [hlt]
  · simp [hi]

/-- The store when nothing was filed in the route `j`. -/
theorem store_setRoute_same {j : UInt16} {r' : ρ} (hj : p.routes[j.toNat]? = some (some r))
    (hr : filing r' = filing r) : (p.setRoute j r').store filing = p.store filing := by
  have hself : (p.setRoute j r).store filing = _ := store_setRoute hj
  rw [setRoute_self hj] at hself
  rw [store_setRoute hj, hr, ← hself]

/-- The store when the point `t` was filed in the route `j`. -/
theorem store_setRoute_file {j k : UInt16} {t : τ} {r' : ρ}
    (hj : p.routes[j.toNat]? = some (some r)) (hr : filing r' = (filing r).add k t) :
    (p.setRoute j r').store filing = (p.store filing).file j k t := by
  rw [store_setRoute hj, hr, Store.file]
  simp only [Store.mk.injEq, true_and]
  refine List.ext_getElem? fun i => ?_
  rw [List.getElem?_modify, List.getElem?_modify]
  by_cases hi : j.toNat = i
  · subst hi
    simp [store, hj]
  · simp [hi]

theorem file_outOfRange {j k : UInt16} {t : τ} (hj : p.routes[j.toNat]? = none) :
    (p.store filing).file j k t = p.store filing := by
  have hlen := List.getElem?_eq_none_iff.1 hj
  rw [Store.file, List.modify_eq_self (by simpa [store] using hlen)]

/-! ### Adding a point -/

theorem whenOpen_apply (m : EStateM Exn (ProviderGpsRouteWriter ρ) Bool)
    (hp : p.finished = false) : whenOpen m p = m p := by
  simp only [whenOpen, bind_apply, get_apply, hp, Bool.false_eq_true, if_false]

/-- **`addTrackPoint` on an existing route** files the point, unless the route has one with its
time, and says whether it did. -/
theorem addTrackPoint_apply (hR : R.Lawful filing) {j k : UInt16} {t : τ}
    (hp : p.finished = false) (hj : p.routes[j.toNat]? = some (some r)) :
    ∃ r', addTrackPoint R j k t p = .ok (!R.hasPoint r t) (p.setRoute j r') ∧
      filing r' = (filing r).add k t := by
  unfold addTrackPoint
  rw [whenOpen_apply _ hp]
  simp only [bind_apply, hasPoint_apply t hj]
  by_cases hmem : R.hasPoint r t = true
  · rw [if_pos hmem, hmem]
    refine ⟨r, ?_, (Filing.add_of_mem ((hR.hasPoint r t).1 hmem)).symm⟩
    rw [setRoute_self hj]
    rfl
  · have hnew : ¬ (filing r).Mem t := mt (hR.hasPoint r t).2 hmem
    have hfalse : R.hasPoint r t = false := by simpa using hmem
    rw [if_neg hmem, hfalse]
    simp only [bind_apply, hasSegment_apply k hj]
    by_cases hseg : R.hasSegment r k = true
    · -- the point goes into a segment that is there
      obtain ⟨r', hadd, hr'⟩ := hR.addPoint r k t ((hR.hasSegment r k).1 hseg) hnew
      simp only [hseg, Bool.not_true, Bool.false_eq_true, if_false, onRoute_apply _ hj, hadd]
      exact ⟨r', rfl, hr'.trans (Filing.add_of_not_mem hnew).symm⟩
    · -- the segment is added first, and is empty
      have hnone : filing r k = none := by
        by_contra hne
        exact hseg ((hR.hasSegment r k).2 hne)
      obtain ⟨r₁, hopen, hr₁⟩ := hR.addSegment r k hnone
      have hj₁ := getElem?_setRoute hj r₁
      obtain ⟨r', hadd, hr'⟩ := hR.addPoint r₁ k t
        (by rw [hr₁, Filing.openFolder_self]; simp)
        (by rwa [hr₁, Filing.mem_openFolder_iff hnone])
      simp only [hseg, Bool.not_false, if_true, bind_apply, onRoute_apply _ hj, hopen,
        onRoute_apply _ hj₁, hadd, setRoute_setRoute]
      refine ⟨r', rfl, ?_⟩
      rw [hr', hr₁, Filing.insert_openFolder hnone, Filing.add_of_not_mem hnew]

/-- `addTrackPointData` files the point before it adds the data. -/
theorem addTrackPointDataWith_apply (hR : R.Lawful filing) {j k : UInt16} {t : τ}
    (m : EStateM Exn ρ Bool) (hm : ∀ r, filing (after (m r)) = filing r)
    (hp : p.finished = false) (hj : p.routes[j.toNat]? = some (some r)) :
    ∃ r', after (addTrackPointDataWith R m j k t p) = p.setRoute j r' ∧
      filing r' = (filing r).add k t := by
  unfold addTrackPointDataWith
  rw [whenOpen_apply _ hp]
  simp only [bind_apply, hasPoint_apply t hj]
  by_cases hmem : R.hasPoint r t = true
  · simp only [hmem, Bool.not_true, Bool.false_eq_true, if_false, after_onRoute m hj]
    refine ⟨_, rfl, ?_⟩
    rw [hm, Filing.add_of_mem ((hR.hasPoint r t).1 hmem)]
  · obtain ⟨r₁, hadd, hr₁⟩ := addTrackPoint_apply (k := k) (t := t) hR hp hj
    simp only [hmem, Bool.not_false, if_true, bind_apply, hadd,
      after_onRoute m (getElem?_setRoute hj r₁), setRoute_setRoute]
    exact ⟨_, rfl, by rw [hm, hr₁]⟩

/-- Data for a point that the route has. -/
theorem addTrackPointDataWith_stored {j k : UInt16} {t : τ} (m : EStateM Exn ρ Bool)
    (hp : p.finished = false) (hj : p.routes[j.toNat]? = some (some r))
    (hmem : R.hasPoint r t = true) :
    outcome (addTrackPointDataWith R m j k t p) = outcome (m r) := by
  unfold addTrackPointDataWith
  rw [whenOpen_apply _ hp]
  simp only [bind_apply, hasPoint_apply t hj, hmem, Bool.not_true, Bool.false_eq_true, if_false,
    outcome_onRoute m hj]

/-! ### Simulation -/

/-- A call of a member function of a route that files nothing. -/
theorem onRoute_same {α : Type} (hp : p.Full) (j : UInt16) (m : EStateM Exn ρ α)
    (hm : ∀ r, filing (after (m r)) = filing r) :
    (after (onRoute j m p)).Full ∧ (after (onRoute j m p)).store filing = p.store filing := by
  rcases hp.route j.toNat with hj | ⟨r, hj⟩
  · rw [onRoute_outOfRange m hj]
    exact ⟨hp, rfl⟩
  · have hafter : after (onRoute j m p) = p.setRoute j (after (m r)) := by
      rw [onRoute_apply m hj]
      cases m r <;> rfl
    rw [hafter]
    exact ⟨hp.setRoute j _, store_setRoute_same hj (hm r)⟩

/-- `addTrackPointData`, on any route. -/
theorem addTrackPointDataWith_simulates (hR : R.Lawful filing) (hp : p.Full)
    (hopen : p.finished = false) (j k : UInt16) (t : τ) (m : EStateM Exn ρ Bool)
    (hm : ∀ r, filing (after (m r)) = filing r) :
    (after (addTrackPointDataWith R m j k t p)).Full ∧
      (after (addTrackPointDataWith R m j k t p)).store filing = (p.store filing).file j k t := by
  rcases hp.route j.toNat with hj | ⟨r, hj⟩
  · rw [addTrackPointDataWith, whenOpen_apply _ hopen, bind_apply, hasPoint,
      onRoute_outOfRange _ hj, file_outOfRange hj]
    exact ⟨hp, rfl⟩
  · obtain ⟨r', hafter, hr'⟩ := addTrackPointDataWith_apply (k := k) (t := t) hR m hm hopen hj
    rw [hafter]
    exact ⟨hp.setRoute j r', store_setRoute_file hj hr'⟩

theorem addTrackPoint_simulates (hR : R.Lawful filing) (hp : p.Full) (hopen : p.finished = false)
    (j k : UInt16) (t : τ) :
    (after (addTrackPoint R j k t p)).Full ∧
      (after (addTrackPoint R j k t p)).store filing = (p.store filing).file j k t := by
  rcases hp.route j.toNat with hj | ⟨r, hj⟩
  · rw [addTrackPoint, whenOpen_apply _ hopen, bind_apply, hasPoint, onRoute_outOfRange _ hj,
      file_outOfRange hj]
    exact ⟨hp, rfl⟩
  · obtain ⟨r', hadd, hr'⟩ := addTrackPoint_apply (k := k) (t := t) hR hopen hj
    rw [hadd]
    exact ⟨hp.setRoute j r', store_setRoute_file hj hr'⟩

theorem setNumTracks_simulates (hR : R.Lawful filing) (hp : p.Full) (hopen : p.finished = false)
    (num : UInt16) :
    (after (setNumTracks R num p)).Full ∧
      (after (setNumTracks R num p)).store filing = (p.store filing).enlarge num.toNat := by
  obtain ⟨r, hcreate, hr⟩ := hR.create
  rw [setNumTracks_apply num hopen]
  have hlen : (p.store filing).routes.length = p.routes.length := List.length_map _
  by_cases hlt : num.toNat < p.routes.length
  · rw [if_pos hlt, after_ok, Store.enlarge, hlen, Nat.sub_eq_zero_of_le hlt.le,
      List.replicate_zero, List.append_nil]
    exact ⟨hp, rfl⟩
  · rw [if_neg hlt, after_ok]
    -- the slots that are there hold routes, so that only the new ones are filled
    have hold : p.routes.map (· <|> R.create) = p.routes := by
      refine (List.map_congr_left fun x hx => ?_).trans (List.map_id _)
      obtain ⟨r', rfl⟩ := Option.ne_none_iff_exists'.1 (hp x hx)
      rfl
    have hroutes : (resize num.toNat p.routes).map (· <|> R.create) =
        p.routes ++ List.replicate (num.toNat - p.routes.length) (some r) := by
      unfold resize
      rw [List.map_append, hold, List.map_replicate, hcreate]
      rfl
    rw [hroutes]
    constructor
    · intro x hx
      rcases List.mem_append.1 hx with hx | hx
      · exact hp x hx
      · rw [(List.mem_replicate.1 hx).2]
        simp
    · unfold Store.enlarge
      rw [hlen]
      simp [store, hr]

/-- **A mutator of the provider does to its store what `Store.apply` does.** -/
theorem run_simulates (hR : R.Lawful filing) (hp : p.Full) (c : RouteCall τ) :
    (after (run R c p)).Full ∧ (after (run R c p)).store filing = (p.store filing).apply c := by
  unfold Store.apply
  by_cases hfin : p.finished = true
  · rw [run_of_finished c hfin, if_pos (show (p.store filing).closed = true from hfin)]
    exact ⟨hp, rfl⟩
  · rw [if_neg (show ¬ (p.store filing).closed = true from hfin)]
    have hopen : p.finished = false := by simpa using hfin
    cases c with
    | setNumTracks num => exact setNumTracks_simulates hR hp hopen num
    | setTrackTitle j title =>
      rw [run, setTrackTitle, whenOpen_apply _ hopen]
      exact onRoute_same hp j _ fun r => hR.setTitle r title
    | setTrackSummary j summary =>
      rw [run, setTrackSummary, whenOpen_apply _ hopen]
      exact onRoute_same hp j _ fun r => hR.setSummary r summary
    | setTrackDetails j details =>
      rw [run, setTrackDetails, whenOpen_apply _ hopen]
      exact onRoute_same hp j _ fun r => hR.setDetails r details
    | setTrackActivityType j type =>
      rw [run, setTrackActivityType, whenOpen_apply _ hopen]
      exact onRoute_same hp j _ fun r => hR.setActivityType r type
    | setTrackOriginalHash j hash =>
      rw [run, setTrackOriginalHash, whenOpen_apply _ hopen]
      exact ⟨hp, rfl⟩
    | addTrackPoint j k t => exact addTrackPoint_simulates hR hp hopen j k t
    | addTrackPointDataString j k t type value =>
      exact addTrackPointDataWith_simulates hR hp hopen j k t _
        fun r => hR.addPointDataString r k t type value true
    | addTrackPointData j k t type value =>
      exact addTrackPointDataWith_simulates hR hp hopen j k t _
        fun r => hR.addPointData r k t type value

/-! ### Sessions -/

variable {h : History (Call τ) (Option Bool) Exn} {v : Bool}

/-- The point `t` in the segment `k` of the route `j` was first added in the session `h` by a call
that named this segment: the route had no such point before the call, and had it there after. -/
def FirstAdded (R : RouteClass ρ τ) (filing : ρ → Filing UInt16 τ)
    (h : History (Call τ) (Option Bool) Exn) (j : ℕ) (k : UInt16) (t : τ) : Prop :=
  ∃ h₁ c x h₂ p₁ i, h = h₁ ++ (.mutator c, x) :: h₂ ∧ Session (object R) (create false) h₁ p₁ ∧
    c.point = some (i, k, t) ∧ i.toNat = j ∧ ¬ (p₁.store filing).Mem j t ∧
    ((after (run R c p₁)).store filing).At j k t

theorem FirstAdded.concat {j : ℕ} {k : UInt16} {t : τ} (hadd : FirstAdded R filing h j k t)
    (x : Call τ × Except Exn (Option Bool)) : FirstAdded R filing (h ++ [x]) j k t := by
  obtain ⟨h₁, c, y, h₂, p₁, i, rfl, hrest⟩ := hadd
  exact ⟨h₁, c, y, h₂ ++ [x], p₁, i, by simp, hrest⟩

theorem store_finished (p : ProviderGpsRouteWriter ρ) :
    ({ p with finished := true } : ProviderGpsRouteWriter ρ).store filing =
      { p.store filing with closed := true } := rfl

/-- No slot is null and every slot has a number, whatever the flag was at the start. -/
theorem session_full (hR : R.Lawful filing) (hs : Session (object R) (create v) h p) :
    p.Full ∧ p.routes.length < 65536 := by
  refine hs.invariant (I := fun _ p => p.Full ∧ p.routes.length < 65536) ?_ ?_
  · exact ⟨fun x hx => by simp [create] at hx, by simp [create]⟩
  · rintro h p c ⟨hfull, hlen⟩ -
    cases c with
    | finished =>
      rw [after_finished]
      exact ⟨hfull, hlen⟩
    | mutator c =>
      rw [after_mutator]
      obtain ⟨hfull', hstore⟩ := run_simulates hR hfull c
      have hlen' := Store.length_apply (s := p.store filing) (c := c) (by simpa [store] using hlen)
      rw [← hstore] at hlen'
      exact ⟨hfull', by simpa [store] using hlen'⟩

/-- The invariant of the provider. -/
theorem session_store (hR : R.Lawful filing) (hs : Session (object R) (create false) h p) :
    p.Full ∧ (p.store filing).Distinct ∧
      ∀ j k t, (p.store filing).At j k t → FirstAdded R filing h j k t := by
  induction hs with
  | start =>
    refine ⟨fun x hx => by simp [create] at hx, fun f hf => by simp [store, create] at hf, ?_⟩
    rintro j k t ⟨f, hf, -⟩
    simp [store, create] at hf
  | @call h p c hs hc ha ih =>
    obtain ⟨hfull, hdistinct, hadded⟩ := ih
    cases c with
    | finished =>
      rw [after_finished, store_finished]
      exact ⟨hfull, hdistinct, fun j k t hat => (hadded j k t hat).concat _⟩
    | mutator c =>
      rw [after_mutator]
      obtain ⟨hfull', hstore⟩ := run_simulates hR hfull c
      refine ⟨hfull', hstore ▸ hdistinct.apply c, fun j k t hat => ?_⟩
      rw [hstore] at hat
      -- a point that is there after the call was there before, or the call has added it
      rcases Store.at_apply hat with hold | ⟨⟨i, hpoint, hi⟩, hnew⟩
      · exact (hadded j k t hold).concat _
      · exact ⟨h, c, _, [], p, i, rfl, hs, hpoint, hi, hnew, hstore ▸ hat⟩

/-- **The store of the provider keeps its invariant**: no slot is null, nothing is ever lost or
moved, within a route no two points have the same time, and every point lies in the segment it
was first added with. -/
theorem provider_store (hR : R.Lawful filing) (hs : Session (object R) (create false) h p) :
    (∀ x ∈ p.routes, x ≠ none) ∧
      (∀ c, (p.store filing).Sub ((after ((object R).call c p)).store filing)) ∧
      (∀ r, some r ∈ p.routes → (filing r).Distinct) ∧
      ∀ (j : ℕ) r k t, p.routes[j]? = some (some r) → (filing r).At k t →
        FirstAdded R filing h j k t := by
  obtain ⟨hfull, hdistinct, hadded⟩ := session_store hR hs
  refine ⟨hfull, fun c => ?_, fun r hr => ?_, fun j r k t hj hat => ?_⟩
  · cases c with
    | finished =>
      rw [after_finished, store_finished]
      exact ⟨le_rfl, fun j f hf => ⟨f, hf, .refl f⟩⟩
    | mutator c =>
      rw [after_mutator, (run_simulates hR hfull c).2]
      exact Store.sub_apply c _
  · exact hdistinct _ (List.mem_map.2 ⟨some r, hr, rfl⟩)
  · exact hadded j k t ⟨filing r, by simp [store, hj], hat⟩

/-! ### A lawful class of routes -/

/-- The points of a route of `timesRoute`. -/
def timesFiling (r : List (UInt16 × List ℕ)) : Filing UInt16 ℕ := fun k =>
  Option.map Multiset.ofList (r.lookup k)

theorem timesFiling_apply (r : List (UInt16 × List ℕ)) (k : UInt16) :
    timesFiling r k = Option.map Multiset.ofList (r.lookup k) := rfl

theorem lookup_addTime (r : List (UInt16 × List ℕ)) (k k' : UInt16) (t : ℕ) :
    (r.map fun x => if x.1 = k then (k, t :: x.2) else x).lookup k' =
      (r.lookup k').map fun l => if k' = k then t :: l else l := by
  induction r with
  | nil => rfl
  | cons x r ih =>
    obtain ⟨i, l⟩ := x
    rw [List.map_cons, List.lookup_cons]
    by_cases hk : k' = i
    · by_cases hi : i = k <;> simp [hk, hi]
    · have hne : (k' == i) = false := by simpa using hk
      have hne' : (k' == (if i = k then (k, t :: l) else (i, l)).1) = false := by
        split_ifs with hi
        · simpa [← hi] using hk
        · exact hne
      rw [List.lookup_cons, hne, hne']
      exact ih

theorem timesRoute_hasPoint (r : List (UInt16 × List ℕ)) (t : ℕ) :
    timesRoute.hasPoint r t = true ↔ (timesFiling r).Mem t := by
  simp only [timesRoute, List.any_eq_true]
  constructor
  · rintro ⟨x, -, ht⟩
    cases hl : r.lookup x.1 with
    | none => simp [hl] at ht
    | some l => exact ⟨x.1, l, by simp [timesFiling_apply, hl], by simpa [hl] using ht⟩
  · rintro ⟨k, m, hm, ht⟩
    obtain ⟨l, hl, rfl⟩ := Option.map_eq_some_iff.1 hm
    obtain ⟨l₁, l₂, hr, -⟩ := List.lookup_eq_some_iff.1 hl
    refine ⟨(k, l), by rw [hr]; simp, ?_⟩
    simpa [hl] using ht

theorem timesRoute_lawful : timesRoute.Lawful timesFiling where
  create := ⟨[], rfl, rfl⟩
  hasPoint := timesRoute_hasPoint
  hasSegment r k := by
    rw [timesFiling_apply]
    cases hl : r.lookup k <;> simp [timesRoute, hl]
  addSegment r k hk := by
    refine ⟨_, rfl, ?_⟩
    funext k'
    by_cases hkk : k' = k
    · subst hkk
      rw [Filing.openFolder_self]
      simp [timesFiling_apply]
    · rw [Filing.openFolder_of_ne hkk]
      have hne : (k' == k) = false := by simpa using hkk
      simp [timesFiling_apply, List.lookup_cons, hne]
  addPoint r k t hk _ := by
    refine ⟨_, rfl, ?_⟩
    funext k'
    rw [timesFiling_apply, lookup_addTime, Option.map_map]
    by_cases hkk : k' = k
    · subst hkk
      obtain ⟨l, hl⟩ := Option.ne_none_iff_exists'.1
        fun h : r.lookup k' = none => hk (by rw [timesFiling_apply, h]; rfl)
      rw [Filing.insert_self, timesFiling_apply, hl]
      simp
    · rw [Filing.insert_of_ne hkk, timesFiling_apply]
      simp [hkk, Function.comp_def]
  setTitle _ _ := rfl
  setSummary _ _ := rfl
  setDetails _ _ := rfl
  setActivityType _ _ := rfl
  addPointDataString _ _ _ _ _ _ := rfl
  addPointData _ _ _ _ _ := rfl

/-- Two points with the same time, in two segments of one route. -/
theorem provider_store_times :
    ∃ p, Session (object timesRoute) (create false)
        [(.mutator (.setNumTracks 1), .ok (some true)),
          (.mutator (.addTrackPoint 0 0 5), .ok (some true)),
          (.mutator (.addTrackPoint 0 1 5), .ok (some false))] p ∧
      (∀ x ∈ p.routes, x ≠ none) ∧ ∀ r, some r ∈ p.routes → (timesFiling r).Distinct := by
  have h₀ : Session (object timesRoute) (create false) [] _ := .start
  have h₁ := h₀.returned (c := .mutator (.setNumTracks 1)) (r := some true) trivial
    (by simp [Object.Alive]) rfl
  have h₂ := h₁.returned (c := .mutator (.addTrackPoint 0 0 5)) (r := some true) trivial
    (by simp [Object.Alive]) rfl
  have h₃ := h₂.returned (c := .mutator (.addTrackPoint 0 1 5)) (r := some false) trivial
    (by simp [Object.Alive]) rfl
  obtain ⟨hfull, -, hdistinct, -⟩ := provider_store timesRoute_lawful h₃
  exact ⟨_, h₃, hfull, hdistinct⟩

end ProviderGpsRouteWriter

end Libgpsfile2
