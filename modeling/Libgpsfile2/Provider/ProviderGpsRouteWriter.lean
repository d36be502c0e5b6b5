import Libgpsfile2.Provider.Provider
import Libgpsfile2.Library.Simulation
import Libgpsfile2.Library.Session

/-!
# `include/libgpsfile2/provider/ProviderGpsRouteWriter.hpp`

The provider that stores what it is given in a vector of routes. The class `R` of the routes and
`gpsdata::ObjectTime` are parameters, a `RouteClass ρ τ`.

* `_routes` is a vector of shared pointers, which may be null: a `List (Option ρ)`. `onRoute` is
  `this->_routes.at (route_num)->…`, which throws when the index is out of range.
* Every mutator tests `_finished` first. The constructor does not initialise it, so that `create`
  has its initial value as an argument.

`create_accepts_iff`: the provider accepts changes exactly while it is open if and only if
`_finished` happens to be false at the start.
-/

namespace Libgpsfile2

/-- What the provider uses of the class `R`. `addSegment n` adds `Segment::create (n)`, and
`addPoint n t` adds `Point::create (t)`. -/
structure RouteClass (ρ τ : Type) where
  create : Option ρ
  setTitle : StdString → EStateM Exn ρ Bool
  setSummary : StdString → EStateM Exn ρ Bool
  setDetails : StdString → EStateM Exn ρ Bool
  setActivityType : StdString → EStateM Exn ρ Bool
  hasPoint : ρ → τ → Bool
  hasSegment : ρ → UInt16 → Bool
  addSegment : UInt16 → EStateM Exn ρ Unit
  addPoint : UInt16 → τ → EStateM Exn ρ Bool
  addPointDataString : UInt16 → τ → StdString → StdString → Bool → EStateM Exn ρ Bool
  addPointData : UInt16 → τ → StdString → Number → EStateM Exn ρ Bool

/-- A `ProviderGpsRouteWriter<F, R>`. -/
structure ProviderGpsRouteWriter (ρ : Type) where
  finished : Bool
  routes : List (Option ρ)

namespace ProviderGpsRouteWriter

variable {ρ τ α : Type}

/-- `create`; the value of `_finished` is whatever the memory holds. -/
def create (finished : Bool) : ProviderGpsRouteWriter ρ := ⟨finished, []⟩

/-- `this->_routes.at (route_num)->m`. -/
def onRoute (routeNum : UInt16) (m : EStateM Exn ρ α) : EStateM Exn (ProviderGpsRouteWriter ρ) α :=
  fun p =>
    match p.routes[routeNum.toNat]? with
    | none => .error .outOfRange p
    | some none => .error .nullPointer p
    | some (some r) =>
        onPart (fun _ => r) (fun r' p => { p with routes := p.routes.set routeNum.toNat (some r') })
          m p

/-- The first statement of every mutator. -/
def whenOpen (m : EStateM Exn (ProviderGpsRouteWriter ρ) Bool) :
    EStateM Exn (ProviderGpsRouteWriter ρ) Bool := do
  if (← get).finished then return false
  else m

/-- `vector::resize` to a size that is not smaller. -/
def resize (num : ℕ) (routes : List (Option ρ)) : List (Option ρ) :=
  routes ++ List.replicate (num - routes.length) none

variable (R : RouteClass ρ τ)

def setNumTracks (num : UInt16) : EStateM Exn (ProviderGpsRouteWriter ρ) Bool := whenOpen do
  if num.toNat < (← get).routes.length then return false
  else
    modify fun p => { p with routes := resize num.toNat p.routes }
    modify fun p => { p with routes := p.routes.map fun route => route <|> R.create }
    return true

def setTrackTitle (routeNum : UInt16) (title : StdString) :
    EStateM Exn (ProviderGpsRouteWriter ρ) Bool := whenOpen do
  onRoute routeNum (R.setTitle title)

def setTrackSummary (routeNum : UInt16) (summary : StdString) :
    EStateM Exn (ProviderGpsRouteWriter ρ) Bool := whenOpen do
  onRoute routeNum (R.setSummary summary)

def setTrackDetails (routeNum : UInt16) (details : StdString) :
    EStateM Exn (ProviderGpsRouteWriter ρ) Bool := whenOpen do
  onRoute routeNum (R.setDetails details)

def setTrackActivityType (routeNum : UInt16) (type : StdString) :
    EStateM Exn (ProviderGpsRouteWriter ρ) Bool := whenOpen do
  onRoute routeNum (R.setActivityType type)

def setTrackOriginalHash (_routeNum : UInt16) (_hash : StdString) :
    EStateM Exn (ProviderGpsRouteWriter ρ) Bool := whenOpen do
  return true

def hasPoint (routeNum : UInt16) (time : τ) : EStateM Exn (ProviderGpsRouteWriter ρ) Bool :=
  onRoute routeNum do return R.hasPoint (← get) time

def hasSegment (routeNum segmentNum : UInt16) : EStateM Exn (ProviderGpsRouteWriter ρ) Bool :=
  onRoute routeNum do return R.hasSegment (← get) segmentNum

def addTrackPoint (routeNum segmentNum : UInt16) (time : τ) :
    EStateM Exn (ProviderGpsRouteWriter ρ) Bool := whenOpen do
  -- the time is looked for in all segments of the route, the point goes into one of them
  if ← hasPoint R routeNum time then return false
  else
    if !(← hasSegment R routeNum segmentNum) then onRoute routeNum (R.addSegment segmentNum)
    onRoute routeNum (R.addPoint segmentNum time)

/-- The overloads of `addTrackPointData`: `addPointData` is the call each makes at its end. -/
def addTrackPointDataWith (addPointData : EStateM Exn ρ Bool) (routeNum segmentNum : UInt16)
    (time : τ) : EStateM Exn (ProviderGpsRouteWriter ρ) Bool := whenOpen do
  if !(← hasPoint R routeNum time) then
    -- what it returns is not looked at
    let _ ← addTrackPoint R routeNum segmentNum time
  onRoute routeNum addPointData

def addTrackPointDataString (routeNum segmentNum : UInt16) (time : τ) (type value : StdString) :
    EStateM Exn (ProviderGpsRouteWriter ρ) Bool :=
  addTrackPointDataWith R (R.addPointDataString segmentNum time type value true) routeNum segmentNum
    time

def addTrackPointData (routeNum segmentNum : UInt16) (time : τ) (type : StdString)
    (value : Number) : EStateM Exn (ProviderGpsRouteWriter ρ) Bool :=
  addTrackPointDataWith R (R.addPointData segmentNum time type value) routeNum segmentNum time

/-- The member functions `finished`. -/
def finish : EStateM Exn (ProviderGpsRouteWriter ρ) Unit := do
  if (← get).finished then return ()
  else modify fun p => { p with finished := true }

/-- The mutators. -/
def run : RouteCall τ → EStateM Exn (ProviderGpsRouteWriter ρ) Bool
  | .setNumTracks num => setNumTracks R num
  | .setTrackTitle routeNum title => setTrackTitle R routeNum title
  | .setTrackSummary routeNum summary => setTrackSummary R routeNum summary
  | .setTrackDetails routeNum details => setTrackDetails R routeNum details
  | .setTrackActivityType routeNum type => setTrackActivityType R routeNum type
  | .setTrackOriginalHash routeNum hash => setTrackOriginalHash routeNum hash
  | .addTrackPoint routeNum segmentNum time => addTrackPoint R routeNum segmentNum time
  | .addTrackPointDataString routeNum segmentNum time type value =>
      addTrackPointDataString R routeNum segmentNum time type value
  | .addTrackPointData routeNum segmentNum time type value =>
      addTrackPointData R routeNum segmentNum time type value

/-- The provider behind the interface of its base class. -/
def provider : ProviderRouteWriterBase (ProviderGpsRouteWriter ρ) τ where
  call := run R
  finished := finish

/-- `setData`: this provider takes no text. -/
def setData (_data : StdString) : EStateM Exn (ProviderGpsRouteWriter ρ) Bool :=
  throw (.runtimeError "MethodNotAvalitibleInSpecializedProvider")

/-- The provider as a plain writer sees it. -/
def textProvider : ProviderWriterBase (ProviderGpsRouteWriter ρ) where
  setData := setData

/-! ### The finished flag and the number of routes -/

section Flag

variable {R} {p p' : ProviderGpsRouteWriter ρ}

theorem run_of_finished (c : RouteCall τ) (hp : p.finished = true) : run R c p = .ok false p := by
  have hguard : ∀ m, whenOpen m p = .ok false p := by
    intro m
    simp only [whenOpen, bind_apply, get_apply, hp, if_true]
    rfl
  cases c <;> apply hguard

/-- Neither the flag nor the number of routes changes. -/
structure SameSize (p p' : ProviderGpsRouteWriter ρ) : Prop where
  finished : p'.finished = p.finished
  length : p'.routes.length = p.routes.length

theorem SameSize.refl (p : ProviderGpsRouteWriter ρ) : SameSize p p := ⟨rfl, rfl⟩

theorem SameSize.trans (p q r : ProviderGpsRouteWriter ρ) (h : SameSize p q) (h' : SameSize q r) :
    SameSize p r :=
  ⟨h'.finished.trans h.finished, h'.length.trans h.length⟩

theorem onRoute_along (j : UInt16) (m : EStateM Exn ρ α) :
    Along SameSize (onRoute j m : EStateM Exn (ProviderGpsRouteWriter ρ) α) := by
  intro p
  unfold onRoute
  split
  · exact .refl p
  · exact .refl p
  · case h_3 r _ =>
    unfold onPart
    cases m r <;> exact ⟨rfl, List.length_set ..⟩

theorem whenOpen_along {m : EStateM Exn (ProviderGpsRouteWriter ρ) Bool} (hm : Along SameSize m) :
    Along SameSize (whenOpen m) := by
  refine .bind SameSize.trans (.get SameSize.refl) fun p => ?_
  exact .ite (.pure SameSize.refl false) hm

theorem addTrackPoint_along (j k : UInt16) (t : τ) :
    Along SameSize (addTrackPoint R j k t) := by
  refine whenOpen_along (.bind SameSize.trans (onRoute_along j _) fun found => ?_)
  refine .ite (.pure SameSize.refl false) (.bind SameSize.trans (onRoute_along j _) fun seg => ?_)
  refine .ite ?_ (onRoute_along j _)
  exact .bind SameSize.trans (onRoute_along j _) fun _ => onRoute_along j _

theorem addTrackPointDataWith_along (m : EStateM Exn ρ Bool) (j k : UInt16) (t : τ) :
    Along SameSize (addTrackPointDataWith R m j k t) := by
  refine whenOpen_along (.bind SameSize.trans (onRoute_along j _) fun found => ?_)
  refine .ite ?_ (onRoute_along j m)
  exact .bind SameSize.trans (addTrackPoint_along j k t) fun _ => onRoute_along j m

/-- Only `setNumTracks` changes the number of routes. -/
theorem run_along {c : RouteCall τ} (hc : ∀ num, c ≠ .setNumTracks num) :
    Along SameSize (run R c) := by
  cases c with
  | setNumTracks num => exact absurd rfl (hc num)
  | setTrackOriginalHash j hash => exact whenOpen_along (.pure SameSize.refl true)
  | addTrackPoint j k t => exact addTrackPoint_along j k t
  | addTrackPointDataString j k t type value => exact addTrackPointDataWith_along _ j k t
  | addTrackPointData j k t type value => exact addTrackPointDataWith_along _ j k t
  | _ => exact whenOpen_along (onRoute_along _ _)

/-- What `setNumTracks` does to an open provider. -/
theorem setNumTracks_apply (num : UInt16) (hp : p.finished = false) :
    setNumTracks R num p = if num.toNat < p.routes.length then .ok false p
      else .ok true { p with routes := (resize num.toNat p.routes).map (· <|> R.create) } := by
  obtain ⟨finished, routes⟩ := p
  change finished = false at hp
  subst hp
  simp only [setNumTracks, whenOpen, bind_apply, get_apply, Bool.false_eq_true, if_false]
  by_cases hlt : num.toNat < routes.length
  · rw [if_pos hlt, if_pos hlt]
    rfl
  · rw [if_neg hlt, if_neg hlt]
    rfl

theorem run_finished (c : RouteCall τ) (p : ProviderGpsRouteWriter ρ) :
    (after (run R c p)).finished = p.finished := by
  cases c with
  | setNumTracks num =>
    by_cases hp : p.finished = true
    · rw [run_of_finished _ hp, after_ok]
    · rw [Bool.not_eq_true] at hp
      rw [run, setNumTracks_apply num hp]
      split_ifs <;> rfl
  | _ => exact (run_along (fun num h => by cases h) p).finished

end Flag

/-! ### Sessions -/

/-- The calls of a provider. -/
inductive Call (τ : Type)
  | mutator (c : RouteCall τ)
  | finished

/-- `none` is the answer of `finished`. -/
def Call.run : Call τ → EStateM Exn (ProviderGpsRouteWriter ρ) (Option Bool)
  | .mutator c => do return some (← ProviderGpsRouteWriter.run R c)
  | .finished => do finish; return none

/-- The mutators and `finished`, in any order. -/
def object : Object (Call τ) (Option Bool) Exn (ProviderGpsRouteWriter ρ) where
  call := Call.run R
  permitted _ _ := True
  fatal := Exn.Fatal

section Sessions

variable {R} {p : ProviderGpsRouteWriter ρ} {h : History (Call τ) (Option Bool) Exn} {v : Bool}

theorem after_mutator (c : RouteCall τ) (p : ProviderGpsRouteWriter ρ) :
    after ((object R).call (.mutator c) p) = after (run R c p) := by
  show after ((Call.mutator c).run R p) = _
  unfold Call.run
  exact after_bind_pure (run R c) some p

theorem after_finished (p : ProviderGpsRouteWriter ρ) :
    after ((object R).call .finished p) = { p with finished := true } := by
  show after (Call.finished.run R p) = _
  simp only [Call.run, finish, bind_apply, get_apply]
  by_cases hp : p.finished = true
  · rw [if_pos hp]
    obtain ⟨finished, routes⟩ := p
    change finished = true at hp
    subst hp
    rfl
  · rw [if_neg hp]
    rfl

/-- `finished ()` was called. -/
def Finished (h : History (Call τ) (Option Bool) Exn) : Prop := ∃ x ∈ h, x.1 = .finished

/-- `setNumTracks` was called. -/
def Sized (h : History (Call τ) (Option Bool) Exn) : Prop :=
  ∃ x ∈ h, ∃ num, x.1 = .mutator (.setNumTracks num)

/-- What the flag and the vector remember of a session. -/
theorem session_flag (hs : Session (object R) (create v) h p) :
    (p.finished = true ↔ v = true ∨ Finished h) ∧ (¬ Sized h → p.routes = []) := by
  refine hs.invariant (I := fun h p =>
    (p.finished = true ↔ v = true ∨ Finished h) ∧ (¬ Sized h → p.routes = [])) ?_ ?_
  · exact ⟨by simp [create, Finished], fun _ => rfl⟩
  · rintro h p c ⟨hflag, hempty⟩ -
    cases c with
    | finished =>
      rw [after_finished]
      refine ⟨iff_of_true rfl (.inr ⟨_, List.mem_append_right h (List.mem_singleton.2 rfl), rfl⟩),
        fun hsized => hempty fun ⟨x, hx, hnum⟩ => hsized ⟨x, List.mem_append_left _ hx, hnum⟩⟩
    | mutator c =>
      rw [after_mutator, run_finished, hflag]
      constructor
      · simp [Finished, or_and_right, exists_or]
      · intro hsized
        have hc : ∀ num, c ≠ .setNumTracks num := by
          rintro num rfl
          exact hsized ⟨_, List.mem_append_right h (List.mem_singleton.2 rfl), num, rfl⟩
        have hnil := hempty fun ⟨x, hx, hnum⟩ => hsized ⟨x, List.mem_append_left _ hx, hnum⟩
        have hlen := (run_along hc (R := R) p).length
        rwa [hnil, List.length_nil, List.length_eq_zero_iff] at hlen

/-- The provider after a session accepts changes exactly while it is open: no mutator stops at
its test of `_finished` before the first `finished ()`, so that a first `setNumTracks` succeeds,
and every mutator stops there afterwards. -/
structure Accepts (R : RouteClass ρ τ) (h : History (Call τ) (Option Bool) Exn)
    (p : ProviderGpsRouteWriter ρ) : Prop where
  opened : ¬ Finished h → p.finished = false
  sized : ¬ Finished h → ¬ Sized h → ∀ num, ∃ p', run R (.setNumTracks num) p = .ok true p' ∧
    p'.routes.length = num.toNat ∧ ∀ x ∈ p'.routes, x ≠ none
  closed : Finished h → ∀ c, run R c p = .ok false p

theorem session_accepts (hcreate : R.create ≠ none) (hs : Session (object R) (create false) h p) :
    Accepts R h p := by
  obtain ⟨hflag, hempty⟩ := session_flag hs
  have hopen : ¬ Finished h → p.finished = false := by
    intro hfin
    rw [← Bool.not_eq_true, hflag]
    simpa using hfin
  refine ⟨hopen, fun hfin hsized num => ?_, fun hfin c => run_of_finished c (hflag.2 (.inr hfin))⟩
  rw [run, setNumTracks_apply num (hopen hfin), hempty hsized, if_neg (by simp)]
  refine ⟨_, rfl, by simp [resize], fun x hx => ?_⟩
  obtain ⟨y, hy, rfl⟩ := List.mem_map.1 hx
  have hnull : y = none := by simpa [resize] using (List.mem_replicate.1 hy).2
  rw [hnull]
  simpa using hcreate

/-- **When the provider accepts changes exactly while it is open.** -/
theorem create_accepts_iff (hcreate : R.create ≠ none) :
    (∀ h p, Session (object R) (create v) h p → Accepts R h p) ↔ v = false := by
  constructor
  · intro hall
    exact (hall [] (create v) .start).opened (by simp [Finished])
  · rintro rfl h p hs
    exact session_accepts hcreate hs

end Sessions

/-- A class of routes that keeps the times of the points in every segment. -/
def timesRoute : RouteClass (List (UInt16 × List ℕ)) ℕ where
  create := some []
  setTitle _ := return true
  setSummary _ := return true
  setDetails _ := return true
  setActivityType _ := return true
  hasPoint r t := r.any fun x => ((r.lookup x.1).getD []).contains t
  hasSegment r k := (r.lookup k).isSome
  addSegment k := modify fun r => (k, []) :: r
  addPoint k t := do
    modify fun r => r.map fun x => if x.1 = k then (k, t :: x.2) else x
    return true
  addPointDataString k t _ _ _ := do return (((← get).lookup k).getD []).contains t
  addPointData k t _ _ := do return (((← get).lookup k).getD []).contains t

/-- When the memory of `_finished` is not zero the first `setNumTracks` is refused. -/
theorem create_true_rejects :
    ∃ p, Session (object timesRoute) (create true)
        [(.mutator (.setNumTracks 1), .ok (some false))] p ∧
      ¬ Finished [((.mutator (.setNumTracks 1) : Call ℕ), (.ok (some false) : Except Exn _))] ∧
      ¬ ∀ h p, Session (object timesRoute) (create true) h p → Accepts timesRoute h p := by
  have h₀ : Session (object timesRoute) (create true) [] _ := .start
  have h₁ := h₀.returned (c := .mutator (.setNumTracks 1)) (r := some false) trivial
    (by simp [Object.Alive]) rfl
  refine ⟨_, h₁, by simp [Finished], fun hall => ?_⟩
  have hopen := (hall _ _ h₁).opened (by simp [Finished])
  cases hopen

/-- When it is zero, the provider is open until `finished ()`. -/
theorem create_false_accepts :
    ∃ p, Session (object timesRoute) (create false)
        [(.mutator (.setNumTracks 2), .ok (some true)), (.finished, .ok none)] p ∧
      Accepts timesRoute [(.mutator (.setNumTracks 2), .ok (some true)), (.finished, .ok none)]
        p := by
  have h₀ : Session (object timesRoute) (create false) [] _ := .start
  have h₁ := h₀.returned (c := .mutator (.setNumTracks 2)) (r := some true) trivial
    (by simp [Object.Alive]) rfl
  have h₂ := h₁.returned (c := .finished) (r := none) trivial (by simp [Object.Alive]) rfl
  exact ⟨_, h₂, (create_accepts_iff (by simp [timesRoute])).2 rfl _ _ h₂⟩

end ProviderGpsRouteWriter

end Libgpsfile2
