import Libgpsfile2.Gpx.Indices

/-!
# `GpxWriter::readExtensions`: the names of the elements

`ns_len` is the length of the name space prefix that `readExtensions` skips. It is found at one
element, and kept for the later siblings and for what is nested in them, whatever their own names
are. So the prefix that is skipped at an element is the first one among the names that the walk has
come by, `carried`. A name that is shorter than this prefix makes `compare` throw, which ends the
process.

`readExtensions_returns_iff`: the process goes on exactly when no name is too short.
-/

namespace Libgpsfile2

variable {π τ : Type}

/-! ### Prefixes -/

/-- The length of the name space prefix of a name. -/
def prefixLength (name : StdString) : ℕ :=
  if lit "gpxtpx:" <+: name then 7 else if lit "gpxdata:" <+: name then 8 else 0

/-- The length of the first prefix among the names. -/
def carried : List StdString → ℕ
  | [] => 0
  | name :: names => if prefixLength name = 0 then carried names else prefixLength name

theorem carried_concat (seen : List StdString) (name : StdString) :
    carried (seen ++ [name]) = if carried seen = 0 then prefixLength name else carried seen := by
  induction seen with
  | nil => by_cases hname : prefixLength name = 0 <;> simp [carried, hname]
  | cons n seen ih =>
    rw [List.cons_append, carried, carried, ih]
    by_cases hn : prefixLength n = 0
    · rw [if_pos hn, if_pos hn]
    · rw [if_neg hn, if_neg hn, if_neg hn]

/-- `ns_len` is the length of the first prefix. -/
theorem toNat_nsLength {seen : List StdString} {nsLen : UInt16} (hlen : nsLen.toNat = carried seen)
    (name : StdString) : (nsLength nsLen name).toNat = carried (seen ++ [name]) := by
  rw [carried_concat, ← hlen, nsLength]
  by_cases hzero : nsLen = 0
  · subst hzero
    rw [if_pos rfl, if_pos (show UInt16.toNat 0 = 0 from rfl), prefixLength]
    by_cases htpx : lit "gpxtpx:" <+: name
    · rw [if_pos htpx, if_pos htpx]
      rfl
    · rw [if_neg htpx, if_neg htpx]
      by_cases hdata : lit "gpxdata:" <+: name
      · rw [if_pos hdata, if_pos hdata]
        rfl
      · rw [if_neg hdata, if_neg hdata]
        rfl
  · have hne : nsLen.toNat ≠ 0 := fun h => hzero (UInt16.toNat_inj.1 h)
    rw [if_neg hzero, if_neg hne]

/-- What `readExtensions` makes of an element, by its name without the prefix. -/
inductive Kind
  | reading (type : StdString)
  | nested
  | ignored
  deriving DecidableEq

def kind (name : StdString) : Kind :=
  (extensionType name).elim
    (if name = lit "TrackPointExtension" then .nested else .ignored) Kind.reading

/-- The type and the value of a call of `addTrackPointData`. -/
structure Reading where
  type : StdString
  value : StdString
  deriving DecidableEq

/-! ### Walking over the elements -/

/-- How much of a name is skipped, which may depend on the names that came before. -/
abbrev Skip := List StdString → StdString → ℕ

/-- `readExtensions` skips the first prefix that it has seen. -/
def skipCarried : Skip := fun seen name => carried (seen ++ [name])

mutual

/-- The readings of an element; `seen` are the names that came before. -/
def elementWalk (skip : Skip) (seen : List StdString) : Node → List Reading
  | .mk name value elements =>
      match kind (name.drop (skip seen name)) with
      | .reading type => [⟨type, value⟩]
      | .nested => walk skip (seen ++ [name]) elements
      | .ignored => []

/-- A walk over elements in document order. -/
def walk (skip : Skip) (seen : List StdString) : List Node → List Reading
  | [] => []
  | node :: nodes => elementWalk skip seen node ++ walk skip (seen ++ [node.name]) nodes

end

mutual

/-- The names that `readExtensions` comes to are not shorter than the prefix that it skips. -/
def ElementFits (seen : List StdString) : Node → Prop
  | .mk name _ elements =>
      skipCarried seen name ≤ name.length ∧
        (kind (name.drop (skipCarried seen name)) = .nested → NamesFit (seen ++ [name]) elements)

def NamesFit (seen : List StdString) : List Node → Prop
  | [] => True
  | node :: nodes => ElementFits seen node ∧ NamesFit (seen ++ [node.name]) nodes

end

/-- The call for a reading. -/
def Reading.call (route segment : UInt16) (time : τ) (r : Reading) : RouteCall τ :=
  .addTrackPointDataString route segment time r.type r.value

/-- The action for a reading. -/
def Reading.action (j k : ℕ) (t : τ) (r : Reading) : Action τ :=
  .guarded (.data j k t r.type r.value)

section Actions

variable {j k : ℕ} {t : τ}

theorem extensionActions_mk (nsLen : UInt16) (name value : StdString) (elements : List Node) :
    extensionActions j k t nsLen (.mk name value elements) =
      if name.length < nsLen.toNat then [.terminate]
      else match kind (name.drop nsLen.toNat) with
        | .reading type => [.guarded (.data j k t type value)]
        | .nested => elementsActions j k t nsLen elements
        | .ignored => [] := by
  rw [extensionActions, kind]
  cases extensionType (name.drop nsLen.toNat) with
  | some type => rfl
  | none =>
    by_cases hname : name.drop nsLen.toNat = lit "TrackPointExtension"
    · simp only [if_pos hname, Option.elim_none]
    · simp only [if_neg hname, Option.elim_none]

mutual

theorem terminate_extensionActions {seen : List StdString} {nsLen : UInt16}
    (hlen : nsLen.toNat = carried seen) (node : Node) :
    .terminate ∉ extensionActions j k t (nsLength nsLen node.name) node ↔
      ElementFits seen node := by
  match node with
  | .mk name value elements =>
    have hlen' := toNat_nsLength hlen name
    rw [extensionActions_mk, ElementFits, Node.name, hlen', skipCarried]
    by_cases hshort : name.length < carried (seen ++ [name])
    · rw [if_pos hshort]
      exact iff_of_false (by simp) fun h => absurd h.1 (Nat.not_le.2 hshort)
    · rw [if_neg hshort, and_iff_right (Nat.not_lt.1 hshort)]
      cases kind (name.drop (carried (seen ++ [name]))) with
      | reading type => simp
      | nested => simpa using terminate_elementsActions hlen' elements
      | ignored => simp

theorem terminate_elementsActions {seen : List StdString} {nsLen : UInt16}
    (hlen : nsLen.toNat = carried seen) (nodes : List Node) :
    .terminate ∉ elementsActions j k t nsLen nodes ↔ NamesFit seen nodes := by
  match nodes with
  | [] => simp [elementsActions, NamesFit]
  | node :: nodes =>
    rw [elementsActions, NamesFit, List.mem_append, not_or, terminate_extensionActions hlen node,
      terminate_elementsActions (toNat_nsLength hlen node.name) nodes]

end

mutual

/-- The actions of an element whose names fit. -/
theorem extensionActions_eq {seen : List StdString} {nsLen : UInt16}
    (hlen : nsLen.toNat = carried seen) {node : Node} (hfits : ElementFits seen node) :
    extensionActions j k t (nsLength nsLen node.name) node =
      (elementWalk skipCarried seen node).map (Reading.action j k t) := by
  match node with
  | .mk name value elements =>
    have hlen' := toNat_nsLength hlen name
    obtain ⟨hle, hnested⟩ := hfits
    rw [extensionActions_mk, elementWalk, Node.name, hlen', ← skipCarried,
      if_neg (Nat.not_lt.2 hle)]
    cases hkind : kind (name.drop (skipCarried seen name)) with
    | reading type => rfl
    | nested => exact elementsActions_eq hlen' (hnested hkind)
    | ignored => rfl

theorem elementsActions_eq {seen : List StdString} {nsLen : UInt16}
    (hlen : nsLen.toNat = carried seen) {nodes : List Node} (hfits : NamesFit seen nodes) :
    elementsActions j k t nsLen nodes =
      (walk skipCarried seen nodes).map (Reading.action j k t) := by
  match nodes with
  | [] => rfl
  | node :: nodes =>
    rw [elementsActions, walk, List.map_append, extensionActions_eq hlen hfits.1,
      elementsActions_eq (toNat_nsLength hlen node.name) hfits.2]

end

theorem reached_readings (rs : List Reading) :
    (reached (rs.map (Reading.action j k t))).map Request.call =
      rs.map (Reading.call (UInt16.ofNat j) (UInt16.ofNat k) t) := by
  induction rs with
  | nil => rfl
  | cons r rs ih =>
    rw [List.map_cons, List.map_cons, ← ih]
    rfl

end Actions

/-! ### Runs -/

section Runs

variable (dp : ProviderRouteWriterBase π τ) {p : π} {log : List (Made π τ)}

/-- The default argument `ns_len = 0`. -/
theorem zero_carried : (0 : UInt16).toNat = carried [] := rfl

theorem readExtensions_eq_exec (f : List Node) (route segment : UInt16) (time : τ) :
    readExtensions dp f route segment time 0 =
      exec dp (elementsActions route.toNat segment.toNat time 0 f) := by
  unfold readExtensions
  rw [← readElements_eq_exec, UInt16.ofNat_toNat, UInt16.ofNat_toNat]

/-- Actions come to their end when no name is too short and no call throws. -/
theorem exec_returns {as : List (Action τ)} (hend : .terminate ∉ as)
    (hmade : ∀ m ∈ made dp ((reached as).map Request.call) p, ∃ b, m.result = .ok b) :
    ∃ s, exec (traced dp) as (p, log) = .ok () s := by
  induction as generalizing p log with
  | nil => exact ⟨_, rfl⟩
  | cons a as ih =>
    rw [exec, bind_apply]
    rcases run_traced dp a p log with ⟨rfl, -⟩ | ⟨r, ha, ⟨b, p', hcall, hrun⟩ |
      ⟨e, e', p', hcall, -⟩⟩
    · exact absurd List.mem_cons_self hend
    · rw [reached_cons ha, List.map_cons, made, hcall] at hmade
      rw [hrun]
      exact ih (fun h => hend (List.mem_cons_of_mem _ h))
        fun m hm => hmade m (List.mem_cons_of_mem _ hm)
    · rw [reached_cons ha, List.map_cons, made, hcall] at hmade
      obtain ⟨b, hb⟩ := hmade _ (List.mem_singleton_self _)
      cases hb

/-- A run that returns has come to no short name, and has passed on the readings. -/
theorem readExtensions_ok {f : List Node} {route segment : UInt16} {time : τ}
    {s : π × List (Made π τ)}
    (h : readExtensions (traced dp) f route segment time 0 (p, []) = .ok () s) :
    NamesFit [] f ∧
      s.2.map Made.call = (walk skipCarried [] f).map (Reading.call route segment time) := by
  rw [readExtensions_eq_exec] at h
  obtain ⟨hend, hmade⟩ := exec_ok dp h
  have hfits := (terminate_elementsActions zero_carried f).1 hend
  have hlog := exec_traced dp (elementsActions route.toNat segment.toNat time 0 f) p []
  rw [h, after_ok, List.nil_append] at hlog
  refine ⟨hfits, ?_⟩
  rw [hlog, made_all hmade, elementsActions_eq zero_carried hfits, reached_readings,
    UInt16.ofNat_toNat, UInt16.ofNat_toNat]

end Runs

/-- `readExtensions` returns in every run in which no call of the provider throws. -/
def Completes (f : List Node) : Prop :=
  ∀ (π τ : Type) (dp : ProviderRouteWriterBase π τ) (p : π) (route segment : UInt16) (time : τ),
    (∀ m ∈ (after (readExtensions (traced dp) f route segment time 0 (p, []))).2,
      ∃ b, m.result = .ok b) →
    ∃ s, readExtensions (traced dp) f route segment time 0 (p, []) = .ok () s

theorem completes_of_namesFit {f : List Node} (hfits : NamesFit [] f) : Completes f := by
  intro π τ dp p route segment time hmade
  rw [readExtensions_eq_exec, exec_traced, List.nil_append] at hmade
  rw [readExtensions_eq_exec]
  exact exec_returns dp ((terminate_elementsActions zero_carried f).2 hfits) hmade

/-- A run with a provider that takes every call. -/
theorem Completes.takesAll {f : List Node} (h : Completes f) :
    ∃ s, readExtensions (traced (@takesAll Unit)) f 0 0 () 0 ((), []) = .ok () s := by
  refine h Unit Unit Libgpsfile2.takesAll () 0 0 () fun m hm => ?_
  rw [readExtensions_eq_exec, exec_traced, List.nil_append] at hm
  exact ⟨true, made_result hm⟩

/-- **When `readExtensions` returns.** -/
theorem readExtensions_returns_iff (f : List Node) : Completes f ↔ NamesFit [] f := by
  constructor
  · intro hall
    obtain ⟨s, hs⟩ := hall.takesAll
    exact (readExtensions_ok _ hs).1
  · exact completes_of_namesFit

/-- An element without a prefix after one with a prefix. -/
def mixedElements : List Node := [.mk (lit "gpxtpx:foo") [] [], .mk (lit "hr") (lit "120") []]

/-- The name `hr` is shorter than the prefix `gpxtpx:`, and the process ends. -/
theorem short_name_terminates :
    readExtensions (@takesAll Unit) mixedElements 0 0 () 0 () = .error .terminate () ∧
      ¬ Completes mixedElements := by
  refine ⟨rfl, fun hall => ?_⟩
  obtain ⟨s, hs⟩ := hall.takesAll
  rw [show readExtensions (traced (@takesAll Unit)) mixedElements 0 0 () 0 ((), []) =
    .error .terminate ((), []) from rfl] at hs
  cases hs

end Libgpsfile2
