import Libgpsfile2.Gpx.Extensions

/-!
# `GpxWriter::readExtensions` and the reference walk

The reference walk skips the prefix of every element itself, and so recognises it by its own name.
`readExtensions` skips the prefix that it has carried along; an element with another prefix, or with
none, is read from the wrong place.

`readExtensions_faithful_iff`: the readings of `readExtensions` are those of the reference walk,
whatever the values of the elements are, exactly when the two agree about every element that they
come to.
-/

namespace Libgpsfile2

/-- The prefix of the name itself. -/
def skipOwn : Skip := fun _ name => prefixLength name

/-- The reference walk. -/
def reference (f : List Node) : List Reading := walk skipOwn [] f

mutual

/-- An element is taken for what it is by its own name. Where the walks disagree about the nested
elements, there is no reading among them. -/
def ElementAgrees (seen : List StdString) : Node → Prop
  | .mk name _ elements =>
      match kind (name.drop (skipCarried seen name)), kind (name.drop (skipOwn seen name)) with
      | .reading type, .reading type' => type = type'
      | .nested, .nested => NamesAgree (seen ++ [name]) elements
      | .nested, .ignored => walk skipCarried (seen ++ [name]) elements = []
      | .ignored, .nested => walk skipOwn (seen ++ [name]) elements = []
      | .ignored, .ignored => True
      | _, _ => False

def NamesAgree (seen : List StdString) : List Node → Prop
  | [] => True
  | node :: nodes => ElementAgrees seen node ∧ NamesAgree (seen ++ [node.name]) nodes

end

/-! ### Walks that agree -/

mutual

theorem elementWalk_eq {seen : List StdString} {node : Node} (h : ElementAgrees seen node) :
    elementWalk skipCarried seen node = elementWalk skipOwn seen node := by
  match node with
  | .mk name value elements =>
    rw [ElementAgrees] at h
    rw [elementWalk, elementWalk]
    cases hcarried : kind (name.drop (skipCarried seen name)) <;>
      cases hown : kind (name.drop (skipOwn seen name)) <;> simp only [hcarried, hown] at h ⊢
    · rw [h]
    · exact walk_eq h
    · exact h
    · exact h.symm

theorem walk_eq {seen : List StdString} {nodes : List Node} (h : NamesAgree seen nodes) :
    walk skipCarried seen nodes = walk skipOwn seen nodes := by
  match nodes with
  | [] => rfl
  | node :: nodes => rw [walk, walk, elementWalk_eq h.1, walk_eq h.2]

end

/-! ### The names and the nesting -/

mutual

/-- The element without its values. -/
def Node.bare : Node → Node
  | .mk name _ elements => .mk name [] (bare elements)

/-- The names and the nesting of elements. -/
def bare : List Node → List Node
  | [] => []
  | node :: nodes => node.bare :: bare nodes

end

theorem Node.name_bare (node : Node) : node.bare.name = node.name := by
  cases node
  rfl

mutual

theorem elementWalk_bare (skip : Skip) (seen : List StdString) (node : Node) :
    elementWalk skip seen node.bare =
      (elementWalk skip seen node).map fun r => ⟨r.type, []⟩ := by
  match node with
  | .mk name value elements =>
    rw [Node.bare, elementWalk, elementWalk]
    cases kind (name.drop (skip seen name)) with
    | reading type => rfl
    | nested => exact walk_bare skip (seen ++ [name]) elements
    | ignored => rfl

theorem walk_bare (skip : Skip) (seen : List StdString) (nodes : List Node) :
    walk skip seen (bare nodes) = (walk skip seen nodes).map fun r => ⟨r.type, []⟩ := by
  match nodes with
  | [] => rfl
  | node :: nodes =>
    rw [bare, walk, walk, List.map_append, elementWalk_bare, Node.name_bare, walk_bare]

end

/-- Whether there are readings depends on the names only. -/
theorem walk_bare_eq_nil_iff (skip : Skip) (seen : List StdString) (nodes : List Node) :
    walk skip seen (bare nodes) = [] ↔ walk skip seen nodes = [] := by
  rw [walk_bare, List.map_eq_nil_iff]

mutual

theorem elementFits_bare (seen : List StdString) (node : Node) :
    ElementFits seen node.bare ↔ ElementFits seen node := by
  match node with
  | .mk name value elements =>
    rw [Node.bare, ElementFits, ElementFits, namesFit_bare]

theorem namesFit_bare (seen : List StdString) (nodes : List Node) :
    NamesFit seen (bare nodes) ↔ NamesFit seen nodes := by
  match nodes with
  | [] => rfl
  | node :: nodes =>
    rw [bare, NamesFit, NamesFit, elementFits_bare, Node.name_bare, namesFit_bare]

end

mutual

theorem elementAgrees_bare (seen : List StdString) (node : Node) :
    ElementAgrees seen node.bare ↔ ElementAgrees seen node := by
  match node with
  | .mk name value elements =>
    rw [Node.bare, ElementAgrees, ElementAgrees]
    cases kind (name.drop (skipCarried seen name)) <;>
      cases kind (name.drop (skipOwn seen name)) <;> simp only
    · exact namesAgree_bare (seen ++ [name]) elements
    · exact walk_bare_eq_nil_iff skipCarried (seen ++ [name]) elements
    · exact walk_bare_eq_nil_iff skipOwn (seen ++ [name]) elements

theorem namesAgree_bare (seen : List StdString) (nodes : List Node) :
    NamesAgree seen (bare nodes) ↔ NamesAgree seen nodes := by
  match nodes with
  | [] => rfl
  | node :: nodes =>
    rw [bare, NamesAgree, NamesAgree, elementAgrees_bare, Node.name_bare, namesAgree_bare]

end

/-! ### Labels -/

mutual

/-- The element with labels for its values, which start with `p`. -/
def Node.relabel (p : StdString) : Node → Node
  | .mk name _ elements => .mk name (p ++ [0]) (relabel (p ++ [1]) elements)

/-- Elements with different labels. -/
def relabel (p : StdString) : List Node → List Node
  | [] => []
  | node :: nodes => node.relabel p :: relabel (p ++ [2]) nodes

end

theorem Node.name_relabel (p : StdString) (node : Node) : (node.relabel p).name = node.name := by
  cases node
  rfl

mutual

theorem Node.bare_relabel (p : StdString) (node : Node) : (node.relabel p).bare = node.bare := by
  match node with
  | .mk name value elements =>
    rw [Node.relabel, Node.bare, Node.bare, Libgpsfile2.bare_relabel]

theorem bare_relabel (p : StdString) (nodes : List Node) : bare (relabel p nodes) = bare nodes := by
  match nodes with
  | [] => rfl
  | node :: nodes => rw [relabel, bare, bare, Node.bare_relabel, bare_relabel]

end

theorem walk_relabel_eq_nil_iff (skip : Skip) (seen : List StdString) (p : StdString)
    (nodes : List Node) : walk skip seen (relabel p nodes) = [] ↔ walk skip seen nodes = [] := by
  rw [← walk_bare_eq_nil_iff, bare_relabel, walk_bare_eq_nil_iff]

/-- Labels with different ways are different. -/
theorem labels_differ {p v : StdString} {a b : UInt8} (hab : a ≠ b) (ha : p ++ [a] <+: v) :
    ¬ p ++ [b] <+: v := by
  intro hb
  have hle := List.prefix_of_prefix_length_le ha hb (by simp)
  have heq := hle.eq_of_length (by simp)
  exact hab (by simpa using heq)

mutual

theorem label_of_mem_elementWalk {skip : Skip} {seen : List StdString} {p : StdString} {node : Node}
    {r : Reading} (hr : r ∈ elementWalk skip seen (node.relabel p)) :
    r.value = p ++ [0] ∨ p ++ [1] <+: r.value := by
  match node with
  | .mk name value elements =>
    rw [Node.relabel, elementWalk] at hr
    cases hkind : kind (name.drop (skip seen name)) <;> simp only [hkind] at hr
    · rw [List.mem_singleton.1 hr]
      exact .inl rfl
    · exact .inr (label_of_mem_walk hr)
    · exact absurd hr List.not_mem_nil

theorem label_of_mem_walk {skip : Skip} {seen : List StdString} {p : StdString} {nodes : List Node}
    {r : Reading} (hr : r ∈ walk skip seen (relabel p nodes)) : p <+: r.value := by
  match nodes with
  | [] => exact absurd hr List.not_mem_nil
  | node :: nodes =>
    rw [relabel, walk] at hr
    rcases List.mem_append.1 hr with hr | hr
    · rcases label_of_mem_elementWalk hr with heq | hle
      · rw [heq]
        exact List.prefix_append _ _
      · exact (List.prefix_append _ _).trans hle
    · exact (List.prefix_append _ _).trans (label_of_mem_walk hr)

end

/-- Two parts that a property tells apart. -/
theorem append_inj_of_separated {α : Type} {q : α → Bool} {l₁ l₂ l₁' l₂' : List α}
    (h₁ : ∀ a ∈ l₁, q a = true) (h₁' : ∀ a ∈ l₁', q a = true)
    (h₂ : ∀ a ∈ l₂, q a = false) (h₂' : ∀ a ∈ l₂', q a = false)
    (h : l₁ ++ l₂ = l₁' ++ l₂') : l₁ = l₁' ∧ l₂ = l₂' := by
  have hfilter := congrArg (List.filter q) h
  rw [List.filter_append, List.filter_append, List.filter_eq_self.2 h₁, List.filter_eq_self.2 h₁',
    List.filter_eq_nil_iff.2 fun a ha => by simp [h₂ a ha],
    List.filter_eq_nil_iff.2 fun a ha => by simp [h₂' a ha], List.append_nil,
    List.append_nil] at hfilter
  exact ⟨hfilter, List.append_cancel_left (hfilter ▸ h)⟩

mutual

/-- An element with labels that both walks read in the same way. -/
theorem elementAgrees_of_eq {seen : List StdString} {p : StdString} {node : Node}
    (h : elementWalk skipCarried seen (node.relabel p) =
      elementWalk skipOwn seen (node.relabel p)) : ElementAgrees seen node := by
  match node with
  | .mk name value elements =>
    -- a nested reading has another label than the element itself
    have hlabel : ∀ skip type, [⟨type, p ++ [0]⟩] ≠
        walk skip (seen ++ [name]) (relabel (p ++ [1]) elements) := by
      intro skip type heq
      have hmem := label_of_mem_walk (heq ▸ List.mem_singleton_self _)
      exact labels_differ (by decide) hmem List.prefix_rfl
    rw [Node.relabel, elementWalk, elementWalk] at h
    rw [ElementAgrees]
    cases hcarried : kind (name.drop (skipCarried seen name)) <;>
      cases hown : kind (name.drop (skipOwn seen name)) <;> simp only [hcarried, hown] at h ⊢
    · simpa using h
    · exact hlabel _ _ h
    · simp at h
    · exact hlabel _ _ h.symm
    · exact namesAgree_of_eq h
    · exact (walk_relabel_eq_nil_iff _ _ _ _).1 h
    · simp at h
    · exact (walk_relabel_eq_nil_iff _ _ _ _).1 h.symm

theorem namesAgree_of_eq {seen : List StdString} {p : StdString} {nodes : List Node}
    (h : walk skipCarried seen (relabel p nodes) = walk skipOwn seen (relabel p nodes)) :
    NamesAgree seen nodes := by
  match nodes with
  | [] => trivial
  | node :: nodes =>
    rw [relabel, walk, walk, Node.name_relabel] at h
    have hhead : ∀ skip, ∀ r ∈ elementWalk skip seen (node.relabel p),
        (!decide (p ++ [2] <+: r.value)) = true := by
      intro skip r hr
      rw [Bool.not_eq_true', decide_eq_false_iff_not]
      rcases label_of_mem_elementWalk hr with heq | hle
      · rw [heq]
        exact labels_differ (by decide) List.prefix_rfl
      · exact labels_differ (by decide) hle
    have htail : ∀ skip, ∀ r ∈ walk skip (seen ++ [node.name]) (relabel (p ++ [2]) nodes),
        (!decide (p ++ [2] <+: r.value)) = false := by
      intro skip r hr
      simpa using label_of_mem_walk hr
    obtain ⟨hnode, hnodes⟩ := append_inj_of_separated (hhead _) (hhead _) (htail _) (htail _) h
    exact ⟨elementAgrees_of_eq hnode, namesAgree_of_eq hnodes⟩

end

/-! ### Runs -/

theorem Reading.call_injective {τ : Type} (route segment : UInt16) (time : τ) :
    Function.Injective (Reading.call route segment time) := by
  rintro ⟨type, value⟩ ⟨type', value'⟩ h
  cases h
  rfl

/-- In every run of `readExtensions` that completes, the calls are those of the reference walk. -/
def Faithful (f : List Node) : Prop :=
  ∀ (π τ : Type) (dp : ProviderRouteWriterBase π τ) (p : π) (route segment : UInt16) (time : τ)
    (s : π × List (Made π τ)),
    readExtensions (traced dp) f route segment time 0 (p, []) = .ok () s →
    s.2.map Made.call = (reference f).map (Reading.call route segment time)

/-- **When every element is recognised by its own name**, in all elements with these names and this
nesting. -/
theorem readExtensions_faithful_iff (f : List Node) :
    (∀ g, bare g = bare f → Faithful g) ↔ (NamesFit [] f → NamesAgree [] f) := by
  constructor
  · intro hall hfits
    have hbare := bare_relabel [] f
    -- the labels tell which element a reading comes from
    have hfits' : NamesFit [] (relabel [] f) := by
      rwa [← namesFit_bare, hbare, namesFit_bare]
    obtain ⟨s, hs⟩ := (completes_of_namesFit hfits').takesAll
    have hcalls := (readExtensions_ok _ hs).2
    rw [hall _ hbare _ _ _ _ _ _ _ _ hs] at hcalls
    exact namesAgree_of_eq ((Reading.call_injective 0 0 ()).list_map hcalls).symm
  · intro hall g hg π τ dp p route segment time s hs
    obtain ⟨hfits, hcalls⟩ := readExtensions_ok dp hs
    rw [← namesFit_bare, hg, namesFit_bare] at hfits
    have hagree := hall hfits
    rw [← namesAgree_bare, ← hg, namesAgree_bare] at hagree
    rw [hcalls, walk_eq hagree, reference]

/-- A temperature with one prefix after a heart rate with the other. -/
def mixedPrefixes : List Node :=
  [.mk (lit "gpxtpx:TrackPointExtension") [] [.mk (lit "gpxtpx:hr") (lit "120") []],
    .mk (lit "gpxdata:temp") (lit "20") []]

/-- The temperature is lost. -/
theorem second_prefix_lost :
    (∃ s, readExtensions (traced (@takesAll Unit)) mixedPrefixes 0 0 () 0 ((), []) = .ok () s ∧
      s.2.map Made.call = [.addTrackPointDataString 0 0 () (lit "HEARTRATE") (lit "120")]) ∧
    reference mixedPrefixes =
      [⟨lit "HEARTRATE", lit "120"⟩, ⟨lit "TEMPERATURE", lit "20"⟩] ∧
    ¬ Faithful mixedPrefixes := by
  have hrun : ∃ s,
      readExtensions (traced (@takesAll Unit)) mixedPrefixes 0 0 () 0 ((), []) = .ok () s ∧
      s.2.map Made.call = [.addTrackPointDataString 0 0 () (lit "HEARTRATE") (lit "120")] :=
    ⟨_, rfl, rfl⟩
  refine ⟨hrun, by decide, fun hfaithful => ?_⟩
  obtain ⟨s, hs, hcalls⟩ := hrun
  have hlen := congrArg List.length (hfaithful _ _ _ _ _ _ _ _ hs)
  rw [hcalls] at hlen
  exact absurd hlen (by decide)

end Libgpsfile2
