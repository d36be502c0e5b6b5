import Libgpsfile2.Gpx.SmallChunks

/-!
# Several files into one provider

Every file is imported by a `GpxWriter` of its own, and the writers share a provider. `imports` is
the object whose calls are these imports.

The first document that can be passed on finishes the provider. The imports before it leave the
provider open; those that are refused leave it as it is, and those that are stopped by an exception
leave what they have passed on. The imports after it find a provider that takes nothing, and none
of its answers is looked at: they report the same as before, and nothing of their files is stored
(`imports_first`).
-/

namespace Libgpsfile2

open GpxWriter ProviderGpsRouteWriter

variable {γ π ρ τ : Type} {P : ParserClass γ} {R : RouteClass ρ τ} {parseTime : TimeParser τ}
  {succeeds : List UInt8 → Bool → Bool} {tree : List UInt8 → Bool → GPX}
  {filing : ρ → Filing UInt16 τ} {p p₀ : ProviderGpsRouteWriter ρ}

/-- A file: the chunks it comes in, and the block that the buffer of its writer gets. -/
structure GpxFile where
  chunks : List (List UInt8)
  mem : ℤ → UInt8
  block : ℤ
  alloc : Allocator

namespace GpxFile

/-- The import of the file by a writer of its own. -/
def load (P : ParserClass γ) (dp : ProviderRouteWriterBase π τ) (parseTime : TimeParser τ)
    (f : GpxFile) : EStateM Exn π Bool := fun st =>
  withState (fun w => w.plugin.dp) (Writer.writeChunks (plugin P dp parseTime) f.chunks
    (Writer.new (Iobuf.new f.mem f.block f.alloc) (GpxWriter.new P st)))

/-- The chunks are not longer than the block, and every byte of them can be put. -/
def Loadable (f : GpxFile) : Prop :=
  (∀ s ∈ f.chunks, s.length ≤ bufferStepSize.toNat) ∧ Clean bufferStepSize.toNat f.chunks

/-- The document in the file. -/
def document (succeeds : List UInt8 → Bool → Bool) (tree : List UInt8 → Bool → GPX)
    (f : GpxFile) : Option GPX :=
  parsed succeeds tree f.chunks.flatten

/-- The import does what its document asks for. -/
theorem load_eq (hP : P.Lawful succeeds tree) (dp : ProviderRouteWriterBase π τ)
    (parseTime : TimeParser τ) {f : GpxFile} (hf : f.Loadable) (st : π) :
    f.load P dp parseTime st = conclude dp parseTime (f.document succeeds tree) st := by
  obtain ⟨hsmall, hclean⟩ := hf
  have hroom : (Iobuf.new f.mem f.block f.alloc).view.Drained bufferStepSize.toNat := by
    rw [Iobuf.new_view]
    exact ⟨rfl, rfl, rfl, Nat.zero_add _⟩
  obtain ⟨hthrew, halloc, -⟩ := (streamWriteAll_small hP dp parseTime
    (new_fed P st f.mem f.block f.alloc) hroom hsmall).1 hclean
  obtain ⟨houtcome, hdp⟩ := writeChunks_conclude hP dp parseTime rfl hthrew
    (congrArg Allocator.refusals halloc)
  apply result_ext
  · rw [load, outcome_withState, houtcome]
    rfl
  · rw [load, after_withState, hdp]
    rfl

end GpxFile

/-- The files that are imported into a provider, one after the other. -/
def imports (P : ParserClass γ) (R : RouteClass ρ τ) (parseTime : TimeParser τ) :
    Object GpxFile Bool Exn (ProviderGpsRouteWriter ρ) where
  call f := f.load P (provider R) parseTime
  permitted _ f := f.Loadable
  fatal := Exn.Fatal

/-- The document in the file can be passed on. -/
def Conclusive (doc : Option GPX) : Prop := ∃ root, doc = some root ∧ root.Importable

/-- A document without tracks can be passed on. -/
theorem GPX.importable_of_empty {root : GPX} (hroot : root.trks = []) : root.Importable := by
  refine ⟨by rw [hroot]; exact Nat.zero_lt_succ _, fun track htrack => ?_⟩
  rw [hroot] at htrack
  cases htrack

/-- The provider after documents that are passed on to it, one after the other, as far as they can
be. -/
def leftBy (R : RouteClass ρ τ) (parseTime : TimeParser τ) (docs : List (Option GPX))
    (p : ProviderGpsRouteWriter ρ) : ProviderGpsRouteWriter ρ :=
  docs.foldl (fun p doc => after (conclude (provider R) parseTime doc p)) p

theorem leftBy_concat (R : RouteClass ρ τ) (parseTime : TimeParser τ) (docs : List (Option GPX))
    (doc : Option GPX) (p : ProviderGpsRouteWriter ρ) :
    leftBy R parseTime (docs ++ [doc]) p =
      after (conclude (provider R) parseTime doc (leftBy R parseTime docs p)) := by
  simp [leftBy]

/-! ### What every import keeps -/

section Along

variable {dp : ProviderRouteWriterBase π τ} {r : π → π → Prop}

theorem noexcept_along {σ α : Type} {r : σ → σ → Prop} {m : EStateM Exn σ α} (hm : Along r m) :
    Along r (noexcept m) := by
  intro s
  have h := hm s
  unfold noexcept
  cases hrun : m s with
  | ok a s' =>
    rw [hrun] at h
    exact h
  | error e s' =>
    rw [hrun] at h
    simp only
    split_ifs <;> exact h

variable (hrefl : ∀ s, r s s) (htrans : ∀ s t u, r s t → r t u → r s u)
  (hcall : ∀ c, Along r (dp.call c))
include hrefl htrans hcall

theorem exec_along (as : List (Action τ)) : Along r (exec dp as) := by
  induction as with
  | nil => exact .pure hrefl ()
  | cons a as ih =>
    refine .bind htrans ?_ fun _ => ih
    have hrequest : ∀ q : Request τ, Along r (do let _ ← dp.call q.call : EStateM Exn π Unit) :=
      fun q => .bind htrans (hcall q.call) fun _ => .pure hrefl ()
    cases a with
    | request q => exact hrequest q
    | guarded q => exact noexcept_along (hrequest q)
    | terminate => exact hrefl

theorem conclude_along (hfinished : Along r dp.finished) (doc : Option GPX) :
    Along r (conclude dp parseTime doc) := by
  have hthrow : ∀ e, Along r (throw e : EStateM Exn π Bool) := fun e => hrefl
  cases doc with
  | none => exact hthrow _
  | some root =>
    have hdata : Along r (parseData dp parseTime root) := by
      rw [parseData_eq_exec]
      refine .ite (.pure hrefl false) (.bind htrans (hcall _) fun _ => ?_)
      exact .bind htrans (exec_along hrefl htrans hcall _) fun _ => .pure hrefl true
    refine .bind htrans hdata fun res => .bind htrans hfinished fun _ => ?_
    exact .ite (.pure hrefl true) (hthrow _)

end Along

/-! ### One import -/

namespace ProviderGpsRouteWriter

/-- No slot is null, and the slots can be numbered. -/
def Numbered (p : ProviderGpsRouteWriter ρ) : Prop := p.Full ∧ p.routes.length < 65536

theorem run_numbered (hR : R.Lawful filing) (c : RouteCall τ) :
    Along (fun p p' => Numbered p → Numbered p') (run R c) := by
  rintro p ⟨hfull, hlen⟩
  obtain ⟨hfull', hstore⟩ := run_simulates hR hfull c
  have hlen' := Store.length_apply (s := p.store filing) (c := c) (by simpa [store] using hlen)
  rw [← hstore] at hlen'
  exact ⟨hfull', by simpa [store] using hlen'⟩

theorem conclude_numbered (hR : R.Lawful filing) (doc : Option GPX) :
    Along (fun p p' => Numbered p → Numbered p') (conclude (provider R) parseTime doc) := by
  have hfinished : Along (fun p p' => Numbered p → Numbered p') (provider R).finished := by
    intro p hp
    rw [provider_finished]
    exact hp
  apply conclude_along _ _ (run_numbered hR) hfinished
  · exact fun _ h => h
  · exact fun _ _ _ h h' => h' ∘ h

/-- A document without tracks leaves the routes as they are. -/
theorem imported_empty (hfull : p.Full) {root : GPX} (hroot : root.trks = []) :
    imported R parseTime root p = p := by
  have hcalls : ∀ j, root.trackCalls parseTime j = [] := by
    intro j
    rw [GPX.trackCalls, hroot]
    rfl
  have hsized : sized R root.trks.length p = p := by
    rw [sized, hroot, List.length_nil, resize_of_le (Nat.zero_le _), hfull.orElse]
  have hroutes : (p.routes.mapIdx fun j route =>
      route.map (RouteCall.askAll R (root.trackCalls parseTime j))) = p.routes := by
    apply List.ext_getElem?
    intro j
    rw [List.getElem?_mapIdx, hcalls]
    cases p.routes[j]? with
    | none => rfl
    | some route => cases route <;> rfl
  rw [imported, hsized, hroutes]

/-- A document that cannot be passed on leaves the provider open. -/
theorem Concluded.inconclusive {doc : Option GPX} {answer : Except Exn Bool}
    {p' : ProviderGpsRouteWriter ρ} (h : Concluded R parseTime p doc answer p')
    (hp : p.finished = false) (hdoc : ¬ Conclusive doc) :
    p'.finished = false ∧ answer ≠ .ok true := by
  cases h with
  | malformed => exact ⟨hp, fun h => by cases h⟩
  | empty hroot => exact absurd ⟨_, rfl, GPX.importable_of_empty hroot⟩ hdoc
  | complete hne hroot => exact absurd ⟨_, rfl, hroot⟩ hdoc
  | stopped hne hroot he hopen => exact ⟨hopen, fun h => by cases h⟩

/-- An import that is refused, and not stopped by another exception, leaves the provider alone. -/
theorem Concluded.refused {doc : Option GPX} {answer : Except Exn Bool}
    {p' : ProviderGpsRouteWriter ρ} (h : Concluded R parseTime p doc answer p')
    (hdoc : ¬ Conclusive doc) (hanswer : answer = .error Writer.canNotSetValue) : p' = p := by
  cases h with
  | malformed => rfl
  | empty hroot => exact absurd ⟨_, rfl, GPX.importable_of_empty hroot⟩ hdoc
  | complete hne hroot => exact absurd ⟨_, rfl, hroot⟩ hdoc
  | stopped hne hroot he => rcases he with rfl | rfl <;> cases hanswer

/-- A document that can be passed on finishes the provider. -/
theorem Concluded.conclusive {root : GPX} {answer : Except Exn Bool}
    {p' : ProviderGpsRouteWriter ρ} (h : Concluded R parseTime p (some root) answer p')
    (hfull : p.Full) (hroot : root.Importable) :
    p' = { imported R parseTime root p with finished := true } ∧
      (answer = .ok true ↔ root.trks ≠ []) := by
  cases h with
  | empty hempty =>
    rw [imported_empty hfull hempty]
    exact ⟨rfl, iff_of_false (fun h => by cases h) (fun h => h hempty)⟩
  | complete hne => exact ⟨rfl, iff_of_true rfl hne⟩
  | stopped hne hnot => exact absurd hroot hnot

end ProviderGpsRouteWriter

/-! ### Several imports -/

section Imports

variable {h : History GpxFile Bool Exn}

theorem imports_numbered (hP : P.Lawful succeeds tree) (hR : R.Lawful filing)
    (hs : Session (imports P R parseTime) p₀ h p) (hp₀ : Numbered p₀) : Numbered p := by
  refine hs.invariant (I := fun _ p => Numbered p) hp₀ ?_
  intro h p f hp hf
  show Numbered (after (f.load P (provider R) parseTime p))
  rw [GpxFile.load_eq hP _ _ hf]
  exact conclude_numbered hR _ p hp

theorem load_concluded (parseTime : TimeParser τ) (hP : P.Lawful succeeds tree)
    (hR : R.Lawful filing) (hquiet : R.Quiet)
    (hnum : Numbered p) (hp : p.finished = false) {f : GpxFile} (hf : f.Loadable) :
    Concluded R parseTime p (f.document succeeds tree)
      (outcome (f.load P (provider R) parseTime p))
      (after (f.load P (provider R) parseTime p)) := by
  rw [GpxFile.load_eq hP _ _ hf]
  exact conclude_open _ hquiet hR.create_ne_none hp hnum.1 hnum.2 _

/-- The provider is what the documents have made of it. -/
theorem imports_left (hP : P.Lawful succeeds tree) (hs : Session (imports P R parseTime) p₀ h p) :
    p = leftBy R parseTime (h.map fun x => x.1.document succeeds tree) p₀ := by
  refine hs.invariant (I := fun h p =>
    p = leftBy R parseTime (h.map fun x => x.1.document succeeds tree) p₀) rfl ?_
  intro h p f hp hf
  have hcall : (imports P R parseTime).call f p =
      conclude (provider R) parseTime (f.document succeeds tree) p := GpxFile.load_eq hP _ _ hf p
  rw [hcall, List.map_append, List.map_singleton, leftBy_concat, ← hp]

/-- Files without a document that can be passed on leave the provider open. -/
theorem imports_open (hP : P.Lawful succeeds tree) (hR : R.Lawful filing) (hquiet : R.Quiet)
    (hs : Session (imports P R parseTime) p₀ h p) (hp₀ : Numbered p₀) (hopen : p₀.finished = false)
    (hh : ∀ x ∈ h, ¬ Conclusive (x.1.document succeeds tree)) :
    p.finished = false ∧ ∀ x ∈ h, x.2 ≠ .ok true := by
  induction hs with
  | start => exact ⟨hopen, fun x hx => absurd hx List.not_mem_nil⟩
  | @call h p f hs hf ha ih =>
    rw [List.forall_mem_append, List.forall_mem_singleton] at hh ⊢
    obtain ⟨hp, hall⟩ := ih hh.1
    obtain ⟨hp', hlast⟩ := (load_concluded parseTime hP hR hquiet
      (imports_numbered hP hR hs hp₀) hp hf).inconclusive hp hh.2
    exact ⟨hp', hall, hlast⟩

/-- Files that are refused leave it as it is. -/
theorem imports_refused (hP : P.Lawful succeeds tree) (hR : R.Lawful filing) (hquiet : R.Quiet)
    (hs : Session (imports P R parseTime) p₀ h p) (hp₀ : Numbered p₀) (hopen : p₀.finished = false)
    (hh : ∀ x ∈ h, ¬ Conclusive (x.1.document succeeds tree))
    (hrefused : ∀ x ∈ h, x.2 = .error Writer.canNotSetValue) : p = p₀ := by
  induction hs with
  | start => rfl
  | @call h p f hs hf ha ih =>
    rw [List.forall_mem_append, List.forall_mem_singleton] at hh hrefused
    obtain rfl := ih hh.1 hrefused.1
    exact (load_concluded parseTime hP hR hquiet hp₀ hopen hf).refused hh.2 hrefused.2

/-- Nothing is stored in a provider that is finished. -/
theorem imports_finished (hP : P.Lawful succeeds tree)
    (hs : Session (imports P R parseTime) p₀ h p) (hp₀ : p₀.finished = true) :
    p = p₀ ∧ ∀ x ∈ h, Discarded (x.1.document succeeds tree) x.2 := by
  induction hs with
  | start => exact ⟨rfl, fun x hx => absurd hx List.not_mem_nil⟩
  | @call h p f hs hf ha ih =>
    obtain ⟨rfl, hall⟩ := ih
    obtain ⟨hanswer, hsame⟩ := conclude_finished R parseTime hp₀
      (f.document succeeds tree)
    rw [List.forall_mem_append, List.forall_mem_singleton]
    show after (f.load P (provider R) parseTime p) = p ∧ _ ∧
      Discarded _ (outcome (f.load P (provider R) parseTime p))
    rw [GpxFile.load_eq hP _ _ hf]
    exact ⟨hsame, hall, hanswer⟩

/-- **The first document that can be passed on** finishes the provider. Before it the provider is
open and no import succeeds. It finds the provider as the documents before it have left it, which is
as it was at first when their imports were refused; after it every import answers as `Discarded`
says, and the provider stays as it is. -/
theorem imports_first (hP : P.Lawful succeeds tree) (hR : R.Lawful filing) (hquiet : R.Quiet)
    {hist : History (ProviderGpsRouteWriter.Call τ) (Option Bool) Exn}
    (hs₀ : Session (object R) (create false) hist p₀) (hopen : p₀.finished = false)
    (hs : Session (imports P R parseTime) p₀ h p) :
    ((∀ x ∈ h, ¬ Conclusive (x.1.document succeeds tree)) →
        p.finished = false ∧ ∀ x ∈ h, x.2 ≠ .ok true) ∧
      ∀ before f answer later root, h = before ++ (f, answer) :: later →
        (∀ x ∈ before, ¬ Conclusive (x.1.document succeeds tree)) →
        f.document succeeds tree = some root → root.Importable →
        ∃ p₁, Session (imports P R parseTime) p₀ before p₁ ∧ p₁.finished = false ∧
          p₁ = leftBy R parseTime (before.map fun x => x.1.document succeeds tree) p₀ ∧
          ((∀ x ∈ before, x.2 = .error Writer.canNotSetValue) → p₁ = p₀) ∧
          p = { imported R parseTime root p₁ with finished := true } ∧
          (answer = .ok true ↔ root.trks ≠ []) ∧
          ∀ x ∈ later, Discarded (x.1.document succeeds tree) x.2 := by
  have hp₀ : p₀.Numbered := session_full hR hs₀
  refine ⟨imports_open hP hR hquiet hs hp₀ hopen, ?_⟩
  rintro before f answer later root rfl hbefore hdoc hroot
  rw [← List.singleton_append, ← List.append_assoc] at hs
  obtain ⟨p₂, hs₂⟩ := hs.split
  have hlater := hs.rest hs₂
  obtain ⟨p₁, hs₁, hf, rfl⟩ := hs₂.last
  obtain ⟨rfl, -⟩ := (hs₂.rest hs₁).head
  have hp₁ := imports_numbered hP hR hs₁ hp₀
  obtain ⟨hopen₁, -⟩ := imports_open hP hR hquiet hs₁ hp₀ hopen hbefore
  have hend := load_concluded parseTime hP hR hquiet hp₁ hopen₁ hf
  rw [hdoc] at hend
  obtain ⟨hstored, hanswer⟩ := hend.conclusive hp₁.1 hroot
  obtain ⟨rfl, hdiscarded⟩ := imports_finished hP hlater (congrArg finished hstored)
  exact ⟨p₁, hs₁, hopen₁, imports_left hP hs₁,
    imports_refused hP hR hquiet hs₁ hp₀ hopen hbefore, hstored, hanswer, hdiscarded⟩

/-- Two titles: both imports succeed, and the second title is lost. -/
theorem imports_first_title :
    ∃ p f f', Session (imports titleParser timesRoute fun _ => 0) (create false)
        [(f, .ok true), (f', .ok true)] p ∧
      f'.document (fun _ _ => true) (fun s _ => ⟨[⟨s, [], [], []⟩]⟩) =
        some ⟨[⟨[98], [], [], []⟩]⟩ ∧
      p = { imported timesRoute (fun _ => 0) ⟨[⟨[97], [], [], []⟩]⟩ (create false) with
        finished := true } := by
  have hloadable : ∀ c : UInt8, c.toNat < 128 →
      GpxFile.Loadable ⟨[[c]], fun _ => 0, 0, ⟨fun _ => none, 0⟩⟩ := by
    intro c hc
    exact ⟨by simp [bufferStepSize], clean_of_ascii (by simpa using hc) _⟩
  have hload : ∀ (c : UInt8) (hc : c.toNat < 128) (p : ProviderGpsRouteWriter _),
      (imports titleParser timesRoute fun _ => 0).call
        ⟨[[c]], fun _ => 0, 0, ⟨fun _ => none, 0⟩⟩ p =
      conclude (provider timesRoute) (fun _ => 0) (some ⟨[⟨[c], [], [], []⟩]⟩) p :=
    fun c hc p => GpxFile.load_eq titleParser_lawful _ _ (hloadable c hc) p
  have h₀ : Session (imports titleParser timesRoute fun _ => 0) (create false) [] _ := .start
  have h₁ := h₀.returned (hloadable 97 (by decide)) (by simp [Object.Alive])
    ((hload 97 (by decide) _).trans rfl)
  have h₂ := h₁.returned (hloadable 98 (by decide)) (by simp [Object.Alive])
    ((hload 98 (by decide) _).trans rfl)
  obtain ⟨p₁, hs₁, -, -, -, hstored, -⟩ := (imports_first titleParser_lawful timesRoute_lawful
    timesRoute_quiet .start rfl h₂).2 [] _ _ _ _ rfl (fun x hx => absurd hx List.not_mem_nil) rfl
    ⟨by decide, by simp [GPX.NamesFit]⟩
  rw [hs₁.unique .start] at hstored
  exact ⟨_, _, _, h₂, rfl, hstored⟩

end Imports

end Libgpsfile2
