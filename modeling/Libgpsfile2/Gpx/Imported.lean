import Libgpsfile2.Gpx.Chunks
import Libgpsfile2.Gpx.Result

/-!
# What becomes of a file

When every byte of a file was stored, its import does to the provider what `conclude` does with the
document of the file, whatever chunks it came in (`writeChunks_conclude`).

`Concluded` lists the four ends that this can come to over an open `ProviderGpsRouteWriter` whose
routes throw nothing, with the answer to the caller and the provider that is left: the parser does
not take the file, the document has no track, the document cannot be passed on, or every track is
passed on to the route with its number. `Discarded` lists the answers of one that is finished.
-/

namespace Libgpsfile2

variable {γ π ρ τ : Type} {R : RouteClass ρ τ} {parseTime : TimeParser τ}

/-! ### Documents -/

/-- The document in a file, for a parser that keeps its promise. -/
def parsed (succeeds : List UInt8 → Bool → Bool) (tree : List UInt8 → Bool → GPX)
    (s : List UInt8) : Option GPX :=
  if succeeds s true then some (tree s true) else none

/-- The import of a document. -/
def passOn (dp : ProviderRouteWriterBase π τ) (parseTime : TimeParser τ) (root : GPX) :
    EStateM Exn π Bool := do
  let res ← parseData dp parseTime root
  dp.finished
  if res then return true else throw Writer.canNotSetValue

/-- The import of a file with this document, if it has one. -/
def conclude (dp : ProviderRouteWriterBase π τ) (parseTime : TimeParser τ) (doc : Option GPX) :
    EStateM Exn π Bool :=
  doc.elim (throw Writer.canNotSetValue) (passOn dp parseTime)

/-! ### From files to documents -/

namespace GpxWriter

variable {P : ParserClass γ} {succeeds : List UInt8 → Bool → Bool}
  {tree : List UInt8 → Bool → GPX} {pieces : List (List UInt8)} {st : π}
  {w : Writer (GpxWriter γ π)}

/-- The last statement of `write`. -/
theorem complete_conclude (P : ParserClass γ) (dp : ProviderRouteWriterBase π τ)
    (parseTime : TimeParser τ) (g : γ) (st : π) (feeds : List (List UInt8 × Bool)) (res : Bool) :
    ((outcome (complete P dp parseTime true res ⟨some g, st, feeds⟩)).bind fun res =>
        if res then .ok true else .error Writer.canNotSetValue) =
        outcome (conclude dp parseTime (if res then some (P.root g) else none) st) ∧
      (after (complete P dp parseTime true res ⟨some g, st, feeds⟩)).dp =
        after (conclude dp parseTime (if res then some (P.root g) else none) st) := by
  cases res with
  | false => exact ⟨rfl, rfl⟩
  | true =>
    rw [complete_apply, if_pos rfl]
    show _ = outcome (passOn dp parseTime (P.root g) st) ∧
      _ = after (passOn dp parseTime (P.root g) st)
    unfold passOn
    rw [bind_apply]
    cases parseData dp parseTime (P.root g) st with
    | error e st' => exact ⟨rfl, rfl⟩
    | ok b st' =>
      simp only [bind_apply]
      cases dp.finished st' with
      | error e st'' => exact ⟨rfl, rfl⟩
      | ok u st'' => cases b <;> exact ⟨rfl, rfl⟩

/-- The document that `release` passes on. -/
def offered (P : ParserClass γ) (w : Writer (GpxWriter γ π)) : Option GPX :=
  w.plugin.parser.bind fun g =>
    if (P.parse g w.buf.view.pending true).1 then
      some (P.root (P.parse g w.buf.view.pending true).2)
    else none

/-- **One call of `release`**, when the parser was not deleted. -/
theorem release_offered (P : ParserClass γ) (dp : ProviderRouteWriterBase π τ)
    (parseTime : TimeParser τ) (hb : Shown w.buf) {g : γ} (hg : w.plugin.parser = some g) :
    outcome (Writer.release (plugin P dp parseTime) w) =
        outcome (conclude dp parseTime (offered P w) w.plugin.dp) ∧
      (after (Writer.release (plugin P dp parseTime) w)).plugin.dp =
        after (conclude dp parseTime (offered P w) w.plugin.dp) := by
  obtain ⟨b', -, -, hwrite⟩ := write_apply P dp parseTime hb hg true
  have hplugin := (Writer.after_write (plugin P dp parseTime) true
    { w with writeFinished := true }).2
  rw [Writer.outcome_release, Writer.release_apply, Writer.after_conclude, hplugin]
  show (outcome (write P dp parseTime true (w.buf, w.plugin))).bind _ = _ ∧
    (after (write P dp parseTime true (w.buf, w.plugin))).2.dp = _
  rw [hwrite, outcome_onSnd, after_onSnd, offered, hg, Option.bind_some]
  exact complete_conclude P dp parseTime _ w.plugin.dp _ _

theorem offered_fed (hP : P.Lawful succeeds tree) (hw : Fed P st pieces w) :
    offered P w = parsed succeeds tree pieces.flatten := by
  have hroot := hP.root pieces [] true
  have hsucceeds := hP.parse pieces [] true
  rw [List.append_nil] at hroot hsucceeds
  rw [offered, hw.parser, Option.bind_some, hw.drained, parsed, ← hroot, hsucceeds]

/-- **The end of a file** that was fed to the parser in pieces. -/
theorem release_conclude (hP : P.Lawful succeeds tree) (dp : ProviderRouteWriterBase π τ)
    (parseTime : TimeParser τ) (hw : Fed P st pieces w) :
    outcome (Writer.release (plugin P dp parseTime) w) =
        outcome (conclude dp parseTime (parsed succeeds tree pieces.flatten) st) ∧
      (after (Writer.release (plugin P dp parseTime) w)).plugin.dp =
        after (conclude dp parseTime (parsed succeeds tree pieces.flatten) st) := by
  have h := release_offered P dp parseTime hw.shown hw.parser
  rwa [offered_fed hP hw, hw.dp] at h

/-- A file whose first part the parser does not take has no document. -/
theorem parsed_of_failed (hP : P.Lawful succeeds tree) {s t : List UInt8}
    (h : succeeds s false = false) : parsed succeeds tree (s ++ t) = none := by
  rw [parsed, hP.permanent s t true h]
  rfl

/-- **The end of a file** that was written in chunks, when every byte was stored. -/
theorem writeChunks_conclude (hP : P.Lawful succeeds tree) (dp : ProviderRouteWriterBase π τ)
    (parseTime : TimeParser τ) {mem : ℤ → UInt8} {q : ℤ} {alloc : Allocator}
    {chunks : List (List UInt8)} {res : EStateM.Result Exn (Writer _) Unit}
    (hres : Writer.streamWriteAll (plugin P dp parseTime) chunks
      (Writer.new (Iobuf.new mem q alloc) (new P st)) = res)
    (hthrew : outcome res ≠ .error Window.wrongCharacter)
    (hrefusals : (after res).buf.alloc.refusals = alloc.refusals) :
    outcome (Writer.writeChunks (plugin P dp parseTime) chunks
        (Writer.new (Iobuf.new mem q alloc) (new P st))) =
        outcome (conclude dp parseTime (parsed succeeds tree chunks.flatten) st) ∧
      (after (Writer.writeChunks (plugin P dp parseTime) chunks
        (Writer.new (Iobuf.new mem q alloc) (new P st)))).plugin.dp =
        after (conclude dp parseTime (parsed succeeds tree chunks.flatten) st) := by
  unfold Writer.writeChunks
  rw [bind_apply, hres]
  rcases streamWriteAll_fed hP dp parseTime chunks (new_fed P st mem q alloc) with
    ⟨w', hrun⟩ | ⟨ts, w', hw', hkept, ⟨hrun, hsize⟩ | ⟨hrun, -, hfail⟩⟩ <;>
    rw [hres] at hrun <;> subst hrun
  · exact absurd rfl hthrew
  · have hts := hkept.kept hrefusals
    rw [hsize, List.take_length] at hts
    rw [List.nil_append, hts] at hw'
    exact release_conclude hP dp parseTime hw'
  · -- the caller has stopped, because the parser has failed
    have hts := hkept.kept hrefusals
    rw [List.nil_append] at hfail
    have hnone := parsed_of_failed hP (t := (chunks.drop ts.length).flatten) hfail
    have hwhole : ts.flatten ++ (chunks.drop ts.length).flatten = chunks.flatten := by
      rw [← List.flatten_append]
      nth_rewrite 1 [hts]
      rw [List.take_append_drop]
    rw [hwhole] at hnone
    rw [hnone]
    exact ⟨rfl, hw'.dp⟩

end GpxWriter

/-! ### Over a `ProviderGpsRouteWriter` -/

namespace ProviderGpsRouteWriter

variable {p : ProviderGpsRouteWriter ρ}

/-- The end of an import over the open provider `p`: the document in the file, the answer to the
caller, and the provider that is left. -/
inductive Concluded (R : RouteClass ρ τ) (parseTime : TimeParser τ)
    (p : ProviderGpsRouteWriter ρ) :
    Option GPX → Except Exn Bool → ProviderGpsRouteWriter ρ → Prop
  | malformed : Concluded R parseTime p none (.error Writer.canNotSetValue) p
  | empty {root : GPX} (hroot : root.trks = []) :
      Concluded R parseTime p (some root) (.error Writer.canNotSetValue) { p with finished := true }
  | complete {root : GPX} (hne : root.trks ≠ []) (hroot : root.Importable) :
      Concluded R parseTime p (some root) (.ok true)
        { imported R parseTime root p with finished := true }
  | stopped {root : GPX} (hne : root.trks ≠ []) (hroot : ¬ root.Importable) {e : Exn}
      (he : e = .outOfRange ∨ e = .terminate) {p' : ProviderGpsRouteWriter ρ}
      (hopen : p'.finished = false) :
      Concluded R parseTime p (some root) (.error e) p'

/-- The end of an import over a provider that is finished: the document in the file and the answer
to the caller. The provider is left as it is. -/
inductive Discarded : Option GPX → Except Exn Bool → Prop
  | malformed : Discarded none (.error Writer.canNotSetValue)
  | empty {root : GPX} (hroot : root.trks = []) :
      Discarded (some root) (.error Writer.canNotSetValue)
  | complete {root : GPX} (hne : root.trks ≠ []) (hnames : root.NamesFit) :
      Discarded (some root) (.ok true)
  | stopped {root : GPX} (hne : root.trks ≠ []) (hnames : ¬ root.NamesFit) :
      Discarded (some root) (.error .terminate)

theorem provider_finished (p : ProviderGpsRouteWriter ρ) :
    (provider R).finished p = .ok () { p with finished := true } := by
  obtain ⟨finished, routes⟩ := p
  cases finished <;> rfl

theorem parseData_empty {dp : ProviderRouteWriterBase π τ} {root : GPX} (hroot : root.trks = [])
    (st : π) : parseData dp parseTime root st = .ok false st := by
  rw [parseData_eq_exec, hroot]
  rfl

theorem conclude_open (parseTime : TimeParser τ) (hR : R.Quiet) (hcreate : R.create ≠ none)
    (hp : p.finished = false) (hfull : p.Full) (hlen : p.routes.length < 65536) (doc : Option GPX) :
    Concluded R parseTime p doc (outcome (conclude (provider R) parseTime doc p))
      (after (conclude (provider R) parseTime doc p)) := by
  cases doc with
  | none => exact .malformed
  | some root =>
    show Concluded R parseTime p (some root) (outcome (passOn (provider R) parseTime root p))
      (after (passOn (provider R) parseTime root p))
    unfold passOn
    rw [bind_apply]
    by_cases hroot : root.trks = []
    · rw [parseData_empty hroot]
      simp only [bind_apply, provider_finished]
      exact .empty hroot
    · rcases parseData_provider parseTime hR hcreate hp hfull hlen
        (List.length_pos_iff.2 hroot) with ⟨himp, hdata⟩ | ⟨himp, e, p', hdata, hopen, he⟩
      · rw [hdata]
        simp only [bind_apply, provider_finished]
        exact .complete hroot himp
      · rw [hdata]
        exact .stopped hroot himp he hopen

/-- The actions over a provider that is finished. -/
theorem exec_finished (hp : p.finished = true) (as : List (Action τ)) :
    (.terminate ∉ as → exec (provider R) as p = .ok () p) ∧
      (.terminate ∈ as → exec (provider R) as p = .error .terminate p) := by
  have hcall : ∀ r : Request τ, (provider R).call r.call p = .ok false p := fun r =>
    run_of_finished r.call hp
  induction as with
  | nil => exact ⟨fun _ => rfl, fun h => absurd h List.not_mem_nil⟩
  | cons a as ih =>
    rw [exec, bind_apply]
    cases a with
    | terminate => exact ⟨fun h => absurd List.mem_cons_self h, fun _ => rfl⟩
    | request r =>
      have hrun : (Action.request r).run (provider R) p = .ok () p := by
        rw [Action.run, bind_apply, hcall]
        rfl
      rw [hrun]
      simpa using ih
    | guarded r =>
      have hrun : (Action.guarded r).run (provider R) p = .ok () p := by
        rw [Action.run, noexcept, bind_apply, hcall]
        rfl
      rw [hrun]
      simpa using ih

theorem conclude_finished (R : RouteClass ρ τ) (parseTime : TimeParser τ) (hp : p.finished = true)
    (doc : Option GPX) :
    Discarded doc (outcome (conclude (provider R) parseTime doc p)) ∧
      after (conclude (provider R) parseTime doc p) = p := by
  have hsame : ({ p with finished := true } : ProviderGpsRouteWriter ρ) = p := by rw [← hp]
  cases doc with
  | none => exact ⟨.malformed, rfl⟩
  | some root =>
    show Discarded (some root) (outcome (passOn (provider R) parseTime root p)) ∧
      after (passOn (provider R) parseTime root p) = p
    unfold passOn
    rw [bind_apply]
    by_cases hroot : root.trks = []
    · rw [parseData_empty hroot]
      simp only [bind_apply, provider_finished]
      exact ⟨.empty hroot, hsame⟩
    · obtain ⟨hreturns, hthrows⟩ := exec_finished (R := R) hp (tracksActions parseTime 0 root.trks)
      have hcall : (provider R).call (.setNumTracks (UInt16.ofNat root.trks.length)) p =
          .ok false p := run_of_finished (.setNumTracks _) hp
      rw [terminate_tracksActions] at hreturns
      rw [parseData_eq_exec, if_neg (Nat.not_lt.2 (List.length_pos_iff.2 hroot)), bind_apply, hcall]
      simp only [bind_apply]
      by_cases hnames : root.NamesFit
      · rw [hreturns hnames]
        simp only [pure_apply, provider_finished]
        exact ⟨.complete hroot hnames, hsame⟩
      · rw [hthrows (by_contra fun h => hnames ((terminate_tracksActions _ _ _).1 h))]
        exact ⟨.stopped hroot hnames, rfl⟩

end ProviderGpsRouteWriter

end Libgpsfile2
