import Libgpsfile2.DatahandlerPlain
import Libgpsfile2.Gpx.Feeding
import Libgpsfile2.Gpx.Indices

/-!
# The final call of `write`

`streamWrite` does nothing after the first `release`, but `release` does not test
`_write_finished`. So the call of `write` with `finished` set is the last one as long as `release`
is called once; a second `release` makes another such call. A `DatahandlerPlainWriter` then
replaces the string of its provider, and a `GpxWriter` uses the parser it has deleted.
-/

namespace Libgpsfile2

open Writer

/-! ### The strings of a plain writer -/

section Plain

variable {π : Type} {dp : ProviderWriterBase π} {mem : ℤ → UInt8} {q : ℤ} {alloc : Allocator}
  {st : π} {h : History Call Ret Exn} {w : Writer (DatahandlerPlainWriter π)}

/-- A call of `write` calls `setData` at most once. -/
theorem DatahandlerPlainWriter.write_strings_le (dp : ProviderWriterBase π)
    (x : Iobuf × DatahandlerPlainWriter π) :
    (after (write dp true x)).2.strings.length ≤ x.2.strings.length + 1 := by
  obtain ⟨b, x⟩ := x
  cases hput : Iobuf.sputc 0 b with
  | error e b' =>
    rw [write, if_pos rfl]
    simp only [onFst, onPart, bind_apply, hput]
    exact Nat.le_succ _
  | ok r b' =>
    cases hstring : Iobuf.cString b'.getBuffer b' with
    | error e b'' =>
      rw [write_noString dp x hput hstring]
      exact Nat.le_succ _
    | ok s b'' =>
      rw [(write_string dp x hput hstring).1, List.length_append]
      rfl

/-- `setData` is called by `release` only. -/
theorem DatahandlerPlainWriter.session_strings_le {w₀ : Writer (DatahandlerPlainWriter π)}
    (h₀ : w₀.plugin.strings = []) (hs : Session (object (plugin dp)) w₀ h w) :
    w.plugin.strings.length ≤ releases h := by
  refine hs.invariant (I := fun h w => w.plugin.strings.length ≤ releases h) (by simp [h₀]) ?_
  rintro h w c hle -
  have hstep := run_step (plugin dp) c w
  show (after (c.run (plugin dp) w)).plugin.strings.length ≤
    releases (h ++ [(c, outcome (c.run (plugin dp) w))])
  generalize c.run (plugin dp) w = res at hstep ⊢
  cases hstep with
  | ignored s hw => simpa using hle
  | threw s hw hput => simpa using hle
  | @wrote s hw n b hput =>
    rw [after_conclude, (after_write _ _ _).2, releases_concat_streamWrite]
    exact hle
  | released =>
    rw [after_conclude, (after_write _ _ _).2, releases_concat_release]
    exact (write_strings_le dp _).trans (Nat.succ_le_succ hle)

end Plain

/-! ### The parser of a `GpxWriter` -/

namespace GpxWriter

variable {γ π τ : Type} {P : ParserClass γ} {dp : ProviderRouteWriterBase π τ}
  {parseTime : TimeParser τ} {mem : ℤ → UInt8} {q : ℤ} {alloc : Allocator} {st : π}
  {h : History Call Ret Exn} {w₀ w : Writer (GpxWriter γ π)}

/-- One of the calls of the history called `write` when the parser was deleted. -/
def UsesDeleted (P : ParserClass γ) (dp : ProviderRouteWriterBase π τ) (parseTime : TimeParser τ)
    (w₀ : Writer (GpxWriter γ π)) (h : History Call Ret Exn) : Prop :=
  ∃ before w c x later, h = before ++ (c, x) :: later ∧
    Session (object (plugin P dp parseTime)) w₀ before w ∧ w.plugin.parser = none ∧
    (after (c.run (plugin P dp parseTime) w)).writes ≠ w.writes

/-- Only a final call deletes the parser. -/
theorem write_keeps (P : ParserClass γ) (dp : ProviderRouteWriterBase π τ)
    (parseTime : TimeParser τ) (x : Iobuf × GpxWriter γ π) {g : γ} (hx : x.2.parser = some g) :
    (after (write P dp parseTime false x)).2.parser ≠ none := by
  simp only [write, bind_apply, get_apply]
  rw [onFst, onPart]
  cases Iobuf.memcpyFrom x.1.getBuffer x.1.inAvail x.1 with
  | error e b => simp [hx]
  | ok s b =>
    simp only [onSnd, onPart, parse, hx]
    rw [onFst, onPart]
    cases Iobuf.consumeGet x.1.inAvail b with
    | error e b' => simp
    | ok u b' => simp [complete, pure_apply]

/-- A parser is deleted in a `release` only. -/
theorem session_deleted (hw₀ : w₀.plugin.parser ≠ none)
    (hs : Session (object (plugin P dp parseTime)) w₀ h w) :
    w.plugin.parser = none → 0 < releases h := by
  refine hs.invariant (I := fun h w => w.plugin.parser = none → 0 < releases h)
    (fun hnone => absurd hnone hw₀) ?_
  rintro h w c hw -
  have hstep := run_step (plugin P dp parseTime) c w
  show (after (c.run (plugin P dp parseTime) w)).plugin.parser = none →
    0 < releases (h ++ [(c, outcome (c.run (plugin P dp parseTime) w))])
  generalize c.run (plugin P dp parseTime) w = res at hstep ⊢
  cases hstep with
  | ignored s hfin => simpa using hw
  | threw s hfin hput => simpa using hw
  | @wrote s hfin n b hput =>
    rw [after_conclude, (after_write _ _ _).2, releases_concat_streamWrite]
    intro hnone
    by_contra hrel
    obtain ⟨g, hg⟩ := Option.ne_none_iff_exists'.1 fun hno => hrel (hw hno)
    exact write_keeps P dp parseTime (b, w.plugin) hg hnone
  | released => simp

/-- One `release` does not use a deleted parser. -/
theorem not_usesDeleted (h₀ : w₀.writes = [] ∧ w₀.writeFinished = false)
    (hw₀ : w₀.plugin.parser ≠ none) (hrel : releases h ≤ 1) :
    ¬ UsesDeleted P dp parseTime w₀ h := by
  rintro ⟨before, w, c, x, later, rfl, hs, hnone, hwrites⟩
  -- the parser was deleted by a `release`: `streamWrite` does nothing any more
  have hpos := session_deleted hw₀ hs hnone
  have hfin := (session_writes h₀ hs).2.2 hpos
  cases c with
  | streamWrite s =>
    apply hwrites
    simp only [Call.run, bind_apply, streamWrite_finished _ s hfin]
    rfl
  | release =>
    simp only [releases, List.map_append, List.map_cons, List.count_append,
      List.count_cons_self] at hrel hpos
    omega

end GpxWriter

/-! ### When the final call is final -/

section Final

variable {σ π ρ γ τ : Type}

/-- **When the final call is final.** For any plugin; for a `DatahandlerPlainWriter` and the calls
of `setData`; for a `GpxWriter` and its parser. -/
theorem final_call_iff (p : WriterPlugin σ) (dpw : ProviderWriterBase ρ) (P : ParserClass γ)
    (dp : ProviderRouteWriterBase π τ) (parseTime : TimeParser τ) (buf : Iobuf)
    (h : History Call Ret Exn) :
    (∀ st w, Session (object p) (Writer.new buf st) h w → (Final w.writes ↔ releases h ≤ 1)) ∧
    (∀ st w, Session (object (DatahandlerPlainWriter.plugin dpw)) (Writer.new buf ⟨st, []⟩) h w →
      (Final w.writes ∧ w.plugin.strings.length ≤ 1 ↔ releases h ≤ 1)) ∧
    ∀ st w, Session (object (GpxWriter.plugin P dp parseTime))
        (Writer.new buf (GpxWriter.new P st)) h w →
      (Final w.writes ∧
          ¬ GpxWriter.UsesDeleted P dp parseTime (Writer.new buf (GpxWriter.new P st)) h ↔
        releases h ≤ 1) := by
  refine ⟨fun st w hs => session_final_iff ⟨rfl, rfl⟩ hs, ?_, ?_⟩
  · intro st w hs
    have hfinal := session_final_iff ⟨rfl, rfl⟩ hs
    have hstrings := DatahandlerPlainWriter.session_strings_le rfl hs
    exact ⟨fun hw => hfinal.1 hw.1, fun hrel => ⟨hfinal.2 hrel, hstrings.trans hrel⟩⟩
  · intro st w hs
    have hfinal := session_final_iff ⟨rfl, rfl⟩ hs
    exact ⟨fun hw => hfinal.1 hw.1, fun hrel => ⟨hfinal.2 hrel,
      GpxWriter.not_usesDeleted ⟨rfl, rfl⟩ (Option.some_ne_none _) hrel⟩⟩

end Final

/-- A parser that takes everything and finds no track. -/
def emptyParser : ParserClass Unit where
  new := ()
  parse _ _ _ := (true, ())
  root _ := ⟨[]⟩

/-- A second `release`: the string that was set is replaced by the empty one, and the deleted
parser is used. -/
theorem release_twice :
    (∃ h w, Session (object (DatahandlerPlainWriter.plugin textWriter))
        (Writer.new (Iobuf.new (fun _ => 0) 0 ⟨fun _ => none, 0⟩) ⟨[], []⟩) h w ∧
      h.map Prod.fst = [.streamWrite [97], .release, .release] ∧
      w.writes = [false, true, true] ∧ ¬ Final w.writes ∧
      w.plugin.strings = [[97], []] ∧ w.plugin.dataProvider = []) ∧
    ∃ h w, Session (object (GpxWriter.plugin emptyParser (@takesAll Unit) fun _ => ()))
        (Writer.new (Iobuf.new (fun _ => 0) 0 ⟨fun _ => none, 0⟩) (GpxWriter.new emptyParser ()))
        h w ∧
      h = [(.release, .error canNotSetValue), (.release, .error .nullPointer)] ∧
      ¬ Final w.writes ∧
      GpxWriter.UsesDeleted emptyParser (@takesAll Unit) (fun _ => ())
        (Writer.new (Iobuf.new (fun _ => 0) 0 ⟨fun _ => none, 0⟩) (GpxWriter.new emptyParser ()))
        h := by
  constructor
  · have h₀ : Session (object (DatahandlerPlainWriter.plugin textWriter))
      (Writer.new (Iobuf.new (fun _ => 0) 0 ⟨fun _ => none, 0⟩) ⟨[], []⟩) [] _ := .start
    have h₁ := h₀.returned (c := .streamWrite [97]) (r := .size 1) trivial
      (by simp [Object.Alive]) rfl
    have h₂ := h₁.returned (c := .release) (r := .released true) trivial
      (by simp [Object.Alive]) rfl
    have h₃ := h₂.returned (c := .release) (r := .released true) trivial
      (by simp [Object.Alive]) rfl
    exact ⟨_, _, h₃, rfl, rfl, fun hfinal => absurd (hfinal [false] [true] rfl) (by simp), rfl, rfl⟩
  · have h₀ : Session (object (GpxWriter.plugin emptyParser (@takesAll Unit) fun _ => ()))
      (Writer.new (Iobuf.new (fun _ => 0) 0 ⟨fun _ => none, 0⟩) (GpxWriter.new emptyParser ()))
      [] _ := .start
    have h₁ := h₀.threw (c := .release) (e := canNotSetValue) trivial (by simp [Object.Alive]) rfl
    have h₂ := h₁.threw (c := .release) (e := .nullPointer) trivial
      (by simp [Object.Alive, object, Exn.Fatal, canNotSetValue]) rfl
    refine ⟨_, _, h₂, rfl, fun hfinal => absurd (hfinal [] [true] rfl) (by simp), ?_⟩
    exact ⟨_, _, .release, _, [], rfl, h₁, rfl, by decide⟩

/-- One `release`. -/
theorem release_once :
    ∃ h w, Session (object (DatahandlerPlainWriter.plugin textWriter))
        (Writer.new (Iobuf.new (fun _ => 0) 0 ⟨fun _ => none, 0⟩) ⟨[], []⟩) h w ∧
      h.map Prod.fst = [.streamWrite [97], .release] ∧
      Final w.writes ∧ w.plugin.strings.length ≤ 1 := by
  have h₀ : Session (object (DatahandlerPlainWriter.plugin textWriter))
    (Writer.new (Iobuf.new (fun _ => 0) 0 ⟨fun _ => none, 0⟩) ⟨[], []⟩) [] _ := .start
  have h₁ := h₀.returned (c := .streamWrite [97]) (r := .size 1) trivial
    (by simp [Object.Alive]) rfl
  have h₂ := h₁.returned (c := .release) (r := .released true) trivial
    (by simp [Object.Alive]) rfl
  have hfinal := final_call_iff (DatahandlerPlainWriter.plugin textWriter) textWriter emptyParser
    (@takesAll Unit) (fun _ => ()) (Iobuf.new (fun _ => 0) 0 ⟨fun _ => none, 0⟩)
    [(.streamWrite [97], .ok (.size 1)), (.release, .ok (.released true))]
  exact ⟨_, _, h₂, rfl, (hfinal.2.1 _ _ h₂).2 (by decide)⟩

end Libgpsfile2
