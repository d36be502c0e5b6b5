import Libgpsfile2.DatahandlerWriter
import Libgpsfile2.Gpx.Indices

/-!
# A failed `write`

`streamWrite` and `release` throw when the `write` of the plugin returns false, and remember
nothing of it. The next call calls `write` again, unless it is a `streamWrite` that has nothing to
do because `_write_finished` is set, or that fails before it comes to `write`.

`failed_write_iff`: the transfer ends with a failed `write` exactly when all later calls are such
calls of `streamWrite`.
-/

namespace Libgpsfile2

namespace Writer

variable {σ : Type} {p : WriterPlugin σ} {w w₀ w₁ w₂ : Writer σ} {h : History Call Ret Exn}

/-- The call calls `write`, and `write` returns false. -/
def Rejects (p : WriterPlugin σ) (w : Writer σ) : Call → Prop
  | .streamWrite s => w.writeFinished = false ∧
      ∃ n b, Iobuf.sputn s w.buf = .ok n b ∧ outcome (p.write false (b, w.plugin)) = .ok false
  | .release => outcome (p.write true (w.buf, w.plugin)) = .ok false

/-- The call does not come to `write`. -/
def Idle (w : Writer σ) : Call → Prop
  | .streamWrite s => w.writeFinished = true ∨ ∃ e b, Iobuf.sputn s w.buf = .error e b
  | .release => False

/-- A rejected call throws. -/
theorem Rejects.throws {c : Call} (hc : Rejects p w c) :
    outcome (c.run p w) = .error canNotSetValue := by
  cases c with
  | streamWrite s =>
    obtain ⟨hfin, n, b, hput, hwrite⟩ := hc
    simp only [Call.run, bind_apply, streamWrite_apply p s hfin, hput, write_apply]
    cases hres : p.write false (b, w.plugin) with
    | ok r x =>
      rw [hres] at hwrite
      cases hwrite
      rfl
    | error e x =>
      rw [hres] at hwrite
      cases hwrite
  | release =>
    rw [Rejects] at hc
    simp only [Call.run, bind_apply, release_apply, write_apply]
    cases hres : p.write true (w.buf, w.plugin) with
    | ok r x =>
      rw [hres] at hc
      cases hc
      rfl
    | error e x =>
      rw [hres] at hc
      cases hc

/-- A call either is idle, and does not touch the plugin, or calls `write` once. -/
theorem run_idle (p : WriterPlugin σ) (w : Writer σ) (c : Call) :
    Idle w c ∧ (after (c.run p w)).writes = w.writes ∧ (after (c.run p w)).plugin = w.plugin ∨
      ¬ Idle w c ∧ ∃ finished, (after (c.run p w)).writes = w.writes ++ [finished] := by
  have hstep := run_step p c w
  generalize c.run p w = res at hstep ⊢
  cases hstep with
  | ignored s hw => exact .inl ⟨.inl hw, rfl, rfl⟩
  | threw s hw hput => exact .inl ⟨.inr ⟨_, _, hput⟩, rfl, rfl⟩
  | wrote s hw hput =>
    refine .inr ⟨?_, false, by rw [after_conclude, (writes_write _ _ _).1]⟩
    rintro (hfin | ⟨e, b, hthrow⟩)
    · rw [hw] at hfin
      cases hfin
    · rw [hput] at hthrow
      cases hthrow
  | released => exact .inr ⟨id, true, by rw [after_conclude, (writes_write _ _ _).1]⟩

/-- `write` is called again and again. -/
theorem session_writes_extend (hs : Session (object p) w₀ h w) : w₀.writes <+: w.writes := by
  refine hs.invariant (I := fun _ w => w₀.writes <+: w.writes) List.prefix_rfl ?_
  intro _ w c hw _
  show w₀.writes <+: (after (c.run p w)).writes
  rcases run_idle p w c with ⟨-, hsame, -⟩ | ⟨-, finished, hcalled⟩
  · rwa [hsame]
  · rw [hcalled]
    exact hw.trans (List.prefix_append _ _)

/-- The plugin is left alone exactly when all calls are idle. -/
theorem session_idle_iff (hs : Session (object p) w₀ h w) :
    w.writes = w₀.writes ∧ w.plugin = w₀.plugin ↔ (object p).EachCall w₀ h Idle := by
  induction hs with
  | start => exact iff_of_true ⟨rfl, rfl⟩ Object.eachCall_nil
  | @call h w c hs hc ha ih =>
    rw [hs.eachCall_concat, ← ih]
    show (after (c.run p w)).writes = w₀.writes ∧ (after (c.run p w)).plugin = w₀.plugin ↔ _
    rcases run_idle p w c with ⟨hidle, hwrites, hplugin⟩ | ⟨hidle, finished, hcalled⟩
    · rw [hwrites, hplugin]
      exact ⟨fun h => ⟨h, hidle⟩, fun h => h.1⟩
    · -- the history of the calls of `write` is longer than at the start
      refine iff_of_false (fun h => ?_) fun h => hidle h.2
      have hlen := (session_writes_extend hs).length_le
      rw [← h.1, hcalled, List.length_append, List.length_singleton] at hlen
      omega

/-- **When a failed `write` ends the transfer.** -/
theorem failed_write_iff (hs : Session (object p) w₀ h w) :
    (object p).AfterEach w₀ h (Rejects p)
        (fun w₂ _ => w.writes = w₂.writes ∧ w.plugin = w₂.plugin) ↔
      (object p).AfterEach w₀ h (Rejects p) fun w₂ later => (object p).EachCall w₂ later Idle := by
  have hrest : ∀ before c x later w₁, h = before ++ (c, x) :: later →
      Session (object p) w₀ before w₁ →
      (w.writes = (after ((object p).call c w₁)).writes ∧
          w.plugin = (after ((object p).call c w₁)).plugin ↔
        (object p).EachCall (after ((object p).call c w₁)) later Idle) := by
    rintro before c x later w₁ rfl hs₁
    exact session_idle_iff (hs.rest hs₁).head.2
  constructor
  · intro hall before c x later w₁ heq hs₁ hc
    exact (hrest before c x later w₁ heq hs₁).1 (hall before c x later w₁ heq hs₁ hc)
  · intro hall before c x later w₁ heq hs₁ hc
    exact (hrest before c x later w₁ heq hs₁).2 (hall before c x later w₁ heq hs₁ hc)

end Writer

open Writer

/-- A parser that finds an error in everything. -/
def strictParser : ParserClass Unit where
  new := ()
  parse _ _ _ := (false, ())
  root _ := ⟨[]⟩

/-- A `GpxWriter` with this parser. -/
def strictWriter : WriterPlugin (GpxWriter Unit Unit) :=
  GpxWriter.plugin strictParser (@takesAll Unit) fun _ => ()

/-- The second `streamWrite` feeds the parser that has failed. -/
theorem fed_after_failure :
    ∃ h w, Session (object strictWriter)
        (Writer.new (Iobuf.new (fun _ => 0) 0 ⟨fun _ => none, 0⟩) (GpxWriter.new strictParser ()))
        h w ∧
      h = [(.streamWrite [120], .error canNotSetValue),
        (.streamWrite [121], .error canNotSetValue)] ∧
      w.plugin.feeds = [([120], false), ([121], false)] ∧
      ¬ (object strictWriter).AfterEach
        (Writer.new (Iobuf.new (fun _ => 0) 0 ⟨fun _ => none, 0⟩) (GpxWriter.new strictParser ()))
        h (Rejects strictWriter) (fun w₂ _ => w.writes = w₂.writes ∧ w.plugin = w₂.plugin) := by
  have h₀ : Session (object strictWriter)
    (Writer.new (Iobuf.new (fun _ => 0) 0 ⟨fun _ => none, 0⟩) (GpxWriter.new strictParser ()))
    [] _ := .start
  have h₁ := h₀.threw (c := .streamWrite [120]) (e := canNotSetValue) trivial
    (by simp [Object.Alive]) rfl
  have h₂ := h₁.threw (c := .streamWrite [121]) (e := canNotSetValue) trivial
    (by simp [Object.Alive, object, Exn.Fatal, canNotSetValue]) rfl
  refine ⟨_, _, h₂, rfl, rfl, fun hall => ?_⟩
  have hstop := hall [] _ _ _ _ rfl h₀ ⟨rfl, _, _, rfl, rfl⟩
  exact absurd (congrArg List.length hstop.1) (by decide)

/-- The import fails in `release`; a `streamWrite` after it does nothing. -/
theorem idle_after_failure :
    ∃ h w, Session (object strictWriter)
        (Writer.new (Iobuf.new (fun _ => 0) 0 ⟨fun _ => none, 0⟩) (GpxWriter.new strictParser ()))
        h w ∧
      h = [(.release, .error canNotSetValue), (.streamWrite [120], .ok (.size 0))] ∧
      (object strictWriter).AfterEach
        (Writer.new (Iobuf.new (fun _ => 0) 0 ⟨fun _ => none, 0⟩) (GpxWriter.new strictParser ()))
        h (Rejects strictWriter) (fun w₂ _ => w.writes = w₂.writes ∧ w.plugin = w₂.plugin) := by
  have h₀ : Session (object strictWriter)
    (Writer.new (Iobuf.new (fun _ => 0) 0 ⟨fun _ => none, 0⟩) (GpxWriter.new strictParser ()))
    [] _ := .start
  have h₁ := h₀.threw (c := .release) (e := canNotSetValue) trivial (by simp [Object.Alive]) rfl
  have h₂ := h₁.returned (c := .streamWrite [120]) (r := .size 0) trivial
    (by simp [Object.Alive, object, Exn.Fatal, canNotSetValue]) rfl
  refine ⟨_, _, h₂, rfl, (failed_write_iff h₂).2 ?_⟩
  intro before c x later w₁ heq hs₁ hc
  cases before with
  | nil =>
    cases heq
    obtain rfl := hs₁.unique h₀
    exact (Session.eachCall_concat (h := []) .start _ _).2 ⟨Object.eachCall_nil, .inl rfl⟩
  | cons y before =>
    -- the last call is followed by none
    obtain rfl : later = [] := by
      have hlen := congrArg List.length heq
      simp only [List.length_cons, List.length_nil, List.length_append] at hlen
      exact List.length_eq_zero_iff.1 (by omega)
    exact Object.eachCall_nil

end Libgpsfile2
