import Libgpsfile2.Gpx.Feeding
import Libgpsfile2.Gpx.Indices
import Libgpsfile2.Gpx.Points

/-!
# What becomes of a refused call

The member functions of a provider return false when they refuse a call. `parseData` and
`readExtensions` do not look at what they return: after a final call of `write` that got as far as
`parseData` the import counts as a success, whatever the provider refused.
-/

namespace Libgpsfile2

variable {γ π ρ τ : Type}

/-! ### Calls that a provider takes -/

/-- The provider refuses none of the calls, up to the first one that throws. -/
def Accepted (dp : ProviderRouteWriterBase π τ) : List (RouteCall τ) → π → Prop
  | [], _ => True
  | c :: calls, p =>
      match dp.call c p with
      | .ok true p' => Accepted dp calls p'
      | .ok false _ => False
      | .error _ _ => True

theorem accepted_iff (dp : ProviderRouteWriterBase π τ) (calls : List (RouteCall τ)) (p : π) :
    Accepted dp calls p ↔ ∀ m ∈ made dp calls p, m.result ≠ .ok false := by
  induction calls generalizing p with
  | nil => simp [Accepted, made]
  | cons c calls ih =>
    rw [Accepted, made]
    cases dp.call c p with
    | error e p' => simp
    | ok b p' => cases b <;> simp [ih]

namespace GpxWriter

variable {P : ParserClass γ} {parseTime : TimeParser τ} {mem : ℤ → UInt8} {q : ℤ}
  {alloc : Allocator} {h : History Writer.Call Writer.Ret Exn}

/-- A writer over a provider that keeps a history of its calls. -/
abbrev Traced (γ π τ : Type) := Writer (GpxWriter γ (π × List (Made π τ)))

/-- The calls that a `release` of `w` makes of the provider. -/
def released (P : ParserClass γ) (dp : ProviderRouteWriterBase π τ) (parseTime : TimeParser τ)
    (w : Traced γ π τ) : List (Made π τ) :=
  (after (Writer.release (plugin P (traced dp) parseTime) w)).plugin.dp.2.drop
    w.plugin.dp.2.length

/-- The document that the parser has in the end, if it has taken everything. -/
def document (P : ParserClass γ) (w : Traced γ π τ) : Option GPX :=
  match w.plugin.parser with
  | none => none
  | some g =>
      if (P.parse g w.buf.view.pending true).1 then
        some (P.root (P.parse g w.buf.view.pending true).2)
      else none

/-- Nothing is lost in silence: `write` returns true only if every call returned true, and when a
call was refused it returns false, so that `release` throws. -/
structure Lossless (P : ParserClass γ) (dp : ProviderRouteWriterBase π τ)
    (parseTime : TimeParser τ) (w : Traced γ π τ) : Prop where
  returned : outcome (write P (traced dp) parseTime true (w.buf, w.plugin)) = .ok true →
    ∀ m ∈ released P dp parseTime w, m.result = .ok true
  refused : (∃ m ∈ released P dp parseTime w, m.result = .ok false) →
    outcome (write P (traced dp) parseTime true (w.buf, w.plugin)) = .ok false ∧
      outcome (Writer.release (plugin P (traced dp) parseTime) w) =
        .error Writer.canNotSetValue

section Release

variable {dp : ProviderRouteWriterBase π τ} {w : Traced γ π τ}

theorem release_plugin (w : Traced γ π τ) :
    (after (Writer.release (plugin P (traced dp) parseTime) w)).plugin =
      (after (write P (traced dp) parseTime true (w.buf, w.plugin))).2 := by
  rw [Writer.release_apply, Writer.after_conclude, (Writer.after_write _ _ _).2]
  rfl

/-- The last statement of `write`, when the document is there. -/
theorem complete_traced {x : GpxWriter γ (π × List (Made π τ))} {g : γ} (hx : x.parser = some g) :
    (after (complete P (traced dp) parseTime true true x)).dp.2 =
        x.dp.2 ++ made dp ((P.root g).calls parseTime) x.dp.1 ∧
      ∀ b, outcome (complete P (traced dp) parseTime true true x) = .ok b →
        ∃ s, parseData (traced dp) parseTime (P.root g) x.dp = .ok b s := by
  obtain ⟨parser, ⟨p, log⟩, feeds⟩ := x
  change parser = some g at hx
  subst hx
  have htraced := parseData_traced dp parseTime (P.root g) p log
  rw [complete_apply]
  cases hdata : parseData (traced dp) parseTime (P.root g) (p, log) with
  | error e d =>
    rw [hdata] at htraced
    exact ⟨htraced, fun b hb => by cases hb⟩
  | ok b d =>
    rw [hdata] at htraced
    simp only [traced, onFst, onPart]
    cases dp.finished d.1 with
    | error e d' => exact ⟨htraced, fun b hb => by cases hb⟩
    | ok u d' =>
      refine ⟨htraced, fun b' hb => ⟨d, ?_⟩⟩
      cases hb
      rfl

/-- The calls that `release` makes are the calls for the document. -/
theorem released_eq (P : ParserClass γ) (dp : ProviderRouteWriterBase π τ)
    (parseTime : TimeParser τ) (hb : Shown w.buf) :
    released P dp parseTime w = match document P w with
      | none => []
      | some root => made dp (root.calls parseTime) w.plugin.dp.1 := by
  unfold released
  rw [release_plugin, document]
  cases hx : w.plugin.parser with
  | none => rw [write_deleted hb hx, after_error, List.drop_length]
  | some g =>
    obtain ⟨b', -, -, hwrite⟩ := write_apply P (traced dp) parseTime hb hx true
    rw [hwrite, after_onSnd]
    by_cases hres : (P.parse g w.buf.view.pending true).1 = true
    · simp only [hres, if_true]
      rw [(complete_traced rfl).1, List.drop_left]
    · rw [Bool.not_eq_true] at hres
      simp only [hres, Bool.false_eq_true, if_false]
      exact List.drop_length

/-- When the final `write` returns true there is a document and `parseData` has returned true. -/
theorem write_ok (hb : Shown w.buf) {b : Bool}
    (h : outcome (write P (traced dp) parseTime true (w.buf, w.plugin)) = .ok b) :
    (document P w = none ∧ b = false) ∨ ∃ root s, document P w = some root ∧
      parseData (traced dp) parseTime root w.plugin.dp = .ok b s := by
  unfold document
  cases hx : w.plugin.parser with
  | none =>
    rw [write_deleted hb hx] at h
    cases h
  | some g =>
    obtain ⟨b', -, -, hwrite⟩ := write_apply P (traced dp) parseTime hb hx true
    rw [hwrite, outcome_onSnd] at h
    by_cases hres : (P.parse g w.buf.view.pending true).1 = true
    · rw [hres] at h
      obtain ⟨s, hs⟩ := (complete_traced rfl).2 b h
      exact .inr ⟨_, s, by simp only [hres, if_true], hs⟩
    · rw [Bool.not_eq_true] at hres
      rw [hres] at h
      cases h
      exact .inl ⟨by simp only [hres, Bool.false_eq_true, if_false], rfl⟩

/-- A release that returns true has a document, all of whose calls were made and returned. -/
theorem release_ok (hb : Shown w.buf) {b : Bool}
    (h : outcome (Writer.release (plugin P (traced dp) parseTime) w) = .ok b) :
    ∃ root, document P w = some root ∧ 0 < root.trks.length ∧
      .terminate ∉ tracksActions parseTime 0 root.trks ∧
      ∀ m ∈ made dp (root.calls parseTime) w.plugin.dp.1, ∃ b, m.result = .ok b := by
  rcases write_ok hb (Writer.write_of_release h) with ⟨-, hfalse⟩ | ⟨root, s, hdoc, hdata⟩
  · cases hfalse
  · obtain ⟨hend, hmade, hsize⟩ := parseData_ok dp parseTime root hdata
    exact ⟨root, hdoc, by simpa [List.length_pos_iff] using hsize.symm, hend, hmade⟩

/-- Without a refusal nothing is lost, and only then. -/
theorem lossless_iff (hb : Shown w.buf) :
    Lossless P dp parseTime w ↔
      ∀ root, document P w = some root → Accepted dp (root.calls parseTime) w.plugin.dp.1 := by
  have hreleased := released_eq P dp parseTime hb
  constructor
  · intro hw root hdoc
    rw [hdoc] at hreleased
    simp only at hreleased
    rw [accepted_iff, ← hreleased]
    intro m hm hfalse
    -- a refusal: `write` would have to return false, which it does without a track only
    have hwrite := (hw.refused ⟨m, hm, hfalse⟩).1
    rcases write_ok hb hwrite with ⟨hnone, -⟩ | ⟨root', s, hdoc', hdata⟩
    · rw [hdoc] at hnone
      cases hnone
    · rw [hdoc, Option.some.injEq] at hdoc'
      subst hdoc'
      have hsize := (parseData_ok dp parseTime root hdata).2.2
      rw [hreleased, GPX.calls, if_pos (by simpa using hsize.symm)] at hm
      exact absurd hm List.not_mem_nil
  · intro hall
    constructor
    · intro hwrite m hm
      rcases write_ok hb hwrite with ⟨-, hfalse⟩ | ⟨root, s, hdoc, hdata⟩
      · cases hfalse
      · rw [hdoc] at hreleased
        rw [hreleased] at hm
        obtain ⟨b, hb⟩ := (parseData_ok dp parseTime root hdata).2.1 m hm
        have haccepted := (accepted_iff _ _ _).1 (hall root hdoc) m hm
        rw [hb] at haccepted ⊢
        cases b with
        | false => exact absurd rfl haccepted
        | true => rfl
    · rintro ⟨m, hm, hfalse⟩
      rw [hreleased] at hm
      cases hdoc : document P w with
      | none =>
        rw [hdoc] at hm
        exact absurd hm List.not_mem_nil
      | some root =>
        rw [hdoc] at hm
        exact absurd hfalse ((accepted_iff _ _ _).1 (hall root hdoc) m hm)

end Release

/-! ### Over a `ProviderGpsRouteWriter` -/

section Routes

open ProviderGpsRouteWriter

variable {R : RouteClass ρ τ} {filing : ρ → Filing UInt16 τ}

/-- The route that a position is for has the point, in the segment named, and `addPointData` takes
the position: asked in the state in which the call finds the route. -/
def PositionsTaken (R : RouteClass ρ τ) (filing : ρ → Filing UInt16 τ)
    (ms : List (Made (ProviderGpsRouteWriter ρ) τ)) : Prop :=
  ∀ m ∈ ms, m.call.IsPosition → ∃ i k t type value x,
    m.call = .addTrackPointDataString i k t type value ∧
      m.state.routes[i.toNat]? = some (some x) ∧ (filing x).At k t ∧
      outcome (R.addPointDataString k t type value true x) = .ok true

/-- Every point and every position was taken when the times are different and `addPointData` takes
the positions. -/
theorem points_iff (hR : R.Lawful filing) {w : Traced γ (ProviderGpsRouteWriter ρ) τ}
    (hb : Shown w.buf) {v b : Bool} {hist : History (Call τ) (Option Bool) Exn}
    (hp : Session (object R) (create v) hist w.plugin.dp.1)
    (h : outcome (Writer.release (plugin P (traced (provider R)) parseTime) w) = .ok b) :
    ∃ root, document P w = some root ∧
      (released P (provider R) parseTime w).map Made.call = root.calls parseTime ∧
      ((∀ m ∈ released P (provider R) parseTime w, m.call.IsPoint ∨ m.call.IsPosition →
          m.result = .ok true) ↔
        OwnTimes filing parseTime root w.plugin.dp.1 ∧
          PositionsTaken R filing (made (provider R) (root.calls parseTime) w.plugin.dp.1)) := by
  obtain ⟨root, hdoc, hne, hend, hok⟩ := release_ok hb h
  obtain ⟨hfull, hlen⟩ := session_full hR hp
  have hreleased := released_eq P (provider R) parseTime hb
  rw [hdoc] at hreleased
  obtain ⟨hpoints, hstored⟩ := document_points hR hfull hlen hne hend hok
  refine ⟨root, hdoc, by rw [hreleased, made_all hok], ?_⟩
  rw [hreleased]
  constructor
  · intro hall
    have htimes := hpoints.1 fun m hm hpoint => hall m hm (.inl hpoint)
    refine ⟨htimes, fun m hm hposition => ?_⟩
    have hresult := hall m hm (.inr hposition)
    obtain ⟨call, state, result⟩ := m
    cases call with
    | addTrackPointDataString i k t type value =>
      obtain ⟨x, hx, hat, hx'⟩ := stored_result hR hm (hstored htimes _ hm) rfl
      exact ⟨i, k, t, type, value, x, rfl, hx, hat, hx'.symm.trans hresult⟩
    | _ => exact hposition.elim
  · rintro ⟨htimes, hpositions⟩ m hm (hpoint | hposition)
    · exact hpoints.2 htimes m hm hpoint
    · obtain ⟨i, k, t, type, value, x, hcall, hx, hat, hok⟩ := hpositions m hm hposition
      obtain ⟨x', hx', -, hresult⟩ := stored_result hR hm (hstored htimes m hm) hcall
      rw [hx, Option.some.injEq, Option.some.injEq] at hx'
      rw [hresult, ← hx', hok]

end Routes

/-! ### When nothing is lost in silence -/

/-- **When nothing is lost in silence**: for any provider, after any session; and what this comes
to over a `ProviderGpsRouteWriter` for the points of the document, when `release` returns. -/
theorem release_lossless_iff (P : ParserClass γ) (dp : ProviderRouteWriterBase π τ)
    (R : RouteClass ρ τ) (parseTime : TimeParser τ) (mem : ℤ → UInt8) (q : ℤ)
    (alloc : Allocator) (h : History Writer.Call Writer.Ret Exn) :
    (∀ st w, Session (Writer.object (plugin P (traced dp) parseTime))
        (Writer.new (Iobuf.new mem q alloc) (new P (st, []))) h w →
      (Lossless P dp parseTime w ↔ ∀ root, document P w = some root →
        Accepted dp (root.calls parseTime) w.plugin.dp.1)) ∧
    ∀ filing, R.Lawful filing → ∀ st w v hist b,
      Session (Writer.object (plugin P (traced (ProviderGpsRouteWriter.provider R)) parseTime))
        (Writer.new (Iobuf.new mem q alloc) (new P (st, []))) h w →
      Session (ProviderGpsRouteWriter.object R) (ProviderGpsRouteWriter.create v) hist
        w.plugin.dp.1 →
      outcome (Writer.release
        (plugin P (traced (ProviderGpsRouteWriter.provider R)) parseTime) w) = .ok b →
      ∃ root, document P w = some root ∧
        (released P (ProviderGpsRouteWriter.provider R) parseTime w).map Made.call =
          root.calls parseTime ∧
        ((∀ m ∈ released P (ProviderGpsRouteWriter.provider R) parseTime w,
            m.call.IsPoint ∨ m.call.IsPosition → m.result = .ok true) ↔
          ProviderGpsRouteWriter.OwnTimes filing parseTime root w.plugin.dp.1 ∧
            PositionsTaken R filing (made (ProviderGpsRouteWriter.provider R)
              (root.calls parseTime) w.plugin.dp.1)) := by
  refine ⟨fun st w hs => lossless_iff (session_shown hs), ?_⟩
  intro filing hR st w v hist b hs hp hrel
  exact points_iff hR (session_shown hs) hp hrel

/-- A parser that takes everything and has the document `root`. -/
def fixedParser (root : GPX) : ParserClass Unit where
  new := ()
  parse _ _ _ := (true, ())
  root _ := root

/-- A track with one segment that has a point for every string. -/
def oneSegment (times : List StdString) : GPX :=
  ⟨[⟨[], [], [], [⟨times.map fun time => ⟨time, [], [], [], []⟩⟩]⟩]⟩

/-- A writer for this track over a new `ProviderGpsRouteWriter`. The times are the lengths of the
strings. -/
def oneSegmentWriter (times : List StdString) :
    Traced Unit (ProviderGpsRouteWriter (List (UInt16 × List ℕ))) ℕ :=
  Writer.new (Iobuf.new (fun _ => 0) 0 ⟨fun _ => none, 0⟩)
    (new (fixedParser (oneSegment times)) (ProviderGpsRouteWriter.create false, []))

/-- Two points without a time: the second one is refused, and `release` returns true. -/
theorem release_loses_point :
    outcome (Writer.release (plugin (fixedParser (oneSegment [[], []]))
        (traced (ProviderGpsRouteWriter.provider ProviderGpsRouteWriter.timesRoute)) List.length)
      (oneSegmentWriter [[], []])) = .ok true ∧
    (∃ m ∈ released (fixedParser (oneSegment [[], []]))
        (ProviderGpsRouteWriter.provider ProviderGpsRouteWriter.timesRoute) List.length
        (oneSegmentWriter [[], []]),
      m.call = .addTrackPoint 0 0 0 ∧ m.result = .ok false) ∧
    ¬ Lossless (fixedParser (oneSegment [[], []]))
      (ProviderGpsRouteWriter.provider ProviderGpsRouteWriter.timesRoute) List.length
      (oneSegmentWriter [[], []]) := by
  have hwrite : outcome (write (fixedParser (oneSegment [[], []]))
      (traced (ProviderGpsRouteWriter.provider ProviderGpsRouteWriter.timesRoute)) List.length true
      ((oneSegmentWriter [[], []]).buf, (oneSegmentWriter [[], []]).plugin)) = .ok true := by
    decide +kernel
  have hrefused : ∃ m ∈ released (fixedParser (oneSegment [[], []]))
      (ProviderGpsRouteWriter.provider ProviderGpsRouteWriter.timesRoute) List.length
      (oneSegmentWriter [[], []]), m.call = .addTrackPoint 0 0 0 ∧ m.result = .ok false := by
    decide +kernel
  refine ⟨by decide +kernel, hrefused, fun h => ?_⟩
  obtain ⟨m, hm, -, hfalse⟩ := hrefused
  have htrue := h.returned hwrite m hm
  rw [hfalse] at htrue
  cases htrue

/-- Two points with different times: nothing is refused. -/
theorem release_keeps_points :
    Lossless (fixedParser (oneSegment [[], [49]]))
        (ProviderGpsRouteWriter.provider ProviderGpsRouteWriter.timesRoute) List.length
        (oneSegmentWriter [[], [49]]) ∧
      ∃ root, document (fixedParser (oneSegment [[], [49]])) (oneSegmentWriter [[], [49]]) =
          some root ∧
        ProviderGpsRouteWriter.OwnTimes ProviderGpsRouteWriter.timesFiling List.length root
          (ProviderGpsRouteWriter.create false) := by
  have hs : Session (Writer.object (plugin (fixedParser (oneSegment [[], [49]]))
      (traced (ProviderGpsRouteWriter.provider ProviderGpsRouteWriter.timesRoute)) List.length))
    (oneSegmentWriter [[], [49]]) [] _ := .start
  have hp : Session (ProviderGpsRouteWriter.object ProviderGpsRouteWriter.timesRoute)
    (ProviderGpsRouteWriter.create false) [] _ := .start
  have hrelease : outcome (Writer.release (plugin (fixedParser (oneSegment [[], [49]]))
      (traced (ProviderGpsRouteWriter.provider ProviderGpsRouteWriter.timesRoute)) List.length)
      (oneSegmentWriter [[], [49]])) = .ok true := by
    decide +kernel
  have haccepted : Accepted (ProviderGpsRouteWriter.provider ProviderGpsRouteWriter.timesRoute)
      ((oneSegment [[], [49]]).calls List.length) (ProviderGpsRouteWriter.create false) := by
    rw [accepted_iff]
    decide +kernel
  have hall : ∀ m ∈ released (fixedParser (oneSegment [[], [49]]))
      (ProviderGpsRouteWriter.provider ProviderGpsRouteWriter.timesRoute) List.length
      (oneSegmentWriter [[], [49]]), m.result = .ok true := by
    decide +kernel
  have hiff := release_lossless_iff (fixedParser (oneSegment [[], [49]]))
    (ProviderGpsRouteWriter.provider ProviderGpsRouteWriter.timesRoute)
    ProviderGpsRouteWriter.timesRoute List.length (fun _ => 0) 0 ⟨fun _ => none, 0⟩ []
  refine ⟨(hiff.1 _ _ hs).2 fun root hroot => ?_, ?_⟩
  · obtain rfl : oneSegment [[], [49]] = root := Option.some.inj hroot
    exact haccepted
  · obtain ⟨root, hroot, -, hpoints⟩ := hiff.2 _ ProviderGpsRouteWriter.timesRoute_lawful _ _ _ _ _
      hs hp hrelease
    exact ⟨root, hroot, (hpoints.1 fun m hm _ => hall m hm).1⟩

end GpxWriter

end Libgpsfile2
