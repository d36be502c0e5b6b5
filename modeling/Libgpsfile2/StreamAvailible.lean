import Libgpsfile2.DatahandlerReader

/-!
# How many bytes `streamAvailible` reports

`streamAvailible (offset)` should be the number of bytes that are there from `offset` on. It adds
`in_avail ()` to the number of bytes taken, which is the number of bytes handed out
(`session_counted`). But `in_avail ()` counts the bytes before `egptr` only, unless there are none.
So the report is short by the bytes that no `overflow` has published, as long as some byte before
them is still to be handed out: `streamAvailible_exact_iff`.
-/

namespace Libgpsfile2

namespace Reader

variable {σ : Type} {p : ReaderPlugin σ} {r : Reader σ} {mem : ℤ → UInt8} {q : ℤ}
  {alloc : Allocator} {st : σ} {h : History UInt64 (List UInt8) Exn}

def streamAvailible (r : Reader σ) (offset : ℤ) : ℤ :=
  if offset < r.out.buf.getNumGet then -1
  else r.out.buf.inAvail + r.out.buf.getNumGet - offset

/-- As many bytes were taken from the buffer as were handed out. -/
structure Counted (h : History UInt64 (List UInt8) Exn) (r : Reader σ) : Prop where
  wf : r.out.buf.WF
  taken : r.out.threw = false → r.out.buf.getNumGet = (received h).length

/-- The calls of `read` take nothing. -/
theorem Counted.fill {r₁ : Reader σ} {t : List UInt8} (hr : Counted h r)
    (hdoes : Ostream.Does t r.out r₁.out) : Counted h r₁ := by
  refine ⟨hdoes.wf, fun ht => ?_⟩
  obtain ⟨u, hstores, -⟩ := hdoes.stores ht
  have hbefore := hr.taken (hdoes.threw ht)
  rw [Iobuf.getNumGet_eq hr.wf, ← hstores.taken] at hbefore
  rw [Iobuf.getNumGet_eq hdoes.wf]
  exact hbefore

theorem Counted.take {s : UInt64} {b : Iobuf} {k : ℕ} (hr : Counted h r)
    (htaken : Taken s r.out.buf b k) :
    Counted (h ++ [(s, .ok (r.out.buf.view.ready.take k))])
      { r with out := { r.out with buf := b } } := by
  refine ⟨htaken.wf, fun ht => ?_⟩
  have hbefore := hr.taken ht
  rw [Iobuf.getNumGet_eq hr.wf] at hbefore
  show b.getNumGet = _
  rw [Iobuf.getNumGet_eq htaken.wf, htaken.view, received_concat, List.length_append,
    Nat.cast_add, ← hbefore]
  simp only [Window.take, List.length_append, List.length_reverse]
  push_cast
  ring

theorem streamRead_counted (hr : Counted h r) (s : UInt64) :
    Counted (h ++ [(s, outcome (streamRead p s r))]) (after (streamRead p s r)) := by
  obtain ⟨r₁, calls, -, hdoes, ⟨b, k, htaken, hrun⟩ | ⟨e, hrun⟩⟩ :=
    streamRead_does p s hr.wf <;>
    rw [hrun]
  · exact (hr.fill hdoes).take htaken
  · refine ⟨hdoes.wf, fun ht => ?_⟩
    rw [outcome_error, received_threw]
    exact (hr.fill hdoes).taken ht

/-- **The number of bytes taken** is the number of bytes handed out. -/
theorem session_counted (hs : Session (object p) (new (Iobuf.new mem q alloc) st) h r) :
    Counted h r := by
  refine hs.invariant (I := Counted) ⟨Iobuf.new_wf mem q alloc, fun _ => ?_⟩
    fun _ _ s hr _ => streamRead_counted hr s
  show (Iobuf.new mem q alloc).getNumGet = 0
  rw [Iobuf.getNumGet_eq (Iobuf.new_wf mem q alloc), Iobuf.new_view]
  rfl

/-- `in_avail ()` is the number of pending bytes when `egptr` hides nothing behind the next one. -/
theorem inAvail_eq_pending_iff {b : Iobuf} (hb : b.WF) :
    b.inAvail = b.view.pending.length ↔ b.view.hidden = [] ∨ b.view.ready = [] := by
  rw [Iobuf.inAvail_eq hb, Window.pending, List.length_append]
  by_cases hready : b.view.ready = []
  · simp [hready]
  · rw [if_neg hready, or_iff_left hready, ← List.length_eq_zero_iff]
    omega

/-- **When `streamAvailible` is exact**: it refuses the offsets that are handed out, and reports for
the others how many of the emitted bytes come after them, which past the end is a negative number,
if and only if no `sputc` has been left unpublished, or only bytes that were left so are still to be
handed out. -/
theorem streamAvailible_exact_iff
    (hs : Session (object p) (new (Iobuf.new mem q alloc) st) h r) (hthrew : r.out.threw = false)
    (hrefusals : r.out.buf.alloc.refusals = alloc.refusals) :
    (∀ offset : ℤ, streamAvailible r offset =
        if offset < (received h).length then -1 else (emitted r).length - offset) ↔
      Published r.out.paths ∨
        (received h).length + unpublished r.out.paths = (emitted r).length := by
  have hwf := (session_counted hs).wf
  have htaken := (session_counted hs).taken hthrew
  obtain ⟨-, hkept, hhidden⟩ := (session_sound hs).kept hthrew hrefusals
  have hlen := congrArg List.length hkept
  rw [List.length_append] at hlen
  have hexact := inAvail_eq_pending_iff hwf
  have hready : r.out.buf.view.ready = [] ↔
      (received h).length + unpublished r.out.paths = (emitted r).length := by
    rw [← List.length_eq_zero_iff, ← hlen, Window.pending, List.length_append, ← hhidden]
    omega
  rw [hready, ← List.length_eq_zero_iff, hhidden, unpublished_eq_zero_iff] at hexact
  rw [← hexact]
  unfold streamAvailible
  rw [htaken]
  constructor
  · intro hall
    have := hall (received h).length
    rw [if_neg (lt_irrefl _), if_neg (lt_irrefl _)] at this
    omega
  · intro havail offset
    split_ifs with hoff
    · rfl
    · omega

/-- A plugin that writes two bytes and puts a third one. -/
def writeAndPut : ReaderPlugin Unit where
  read _ _ := ([.write [97, 98], .put 99], .ok true, ())

/-- After the first byte was handed out two more are there, and one is reported. -/
theorem streamAvailible_short :
    ∃ r, Session (object writeAndPut) (new (Iobuf.new (fun _ => 0) 0 ⟨fun _ => none, 0⟩) ())
        [(1, .ok [97])] r ∧
      ¬ ∀ offset : ℤ, streamAvailible r offset =
        if offset < (received [(1, .ok [97])]).length then -1 else (emitted r).length - offset := by
  have hpos : (0 : UInt64) < 1 := by decide
  have h₀ : Session (object writeAndPut)
      (new (Iobuf.new (fun _ => 0) 0 ⟨fun _ => none, 0⟩) ()) [] _ := .start
  have h₁ := h₀.returned (c := 1) (r := [97]) hpos (by simp [Object.Alive]) rfl
  refine ⟨_, h₁, fun hall => ?_⟩
  rcases (streamAvailible_exact_iff h₁ rfl rfl).1 hall with hpublished | hlen
  · exact absurd ((unpublished_eq_zero_iff _).2 hpublished) (by decide)
  · exact absurd hlen (by decide)

end Reader

end Libgpsfile2
