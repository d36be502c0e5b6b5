import Libgpsfile2.Datahandler
import Libgpsfile2.Utils.Put
import Libgpsfile2.Utils.IobufQueue

/-!
# Reading through `streamRead`

A session with a reader is a sequence of `streamRead` calls. `streamRead` reports what `in_avail`
sees, which is everything up to `pptr` once `egptr` has been reached, but hands out through
`sgetn` what lies before `egptr` only. So the bytes that a plugin put by the fast path of `sputc`
are handed out only after a later put operation has gone through `overflow`, which moves `egptr`
up to `pptr`.

`streamRead_complete_iff`: when a session has come to its end, the bytes handed out are exactly
the bytes emitted if and only if every such byte was followed by an `overflow` (`Published`), and
no `realloc` was refused.
-/

namespace Libgpsfile2

/-! ### Published bytes -/

/-- Every fast `sputc` was followed by a put operation that went through `overflow`. -/
def Published (paths : List Path) : Prop :=
  ∀ before later, paths = before ++ .fast :: later → .overflow ∈ later

/-- How many bytes the get area does not know of after a put operation, when it did not know of
`n` before. -/
def Path.hides : Path → ℕ → ℕ
  | .fast, n => n + 1
  | .bulk, n => n
  | .overflow, _ => 0

/-- The number of fast puts since the last `overflow`. -/
def unpublished (paths : List Path) : ℕ := paths.foldl (fun n x => x.hides n) 0

theorem unpublished_concat (paths : List Path) (x : Path) :
    unpublished (paths ++ [x]) = x.hides (unpublished paths) := by
  simp [unpublished, List.foldl_append]

theorem published_concat (paths : List Path) (x : Path) :
    Published (paths ++ [x]) ↔ match x with
      | .fast => False
      | .bulk => Published paths
      | .overflow => True := by
  cases x with
  | fast =>
    refine iff_of_false (fun h => ?_) not_false
    have := h paths [] rfl
    simp at this
  | bulk =>
    constructor
    · intro h before later heq
      have := h before (later ++ [.bulk]) (by rw [heq]; simp)
      simpa using this
    · intro h before later heq
      rcases List.eq_nil_or_concat later with rfl | ⟨l, y, rfl⟩
      · have := List.append_inj_right' heq rfl
        simp at this
      · rw [List.concat_eq_append, ← List.cons_append, ← List.append_assoc] at heq
        obtain ⟨hl, hy⟩ := List.append_inj' heq rfl
        rw [List.concat_eq_append]
        exact List.mem_append_left _ (h before l hl)
  | overflow =>
    refine iff_of_true (fun before later heq => ?_) trivial
    rcases List.eq_nil_or_concat later with rfl | ⟨l, y, rfl⟩
    · have := List.append_inj_right' heq rfl
      simp at this
    · rw [List.concat_eq_append, ← List.cons_append, ← List.append_assoc] at heq
      obtain ⟨-, hy⟩ := List.append_inj' heq rfl
      rw [List.concat_eq_append]
      exact List.mem_append_right _ (by rw [← hy]; simp)

theorem unpublished_eq_zero_iff (paths : List Path) :
    unpublished paths = 0 ↔ Published paths := by
  induction paths using List.reverseRecOn with
  | nil => exact iff_of_true rfl (fun before later h => by simp at h)
  | append_singleton paths x ih =>
    rw [unpublished_concat, published_concat]
    cases x with
    | fast => simp [Path.hides]
    | bulk => exact ih
    | overflow => simp [Path.hides]

/-! ### One operation of the plugin -/

namespace Ostream

variable {o o' : Ostream} {b : Iobuf}

theorem run_put (c : UInt8) (hb : b.WF) :
    ∃ done b', (Emit.put c).run b = .ok done b' ∧ b'.WF ∧ Window.Puts [c] b.view b'.view ∧
      (b'.alloc.refusals = b.alloc.refusals → done = true ∧
        b'.view.hidden.length = ((Emit.put c).path b).hides b.view.hidden.length) := by
  have hsim := Iobuf.sputc_simulates c b hb
  cases hw : Window.sputc c b.view with
  | error x w =>
    simp only [Window.sputc, Window.overflow] at hw
    split_ifs at hw
  | ok r w =>
    rw [hw] at hsim
    obtain ⟨b', hb', hwf, rfl⟩ := hsim.ok_right
    have hroom := Iobuf.room_view hb 1
    have hout := hb.out_le
    refine ⟨decide (r ≠ eof), b', by rw [Emit.run, bind_apply, hb']; rfl, hwf, ?_, fun heq => ?_⟩
    · rcases Window.sputc_stores hw with ⟨-, hs, hr⟩ | ⟨-, hs, hr⟩
      · exact ⟨[c], hs, fun _ => rfl, fun h => by omega⟩
      · exact ⟨[], hs, fun h => by omega, fun _ => Nat.zero_lt_one⟩
    · refine ⟨?_, ?_⟩
      · rcases Window.sputc_stores hw with ⟨rfl, -, -⟩ | ⟨-, -, hr⟩
        · exact decide_eq_true (toIntType_ne_eof c)
        · have : b'.view.alloc.refusals = b.view.alloc.refusals := heq
          omega
      · rw [Window.sputc_hidden hw heq, Emit.path]
        by_cases hlt : b.outCur < b.outEnd
        · rw [if_pos hlt, if_pos (by omega), Path.hides]
        · rw [if_neg hlt, if_neg (by omega), Path.hides]

theorem run_write (s : List UInt8) (hb : b.WF) :
    (∃ b', (Emit.write s).run b = .error Window.wrongCharacter b' ∧ b'.WF) ∨
    ∃ done b', (Emit.write s).run b = .ok done b' ∧ b'.WF ∧ Window.Puts s b.view b'.view ∧
      (b'.alloc.refusals = b.alloc.refusals → done = true ∧
        b'.view.hidden.length = ((Emit.write s).path b).hides b.view.hidden.length) := by
  have hsim := Iobuf.sputn_simulates s b hb
  cases hw : Window.xsputn s b.view with
  | error x w =>
    rw [hw] at hsim
    obtain ⟨b', hb', hwf, -⟩ := hsim.error_right
    rw [Window.xsputn_error hw] at hb'
    exact .inl ⟨b', by rw [Emit.run, bind_apply, hb'], hwf⟩
  | ok r w =>
    rw [hw] at hsim
    obtain ⟨b', hb', hwf, rfl⟩ := hsim.ok_right
    obtain ⟨rfl, hputs⟩ := Window.xsputn_stores hw
    have hroom := Iobuf.room_view hb s.length
    refine .inr ⟨true, b', ?_, hwf, hputs, fun heq => ⟨rfl, ?_⟩⟩
    · rw [Emit.run, bind_apply, hb']
      simp [pure_apply]
    · rw [Window.xsputn_hidden hw heq, Emit.path]
      by_cases hle : (s.length : ℤ) ≤ b.outEnd - b.outCur
      · rw [if_pos hle, if_pos (by omega), Path.hides]
      · rw [if_neg hle, if_neg (by omega), Path.hides]

/-- **One put operation on a buffer**: a bulk put can throw its exception. -/
theorem run_emit (e : Emit) (hb : b.WF) :
    (∃ b', e.run b = .error Window.wrongCharacter b' ∧ b'.WF) ∨
    ∃ done b', e.run b = .ok done b' ∧ b'.WF ∧ Window.Puts e.bytes b.view b'.view ∧
      (b'.alloc.refusals = b.alloc.refusals → done = true ∧
        b'.view.hidden.length = (e.path b).hides b.view.hidden.length) := by
  cases e with
  | put c => exact .inr (run_put c hb)
  | write s => exact run_write s hb

/-- What a sequence of operations that emits `bytes` did to a stream. Nothing is said of a stream
whose buffer threw. -/
structure Does (bytes : List UInt8) (o o' : Ostream) : Prop where
  wf : o'.buf.WF
  threw : o'.threw = false → o.threw = false
  stores : o'.threw = false → ∃ t, o.buf.view.Stores t o'.buf.view ∧ t.length ≤ bytes.length ∧
    (o.buf.alloc.refusals < o'.buf.alloc.refusals → t.length < bytes.length) ∧
    (o'.buf.alloc.refusals = o.buf.alloc.refusals → o.bad = false → t = bytes ∧ o'.bad = false ∧
      (o.buf.view.hidden.length = unpublished o.paths →
        o'.buf.view.hidden.length = unpublished o'.paths))

theorem Does.refl (ho : o.buf.WF) : Does [] o o :=
  ⟨ho, id, fun _ => ⟨[], .refl _, le_rfl, fun h => absurd h (lt_irrefl _),
    fun _ hbad => ⟨rfl, hbad, id⟩⟩⟩

theorem Does.trans {o'' : Ostream} {s s' : List UInt8} (h : Does s o o') (h' : Does s' o' o'') :
    Does (s ++ s') o o'' := by
  refine ⟨h'.wf, fun hthrew => h.threw (h'.threw hthrew), fun hthrew => ?_⟩
  obtain ⟨t, ht, hle, hlost, hall⟩ := h.stores (h'.threw hthrew)
  obtain ⟨t', ht', hle', hlost', hall'⟩ := h'.stores hthrew
  have hr : o.buf.alloc.refusals ≤ o'.buf.alloc.refusals := ht.refusals
  have hr' : o'.buf.alloc.refusals ≤ o''.buf.alloc.refusals := ht'.refusals
  refine ⟨t ++ t', ht.trans ht', by simp; omega, fun hlt => ?_, fun heq hbad => ?_⟩
  · rw [List.length_append, List.length_append]
    rcases hr.eq_or_lt with h1 | h1
    · have := hlost' (by omega)
      omega
    · have := hlost h1
      omega
  · obtain ⟨rfl, hbad', hpub⟩ := hall (by omega) hbad
    obtain ⟨rfl, hbad'', hpub'⟩ := hall' (by omega) hbad'
    exact ⟨rfl, hbad'', fun h => hpub' (hpub h)⟩

/-- A stream over a buffer in order never fails. -/
theorem emit_does (e : Emit) (ho : o.buf.WF) :
    ∃ o', emit e o = .ok () o' ∧ Does e.bytes o o' := by
  by_cases hbad : o.bad = true
  · refine ⟨o, by rw [emit, if_pos hbad], ho, id, fun _ => ⟨[], .refl _, Nat.zero_le _, ?_, ?_⟩⟩
    · exact fun h => absurd h (lt_irrefl _)
    · exact fun _ hgood => absurd (hbad.symm.trans hgood) (by simp)
  · rcases run_emit e ho with
      ⟨b', hrun, hwf⟩ | ⟨done, b', hrun, hwf, ⟨t, ht, hall, hlost⟩, hgood⟩
    · -- the stream swallows the exception
      have hfatal : ¬ Window.wrongCharacter.Fatal := id
      refine ⟨{ buf := b', bad := true, threw := true, paths := o.paths ++ [e.path o.buf] },
        by simp only [emit, if_neg hbad, hrun, if_neg hfatal], hwf, ?_, ?_⟩ <;>
        exact fun h => absurd h (by simp)
    · refine ⟨{ o with buf := b', bad := !done, paths := o.paths ++ [e.path o.buf] },
        by simp only [emit, if_neg hbad, hrun], hwf, id, fun _ => ?_⟩
      have hr : o.buf.alloc.refusals ≤ b'.alloc.refusals := ht.refusals
      have hle : t.length ≤ e.bytes.length := by
        rcases hr.eq_or_lt with h | h
        · rw [hall h.symm]
        · exact (hlost h).le
      refine ⟨t, ht, hle, hlost, fun heq _ => ⟨hall heq, by simp [hgood heq], fun hpub => ?_⟩⟩
      simp only [(hgood heq).2, unpublished_concat, hpub]

theorem emitAll_does (es : List Emit) (ho : o.buf.WF) :
    ∃ o', emitAll es o = .ok () o' ∧ Does (es.flatMap Emit.bytes) o o' := by
  induction es generalizing o with
  | nil => exact ⟨o, rfl, .refl ho⟩
  | cons e es ih =>
    obtain ⟨o₁, h₁, hdoes₁⟩ := emit_does e ho
    obtain ⟨o₂, h₂, hdoes₂⟩ := ih hdoes₁.wf
    refine ⟨o₂, ?_, ?_⟩
    · rw [emitAll, bind_apply, h₁]
      exact h₂
    · rw [List.flatMap_cons]
      exact hdoes₁.trans hdoes₂

end Ostream

namespace Reader

variable {σ : Type} {p : ReaderPlugin σ} {r r' : Reader σ} {mem : ℤ → UInt8} {q : ℤ}
  {alloc : Allocator} {st : σ} {h : History UInt64 (List UInt8) Exn}

/-! ### Sessions -/

/-- The calls of a reader. The sizes are positive. -/
def object (p : ReaderPlugin σ) : Object UInt64 (List UInt8) Exn (Reader σ) where
  call := streamRead p
  permitted _ s := 0 < s
  fatal := Exn.Fatal

/-- The bytes a list of `read` calls emitted. -/
def emittedBy (calls : List ReadCall) : List UInt8 :=
  calls.flatMap fun c => c.emits.flatMap Emit.bytes

/-- The bytes the plugin emitted. -/
def emitted (r : Reader σ) : List UInt8 := emittedBy r.reads

/-- The bytes a call returned. -/
def returned : Except Exn (List UInt8) → List UInt8
  | .ok s => s
  | .error _ => []

/-- The bytes handed out in a session. -/
def received (h : History UInt64 (List UInt8) Exn) : List UInt8 := h.flatMap fun x => returned x.2

/-- The session has come to a call that returned nothing. -/
def Ended (h : History UInt64 (List UInt8) Exn) : Prop :=
  ∃ before s, h = before ++ [(s, .ok [])]

/-- The end of the data was reported, and the last call returned nothing. -/
def Complete (h : History UInt64 (List UInt8) Exn) (r : Reader σ) : Prop :=
  r.readFinished = true ∧ Ended h

/-! ### One call of `streamRead` -/

/-- The length that `read` is given. -/
def lengthFor (r : Reader σ) (s : UInt64) : ℤ :=
  (toSizeT r.out.buf.inAvail - s.toNat) % 2 ^ 64

/-- `_read_finished` after a call of `read`: an exception leaves it false. -/
def finishes : Except Exn Bool → Bool
  | .ok eof => eof
  | .error _ => false

/-- The reader after a call of `read` that has left the stream `o`. -/
def filled (p : ReaderPlugin σ) (r : Reader σ) (s : UInt64) (o : Ostream) : Reader σ where
  out := o
  readFinished := finishes (p.read r.plugin (r.lengthFor s)).2.1
  plugin := (p.read r.plugin (r.lengthFor s)).2.2
  reads := r.reads ++ [⟨s.toNat, r.out.buf.inAvail, r.lengthFor s,
    (p.read r.plugin (r.lengthFor s)).1, (p.read r.plugin (r.lengthFor s)).2.1⟩]

/-- The test in front of the call of `read`: not enough is ready, and the end was not reported. -/
def Asks (r : Reader σ) (s : UInt64) : Prop :=
  r.out.buf.inAvail < toStreamsize s ∧ r.readFinished = false

theorem refill_cases (p : ReaderPlugin σ) (s : UInt64) (hr : r.out.buf.WF) :
    (¬ r.Asks s ∧ refill p s r = .ok () r) ∨
    (r.Asks s ∧
      ∃ o, Ostream.emitAll (p.read r.plugin (r.lengthFor s)).1 r.out = .ok () o ∧
        Ostream.Does ((p.read r.plugin (r.lengthFor s)).1.flatMap Emit.bytes) r.out o ∧
        ((∃ eof, (p.read r.plugin (r.lengthFor s)).2.1 = .ok eof ∧
            refill p s r = .ok () (filled p r s o)) ∨
          ∃ e, (p.read r.plugin (r.lengthFor s)).2.1 = .error e ∧
            refill p s r = .error e (filled p r s o))) := by
  unfold Asks
  by_cases hc : r.out.buf.inAvail < toStreamsize s ∧ r.readFinished = false
  · obtain ⟨o, hrun, hdoes⟩ := Ostream.emitAll_does (p.read r.plugin (r.lengthFor s)).1 hr
    refine .inr ⟨hc, o, hrun, hdoes, ?_⟩
    unfold filled
    unfold lengthFor at hrun ⊢
    simp only [refill, read, onOut, onPart, bind_apply, get_apply, set_apply, modify_apply,
      if_pos hc, hrun]
    cases hresult : (p.read r.plugin ((toSizeT r.out.buf.inAvail - s.toNat) % 2 ^ 64)).2.1 with
    | ok eof => exact .inl ⟨eof, rfl, rfl⟩
    | error e =>
      -- the exception comes before the assignment to `_read_finished`
      refine .inr ⟨e, rfl, ?_⟩
      simp only [throw_apply, hc.2, finishes]
  · refine .inl ⟨hc, ?_⟩
    simp only [refill, bind_apply, get_apply, pure_apply, if_neg hc]

theorem inAvail_nonneg {b : Iobuf} (hb : b.WF) : 0 ≤ b.inAvail := by
  rw [Iobuf.inAvail_eq hb]
  split_ifs <;> omega

theorem inAvail_of_pending {b : Iobuf} (hb : b.WF) (h : b.view.pending = []) :
    b.inAvail = 0 := by
  obtain ⟨hready, hhidden⟩ := List.append_eq_nil_iff.1 h
  rw [Iobuf.inAvail_eq hb, if_pos hready, hhidden]
  rfl

/-- A call for `s` bytes has taken `k` ready bytes from the buffer `b`. -/
structure Taken (s : UInt64) (b b' : Iobuf) (k : ℕ) : Prop where
  wf : b'.WF
  view : b'.view = b.view.take k
  count : k = (min b.inAvail (s.toNat : ℤ)).toNat

/-- Nothing is taken only if nothing is ready. -/
theorem Taken.ready_eq_nil {s : UInt64} {b b' : Iobuf} {k : ℕ} (htaken : Taken s b b' k)
    (hb : b.WF) (hs : 0 < s) (hnil : b.view.ready.take k = []) : b.view.ready = [] := by
  have hs' : 0 < s.toNat := hs
  have hcount := htaken.count
  have havail := Iobuf.inAvail_eq hb
  rcases List.take_eq_nil_iff.1 hnil with h0 | h0
  · by_contra hne
    rw [if_neg hne] at havail
    have := List.length_pos_iff.2 hne
    omega
  · exact h0

theorem Taken.ready {s : UInt64} {b b' : Iobuf} {k : ℕ} (htaken : Taken s b b' k) :
    b.view.ready.take k ++ b'.view.ready = b.view.ready := by
  rw [htaken.view]
  exact List.take_append_drop k b.view.ready

theorem Taken.hidden {s : UInt64} {b b' : Iobuf} {k : ℕ} (htaken : Taken s b b' k) :
    b'.view.hidden = b.view.hidden := by
  rw [htaken.view]
  rfl

theorem Taken.pending {s : UInt64} {b b' : Iobuf} {k : ℕ} (htaken : Taken s b b' k) :
    b.view.ready.take k ++ b'.view.pending = b.view.pending := by
  rw [Window.pending, ← List.append_assoc, htaken.ready, htaken.hidden, Window.pending]

/-- After the plugin was asked, a prefix of what is ready is taken and returned. -/
theorem streamRead_filled {s : UInt64} {r₁ : Reader σ} (hfill : refill p s r = .ok () r₁)
    (hwf : r₁.out.buf.WF) :
    ∃ b k, Taken s r₁.out.buf b k ∧ streamRead p s r =
      .ok (r₁.out.buf.view.ready.take k) { r₁ with out := { r₁.out with buf := b } } := by
  have hpos := inAvail_nonneg hwf
  have hsize : toSizeT r₁.out.buf.inAvail = r₁.out.buf.inAvail := if_neg (by omega)
  set n := min r₁.out.buf.inAvail (s.toNat : ℤ) with hn
  have hget := Iobuf.sgetn_simulates n r₁.out.buf hwf
  unfold Window.xsgetn at hget
  rw [if_neg (by omega)] at hget
  obtain ⟨b, hb, hwf', hview⟩ := hget.ok_right
  refine ⟨b, n.toNat, ⟨hwf', hview, rfl⟩, ?_⟩
  simp only [streamRead, onBuf, onOut, onPart, bind_apply, get_apply, hfill, hsize, ← hn, hb]

/-- When the plugin has thrown nothing is taken. -/
theorem streamRead_threw {s : UInt64} {r₁ : Reader σ} {e : Exn}
    (hfill : refill p s r = .error e r₁) : streamRead p s r = .error e r₁ := by
  unfold streamRead
  rw [bind_apply, hfill]

/-- Everything one call of `streamRead` can do. -/
theorem streamRead_cases (p : ReaderPlugin σ) (s : UInt64) (hr : r.out.buf.WF) :
    (¬ r.Asks s ∧ ∃ b k, Taken s r.out.buf b k ∧ streamRead p s r =
      .ok (r.out.buf.view.ready.take k) { r with out := { r.out with buf := b } }) ∨
    (r.Asks s ∧
      ∃ o, Ostream.emitAll (p.read r.plugin (r.lengthFor s)).1 r.out = .ok () o ∧ o.buf.WF ∧
        ((∃ eof, (p.read r.plugin (r.lengthFor s)).2.1 = .ok eof ∧
            ∃ b k, Taken s o.buf b k ∧ streamRead p s r =
              .ok (o.buf.view.ready.take k) { filled p r s o with out := { o with buf := b } }) ∨
          ∃ e, (p.read r.plugin (r.lengthFor s)).2.1 = .error e ∧
            streamRead p s r = .error e (filled p r s o))) := by
  rcases refill_cases p s hr with
    ⟨hskip, hfill⟩ | ⟨hasks, o, hrun, hdoes, ⟨eof, heof, hfill⟩ | ⟨e, he, hfill⟩⟩
  · exact .inl ⟨hskip, streamRead_filled hfill hr⟩
  · exact .inr ⟨hasks, o, hrun, hdoes.wf, .inl ⟨eof, heof, streamRead_filled hfill hdoes.wf⟩⟩
  · exact .inr ⟨hasks, o, hrun, hdoes.wf, .inr ⟨e, he, streamRead_threw hfill⟩⟩

/-- What one call of `streamRead` does, in two parts: the calls of `read`, at most one, and what is
taken, unless one of them has thrown. -/
theorem streamRead_does (p : ReaderPlugin σ) (s : UInt64) (hr : r.out.buf.WF) :
    ∃ r₁ calls, r₁.reads = r.reads ++ calls ∧ Ostream.Does (emittedBy calls) r.out r₁.out ∧
      ((∃ b k, Taken s r₁.out.buf b k ∧ streamRead p s r =
          .ok (r₁.out.buf.view.ready.take k) { r₁ with out := { r₁.out with buf := b } }) ∨
        ∃ e, streamRead p s r = .error e r₁) := by
  have hone : ∀ c : ReadCall, emittedBy [c] = c.emits.flatMap Emit.bytes := fun c =>
    List.flatMap_singleton _ c
  rcases refill_cases p s hr with
    ⟨-, hfill⟩ | ⟨-, o, -, hdoes, ⟨eof, -, hfill⟩ | ⟨e, -, hfill⟩⟩
  · exact ⟨r, [], (List.append_nil _).symm, .refl hr, .inl (streamRead_filled hfill hr)⟩
  · exact ⟨filled p r s o, _, rfl, (hone _).symm ▸ hdoes,
      .inl (streamRead_filled hfill hdoes.wf)⟩
  · exact ⟨filled p r s o, _, rfl, (hone _).symm ▸ hdoes, .inr ⟨e, streamRead_threw hfill⟩⟩

/-- What holds in every session of the bytes handed out, the bytes in the buffer, and the bytes
emitted. -/
structure Accounted (alloc : Allocator) (h : History UInt64 (List UInt8) Exn) (r : Reader σ) :
    Prop where
  wf : r.out.buf.WF
  refusals : r.out.threw = false → alloc.refusals ≤ r.out.buf.alloc.refusals
  kept : r.out.threw = false → r.out.buf.alloc.refusals = alloc.refusals →
    r.out.bad = false ∧ received h ++ r.out.buf.view.pending = emitted r ∧
      r.out.buf.view.hidden.length = unpublished r.out.paths
  lost : r.out.threw = false → alloc.refusals < r.out.buf.alloc.refusals →
    (received h ++ r.out.buf.view.pending).length < (emitted r).length

/-- And nothing is ready when the last call has returned nothing. -/
structure Sound (alloc : Allocator) (h : History UInt64 (List UInt8) Exn) (r : Reader σ) : Prop
    extends Accounted alloc h r where
  ended : ∀ before s, h = before ++ [(s, .ok [])] → r.out.buf.view.ready = []

theorem new_sound (mem : ℤ → UInt8) (q : ℤ) (alloc : Allocator) (st : σ) :
    Sound alloc [] (new (Iobuf.new mem q alloc) st) where
  wf := Iobuf.new_wf mem q alloc
  refusals _ := le_rfl
  kept _ _ := by
    refine ⟨rfl, Iobuf.new_pending mem q alloc, ?_⟩
    rw [new, Iobuf.new_view]
    rfl
  lost _ h := absurd h (lt_irrefl _)
  ended before s h := by simp at h

theorem emittedBy_append (calls calls' : List ReadCall) :
    emittedBy (calls ++ calls') = emittedBy calls ++ emittedBy calls' := List.flatMap_append

theorem received_concat (h : History UInt64 (List UInt8) Exn) (s : UInt64) (t : List UInt8) :
    received (h ++ [(s, .ok t)]) = received h ++ t := by
  simp [received, returned, List.flatMap_append]

/-- A call that throws hands out nothing. -/
theorem received_threw (h : History UInt64 (List UInt8) Exn) (s : UInt64) (e : Exn) :
    received (h ++ [(s, .error e)]) = received h := by
  simp [received, returned, List.flatMap_append]

/-- The calls of `read`. -/
theorem Accounted.fill {r₁ : Reader σ} {calls : List ReadCall} (hr : Accounted alloc h r)
    (hreads : r₁.reads = r.reads ++ calls)
    (hdoes : Ostream.Does (emittedBy calls) r.out r₁.out) : Accounted alloc h r₁ := by
  have hemit : emitted r₁ = emitted r ++ emittedBy calls := by
    unfold emitted
    rw [hreads, emittedBy_append]
  refine ⟨hdoes.wf, fun ht => ?_, fun ht heq => ?_, fun ht hlt => ?_⟩
  · obtain ⟨t, hstores, -⟩ := hdoes.stores ht
    exact (hr.refusals (hdoes.threw ht)).trans hstores.refusals
  · -- nothing was refused: what was emitted stands behind what was pending
    obtain ⟨t, hstores, -, -, hall⟩ := hdoes.stores ht
    have hle := hr.refusals (hdoes.threw ht)
    have hle' : r.out.buf.alloc.refusals ≤ r₁.out.buf.alloc.refusals := hstores.refusals
    obtain ⟨hgood, hkept, hpub⟩ := hr.kept (hdoes.threw ht) (by omega)
    obtain ⟨rfl, hgood', hpub'⟩ := hall (by omega) hgood
    refine ⟨hgood', ?_, hpub' hpub⟩
    rw [hstores.pending, ← List.append_assoc, hkept, hemit]
  · obtain ⟨t, hstores, htle, hlost, -⟩ := hdoes.stores ht
    have hle := hr.refusals (hdoes.threw ht)
    have hsum : (emitted r ++ emittedBy calls).length =
        (emitted r).length + (emittedBy calls).length := List.length_append
    rw [hstores.pending, ← List.append_assoc, hemit, List.length_append, hsum]
    -- the loss is one of this call or of an earlier one
    rcases hle.eq_or_lt with heq | hgrew
    · obtain ⟨-, hkept, -⟩ := hr.kept (hdoes.threw ht) heq.symm
      rw [hkept]
      have := hlost (by omega)
      omega
    · have := hr.lost (hdoes.threw ht) hgrew
      omega

/-- What a call takes it hands out. -/
theorem Accounted.take {s : UInt64} {b : Iobuf} {k : ℕ} (hr : Accounted alloc h r)
    (htaken : Taken s r.out.buf b k) :
    Accounted alloc (h ++ [(s, .ok (r.out.buf.view.ready.take k))])
      { r with out := { r.out with buf := b } } := by
  have halloc : b.alloc.refusals = r.out.buf.alloc.refusals :=
    congrArg (fun w => w.alloc.refusals) htaken.view
  have hpending : received (h ++ [(s, .ok (r.out.buf.view.ready.take k))]) ++ b.view.pending =
      received h ++ r.out.buf.view.pending := by
    rw [received_concat, List.append_assoc, htaken.pending]
  refine ⟨htaken.wf, fun ht => (hr.refusals ht).trans_eq halloc.symm, fun ht heq => ?_,
    fun ht hlt => ?_⟩
  · obtain ⟨hgood, hkept, hpub⟩ := hr.kept ht (halloc.symm.trans heq)
    refine ⟨hgood, hpending.trans hkept, ?_⟩
    rw [htaken.view]
    exact hpub
  · have hlost := hr.lost ht (hlt.trans_eq halloc)
    rwa [← hpending] at hlost

theorem Accounted.threw (hr : Accounted alloc h r) (s : UInt64) (e : Exn) :
    Accounted alloc (h ++ [(s, .error e)]) r := by
  have hrec := received_threw h s e
  refine ⟨hr.wf, hr.refusals, ?_, ?_⟩ <;> rw [hrec]
  · exact hr.kept
  · exact hr.lost

/-- **One call of `streamRead` in a session.** -/
theorem streamRead_sound (hr : Sound alloc h r) {s : UInt64} (hs : 0 < s) :
    Sound alloc (h ++ [(s, outcome (streamRead p s r))]) (after (streamRead p s r)) := by
  obtain ⟨r₁, calls, hreads, hdoes, ⟨b, k, htaken, hrun⟩ | ⟨e, hrun⟩⟩ :=
    streamRead_does p s hr.wf <;>
    rw [hrun]
  · refine ⟨(hr.fill hreads hdoes).take htaken, fun before s' heq => ?_⟩
    have hlast := (List.append_inj' heq rfl).2
    simp only [outcome_ok, List.cons.injEq, Prod.mk.injEq, Except.ok.injEq, and_true] at hlast
    have hnil := htaken.ready_eq_nil hdoes.wf hs hlast.2
    rw [after_ok, htaken.view]
    simp only [Window.take, hnil, List.drop_nil]
  · refine ⟨(hr.fill hreads hdoes).threw s e, fun before s' heq => ?_⟩
    have hlast := (List.append_inj' heq rfl).2
    simp at hlast

theorem session_sound (hs : Session (object p) (new (Iobuf.new mem q alloc) st) h r) :
    Sound alloc h r :=
  hs.invariant (new_sound mem q alloc st) fun _ _ _ hr hc => streamRead_sound hr hc

/-- `write` never leaves a byte unpublished. -/
theorem emitAll_unpublished {es : List Emit} {o o' : Ostream} (hes : ∀ e ∈ es, ∃ s, e = .write s)
    (ho : unpublished o.paths = 0) (hrun : Ostream.emitAll es o = .ok () o') :
    unpublished o'.paths = 0 := by
  induction es generalizing o with
  | nil =>
    cases hrun
    exact ho
  | cons e es ih =>
    -- `write` takes the bulk path or goes through `overflow`
    obtain ⟨s, rfl⟩ := hes e List.mem_cons_self
    have hpath : unpublished (o.paths ++ [(Emit.write s).path o.buf]) = 0 := by
      rw [unpublished_concat, ho, Emit.path]
      split_ifs <;> rfl
    rw [Ostream.emitAll, bind_apply] at hrun
    have hes' : ∀ e ∈ es, ∃ s, e = .write s := fun e he => hes e (List.mem_cons_of_mem _ he)
    simp only [Ostream.emit] at hrun
    by_cases hbad : o.bad = true
    · rw [if_pos hbad] at hrun
      exact ih hes' ho hrun
    · rw [if_neg hbad] at hrun
      cases hwrite : (Emit.write s).run o.buf with
      | ok done b =>
        simp only [hwrite] at hrun
        refine ih hes' ?_ hrun
        exact hpath
      | error x b =>
        simp only [hwrite] at hrun
        by_cases hx : x.Fatal
        · simp only [if_pos hx] at hrun
          cases hrun
        · simp only [if_neg hx] at hrun
          refine ih hes' ?_ hrun
          exact hpath

/-- At the end of the data exactly the unpublished bytes are missing. -/
theorem Sound.received_iff (hr : Sound alloc h r) (hthrew : r.out.threw = false)
    (hend : Complete h r) :
    received h = emitted r ↔
      r.out.buf.alloc.refusals = alloc.refusals ∧ unpublished r.out.paths = 0 := by
  obtain ⟨-, before, s, hlast⟩ := hend
  have hready := hr.ended before s hlast
  have hpending : r.out.buf.view.pending = r.out.buf.view.hidden := by
    unfold Window.pending
    rw [hready, List.nil_append]
  constructor
  · intro heq
    have hsame : r.out.buf.alloc.refusals = alloc.refusals := by
      by_contra hne
      have hlost := hr.lost hthrew ((hr.refusals hthrew).lt_of_ne' hne)
      rw [heq, List.length_append] at hlost
      omega
    obtain ⟨-, hkept, hpub⟩ := hr.kept hthrew hsame
    rw [heq, List.append_right_eq_self, hpending] at hkept
    exact ⟨hsame, by rw [← hpub, hkept, List.length_nil]⟩
  · rintro ⟨hsame, hzero⟩
    obtain ⟨-, hkept, hpub⟩ := hr.kept hthrew hsame
    rw [hzero, List.length_eq_zero_iff] at hpub
    rwa [hpending, hpub, List.append_nil] at hkept

/-- **When a reader loses nothing.** -/
theorem streamRead_complete_iff (hs : Session (object p) (new (Iobuf.new mem q alloc) st) h r)
    (hthrew : r.out.threw = false) (hend : Complete h r) :
    received h = emitted r ↔
      r.out.buf.alloc.refusals = alloc.refusals ∧ Published r.out.paths := by
  rw [(session_sound hs).received_iff hthrew hend, unpublished_eq_zero_iff]

/-- A plugin that puts one byte and has come to the end of its data. -/
def putOne : ReaderPlugin Unit where
  read _ _ := ([.put 97], .ok true, ())

/-- The byte put by the fast path is in the buffer, and `streamRead` returns nothing. -/
theorem streamRead_putOne_loses :
    ∃ h r, Session (object putOne) (new (Iobuf.new (fun _ => 0) 0 ⟨fun _ => none, 0⟩) ()) h r ∧
      r.out.threw = false ∧ Complete h r ∧ received h ≠ emitted r := by
  have hpos : (0 : UInt64) < 1 := by decide
  have h₀ : Session (object putOne) (new (Iobuf.new (fun _ => 0) 0 ⟨fun _ => none, 0⟩) ()) [] _ :=
    .start
  have h₁ := h₀.returned (c := 1) (r := []) hpos (by simp [Object.Alive]) rfl
  exact ⟨_, _, h₁, rfl, ⟨rfl, [], 1, rfl⟩, by decide⟩

/-- A plugin that writes its bytes in one piece. -/
def writeTwo : ReaderPlugin Unit where
  read _ _ := ([.write [97, 98]], .ok true, ())

/-- Two calls of `streamRead` hand out what was written, and a third one nothing more. -/
theorem streamRead_writeTwo :
    ∃ h r, Session (object writeTwo) (new (Iobuf.new (fun _ => 0) 0 ⟨fun _ => none, 0⟩) ()) h r ∧
      Complete h r ∧ (received h = emitted r ↔
        r.out.buf.alloc.refusals = 0 ∧ Published r.out.paths) := by
  have hpos : (0 : UInt64) < 1 := by decide
  have h₀ : Session (object writeTwo) (new (Iobuf.new (fun _ => 0) 0 ⟨fun _ => none, 0⟩) ()) [] _ :=
    .start
  have h₁ := h₀.returned (c := 1) (r := [97]) hpos (by simp [Object.Alive]) rfl
  have h₂ := h₁.returned (c := 1) (r := [98]) hpos (by simp [Object.Alive]) rfl
  have h₃ := h₂.returned (c := 1) (r := []) hpos (by simp [Object.Alive]) rfl
  exact ⟨_, _, h₃, ⟨rfl, _, 1, rfl⟩, streamRead_complete_iff h₃ rfl ⟨rfl, _, 1, rfl⟩⟩

end Reader

end Libgpsfile2
