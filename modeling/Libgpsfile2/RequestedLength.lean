import Libgpsfile2.DatahandlerReader

/-!
# The length `streamRead` asks for

When `s - in_avail ()` bytes are missing `streamRead` asks the plugin for `in_avail () - s` bytes.
Both differences are taken in `std::size_t`, so that the plugin is asked for `2 ^ 64` less the
number of the missing bytes (`ReadCall.Wrapped`). A size from `2 ^ 63` on is negative as a
`std::streamsize`, and nothing is asked for at all.

`serves_iff_zero`: a session asks for what is missing, and returns less than it was asked for at
the end of the file only, exactly when all its sizes are zero.
-/

namespace Libgpsfile2

/-- The contract of `read`: it writes at least `len` bytes, unless it returns true to signal the
end of the file. -/
def ReaderPlugin.Honours {σ : Type} (p : ReaderPlugin σ) : Prop :=
  ∀ st len, (p.read st len).2.1 ≠ .ok true → len ≤ ((p.read st len).1.flatMap Emit.bytes).length

/-- `read` was asked for the bytes that were missing. -/
def ReadCall.AsksForMissing (c : ReadCall) : Prop :=
  c.len = c.size - c.avail ∧ 0 < c.len ∧ c.len ≤ c.size

/-- `read` was asked for `2 ^ 64` bytes less those that were missing. -/
structure ReadCall.Wrapped (c : ReadCall) : Prop where
  len : c.len = 2 ^ 64 - (c.size - c.avail)
  avail : 0 ≤ c.avail
  missing : c.avail < c.size
  size : c.size < 2 ^ 63

theorem ReadCall.Wrapped.not_asksForMissing {c : ReadCall} (hc : c.Wrapped) :
    ¬ c.AsksForMissing := by
  rintro ⟨hlen, -, -⟩
  have := hc.len
  have := hc.avail
  have := hc.size
  omega

namespace Reader

variable {σ : Type} {p : ReaderPlugin σ} {r : Reader σ} {mem : ℤ → UInt8} {q : ℤ}
  {alloc : Allocator} {st : σ} {h : History UInt64 (List UInt8) Exn} {s : UInt64}

/-- The calls of a reader, with any sizes. -/
def anySize (p : ReaderPlugin σ) : Object UInt64 (List UInt8) Exn (Reader σ) where
  call := streamRead p
  permitted _ _ := True
  fatal := Exn.Fatal

/-- The plugin has signalled the end of the file. -/
def Signalled (r : Reader σ) : Prop := ∃ c ∈ r.reads, c.result = .ok true

/-- What a call of `streamRead` should do: `read` is asked for the bytes that are missing, and
fewer bytes than `s` are returned only at the end of the file. -/
def Serves (p : ReaderPlugin σ) (r : Reader σ) (s : UInt64) : Prop :=
  (∀ c ∈ (after (streamRead p s r)).reads, c.AsksForMissing) ∧
    ∀ t, outcome (streamRead p s r) = .ok t → t.length < s.toNat →
      Signalled (after (streamRead p s r))

/-! ### What `read` is asked for -/

theorem lengthFor_wrapped (hr : r.out.buf.WF) (hc : r.out.buf.inAvail < toStreamsize s)
    (emits : List Emit) (result : Except Exn Bool) :
    ReadCall.Wrapped ⟨s.toNat, r.out.buf.inAvail, r.lengthFor s, emits, result⟩ := by
  have havail := inAvail_nonneg hr
  obtain ⟨hmissing, hsmall⟩ := (lt_toStreamsize_iff havail s).1 hc
  refine ⟨?_, havail, hmissing, by simpa using hsmall⟩
  simp only [lengthFor, toSizeT, if_neg (not_lt.2 havail)]
  omega

/-- Every call of `read` in a session was asked for the wrapped length. -/
structure AllWrapped (r : Reader σ) : Prop where
  wf : r.out.buf.WF
  reads : ∀ c ∈ r.reads, c.Wrapped

/-- The call of `read` is recorded, whether it returns or throws. -/
theorem reads_filled (hr : AllWrapped r) (hasks : r.Asks s) (o : Ostream) :
    ∀ c ∈ (filled p r s o).reads, c.Wrapped := by
  intro c hmem
  rcases List.mem_append.1 hmem with hold | hnew
  · exact hr.reads c hold
  · rw [List.mem_singleton.1 hnew]
    exact lengthFor_wrapped hr.wf hasks.1 _ _

theorem streamRead_wrapped (p : ReaderPlugin σ) (s : UInt64) (hr : AllWrapped r) :
    AllWrapped (after (streamRead p s r)) := by
  rcases streamRead_cases p s hr.wf with
    ⟨-, b, k, htaken, hrun⟩ |
    ⟨hasks, o, -, hwf, ⟨eof, -, b, k, htaken, hrun⟩ | ⟨e, -, hrun⟩⟩ <;> rw [hrun]
  · exact ⟨htaken.wf, hr.reads⟩
  · exact ⟨htaken.wf, reads_filled hr hasks o⟩
  · exact ⟨hwf, reads_filled hr hasks o⟩

/-- **The plugin is never asked for what is missing.** -/
theorem session_wrapped (hs : Session (anySize p) (new (Iobuf.new mem q alloc) st) h r) :
    AllWrapped r :=
  hs.invariant (I := fun _ r => AllWrapped r)
    ⟨Iobuf.new_wf mem q alloc, fun _ hc => absurd hc List.not_mem_nil⟩
    fun _ _ s hr _ => streamRead_wrapped p s hr

/-! ### Which calls are served -/

/-- A reader whose plugin was not asked for anything yet. -/
structure Idle (r : Reader σ) : Prop where
  wf : r.out.buf.WF
  reads : r.reads = []
  unfinished : r.readFinished = false
  empty : r.out.buf.view.pending = []

theorem new_idle (mem : ℤ → UInt8) (q : ℤ) (alloc : Allocator) (st : σ) :
    Idle (new (Iobuf.new mem q alloc) st) where
  wf := Iobuf.new_wf mem q alloc
  reads := rfl
  unfinished := rfl
  empty := Iobuf.new_pending mem q alloc

theorem Idle.inAvail (hr : Idle r) : r.out.buf.inAvail = 0 := inAvail_of_pending hr.wf hr.empty

theorem Idle.asks_iff (hr : Idle r) : r.Asks s ↔ 0 < toStreamsize s := by
  unfold Asks
  rw [hr.inAvail, hr.unfinished, and_iff_left rfl]

/-- A call that does not ask the plugin finds nothing to return. -/
theorem Idle.streamRead_skip (hr : Idle r) (hs : ¬ 0 < toStreamsize s) :
    ∃ r', streamRead p s r = .ok [] r' ∧ Idle r' := by
  rcases streamRead_cases p s hr.wf with ⟨-, b, k, htaken, hrun⟩ | ⟨hasks, -⟩
  · rw [(List.append_eq_nil_iff.1 hr.empty).1, List.take_nil] at hrun
    refine ⟨_, hrun, htaken.wf, hr.reads, hr.unfinished, ?_⟩
    exact (List.append_eq_nil_iff.1 (htaken.pending.trans hr.empty)).2
  · exact absurd (hr.asks_iff.1 hasks) hs

/-- A call that asks the plugin does not ask for what is missing. -/
theorem Idle.streamRead_reads (hr : Idle r) (hs : 0 < toStreamsize s) :
    ∃ c ∈ (after (streamRead p s r)).reads, c.Wrapped := by
  have hwrapped := streamRead_wrapped p s ⟨hr.wf, fun c hc => by simp [hr.reads] at hc⟩
  have hlast : ∀ o, ∃ c, c ∈ (filled p r s o).reads := fun o =>
    ⟨_, List.mem_append_right _ List.mem_cons_self⟩
  rcases streamRead_cases p s hr.wf with
    ⟨hskip, -⟩ | ⟨-, o, -, -, ⟨eof, -, b, k, -, hrun⟩ | ⟨e, -, hrun⟩⟩
  · exact absurd (hr.asks_iff.2 hs) hskip
  · rw [hrun] at hwrapped ⊢
    obtain ⟨c, hc⟩ := hlast o
    exact ⟨c, hc, hwrapped.reads c hc⟩
  · rw [hrun] at hwrapped ⊢
    obtain ⟨c, hc⟩ := hlast o
    exact ⟨c, hc, hwrapped.reads c hc⟩

/-- The call of a reader that was not asked for anything is served when it asks for nothing. -/
theorem Idle.serves_iff (hr : Idle r) : Serves p r s ↔ s = 0 := by
  have hzero : ¬ 0 < toStreamsize 0 := by decide
  constructor
  · rintro ⟨hasks, hreturns⟩
    by_cases hs : 0 < toStreamsize s
    · obtain ⟨c, hmem, hc⟩ := hr.streamRead_reads (p := p) hs
      exact absurd (hasks c hmem) hc.not_asksForMissing
    · -- nothing was asked for, and nothing is returned
      obtain ⟨r', hrun, hr'⟩ := hr.streamRead_skip (p := p) hs
      rw [hrun] at hreturns
      by_contra hne
      have hpos : 0 < s.toNat := Nat.pos_of_ne_zero fun h => hne (UInt64.toNat_inj.1 h)
      obtain ⟨c, hmem, -⟩ := hreturns [] rfl hpos
      rw [after_ok, hr'.reads] at hmem
      exact List.not_mem_nil hmem
  · rintro rfl
    obtain ⟨r', hrun, hr'⟩ := hr.streamRead_skip (p := p) hzero
    unfold Serves
    rw [hrun]
    refine ⟨fun c hc => ?_, fun t _ ht => absurd ht (Nat.not_lt_zero _)⟩
    rw [after_ok, hr'.reads] at hc
    exact absurd hc List.not_mem_nil

/-- As long as nothing is asked for the reader stays as it is. -/
theorem session_idle (hs : Session (anySize p) (new (Iobuf.new mem q alloc) st) h r)
    (hzero : ∀ x ∈ h, x.1 = 0) : Idle r := by
  induction hs with
  | start => exact new_idle mem q alloc st
  | @call h r s hs _ _ ih =>
    have hr := ih fun x hx => hzero x (List.mem_append_left _ hx)
    obtain rfl : s = 0 := hzero _ (List.mem_append_right _ List.mem_cons_self)
    obtain ⟨r', hrun, hr'⟩ := hr.streamRead_skip (p := p) (s := 0) (by decide)
    show Idle (after (streamRead p 0 r))
    rwa [hrun]

/-- **When `streamRead` asks for what is missing**: whatever the plugin does, every call of a
session is served exactly when all of them ask for nothing. -/
theorem serves_iff_zero (hs : Session (anySize p) (new (Iobuf.new mem q alloc) st) h r) :
    (anySize p).EachCall (new (Iobuf.new mem q alloc) st) h (Serves p) ↔ ∀ x ∈ h, x.1 = 0 := by
  induction hs with
  | start => exact iff_of_true Object.eachCall_nil fun x hx => absurd hx List.not_mem_nil
  | @call h r s hs _ _ ih =>
    rw [hs.eachCall_concat, ih, List.forall_mem_append, List.forall_mem_singleton]
    exact and_congr_right fun hzero => (session_idle hs hzero).serves_iff

/-- A plugin that writes two bytes and signals the end of the file is asked for `2 ^ 64 - 1` bytes
when one is missing. -/
theorem serves_not_one :
    writeTwo.Honours ∧
      ∃ r, Session (anySize writeTwo) (new (Iobuf.new (fun _ => 0) 0 ⟨fun _ => none, 0⟩) ())
          [(1, .ok [97])] r ∧
        r.reads.map ReadCall.len = [2 ^ 64 - 1] ∧
        ¬ (anySize writeTwo).EachCall (new (Iobuf.new (fun _ => 0) 0 ⟨fun _ => none, 0⟩) ())
          [(1, .ok [97])] (Serves writeTwo) := by
  have h₀ : Session (anySize writeTwo)
      (new (Iobuf.new (fun _ => 0) 0 ⟨fun _ => none, 0⟩) ()) [] _ := .start
  have h₁ := h₀.returned (c := 1) (r := [97]) trivial (by simp [Object.Alive]) rfl
  refine ⟨fun st len hno => absurd hno (by simp [writeTwo]), _, h₁, by decide, fun hall => ?_⟩
  have hserved := hall [] 1 _ [] _ rfl h₀
  exact absurd ((new_idle _ _ _ ()).serves_iff.1 hserved) (by decide)

/-- A call that asks for nothing. -/
theorem serves_zero :
    ∃ r, Session (anySize writeTwo) (new (Iobuf.new (fun _ => 0) 0 ⟨fun _ => none, 0⟩) ())
        [(0, .ok [])] r ∧
      (anySize writeTwo).EachCall (new (Iobuf.new (fun _ => 0) 0 ⟨fun _ => none, 0⟩) ())
        [(0, .ok [])] (Serves writeTwo) := by
  have h₀ : Session (anySize writeTwo)
      (new (Iobuf.new (fun _ => 0) 0 ⟨fun _ => none, 0⟩) ()) [] _ := .start
  have h₁ := h₀.returned (c := 0) (r := []) trivial (by simp [Object.Alive]) rfl
  exact ⟨_, h₁, (serves_iff_zero h₁).2 fun x hx => by simp at hx; rw [hx]⟩

end Reader

end Libgpsfile2
