import Libgpsfile2.RequestedLength

/-!
# The end of the file

`read` signals the end of the file by returning true, or by writing fewer bytes than are missing,
also when it throws afterwards. `streamRead` remembers what `read` returned, and does not look at
what it wrote.

`end_sticky_iff`: after every signal of a session `read` is not called again, and the later calls
hand out what is left, exactly when after every short `read` that returned false or threw no later
call asks for more than is left (`Within`).
-/

namespace Libgpsfile2

namespace Reader

variable {σ : Type} {p : ReaderPlugin σ} {r r' : Reader σ} {mem : ℤ → UInt8} {q : ℤ}
  {alloc : Allocator} {st : σ} {h : History UInt64 (List UInt8) Exn} {s : UInt64}

/-- The call of `read` returns true. -/
def ReadsTrue (p : ReaderPlugin σ) (r : Reader σ) (s : UInt64) : Prop :=
  (p.read r.plugin (r.lengthFor s)).2.1 = .ok true

/-- The call of `read` writes fewer bytes than are missing, whether it returns or throws then. -/
def ReadsShort (p : ReaderPlugin σ) (r : Reader σ) (s : UInt64) : Prop :=
  (after (refill p s r)).out.buf.getNumPut - r.out.buf.getNumPut < s.toNat - r.out.buf.inAvail

/-- `read` is called and signals the end of the file. -/
def SignalsEnd (p : ReaderPlugin σ) (r : Reader σ) (s : UInt64) : Prop :=
  r.Asks s ∧ (ReadsTrue p r s ∨ ReadsShort p r s)

/-- `read` is called and signals the end of the file only by what it writes. -/
def SignalsShort (p : ReaderPlugin σ) (r : Reader σ) (s : UInt64) : Prop :=
  r.Asks s ∧ ReadsShort p r s ∧ ¬ ReadsTrue p r s

/-- Between `r` and `r'` `read` was not called, and the calls handed out bytes that were pending. -/
def OnlyHandsOut (r r' : Reader σ) (h : History UInt64 (List UInt8) Exn) : Prop :=
  r'.reads = r.reads ∧ received h ++ r'.out.buf.pendingBytes = r.out.buf.pendingBytes

/-- None of the sizes is more than `in_avail ()` when `ready` bytes lie before `egptr` and `hidden`
bytes behind it. From `2 ^ 63` on a size is negative in the comparison. -/
def Within (hidden : ℕ) : ℕ → List UInt64 → Prop
  | _, [] => True
  | ready, s :: later =>
      (s.toNat ≤ (if ready = 0 then hidden else ready) ∨ 2 ^ 63 ≤ s.toNat) ∧
        Within hidden (ready - s.toNat) later

theorem asks_iff (hr : r.out.buf.WF) :
    r.Asks s ↔ r.readFinished = false ∧ ¬ (s.toNat ≤ (if r.out.buf.view.ready.length = 0 then
      r.out.buf.view.hidden.length else r.out.buf.view.ready.length) ∨ 2 ^ 63 ≤ s.toNat) := by
  unfold Asks
  rw [lt_toStreamsize_iff (inAvail_nonneg hr), Iobuf.inAvail_eq hr, and_comm, not_or]
  refine and_congr_right fun _ => ?_
  by_cases hready : r.out.buf.view.ready = []
  · rw [if_pos hready, if_pos (List.length_eq_zero_iff.2 hready)]
    omega
  · rw [if_neg hready, if_neg fun h => hready (List.length_eq_zero_iff.1 h)]
    omega

/-- The calls of `read` are not forgotten. -/
theorem session_reads_grow {r₀ : Reader σ} (hs : Session (anySize p) r₀ h r)
    (h₀ : r₀.out.buf.WF) : r.out.buf.WF ∧ r₀.reads <+: r.reads := by
  refine hs.invariant (I := fun _ r => r.out.buf.WF ∧ r₀.reads <+: r.reads)
    ⟨h₀, List.prefix_rfl⟩ ?_
  rintro h r s ⟨hwf, hreads⟩ -
  show (after (streamRead p s r)).out.buf.WF ∧ r₀.reads <+: (after (streamRead p s r)).reads
  rcases streamRead_cases p s hwf with
    ⟨-, b, k, htaken, hrun⟩ |
    ⟨-, o, -, hwf', ⟨eof, -, b, k, htaken, hrun⟩ | ⟨e, -, hrun⟩⟩ <;> rw [hrun]
  · exact ⟨htaken.wf, hreads⟩
  · exact ⟨htaken.wf, hreads.trans (List.prefix_append _ _)⟩
  · exact ⟨hwf', hreads.trans (List.prefix_append _ _)⟩

/-- As many ready bytes are taken as were asked for, or all. -/
theorem Taken.ready_length {b b' : Iobuf} {k : ℕ} (htaken : Taken s b b' k) (hb : b.WF) :
    b'.view.ready.length = b.view.ready.length - s.toNat := by
  have hcount := htaken.count
  have havail := Iobuf.inAvail_eq hb
  have hlen : b'.view.ready.length = b.view.ready.length - k := by
    rw [htaken.view]
    exact List.length_drop
  by_cases hready : b.view.ready = []
  · rw [hlen, hready, List.length_nil, Nat.zero_sub, Nat.zero_sub]
  · rw [if_neg hready] at havail
    omega

/-- A call that does not call `read` hands out bytes that were pending. -/
theorem handsOut_cons {r₀ : Reader σ} (h₀ : r₀.out.buf.WF) {b : Iobuf} {k : ℕ}
    (htaken : Taken s r₀.out.buf b k) :
    OnlyHandsOut r₀ r ((s, .ok (r₀.out.buf.view.ready.take k)) :: h) ↔
      OnlyHandsOut { r₀ with out := { r₀.out with buf := b } } r h := by
  unfold OnlyHandsOut
  refine and_congr_right fun _ => ?_
  have hreceived : received ((s, .ok (r₀.out.buf.view.ready.take k)) :: h) =
      r₀.out.buf.view.ready.take k ++ received h := rfl
  rw [hreceived, h₀.pendingBytes_eq, htaken.wf.pendingBytes_eq, ← htaken.pending, List.append_assoc,
    List.append_right_inj]

/-- A call that calls `read`: only what it returned is remembered. -/
theorem streamRead_asks (hwf : r.out.buf.WF) (hask : r.Asks s) :
    (after (streamRead p s r)).out.buf.WF ∧
      (after (streamRead p s r)).reads.length = r.reads.length + 1 ∧
      ((after (streamRead p s r)).readFinished = true ↔ ReadsTrue p r s) := by
  unfold ReadsTrue
  rcases streamRead_cases p s hwf with
    ⟨hskip, -⟩ | ⟨-, o, -, hwf', ⟨eof, heof, b, k, htaken, hrun⟩ | ⟨e, he, hrun⟩⟩
  · exact absurd hask hskip
  · rw [hrun]
    refine ⟨htaken.wf, List.length_append, ?_⟩
    show finishes (p.read r.plugin (r.lengthFor s)).2.1 = true ↔ _
    rw [heof, finishes, Except.ok.injEq]
  · rw [hrun]
    refine ⟨hwf', List.length_append, ?_⟩
    show finishes (p.read r.plugin (r.lengthFor s)).2.1 = true ↔ _
    rw [he]
    exact iff_of_false (fun h => by cases h) fun h => by cases h

/-- **When `read` is not called again.** -/
theorem handsOut_iff {r₀ : Reader σ} (h₀ : r₀.out.buf.WF) (hs : Session (anySize p) r₀ h r) :
    OnlyHandsOut r₀ r h ↔ r₀.readFinished = true ∨
      Within r₀.out.buf.view.hidden.length r₀.out.buf.view.ready.length (h.map Prod.fst) := by
  induction h generalizing r₀ with
  | nil =>
    rw [hs.unique .start]
    exact iff_of_true ⟨rfl, rfl⟩ (.inr trivial)
  | cons y h ih =>
    obtain ⟨s, x⟩ := y
    obtain ⟨rfl, hrest⟩ := hs.head
    have hasks := asks_iff (s := s) h₀
    have hcall : (anySize p).call s r₀ = streamRead p s r₀ := rfl
    rw [hcall] at hrest ⊢
    rw [List.map_cons, Within]
    rcases streamRead_cases p s h₀ with ⟨hskip, b, k, htaken, hrun⟩ | ⟨hask, -⟩
    · rw [hrun, after_ok] at hrest
      rw [hrun, outcome_ok, handsOut_cons h₀ htaken, ih htaken.wf hrest]
      show r₀.readFinished = true ∨ Within b.view.hidden.length b.view.ready.length _ ↔ _
      rw [htaken.ready_length h₀, htaken.hidden]
      cases hfin : r₀.readFinished with
      | true => exact iff_of_true (.inl rfl) (.inl rfl)
      | false =>
        -- the size is not more than what is left
        have hsize := not_and_not_right.1 (hasks.not.1 hskip) hfin
        rw [and_iff_right hsize]
    · -- this call of `read` stays in the history
      obtain ⟨hwf, hgrew, -⟩ := streamRead_asks (p := p) h₀ hask
      have hlen := (session_reads_grow hrest hwf).2.length_le
      obtain ⟨hfin, hsize⟩ := hasks.1 hask
      refine iff_of_false (fun hsame => ?_) ?_
      · rw [hsame.1, hgrew] at hlen
        omega
      · rintro (htrue | hwithin)
        · rw [hfin] at htrue
          cases htrue
        · exact hsize hwithin.1

/-- **When the end of the file is sticky**: after every signal `read` is not called again and the
later calls hand out what is left. -/
theorem end_sticky_iff (hs : Session (anySize p) (new (Iobuf.new mem q alloc) st) h r) :
    (anySize p).AfterEach (new (Iobuf.new mem q alloc) st) h (SignalsEnd p)
        (fun r₁ later => OnlyHandsOut r₁ r later) ↔
      (anySize p).AfterEach (new (Iobuf.new mem q alloc) st) h (SignalsShort p) fun r₁ later =>
        Within r₁.out.buf.view.hidden.length r₁.out.buf.view.ready.length
          (later.map Prod.fst) := by
  -- what comes after a signal, in terms of what `read` returned
  have hafter : ∀ before s x later r₀, h = before ++ (s, x) :: later →
      Session (anySize p) (new (Iobuf.new mem q alloc) st) before r₀ → r₀.Asks s →
      (OnlyHandsOut (after ((anySize p).call s r₀)) r later ↔ ReadsTrue p r₀ s ∨
        Within (after ((anySize p).call s r₀)).out.buf.view.hidden.length
          (after ((anySize p).call s r₀)).out.buf.view.ready.length (later.map Prod.fst)) := by
    rintro before s x later r₀ rfl hs₀ hask
    have hwf := (session_wrapped hs₀).wf
    have hrest := (Session.rest hs hs₀).head.2
    obtain ⟨hwf', -, hfinished⟩ := streamRead_asks (p := p) hwf hask
    have hcall : (anySize p).call s r₀ = streamRead p s r₀ := rfl
    rw [hcall] at hrest ⊢
    rw [handsOut_iff hwf' hrest, hfinished]
  constructor
  · intro hall before s x later r₀ heq hs₀ hshort
    have hhands := hall before s x later r₀ heq hs₀ ⟨hshort.1, .inr hshort.2.1⟩
    exact ((hafter before s x later r₀ heq hs₀ hshort.1).1 hhands).resolve_left hshort.2.2
  · intro hall before s x later r₀ heq hs₀ hsignal
    refine (hafter before s x later r₀ heq hs₀ hsignal.1).2 ?_
    by_cases htrue : ReadsTrue p r₀ s
    · exact .inl htrue
    · have hshort := hsignal.2.resolve_left htrue
      exact .inr (hall before s x later r₀ heq hs₀ ⟨hsignal.1, hshort, htrue⟩)

/-- A plugin that writes one byte and throws. -/
def writeAndThrow : ReaderPlugin Unit where
  read _ _ := ([.write [97]], .error (.runtimeError ""), ())

/-- `read` wrote one byte of three and threw, and a later call asks for this byte. -/
theorem end_sticky_writeOne :
    ∃ r, Session (anySize writeAndThrow) (new (Iobuf.new (fun _ => 0) 0 ⟨fun _ => none, 0⟩) ())
        [(3, .error (.runtimeError "")), (1, .ok [97])] r ∧
      (anySize writeAndThrow).AfterEach (new (Iobuf.new (fun _ => 0) 0 ⟨fun _ => none, 0⟩) ())
        [(3, .error (.runtimeError "")), (1, .ok [97])] (SignalsEnd writeAndThrow)
        (fun r₁ later => OnlyHandsOut r₁ r later) := by
  have h₀ : Session (anySize writeAndThrow)
      (new (Iobuf.new (fun _ => 0) 0 ⟨fun _ => none, 0⟩) ()) [] _ := .start
  have h₁ := h₀.threw (c := 3) (e := .runtimeError "") trivial (by simp [Object.Alive]) rfl
  have h₂ := h₁.returned (c := 1) (r := [97]) trivial
    (by simp [Object.Alive, anySize, Exn.Fatal]) rfl
  refine ⟨_, h₂, (end_sticky_iff h₂).2 ?_⟩
  intro before s x later r₁ heq hs₁ hshort
  rcases before with _ | ⟨y, _ | ⟨z, before⟩⟩
  · cases heq
    rw [hs₁.unique .start]
    exact ⟨.inl le_rfl, trivial⟩
  · cases heq
    exact trivial
  · simp at heq

/-- A plugin that writes one byte at a time, and never returns true. -/
def writeOne : ReaderPlugin Unit where
  read _ _ := ([.write [97]], .ok false, ())

/-- `read` wrote one byte of three, and is called again. -/
theorem end_forgotten :
    ∃ r, Session (anySize writeOne) (new (Iobuf.new (fun _ => 0) 0 ⟨fun _ => none, 0⟩) ())
        [(3, .ok [97]), (3, .ok [97])] r ∧ r.reads.length = 2 ∧
      ¬ (anySize writeOne).AfterEach (new (Iobuf.new (fun _ => 0) 0 ⟨fun _ => none, 0⟩) ())
        [(3, .ok [97]), (3, .ok [97])] (SignalsEnd writeOne)
        (fun r₁ later => OnlyHandsOut r₁ r later) := by
  have h₀ : Session (anySize writeOne)
      (new (Iobuf.new (fun _ => 0) 0 ⟨fun _ => none, 0⟩) ()) [] _ := .start
  have h₁ := h₀.returned (c := 3) (r := [97]) trivial (by simp [Object.Alive]) rfl
  have h₂ := h₁.returned (c := 3) (r := [97]) trivial (by simp [Object.Alive]) rfl
  refine ⟨_, h₂, rfl, fun hall => ?_⟩
  have hask : (new (Iobuf.new (fun _ => 0) 0 ⟨fun _ => none, 0⟩) ()).Asks 3 := by
    refine ⟨?_, rfl⟩
    show (0 : ℤ) < 3
    decide
  have hshort : ReadsShort writeOne (new (Iobuf.new (fun _ => 0) 0 ⟨fun _ => none, 0⟩) ()) 3 := by
    show (1 : ℤ) - 0 < 3 - 0
    decide
  have hhands := hall [] 3 _ [(3, .ok [97])] _ rfl h₀ ⟨hask, .inr hshort⟩
  exact absurd (congrArg List.length hhands.1) (by decide)

end Reader

end Libgpsfile2
