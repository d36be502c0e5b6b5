import Libgpsfile2.DatahandlerPlain

/-!
# What the plain reader truncates

The plain reader writes the string of its provider in one bulk put and reports the end of the file.
When the put throws, the stream swallows the exception, and the caller of `streamRead` sees a
shorter string and an ordinary end of file.

The bulk put works on an empty buffer, of which nothing was consumed. So it is known which bytes go
through `overflow`: as many of the first bytes as are needed to make room for the rest, and each of
them needs a `realloc` (`Window.overflows`). The string is stored as a whole exactly when these
bytes are ASCII bytes and these calls of `realloc` succeed (`Window.Fits`).

`whole_or_throws_iff`: no string is cut without an exception if and only if it is empty, or it fits
and some call asks for less than `2 ^ 63` bytes.
-/

namespace Libgpsfile2

namespace Window

variable {w : Window} {s : List UInt8} {c : UInt8} {n room : ℕ} {alloc : Allocator}

/-- How many of `n` bytes go through `overflow` when there is room for `room` bytes and nothing was
consumed: `overflow` makes room for 1024 bytes and takes one of them itself. -/
def overflows (n room : ℕ) : ℕ := (n - room + 1023) / 1024

/-- The bytes that go through `overflow` are ASCII bytes, and no `realloc` is refused. -/
def Fits (s : List UInt8) (room : ℕ) (alloc : Allocator) : Prop :=
  (∀ c ∈ s.take (overflows s.length room), c.toNat < 128) ∧
    ∀ i < overflows s.length room, alloc.answers i ≠ none

theorem overflows_of_le (h : n ≤ room) : overflows n room = 0 := by
  unfold overflows
  omega

theorem overflows_succ (h : room ≤ n) : overflows (n + 1) room = overflows n (room + 1023) + 1 := by
  unfold overflows
  omega

theorem fits_of_le (h : s.length ≤ room) : Fits s room alloc := by
  unfold Fits
  rw [overflows_of_le h, List.take_zero]
  exact ⟨fun c hc => absurd hc List.not_mem_nil, fun i hi => absurd hi (Nat.not_lt_zero i)⟩

/-- The first byte goes through `overflow`. -/
theorem fits_cons_iff (h : ¬ (c :: s).length ≤ room) :
    Fits (c :: s) room alloc ↔
      (c.toNat < 128 ∧ alloc.answers 0 ≠ none) ∧ Fits s (room + 1023) alloc.next := by
  rw [List.length_cons] at h
  unfold Fits
  rw [List.length_cons, overflows_succ (by omega), List.take_succ_cons, List.forall_mem_cons,
    Nat.forall_lt_succ_left]
  exact and_and_and_comm

/-- What a bulk put leaves behind, byte by byte. -/
theorem after_xsputn_cons (c : UInt8) (s : List UInt8) (w : Window) :
    after (xsputn (c :: s) w) =
      if (c :: s).length ≤ w.room then w.append (c :: s)
      else if w.Refuses then if c = 255 then after (xsputn s w.refused) else w.refused
      else if c.toNat < 128 then after (xsputn s (w.makeRoom.push c))
      else w.makeRoom.push c := by
  unfold xsputn
  rw [xsputnLoop]
  split_ifs
  · rfl
  · cases xsputnLoop s w.refused <;> rfl
  · rfl
  · cases xsputnLoop s (w.makeRoom.push c) <;> rfl
  · rfl

/-- A bulk put never stores more bytes than it was given. -/
theorem length_xsputn_le (s : List UInt8) (w : Window) :
    (after (xsputn s w)).pending.length ≤ w.pending.length + s.length := by
  induction s generalizing w with
  | nil => exact (congrArg List.length (stores_append [] w).pending).le.trans (by simp)
  | cons c s ih =>
    rw [after_xsputn_cons, List.length_cons]
    split_ifs with hroom href h255 hascii
    · rw [(stores_append (c :: s) w).pending, List.length_append, List.length_cons]
    · exact (ih w.refused).trans (Nat.add_le_add_left (Nat.le_succ _) _)
    · exact Nat.le_add_right _ _
    · have hpush := congrArg List.length (stores_overflow c w href).1.pending
      rw [List.length_append, List.length_singleton] at hpush
      have := ih (w.makeRoom.push c)
      omega
    · rw [(stores_overflow c w href).1.pending, List.length_append, List.length_singleton]
      omega

/-- **When a bulk put on an unconsumed buffer stores everything**, whether it returns or throws. -/
theorem pending_xsputn_iff (hbehind : w.behind = []) (hroom : 0 < w.room) (s : List UInt8) :
    (after (xsputn s w)).pending = w.pending ++ s ↔ Fits s w.room w.alloc := by
  induction s generalizing w with
  | nil => exact iff_of_true (stores_append [] w).pending (fits_of_le (Nat.zero_le _))
  | cons c s ih =>
    rw [after_xsputn_cons]
    by_cases hfit : (c :: s).length ≤ w.room
    · rw [if_pos hfit]
      exact iff_of_true (stores_append (c :: s) w).pending (fits_of_le hfit)
    · rw [if_neg hfit, fits_cons_iff hfit]
      by_cases href : w.Refuses
      · -- the byte is not stored, and no later one makes up for it
        rw [if_pos href]
        refine iff_of_false (fun heq => ?_) fun h => h.1.2 href.2
        have hlen := congrArg List.length heq
        rw [List.length_append, List.length_cons] at hlen
        split_ifs at hlen
        · have hle := length_xsputn_le s w.refused
          rw [pending_refused] at hle
          omega
        · rw [pending_refused] at hlen
          omega
      · have hanswer : w.alloc.answers 0 ≠ none := fun h => href ⟨hbehind, h⟩
        have hpush := (stores_overflow c w href).1.pending
        rw [if_neg href]
        by_cases hascii : c.toNat < 128
        · have hgrow : w.makeRoom.push c = w.grow.push c := by rw [makeRoom, if_pos hbehind]
          have hnext := ih (w := w.makeRoom.push c) (by rw [hgrow]; exact hbehind)
            (by rw [hgrow]; exact Nat.succ_pos _)
          rw [if_pos hascii, and_iff_right ⟨hascii, hanswer⟩]
          rw [hpush, List.append_assoc, List.singleton_append, hgrow] at hnext
          rw [hgrow]
          exact hnext
        · -- the exception comes before the last byte
          rw [if_neg hascii, hpush]
          refine iff_of_false (fun heq => ?_) fun h => hascii h.1.1
          have hlen := congrArg List.length heq
          simp only [List.length_append, List.length_cons, List.length_nil] at hlen hfit
          omega

end Window

namespace DatahandlerPlainReader

variable {π : Type} {dp : ProviderReaderBase π} {mem : ℤ → UInt8} {q : ℤ} {alloc : Allocator}
  {st : π} {h : History UInt64 (List UInt8) Exn} {r : Reader π} {s : UInt64}

/-! ### What reaches the caller -/

/-- `ostream::write` on a stream that is good: what is in the buffer afterwards does not depend on
whether the put returned or threw. -/
theorem emitAll_write {o o' : Ostream} {data : List UInt8} (hwf : o.buf.WF) (hgood : o.bad = false)
    (hrun : Ostream.emitAll [.write data] o = .ok () o') :
    o'.buf.view = after (Window.xsputn data o.buf.view) := by
  have hsim := Iobuf.sputn_simulates data o.buf hwf
  have hbad : ¬ o.bad = true := by simp [hgood]
  simp only [Ostream.emitAll, Ostream.emit, Emit.run, bind_apply, pure_apply, if_neg hbad] at hrun
  cases hw : Window.xsputn data o.buf.view with
  | ok n w =>
    rw [hw] at hsim
    obtain ⟨b, hb, -, hview⟩ := hsim.ok_right
    rw [hb] at hrun
    cases hrun
    exact hview
  | error e w =>
    rw [hw] at hsim
    obtain ⟨b, hb, -, hview⟩ := hsim.error_right
    have hfatal : ¬ Window.wrongCharacter.Fatal := id
    rw [Window.xsputn_error hw] at hb
    simp only [hb, if_neg hfatal] at hrun
    cases hrun
    exact hview

/-- A session of a plain reader that began with the window `w`. As long as nothing was asked for
the sizes have been too large; afterwards `t` is handed out. -/
structure HandsOut (st : π) (w : Window) (t : List UInt8) (h : History UInt64 (List UInt8) Exn)
    (r : Reader π) : Prop where
  wf : r.out.buf.WF
  returns : ∀ x ∈ h, ∃ s, x.2 = .ok s
  unread : r.readFinished = false → r.plugin = st ∧ r.out.bad = false ∧ r.out.buf.view = w ∧
    Reader.received h = [] ∧ ∀ x ∈ h, ¬ x.1.toNat < 2 ^ 63
  read : r.readFinished = true → r.out.buf.view.hidden = [] ∧
    Reader.received h ++ r.out.buf.view.ready = t ∧ ∃ x ∈ h, x.1.toNat < 2 ^ 63

/-- What a plain reader hands out that began with the window `w`. -/
def stored (dp : ProviderReaderBase π) (st : π) (w : Window) : List UInt8 :=
  (after (Window.xsputn (dp.getData st) w)).pending

theorem HandsOut.returns_concat {w : Window} {t : List UInt8} (hr : HandsOut st w t h r)
    (s : UInt64) (t' : List UInt8) : ∀ x ∈ h ++ [(s, .ok t')], ∃ s, x.2 = .ok s := by
  rw [List.forall_mem_append, List.forall_mem_singleton]
  exact ⟨hr.returns, t', rfl⟩

/-- A call for too many bytes, or one after the string was written. -/
theorem HandsOut.skip {w : Window} {t : List UInt8} {b : Iobuf} {k : ℕ} (hempty : w.pending = [])
    (hr : HandsOut st w t h r) (hs : 0 < s) (htaken : Reader.Taken s r.out.buf b k)
    (hskip : ¬ r.Asks s) :
    HandsOut st w t (h ++ [(s, .ok (r.out.buf.view.ready.take k))])
      { r with out := { r.out with buf := b } } := by
  have hrec := Reader.received_concat h s (r.out.buf.view.ready.take k)
  refine ⟨htaken.wf, hr.returns_concat s _, fun hno => ?_, fun hyes => ?_⟩
  · obtain ⟨hst, hgood, hw, hnone, hlarge⟩ := hr.unread hno
    have hpending : r.out.buf.view.pending = [] := hw ▸ hempty
    have havail := Reader.inAvail_of_pending hr.wf hpending
    have hcount := htaken.count
    rw [havail, min_eq_left (Int.natCast_nonneg _), Int.toNat_zero] at hcount
    subst hcount
    refine ⟨hst, hgood, htaken.view.trans hw, ?_, ?_⟩
    · rw [hrec, hnone, (List.append_eq_nil_iff.1 hpending).1]
      rfl
    · rw [List.forall_mem_append, List.forall_mem_singleton]
      refine ⟨hlarge, fun hlt => hskip ⟨?_, hno⟩⟩
      rw [havail, lt_toStreamsize_iff le_rfl]
      exact ⟨Int.natCast_pos.2 hs, hlt⟩
  · obtain ⟨hhidden, hhanded, x, hx, hsmall⟩ := hr.read hyes
    refine ⟨htaken.hidden.trans hhidden, ?_, x, List.mem_append_left _ hx, hsmall⟩
    rw [hrec, List.append_assoc]
    exact (congrArg (Reader.received h ++ ·) htaken.ready).trans hhanded

/-- The call of `read` puts what is stored of the string into the get area. -/
theorem HandsOut.written {w : Window} {t : List UInt8} {o : Ostream} {len : ℤ}
    (hempty : w.pending = []) (hr : HandsOut st w t h r) (hopen : r.readFinished = false)
    (hrun : Ostream.emitAll ((plugin dp).read r.plugin len).1 r.out = .ok () o) :
    o.buf.view.hidden = [] ∧ o.buf.view.ready = stored dp st w := by
  obtain ⟨hst, hgood, hw, -⟩ := hr.unread hopen
  have hafter := emitAll_write hr.wf hgood hrun
  have hhidden : o.buf.view.hidden = [] := by
    rw [hafter, hw]
    exact Window.xsputn_hidden_nil (List.append_eq_nil_iff.1 hempty).2
  refine ⟨hhidden, ?_⟩
  unfold stored
  rw [← hst, ← hw, ← hafter, Window.pending, hhidden, List.append_nil]

/-- The call that writes the string. -/
theorem HandsOut.write {w : Window} {o : Ostream} {b : Iobuf} {k : ℕ} (hempty : w.pending = [])
    (hr : HandsOut st w (stored dp st w) h r) (htaken : Reader.Taken s o.buf b k)
    (hasks : r.Asks s)
    (hrun : Ostream.emitAll ((plugin dp).read r.plugin (r.lengthFor s)).1 r.out = .ok () o) :
    HandsOut st w (stored dp st w) (h ++ [(s, .ok (o.buf.view.ready.take k))])
      { Reader.filled (plugin dp) r s o with out := { o with buf := b } } := by
  obtain ⟨-, -, -, hnone, -⟩ := hr.unread hasks.2
  obtain ⟨hhidden, hready⟩ := hr.written hempty hasks.2 hrun
  obtain ⟨-, hsmall⟩ := (lt_toStreamsize_iff (Reader.inAvail_nonneg hr.wf) s).1 hasks.1
  refine ⟨htaken.wf, hr.returns_concat s _, fun hno => (by cases hno),
    fun _ => ⟨?_, ?_, _, List.mem_concat_self, hsmall⟩⟩
  · exact htaken.hidden.trans hhidden
  · rw [Reader.received_concat, hnone, List.nil_append]
    exact htaken.ready.trans hready

/-- **One call of `streamRead` on a plain reader.** -/
theorem streamRead_handsOut {w : Window} (hempty : w.pending = [])
    (hr : HandsOut st w (stored dp st w) h r) (hs : 0 < s) :
    HandsOut st w (stored dp st w)
      (h ++ [(s, outcome (Reader.streamRead (plugin dp) s r))])
      (after (Reader.streamRead (plugin dp) s r)) := by
  rcases Reader.streamRead_cases (plugin dp) s hr.wf with
    ⟨hskip, b, k, htaken, hrun⟩ |
    ⟨hasks, o, hemit, -, ⟨eof, -, b, k, htaken, hrun⟩ | ⟨e, he, -⟩⟩
  · rw [hrun]
    exact hr.skip hempty hs htaken hskip
  · rw [hrun]
    exact hr.write hempty htaken hasks hemit
  · cases he

theorem new_handsOut (mem : ℤ → UInt8) (q : ℤ) (alloc : Allocator) (st : π) (t : List UInt8) :
    HandsOut st (Iobuf.new mem q alloc).view t [] (Reader.new (Iobuf.new mem q alloc) st) where
  wf := Iobuf.new_wf mem q alloc
  returns _ hx := absurd hx List.not_mem_nil
  unread _ := ⟨rfl, rfl, rfl, rfl, fun _ hx => absurd hx List.not_mem_nil⟩
  read h := absurd h (by simp [Reader.new])

theorem session_handsOut
    (hs : Session (Reader.object (plugin dp)) (Reader.new (Iobuf.new mem q alloc) st) h r) :
    HandsOut st (Iobuf.new mem q alloc).view (stored dp st (Iobuf.new mem q alloc).view) h r :=
  hs.invariant (new_handsOut mem q alloc st _) fun _ _ _ hr hc =>
    streamRead_handsOut (Iobuf.new_pending mem q alloc) hr hc

/-- The whole string is in a fresh buffer after the put exactly when it fits. -/
theorem stored_iff (dp : ProviderReaderBase π) (st : π) (mem : ℤ → UInt8) (q : ℤ)
    (alloc : Allocator) :
    stored dp st (Iobuf.new mem q alloc).view = dp.getData st ↔
      Window.Fits (dp.getData st) bufferStepSize.toNat alloc := by
  unfold stored
  rw [Iobuf.new_view]
  exact Window.pending_xsputn_iff (w := ⟨[], [], [], bufferStepSize.toNat, 0, alloc⟩) rfl
    (show 0 < bufferStepSize.toNat by decide) (dp.getData st)

/-- **When the plain reader does not truncate silently.** -/
theorem whole_or_throws_iff
    (hs : Session (Reader.object (plugin dp)) (Reader.new (Iobuf.new mem q alloc) st) h r)
    (hend : Reader.Ended h) :
    (Reader.received h = dp.getData st ∨ ∃ x ∈ h, ∃ e, x.2 = .error e) ↔
      dp.getData st = [] ∨ (∃ x ∈ h, x.1.toNat < 2 ^ 63) ∧
        Window.Fits (dp.getData st) bufferStepSize.toNat alloc := by
  have hsound := Reader.session_sound hs
  have hr := session_handsOut hs
  -- no call throws
  have hreturns : ¬ ∃ x ∈ h, ∃ e, x.2 = .error e := by
    rintro ⟨x, hx, e, he⟩
    obtain ⟨t, ht⟩ := hr.returns x hx
    rw [he] at ht
    cases ht
  rw [or_iff_left hreturns, ← stored_iff dp st mem q alloc]
  cases hread : r.readFinished with
  | false =>
    obtain ⟨-, -, -, hnone, hlarge⟩ := hr.unread hread
    have hno : ¬ ∃ x ∈ h, x.1.toNat < 2 ^ 63 := fun ⟨x, hx, hlt⟩ => hlarge x hx hlt
    rw [hnone, or_iff_left fun h => hno h.1, eq_comm]
  | true =>
    obtain ⟨before, s, hlast⟩ := hend
    obtain ⟨-, hhanded, hsmall⟩ := hr.read hread
    rw [hsound.ended before s hlast, List.append_nil] at hhanded
    rw [hhanded, and_iff_right hsmall]
    refine ⟨.inr, fun h => h.elim (fun hnil => ?_) id⟩
    rw [stored_iff, hnil]
    exact Window.fits_of_le (Nat.zero_le _)

/-! ### A string that is cut -/

/-- A call when everything was handed out. -/
theorem HandsOut.streamRead_nil (dp : ProviderReaderBase π) (s : UInt64) {w : Window}
    {t : List UInt8} (hr : HandsOut st w t h r) (hread : r.readFinished = true)
    (hready : r.out.buf.view.ready = []) :
    ∃ r', Reader.streamRead (plugin dp) s r = .ok [] r' := by
  rcases Reader.streamRead_cases (plugin dp) s hr.wf with ⟨-, b, k, -, hrun⟩ | ⟨hasks, -⟩
  · rw [hready, List.take_nil] at hrun
    exact ⟨_, hrun⟩
  · rw [hasks.2] at hread
    cases hread

/-- The first call of a session returns what was stored, when it asks for enough. -/
theorem streamRead_first (dp : ProviderReaderBase π) (st : π) (mem : ℤ → UInt8) (q : ℤ)
    (alloc : Allocator) (hs : 0 < s) (hsmall : s.toNat < 2 ^ 63) {t : List UInt8}
    (ht : stored dp st (Iobuf.new mem q alloc).view = t) (hlen : t.length ≤ s.toNat) :
    ∃ r, Reader.streamRead (plugin dp) s (Reader.new (Iobuf.new mem q alloc) st) = .ok t r ∧
      r.readFinished = true := by
  have hr := new_handsOut mem q alloc st t
  have hempty := Iobuf.new_pending mem q alloc
  rcases Reader.streamRead_cases (plugin dp) s hr.wf with
    ⟨hskip, -⟩ | ⟨-, o, hemit, hwf, ⟨eof, -, b, k, htaken, hrun⟩ | ⟨e, he, -⟩⟩
  · refine absurd ⟨?_, rfl⟩ hskip
    rw [Reader.inAvail_of_pending hr.wf hempty, lt_toStreamsize_iff le_rfl]
    exact ⟨Int.natCast_pos.2 hs, hsmall⟩
  · obtain ⟨hhidden, hready⟩ := hr.written hempty rfl hemit
    have hcount := htaken.count
    have havail : o.buf.inAvail = o.buf.view.ready.length := by
      rw [Iobuf.inAvail_eq hwf, hhidden]
      split_ifs with hnil
      · rw [hnil]
      · rfl
    rw [hready, ht] at havail
    rw [hready, ht, List.take_of_length_le (by omega)] at hrun
    exact ⟨_, hrun, rfl⟩
  · cases he

/-- Two calls that ask for enough hand out what was stored. -/
theorem two_calls (dp : ProviderReaderBase π) (st : π) (mem : ℤ → UInt8) (q : ℤ) (alloc : Allocator)
    (hs : 0 < s) (hsmall : s.toNat < 2 ^ 63) {t : List UInt8}
    (ht : stored dp st (Iobuf.new mem q alloc).view = t) (hlen : t.length ≤ s.toNat) :
    ∃ r, Session (Reader.object (plugin dp)) (Reader.new (Iobuf.new mem q alloc) st)
      [(s, .ok t), (s, .ok [])] r := by
  obtain ⟨r₁, hcall, hread⟩ := streamRead_first dp st mem q alloc hs hsmall ht hlen
  have h₀ : Session (Reader.object (plugin dp)) (Reader.new (Iobuf.new mem q alloc) st) [] _ :=
    .start
  have h₁ := h₀.returned (c := s) hs (by simp [Object.Alive]) hcall
  have hr := session_handsOut h₁
  obtain ⟨-, hhanded, -⟩ := hr.read hread
  rw [ht, List.nil_append, Reader.received, List.flatMap_singleton, Reader.returned,
    List.append_right_eq_self] at hhanded
  obtain ⟨r₂, hcall₂⟩ := hr.streamRead_nil dp s hread hhanded
  exact ⟨r₂, h₁.returned (c := s) hs (by simp [Object.Alive]) hcall₂⟩

/-- A string that is too long for a new buffer and begins with a byte that is not ASCII is cut
after this byte. -/
theorem stored_cut (dp : ProviderReaderBase π) (st : π) (mem : ℤ → UInt8) (q : ℤ)
    (alloc : Allocator) {c : UInt8} {cs : List UInt8} (hdata : dp.getData st = c :: cs)
    (hlong : bufferStepSize.toNat ≤ cs.length) (hc : ¬ c.toNat < 128)
    (hanswer : alloc.answers 0 ≠ none) :
    stored dp st (Iobuf.new mem q alloc).view = [c] := by
  have hfit : ¬ (c :: cs).length ≤ bufferStepSize.toNat := by
    rw [List.length_cons]
    omega
  rw [stored, hdata, Iobuf.new_view, Window.after_xsputn_cons, if_neg hfit,
    if_neg fun href => hanswer href.2, if_neg hc, (Window.stores_overflow c _ _).1.pending]
  · rfl
  · exact fun href => hanswer href.2

/-- A string of one byte more than fits into a new buffer, none of them ASCII: the first byte is
handed out, and then the end of the file. -/
theorem truncated_silently :
    ∃ r, Session (Reader.object (plugin textReader))
        (Reader.new (Iobuf.new (fun _ => 0) 4096 ⟨fun _ => some 4096, 0⟩)
          (200 :: List.replicate 1048576 200))
        [(1, .ok [200]), (1, .ok [])] r ∧
      Reader.Ended [(1, .ok [200]), (1, .ok [])] ∧
      ¬ (Reader.received [(1, .ok [200]), (1, .ok [])] = 200 :: List.replicate 1048576 200 ∨
        ∃ x ∈ [((1 : UInt64), (.ok [200] : Except Exn (List UInt8))), (1, .ok [])],
          ∃ e, x.2 = .error e) := by
  have hlong : bufferStepSize.toNat ≤ (List.replicate 1048576 (200 : UInt8)).length := by
    rw [List.length_replicate]
    decide
  have hcut := stored_cut textReader (200 :: List.replicate 1048576 200) (fun _ => 0) 4096
    ⟨fun _ => some 4096, 0⟩ rfl hlong (by decide) (by simp)
  obtain ⟨r, hs⟩ := two_calls textReader _ (fun _ => 0) 4096 ⟨fun _ => some 4096, 0⟩ (s := 1)
    (by decide) (by decide) hcut le_rfl
  refine ⟨r, hs, ⟨[(1, .ok [200])], 1, rfl⟩, ?_⟩
  rintro (hwhole | ⟨x, hx, e, he⟩)
  · have hlen := congrArg List.length hwhole
    rw [List.length_cons, List.length_replicate] at hlen
    cases hlen
  · rcases List.mem_cons.1 hx with rfl | hx
    · cases he
    · rw [List.mem_singleton.1 hx] at he
      cases he

/-- Two ASCII bytes. -/
theorem whole_text :
    ∃ r, Session (Reader.object (plugin textReader))
        (Reader.new (Iobuf.new (fun _ => 0) 0 ⟨fun _ => none, 0⟩) [97, 98])
        [(2, .ok [97, 98]), (2, .ok [])] r ∧
      (Reader.received [(2, .ok [97, 98]), (2, .ok [])] = [97, 98] ∨
        ∃ x ∈ [((2 : UInt64), (.ok [97, 98] : Except Exn (List UInt8))), (2, .ok [])],
          ∃ e, x.2 = .error e) := by
  have hfits : Window.Fits [97, 98] bufferStepSize.toNat ⟨fun _ => none, 0⟩ :=
    Window.fits_of_le (by decide)
  obtain ⟨r, hs⟩ := two_calls textReader [97, 98] (fun _ => 0) 0 ⟨fun _ => none, 0⟩ (s := 2)
    (by decide) (by decide) ((stored_iff _ _ _ _ _).2 hfits) le_rfl
  exact ⟨r, hs, (whole_or_throws_iff hs ⟨[(2, .ok [97, 98])], 2, rfl⟩).2
    (.inr ⟨⟨_, List.mem_cons_self, by decide⟩, hfits⟩)⟩

end DatahandlerPlainReader

end Libgpsfile2
