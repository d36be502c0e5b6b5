import Libgpsfile2.Gpx.Imported

/-!
# Files in small chunks

Between two calls of `streamWrite` the buffer of a `GpxWriter` is empty, and its put position
stands somewhere in the block. A chunk that fits behind this position is appended. Another one,
unless it is longer than the block, makes `overflow` move the position back to the beginning, and
its first byte goes through the comparison of `xsputn`, which throws when it is not an ASCII byte.

So a file in chunks that are not longer than the block is imported without a call of `realloc`,
whatever `realloc` would answer, when no chunk with such a first byte meets the end of the block
(`Clean`); a file of ASCII bytes always is.
-/

namespace Libgpsfile2

namespace Window

variable {w : Window} {room : ℕ} {c : UInt8} {s : List UInt8}

/-- Nothing is pending in a block of the size it had at the start, and there is `room` in it. -/
structure Drained (room : ℕ) (w : Window) : Prop where
  ready : w.ready = []
  hidden : w.hidden = []
  room_eq : w.room = room
  size : w.behind.length + room = bufferStepSize.toNat

/-- The room after a chunk: the position is moved back when the chunk does not fit. -/
def roomAfter (room : ℕ) (s : List UInt8) : ℕ :=
  if s.length ≤ room then room - s.length else bufferStepSize.toNat - s.length

/-- The chunk can be put: it fits, or its first byte is an ASCII byte. -/
def Puttable (room : ℕ) (s : List UInt8) : Prop :=
  s.length ≤ room ∨ ∀ c ∈ s.head?, c.toNat < 128

/-- Everything taken. -/
def drain (w : Window) : Window := w.take w.ready.length

/-- Bytes are put behind what is ready, and taken. -/
theorem drain_append (hhidden : w.hidden = []) (s : List UInt8) :
    (w.append s).drain = { w with
      behind := s.reverse ++ w.ready.reverse ++ w.behind
      ready := []
      hidden := []
      room := w.room - s.length } := by
  have hpending : w.pending = w.ready := by rw [pending, hhidden, List.append_nil]
  simp only [drain, take, append, hpending, ← List.length_append, List.take_length,
    List.drop_length, List.reverse_append]

theorem Drained.behind_ne_nil (hw : w.Drained room) (hroom : room < bufferStepSize.toNat) :
    w.behind ≠ [] := by
  intro hnil
  have hsize := hw.size
  rw [hnil, List.length_nil, Nat.zero_add] at hsize
  omega

/-- A chunk that does not fit: its first byte goes through `overflow`, which makes room for all of
it. -/
theorem Drained.xsputn_wraps (hw : w.Drained room) (hroom : room < (c :: s).length)
    (hs : (c :: s).length ≤ bufferStepSize.toNat) :
    Window.xsputn (c :: s) w =
      if c.toNat < 128 then .ok (c :: s).length ((w.compact.push c).append s)
      else .error wrongCharacter (w.compact.push c) := by
  have hne := hw.behind_ne_nil (hroom.trans_le hs)
  have hfits : s.length ≤ (w.compact.push c).room := by
    have hsize := hw.size
    rw [← hw.room_eq] at hsize
    rw [List.length_cons] at hs
    simp only [push, compact]
    omega
  have hrefuses : ¬ w.Refuses := fun h => hne h.1
  have hmake : w.makeRoom = w.compact := if_neg hne
  unfold Window.xsputn
  rw [xsputnLoop, if_neg (by rw [hw.room_eq]; omega), if_neg hrefuses, hmake,
    xsputnLoop_of_fits hfits]
  by_cases hc : c.toNat < 128
  · rw [if_pos hc, if_pos hc]
  · rw [if_neg hc, if_neg hc]

/-- **A chunk that is not longer than the block.** -/
theorem Drained.xsputn (hw : w.Drained room) (hs : s.length ≤ bufferStepSize.toNat) :
    (Puttable room s → ∃ w', Window.xsputn s w = .ok s.length w' ∧ w'.alloc = w.alloc ∧
        w'.drain.Drained (roomAfter room s)) ∧
      (¬ Puttable room s → ∃ w', Window.xsputn s w = .error wrongCharacter w') := by
  have hsize := hw.size
  by_cases hroom : s.length ≤ room
  · refine ⟨fun _ => ⟨_, xsputn_of_fits (hw.room_eq ▸ hroom), rfl, ?_⟩,
      fun h => absurd (.inl hroom) h⟩
    rw [drain_append hw.hidden, roomAfter, if_pos hroom, hw.ready, hw.room_eq]
    refine ⟨rfl, rfl, rfl, ?_⟩
    simp only [List.reverse_nil, List.append_nil, List.length_append, List.length_reverse]
    omega
  · obtain ⟨c, t, rfl⟩ := List.exists_cons_of_length_pos
      (show 0 < s.length from Nat.zero_lt_of_lt (Nat.not_le.1 hroom))
    have hput := hw.xsputn_wraps (Nat.not_le.1 hroom) hs
    have hascii : Puttable room (c :: t) ↔ c.toNat < 128 := by
      rw [Puttable, or_iff_right hroom, List.head?_cons]
      simp
    rw [hascii, hput]
    refine ⟨fun hc => ⟨_, if_pos hc, rfl, ?_⟩, fun hc => ⟨_, if_neg hc⟩⟩
    have hpush : (w.compact.push c).ready = [c] := by
      simp [push, compact, pending, hw.ready, hw.hidden]
    rw [drain_append rfl, roomAfter, if_neg hroom, hpush]
    rw [List.length_cons] at hs ⊢
    refine ⟨rfl, rfl, ?_, ?_⟩
    · simp only [push, compact, hw.room_eq]
      omega
    · simp only [push, compact, List.length_append, List.length_reverse, List.length_cons,
        List.length_nil]
      omega

end Window

/-! ### One chunk -/

open Window

/-- The room behind the put position while the chunks are written, none of which may meet the end
of the block with a first byte that is not ASCII. -/
def Clean : ℕ → List (List UInt8) → Prop
  | _, [] => True
  | room, s :: chunks => Puttable room s ∧ Clean (roomAfter room s) chunks

/-- ASCII bytes can always be put. -/
theorem clean_of_ascii {chunks : List (List UInt8)} (h : ∀ s ∈ chunks, ∀ c ∈ s, c.toNat < 128)
    (room : ℕ) : Clean room chunks := by
  induction chunks generalizing room with
  | nil => trivial
  | cons s chunks ih =>
    refine ⟨.inr fun c hc => ?_, ih (fun t ht => h t (List.mem_cons_of_mem s ht)) _⟩
    exact h s List.mem_cons_self c (List.mem_of_mem_head? hc)

namespace GpxWriter

variable {γ π τ : Type} {P : ParserClass γ} {dp : ProviderRouteWriterBase π τ}
  {parseTime : TimeParser τ} {st : π} {pieces : List (List UInt8)} {s : List UInt8} {room : ℕ}
  {w : Writer (GpxWriter γ π)}

/-- A `streamWrite` whose bytes were stored leaves nothing pending. -/
theorem streamWrite_view (dp : ProviderRouteWriterBase π τ) (parseTime : TimeParser τ)
    (hw : Fed P st pieces w) {n : ℤ} {v : Window} (hput : Window.xsputn s w.buf.view = .ok n v) :
    (after (Writer.streamWrite (plugin P dp parseTime) s w)).buf.view = v.drain := by
  have hsim := Iobuf.sputn_simulates s w.buf hw.shown.wf
  have hshown := hw.shown.sputn s
  rw [hput] at hsim
  obtain ⟨b, hb, -, rfl⟩ := hsim.ok_right
  rw [hb, after_ok] at hshown
  obtain ⟨b', -, hview, hwrite⟩ := write_apply P dp parseTime (x := w.plugin) hshown hw.parser
    false
  rw [Writer.streamWrite_apply _ s hw.opened, hb]
  simp only
  rw [Writer.after_conclude, (Writer.after_write _ _ _).1]
  show (after (write P dp parseTime false (b, w.plugin))).1.view = _
  rw [hwrite, after_onSnd]
  exact hview

/-- **One chunk that is not longer than the block.** -/
theorem streamWrite_small (dp : ProviderRouteWriterBase π τ) (parseTime : TimeParser τ)
    (hw : Fed P st pieces w) (hroom : w.buf.view.Drained room)
    (hs : s.length ≤ bufferStepSize.toNat) :
    (Puttable room s → ∃ w', Fed P st (pieces ++ [s]) w' ∧ w'.buf.alloc = w.buf.alloc ∧
        w'.buf.view.Drained (roomAfter room s) ∧
        Writer.streamWrite (plugin P dp parseTime) s w =
          if (P.parse (P.fed pieces) s false).1 then .ok (s.length : ℤ) w'
          else .error Writer.canNotSetValue w') ∧
      (¬ Puttable room s → ∃ w', Writer.streamWrite (plugin P dp parseTime) s w =
        .error wrongCharacter w' ∧ w'.plugin = w.plugin) := by
  obtain ⟨hgood, hbad⟩ := hroom.xsputn hs
  have hsim := Iobuf.sputn_simulates s w.buf hw.shown.wf
  constructor
  · intro hputtable
    obtain ⟨v, hput, halloc, hdrained⟩ := hgood hputtable
    have hview := streamWrite_view dp parseTime hw hput
    rw [hput] at hsim
    obtain ⟨b, hb, -, hbv⟩ := hsim.ok_right
    rcases streamWrite_fed dp parseTime hw s with ⟨b', w', hput', -⟩ |
      ⟨n, b', t, w', hput', halloc', hw', -, hkept, -, hrun⟩
    · rw [hb] at hput'
      cases hput'
    · rw [hb] at hput'
      cases hput'
      have hsame : w'.buf.alloc = w.buf.alloc := by
        rw [halloc', show b.alloc = b.view.alloc from rfl, hbv, halloc]
        rfl
      obtain rfl := hkept (congrArg Allocator.refusals hsame)
      refine ⟨w', hw', hsame, ?_, hrun⟩
      have hafter : after (Writer.streamWrite (plugin P dp parseTime) t w) = w' := by
        rw [hrun]
        split <;> rfl
      rw [← hafter, hview]
      exact hdrained
  · intro hputtable
    obtain ⟨v, hput⟩ := hbad hputtable
    rw [hput] at hsim
    obtain ⟨b, hb, -, -⟩ := hsim.error_right
    rw [Writer.streamWrite_apply _ s hw.opened, hb]
    exact ⟨_, rfl, rfl⟩

/-! ### All chunks -/

variable {succeeds : List UInt8 → Bool → Bool} {tree : List UInt8 → Bool → GPX}
  {chunks : List (List UInt8)}

/-- **The chunks, up to the first exception.** They are all stored in the block that is there when
they are clean. Otherwise, if the parser takes them, the caller gets the exception of `xsputn`. -/
theorem streamWriteAll_small (hP : P.Lawful succeeds tree) (dp : ProviderRouteWriterBase π τ)
    (parseTime : TimeParser τ) (hw : Fed P st pieces w) (hroom : w.buf.view.Drained room)
    (hsmall : ∀ s ∈ chunks, s.length ≤ bufferStepSize.toNat) :
    (Clean room chunks →
      outcome (Writer.streamWriteAll (plugin P dp parseTime) chunks w) ≠ .error wrongCharacter ∧
        (after (Writer.streamWriteAll (plugin P dp parseTime) chunks w)).buf.alloc = w.buf.alloc ∧
        ∃ room', (after (Writer.streamWriteAll (plugin P dp parseTime) chunks w)).buf.view.Drained
          room') ∧
      (¬ Clean room chunks → succeeds (pieces.flatten ++ chunks.flatten) false = true →
        outcome (Writer.streamWriteAll (plugin P dp parseTime) chunks w) = .error wrongCharacter ∧
          (after (Writer.streamWriteAll (plugin P dp parseTime) chunks w)).plugin.dp = st) := by
  induction chunks generalizing pieces room w with
  | nil => exact ⟨fun _ => ⟨by simp [Writer.streamWriteAll, pure_apply], rfl, room, hroom⟩,
      fun h => absurd trivial h⟩
  | cons s chunks ih =>
    obtain ⟨hs, hsmall⟩ := List.forall_mem_cons.1 hsmall
    obtain ⟨hgood, hbad⟩ := streamWrite_small dp parseTime hw hroom hs
    rw [Writer.streamWriteAll, bind_apply, Clean]
    by_cases hput : Puttable room s
    · obtain ⟨w₁, hw₁, halloc, hroom₁, hrun⟩ := hgood hput
      obtain ⟨hclean, hthrows⟩ := ih hw₁ hroom₁ hsmall
      rw [hP.parse] at hrun
      rw [and_iff_right hput, hrun]
      by_cases hok : succeeds (pieces.flatten ++ s) false = true
      · simp only [hok, if_true]
        rw [halloc] at hclean
        refine ⟨hclean, fun h hall => hthrows h ?_⟩
        rwa [List.flatten_append, List.flatten_singleton, List.append_assoc]
      · simp only [hok]
        refine ⟨fun _ => ⟨?_, halloc, _, hroom₁⟩, fun _ hall => ?_⟩
        · simp [Writer.canNotSetValue, wrongCharacter]
        · -- the parser would have failed on all of them
          rw [Bool.not_eq_true] at hok
          have hfail := hP.permanent _ chunks.flatten false hok
          rw [List.append_assoc] at hfail
          rw [List.flatten_cons, hfail] at hall
          cases hall
    · obtain ⟨w', hrun, hplugin⟩ := hbad hput
      rw [hrun]
      refine ⟨fun h => absurd h.1 hput, fun _ _ => ⟨rfl, ?_⟩⟩
      rw [after_error, hplugin]
      exact hw.dp

/-- A drained window stands in a block of the size it had at the start. -/
theorem Drained.size_eq {b : Iobuf} (hb : b.WF) (hroom : b.view.Drained room) :
    b.size = bufferStepSize := by
  have hready : (b.inEnd - b.inCur).toNat = 0 := by
    rw [← length_slice b.mem]
    exact congrArg List.length hroom.ready
  have hhidden : (b.outCur - b.inEnd).toNat = 0 := by
    rw [← length_slice b.mem]
    exact congrArg List.length hroom.hidden
  have hbehind : b.view.behind.length = (b.inCur - b.inBeg).toNat := by
    rw [Iobuf.view, List.length_reverse, length_slice]
  have hroomeq : (b.outEnd - b.outCur).toNat = room := hroom.room_eq
  have hsize := hroom.size
  have hstep : (0 : ℤ) ≤ bufferStepSize := by decide
  obtain ⟨hout, hblock, hblocksize, hbeg, hcur, hend, hle⟩ := hb
  omega

theorem drain_of_nil {v : Window} (hv : v.ready = []) : v.drain = v := by
  obtain ⟨behind, ready, hidden, room, shifted, alloc⟩ := v
  cases hv
  rfl

/-- `release` leaves a drained buffer as it is. -/
theorem release_small (dp : ProviderRouteWriterBase π τ) (parseTime : TimeParser τ)
    (hw : Fed P st pieces w) (hroom : w.buf.view.Drained room) :
    (after (Writer.release (plugin P dp parseTime) w)).buf.size = bufferStepSize ∧
      (after (Writer.release (plugin P dp parseTime) w)).buf.alloc = w.buf.alloc := by
  obtain ⟨b', hshown, hview, hwrite⟩ := write_apply P dp parseTime hw.shown hw.parser true
  have hsame : b'.view = w.buf.view := hview.trans (drain_of_nil hroom.ready)
  have hbuf := (Writer.after_write (plugin P dp parseTime) true
    { w with writeFinished := true }).1
  rw [Writer.release_apply, Writer.after_conclude, hbuf]
  show (after (write P dp parseTime true (w.buf, w.plugin))).1.size = _ ∧
    (after (write P dp parseTime true (w.buf, w.plugin))).1.alloc = _
  rw [hwrite, after_onSnd]
  exact ⟨Drained.size_eq hshown.wf (hsame ▸ hroom), congrArg Window.alloc hsame⟩

/-- Clean chunks stay in the block that is there at the start. -/
theorem writeChunks_block (hP : P.Lawful succeeds tree) (dp : ProviderRouteWriterBase π τ)
    (parseTime : TimeParser τ) (hw : Fed P st [] w)
    (hroom : w.buf.view.Drained bufferStepSize.toNat)
    (hsmall : ∀ s ∈ chunks, s.length ≤ bufferStepSize.toNat)
    (hclean : Clean bufferStepSize.toNat chunks) :
    (after (Writer.writeChunks (plugin P dp parseTime) chunks w)).buf.size = bufferStepSize ∧
      (after (Writer.writeChunks (plugin P dp parseTime) chunks w)).buf.alloc = w.buf.alloc := by
  obtain ⟨hthrew, halloc, room', hroom'⟩ :=
    (streamWriteAll_small hP dp parseTime hw hroom hsmall).1 hclean
  unfold Writer.writeChunks
  rw [bind_apply]
  rcases streamWriteAll_fed hP dp parseTime chunks hw with
    ⟨w', hrun⟩ | ⟨ts, w', hw', -, ⟨hrun, -⟩ | ⟨hrun, -, -⟩⟩ <;>
    rw [hrun] at hthrew halloc hroom' ⊢
  · exact absurd rfl hthrew
  · obtain ⟨hsize, hsame⟩ := release_small dp parseTime hw' hroom'
    exact ⟨hsize, hsame.trans halloc⟩
  · exact ⟨Drained.size_eq hw'.shown.wf hroom', halloc⟩

section Import

open ProviderGpsRouteWriter

variable {ρ : Type} {R : RouteClass ρ τ} {filing : ρ → Filing UInt16 τ}
  {hist : History (ProviderGpsRouteWriter.Call τ) (Option Bool) Exn}
  {p : ProviderGpsRouteWriter ρ} {mem : ℤ → UInt8} {q : ℤ} {alloc : Allocator}

/-- **The import of a file in small chunks** into an open provider: it comes to one of the four
ends, whatever the chunks are, and no memory is asked for, when the chunks are clean. Otherwise a
file that has a document is not imported, and the provider is left alone. -/
theorem import_small_chunks (hP : P.Lawful succeeds tree) (hR : R.Lawful filing) (hquiet : R.Quiet)
    (hs : Session (object R) (create false) hist p) (hopen : p.finished = false)
    (hsmall : ∀ s ∈ chunks, s.length ≤ bufferStepSize.toNat)
    {res : EStateM.Result Exn (Writer (GpxWriter γ (ProviderGpsRouteWriter ρ))) Bool}
    (hres : Writer.writeChunks (plugin P (provider R) parseTime) chunks
      (Writer.new (Iobuf.new mem q alloc) (new P p)) = res) :
    (Clean bufferStepSize.toNat chunks →
      Concluded R parseTime p (parsed succeeds tree chunks.flatten) (outcome res)
          (after res).plugin.dp ∧
        (after res).buf.size = bufferStepSize ∧ (after res).buf.alloc = alloc) ∧
      (¬ Clean bufferStepSize.toNat chunks → parsed succeeds tree chunks.flatten ≠ none →
        outcome res = .error wrongCharacter ∧ (after res).plugin.dp = p) := by
  obtain ⟨hfull, hlen⟩ := session_full hR hs
  have hfed := new_fed P p mem q alloc
  have hroom : (Iobuf.new mem q alloc).view.Drained bufferStepSize.toNat := by
    rw [Iobuf.new_view]
    exact ⟨rfl, rfl, rfl, Nat.zero_add _⟩
  obtain ⟨hclean, hthrows⟩ := streamWriteAll_small hP (provider R) parseTime hfed hroom hsmall
  subst hres
  constructor
  · intro h
    obtain ⟨hthrew, halloc, -⟩ := hclean h
    obtain ⟨houtcome, hdp⟩ := writeChunks_conclude hP (provider R) parseTime rfl hthrew
      (congrArg Allocator.refusals halloc)
    rw [houtcome, hdp]
    exact ⟨conclude_open _ hquiet hR.create_ne_none hopen hfull hlen _,
      writeChunks_block hP _ _ hfed hroom hsmall h⟩
  · intro h hparsed
    have htaken : succeeds chunks.flatten false = true := by
      by_contra hfail
      rw [Bool.not_eq_true] at hfail
      refine hparsed ?_
      rw [← List.append_nil chunks.flatten]
      exact parsed_of_failed hP hfail
    obtain ⟨hthrew, hdp⟩ := hthrows h htaken
    unfold Writer.writeChunks
    rw [bind_apply]
    generalize Writer.streamWriteAll (plugin P (provider R) parseTime) chunks
      (Writer.new (Iobuf.new mem q alloc) (new P p)) = res at hthrew hdp ⊢
    cases res with
    | ok u w' => cases hthrew
    | error e w' =>
      cases hthrew
      exact ⟨rfl, hdp⟩

/-- A title in two chunks. -/
theorem import_small_chunks_title :
    Concluded timesRoute (fun _ => 0) (create false) (some ⟨[⟨[97, 98], [], [], []⟩]⟩)
      (outcome (Writer.writeChunks (plugin titleParser (provider timesRoute) fun _ => 0)
        [[97], [98]] (Writer.new (Iobuf.new (fun _ => 0) 0 ⟨fun _ => none, 0⟩)
          (new titleParser (create false)))))
      (after (Writer.writeChunks (plugin titleParser (provider timesRoute) fun _ => 0)
        [[97], [98]] (Writer.new (Iobuf.new (fun _ => 0) 0 ⟨fun _ => none, 0⟩)
          (new titleParser (create false))))).plugin.dp := by
  have hclean : Clean bufferStepSize.toNat [[97], [98]] := clean_of_ascii (by simp) _
  exact ((import_small_chunks titleParser_lawful timesRoute_lawful timesRoute_quiet .start rfl
    (by decide) rfl).1 hclean).1

end Import

end GpxWriter

end Libgpsfile2
