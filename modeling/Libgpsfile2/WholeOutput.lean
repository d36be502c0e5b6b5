import Libgpsfile2.RequestedLength
import Libgpsfile2.DatahandlerPlain

/-!
# Readers that emit everything at once

A reader that emits its data in the first call of `read` and reports the end of the file then
(`OneShot`), as the plain reader does, hands out what the sizes of the calls ask for: when the data
fit into a new buffer, the bytes received are the first `asked` bytes, but never those at the end
that `put` has left behind `egptr`, one for each `put` (`session_oneShot`).
-/

namespace Libgpsfile2

namespace Window

variable {w w' w'' : Window} {s s' : List UInt8} {n n' : ℕ}

/-- The bytes `s` were stored in the room that was there, and `n` of them were not published. -/
structure Gains (s : List UInt8) (n : ℕ) (w w' : Window) : Prop where
  pending : w'.pending = w.pending ++ s
  hidden : w'.hidden.length = w.hidden.length + n
  room : w'.room + s.length = w.room

theorem Gains.refl (w : Window) : Gains [] 0 w w := ⟨(List.append_nil _).symm, rfl, rfl⟩

theorem Gains.trans (h : Gains s n w w') (h' : Gains s' n' w' w'') :
    Gains (s ++ s') (n + n') w w'' where
  pending := by rw [h'.pending, h.pending, List.append_assoc]
  hidden := by rw [h'.hidden, h.hidden, Nat.add_assoc]
  room := by
    have hroom := h.room
    have hroom' := h'.room
    rw [List.length_append]
    omega

theorem gains_store (c : UInt8) (hroom : 0 < w.room) : Gains [c] 1 w (w.store c) where
  pending := (stores_store c w).pending
  hidden := List.length_append
  room := Nat.sub_add_cancel hroom

theorem gains_append (hroom : s.length ≤ w.room) : Gains s 0 w (w.append s) where
  pending := (stores_append s w).pending
  hidden := hidden_append s w
  room := Nat.sub_add_cancel hroom

/-- The bytes in front of those that were not published are ready. -/
theorem Gains.ready (h : Gains s n w w') (hempty : w.pending = []) :
    w'.ready = s.take (s.length - n) := by
  have hpending := h.pending
  have hhidden := h.hidden
  rw [hempty, List.nil_append, Window.pending] at hpending
  rw [(List.append_eq_nil_iff.1 hempty).2, List.length_nil, Nat.zero_add] at hhidden
  rw [← hpending, List.length_append, hhidden, Nat.add_sub_cancel, List.take_left']
  rfl

end Window

/-! ### Emitting into the room that is there -/

/-- How many bytes the operation does not publish. -/
def Emit.puts : Emit → ℕ
  | .put _ => 1
  | .write _ => 0

/-- The bytes of the operations that are published. -/
def visible (es : List Emit) : List UInt8 :=
  (es.flatMap Emit.bytes).take ((es.flatMap Emit.bytes).length - (es.map Emit.puts).sum)

/-- What is written is visible as a whole. -/
theorem visible_write (s : List UInt8) : visible [.write s] = s := by
  simp [visible, Emit.bytes, Emit.puts]

namespace Ostream

variable {o : Ostream} {b : Iobuf}

theorem run_fits (e : Emit) (hb : b.WF) (hfits : e.bytes.length ≤ b.view.room) :
    ∃ b', e.run b = .ok true b' ∧ b'.WF ∧ Window.Gains e.bytes e.puts b.view b'.view := by
  cases e with
  | put c =>
    have hroom : 0 < b.view.room := hfits
    have hsim := Iobuf.sputc_simulates c b hb
    rw [Window.sputc, if_pos hroom] at hsim
    obtain ⟨b', hput, hwf, hview⟩ := hsim.ok_right
    refine ⟨b', ?_, hwf, hview ▸ Window.gains_store c hroom⟩
    rw [Emit.run, bind_apply, hput]
    simp [pure_apply, toIntType_ne_eof]
  | write s =>
    have hroom : s.length ≤ b.view.room := hfits
    have hsim := Iobuf.sputn_simulates s b hb
    rw [Window.xsputn_of_fits hroom] at hsim
    obtain ⟨b', hput, hwf, hview⟩ := hsim.ok_right
    refine ⟨b', ?_, hwf, hview ▸ Window.gains_append hroom⟩
    rw [Emit.run, bind_apply, hput]
    simp [pure_apply]

/-- A good stream takes everything for which there is room. -/
theorem emitAll_fits (es : List Emit) (ho : o.buf.WF) (hgood : o.bad = false)
    (hfits : (es.flatMap Emit.bytes).length ≤ o.buf.view.room) :
    ∃ o', emitAll es o = .ok () o' ∧ o'.buf.WF ∧
      Window.Gains (es.flatMap Emit.bytes) (es.map Emit.puts).sum o.buf.view o'.buf.view := by
  induction es generalizing o with
  | nil => exact ⟨o, rfl, ho, .refl _⟩
  | cons e es ih =>
    rw [List.flatMap_cons, List.length_append] at hfits
    obtain ⟨b, hrun, hwf, hgains⟩ := run_fits e ho (by omega)
    have hroom := hgains.room
    have hemit : emit e o =
        .ok () { o with buf := b, bad := false, paths := o.paths ++ [e.path o.buf] } := by
      have hbad : ¬ o.bad = true := by simp [hgood]
      simp only [emit, if_neg hbad, hrun]
      rfl
    obtain ⟨o', hall, hwf', hgains'⟩ :=
      ih (o := { o with buf := b, bad := false, paths := o.paths ++ [e.path o.buf] }) hwf rfl
        (show _ ≤ b.view.room by omega)
    refine ⟨o', ?_, hwf', ?_⟩
    · rw [emitAll, bind_apply, hemit]
      exact hall
    · rw [List.flatMap_cons, List.map_cons, List.sum_cons]
      exact hgains.trans hgains'

end Ostream

/-! ### Sessions -/

namespace Reader

variable {σ : Type} {p : ReaderPlugin σ} {r : Reader σ} {mem : ℤ → UInt8} {q : ℤ}
  {alloc : Allocator} {st : σ} {h : History UInt64 (List UInt8) Exn} {es : List Emit}

/-- The first call of `read` emits everything. -/
def OneShot (p : ReaderPlugin σ) (st : σ) (es : List Emit) : Prop :=
  ∀ len, (p.read st len).1 = es ∧ (p.read st len).2.1 = .ok true

/-- The sizes of the calls, from the first one that asks the plugin. -/
def sizes (h : History UInt64 (List UInt8) Exn) : List UInt64 :=
  (h.map Prod.fst).dropWhile fun s => toStreamsize s ≤ 0

/-- How many bytes were asked for. -/
def asked (h : History UInt64 (List UInt8) Exn) : ℕ := ((sizes h).map UInt64.toNat).sum

theorem sizes_concat (h : History UInt64 (List UInt8) Exn) (s : UInt64)
    (x : Except Exn (List UInt8)) :
    sizes (h ++ [(s, x)]) =
      if sizes h = [] then (if toStreamsize s ≤ 0 then [] else [s]) else sizes h ++ [s] := by
  unfold sizes
  rw [List.map_append, List.dropWhile_append]
  simp only [List.isEmpty_iff, List.map_cons, List.map_nil, List.dropWhile_cons,
    List.dropWhile_nil, decide_eq_true_eq]

theorem asked_concat (h : History UInt64 (List UInt8) Exn) (s : UInt64)
    (x : Except Exn (List UInt8)) (hs : sizes (h ++ [(s, x)]) ≠ []) :
    asked (h ++ [(s, x)]) = asked h + s.toNat := by
  unfold asked
  rw [sizes_concat] at hs ⊢
  by_cases hnil : sizes h = []
  · rw [if_pos hnil] at hs ⊢
    by_cases hle : toStreamsize s ≤ 0
    · exact absurd (if_pos hle) hs
    · rw [if_neg hle, hnil, List.map_cons, List.map_nil, List.sum_cons, List.sum_nil,
        Nat.add_comm]
  · rw [if_neg hnil, List.map_append, List.sum_append, List.map_cons, List.map_nil,
      List.sum_cons, List.sum_nil, Nat.add_zero]

/-- A call takes what it asks for, or everything that is ready. -/
theorem Taken.take_ready {s : UInt64} {b b' : Iobuf} {k : ℕ} (htaken : Taken s b b' k)
    (hb : b.WF) : b.view.ready.take k = b.view.ready.take s.toNat ∧
      b'.view.ready = b.view.ready.drop s.toNat := by
  rw [htaken.view]
  show _ ∧ b.view.ready.drop k = _
  have hcount := htaken.count
  rw [Iobuf.inAvail_eq hb] at hcount
  by_cases hnil : b.view.ready = []
  · simp only [hnil, List.take_nil, List.drop_nil, and_self]
  · rw [if_neg hnil] at hcount
    have hk : k = min s.toNat b.view.ready.length := by omega
    rw [hk, ← List.take_eq_take_min, ← List.drop_eq_drop_min]
    exact ⟨rfl, rfl⟩

/-- As long as nothing was asked for, nothing has happened. Afterwards the published bytes are
handed out. -/
structure Delivers (st : σ) (room : ℕ) (t : List UInt8) (h : History UInt64 (List UInt8) Exn)
    (r : Reader σ) : Prop where
  idle : r.readFinished = false → Idle r ∧ r.out.bad = false ∧ r.plugin = st ∧
    r.out.buf.view.hidden = [] ∧ r.out.buf.view.room = room ∧ received h = [] ∧ sizes h = []
  read : r.readFinished = true → r.out.buf.WF ∧ received h = t.take (asked h) ∧
    r.out.buf.view.ready = t.drop (asked h) ∧ sizes h ≠ []

theorem new_delivers (mem : ℤ → UInt8) (q : ℤ) (alloc : Allocator) (st : σ) (t : List UInt8) :
    Delivers st bufferStepSize.toNat t [] (new (Iobuf.new mem q alloc) st) where
  idle _ := by
    refine ⟨new_idle mem q alloc st, rfl, rfl, ?_, ?_, rfl, rfl⟩ <;> rw [new, Iobuf.new_view]
  read h := absurd h (by simp [new])

/-- A call that asks the plugin for nothing. -/
theorem Delivers.skip {room : ℕ} {t : List UInt8} {s : UInt64} {b : Iobuf} {k : ℕ}
    (hr : Delivers st room t h r) (htaken : Taken s r.out.buf b k) (hskip : ¬ r.Asks s) :
    Delivers st room t (h ++ [(s, .ok (r.out.buf.view.ready.take k))])
      { r with out := { r.out with buf := b } } := by
  have hrec := received_concat h s (r.out.buf.view.ready.take k)
  constructor
  · intro hno
    obtain ⟨hidle, hgood, hst, hhidden, hroom, hnone, hsizes⟩ := hr.idle hno
    have hs : ¬ 0 < toStreamsize s := fun hs => hskip (hidle.asks_iff.2 hs)
    have hnil := (List.append_eq_nil_iff.1 hidle.empty).1
    refine ⟨⟨htaken.wf, hidle.reads, hno, ?_⟩, hgood, hst, htaken.hidden.trans hhidden, ?_, ?_, ?_⟩
    · exact (List.append_eq_nil_iff.1 (htaken.pending.trans hidle.empty)).2
    · rw [htaken.view]
      exact hroom
    · rw [hrec, hnone, hnil, List.take_nil]
      rfl
    · rw [sizes_concat, if_pos hsizes, if_pos (Int.not_lt.1 hs)]
  · intro hyes
    obtain ⟨hwf, hreceived, hready, hsizes⟩ := hr.read hyes
    have hsizes' : sizes (h ++ [(s, .ok (r.out.buf.view.ready.take k))]) ≠ [] := by
      rw [sizes_concat, if_neg hsizes]
      exact List.concat_ne_nil s (sizes h)
    obtain ⟨htake, hdrop⟩ := htaken.take_ready hwf
    refine ⟨htaken.wf, ?_, ?_, hsizes'⟩
    · rw [hrec, asked_concat _ _ _ hsizes', htake, hreceived, hready, ← List.take_add]
    · rw [asked_concat _ _ _ hsizes', ← List.drop_drop, ← hready]
      exact hdrop

/-- The call that asks the plugin. -/
theorem Delivers.ask {room : ℕ} {s : UInt64} {o : Ostream} {b : Iobuf} {k : ℕ}
    (hone : OneShot p st es) (hfits : (es.flatMap Emit.bytes).length ≤ room)
    (hr : Delivers st room (visible es) h r) (hasks : r.Asks s) (hwf : o.buf.WF)
    (hemit : Ostream.emitAll (p.read r.plugin (r.lengthFor s)).1 r.out = .ok () o)
    (htaken : Taken s o.buf b k) :
    Delivers st room (visible es) (h ++ [(s, .ok (o.buf.view.ready.take k))])
      { filled p r s o with out := { o with buf := b } } := by
  obtain ⟨hidle, hgood, rfl, -, hroom, hnone, hsizes⟩ := hr.idle hasks.2
  obtain ⟨hes, heof⟩ := hone (r.lengthFor s)
  obtain ⟨o', hrun, -, hgains⟩ := Ostream.emitAll_fits es hidle.wf hgood (hroom ▸ hfits)
  rw [hes, hrun] at hemit
  cases hemit
  have hready : o.buf.view.ready = visible es := hgains.ready hidle.empty
  have hsizes' : sizes (h ++ [(s, .ok (o.buf.view.ready.take k))]) = [s] := by
    rw [sizes_concat, if_pos hsizes, if_neg (not_le.2 (hidle.asks_iff.1 hasks))]
  have hasked : asked (h ++ [(s, .ok (o.buf.view.ready.take k))]) = s.toNat := by
    rw [asked, hsizes', List.map_singleton, List.sum_singleton]
  obtain ⟨htake, hdrop⟩ := htaken.take_ready hwf
  refine ⟨fun hno => ?_, fun _ => ⟨htaken.wf, ?_, ?_, by simp [hsizes']⟩⟩
  · have hyes : (filled p r s o).readFinished = true := congrArg finishes heof
    rw [show (filled p r s o).readFinished = false from hno] at hyes
    cases hyes
  · rw [received_concat, hnone, hasked, htake, hready]
    rfl
  · rw [hasked, ← hready]
    exact hdrop

theorem streamRead_delivers {room : ℕ} (hone : OneShot p st es)
    (hfits : (es.flatMap Emit.bytes).length ≤ room) (hr : Delivers st room (visible es) h r)
    (s : UInt64) :
    Delivers st room (visible es) (h ++ [(s, outcome (streamRead p s r))])
      (after (streamRead p s r)) := by
  have hwf : r.out.buf.WF := by
    cases hread : r.readFinished with
    | false => exact (hr.idle hread).1.wf
    | true => exact (hr.read hread).1
  rcases streamRead_cases p s hwf with
    ⟨hskip, b, k, htaken, hrun⟩ |
    ⟨hasks, o, hemit, hwf', ⟨eof, -, b, k, htaken, hrun⟩ | ⟨e, he, -⟩⟩
  · rw [hrun]
    exact hr.skip htaken hskip
  · rw [hrun]
    exact hr.ask hone hfits hasks hwf' hemit htaken
  · -- the first call of `read` returns
    obtain ⟨-, -, rfl, -⟩ := hr.idle hasks.2
    rw [(hone _).2] at he
    cases he

theorem session_delivers (hone : OneShot p st es)
    (hfits : (es.flatMap Emit.bytes).length ≤ bufferStepSize.toNat)
    (hs : Session (anySize p) (new (Iobuf.new mem q alloc) st) h r) :
    Delivers st bufferStepSize.toNat (visible es) h r := by
  refine hs.invariant (I := fun h r => Delivers st _ _ h r) (new_delivers mem q alloc st _) ?_
  intro h r s hr _
  exact streamRead_delivers hone hfits hr s

theorem Delivers.received_eq {room : ℕ} {t : List UInt8} (hr : Delivers st room t h r) :
    received h = t.take (asked h) := by
  cases hread : r.readFinished with
  | false =>
    obtain ⟨-, -, -, -, -, hnone, hsizes⟩ := hr.idle hread
    rw [hnone, asked, hsizes]
    rfl
  | true => exact (hr.read hread).2.1

/-- **What a reader that emits everything at once hands out.** -/
theorem session_oneShot (hone : OneShot p st es)
    (hfits : (es.flatMap Emit.bytes).length ≤ bufferStepSize.toNat)
    (hs : Session (anySize p) (new (Iobuf.new mem q alloc) st) h r) :
    received h = (visible es).take (asked h) :=
  (session_delivers hone hfits hs).received_eq

/-- A plugin that puts a byte and writes another one. -/
def putAndWrite : ReaderPlugin Unit where
  read _ _ := ([.put 97, .write [98]], .ok true, ())

/-- The second byte stays behind. -/
theorem session_oneShot_put :
    ∃ h r, Session (anySize putAndWrite) (new (Iobuf.new (fun _ => 0) 0 ⟨fun _ => none, 0⟩) ()) h
        r ∧
      asked h = 2 ∧ received h = [97] := by
  have h₀ : Session (anySize putAndWrite)
      (new (Iobuf.new (fun _ => 0) 0 ⟨fun _ => none, 0⟩) ()) [] _ := .start
  have h₁ := h₀.returned (c := 1) (r := [97]) trivial (by simp [Object.Alive]) rfl
  have h₂ := h₁.returned (c := 1) (r := []) trivial (by simp [Object.Alive]) rfl
  refine ⟨_, _, h₂, rfl, ?_⟩
  rw [session_oneShot (fun _ => ⟨rfl, rfl⟩) (by decide) h₂]
  rfl

end Reader

/-- The plain reader hands out its string from the beginning. -/
theorem DatahandlerPlainReader.received_take {π : Type} {dp : ProviderReaderBase π} {st : π}
    {mem : ℤ → UInt8} {q : ℤ} {alloc : Allocator} {h : History UInt64 (List UInt8) Exn}
    {r : Reader π} (hfits : (dp.getData st).length ≤ bufferStepSize.toNat)
    (hs : Session (Reader.anySize (plugin dp)) (Reader.new (Iobuf.new mem q alloc) st) h r) :
    Reader.received h = (dp.getData st).take (Reader.asked h) := by
  have hone : Reader.OneShot (plugin dp) st [.write (dp.getData st)] := fun _ => ⟨rfl, rfl⟩
  have hsize : ([Emit.write (dp.getData st)].flatMap Emit.bytes).length ≤ bufferStepSize.toNat := by
    rwa [List.flatMap_singleton]
  have hreceived := (Reader.session_delivers hone hsize hs).received_eq
  rwa [visible_write] at hreceived

end Libgpsfile2
