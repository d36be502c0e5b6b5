import Libgpsfile2.Gpx.GpxWriter
import Libgpsfile2.DatahandlerWriter

/-!
# What the parser is fed

`GpxWriter::write` hands the parser the window `getBuffer ()`, `in_avail ()`, and skips it with
`consumeGet`. The window is everything in the buffer as long as nothing is hidden behind `egptr`
(`Shown`), which is so in every session: bytes come in through `sputn` only.
-/

namespace Libgpsfile2

/-- The pointers are in order, and the get area knows of every byte. -/
structure Shown (b : Iobuf) : Prop where
  wf : b.WF
  hidden : b.view.hidden = []

theorem new_shown (mem : ℤ → UInt8) (q : ℤ) (alloc : Allocator) : Shown (Iobuf.new mem q alloc) :=
  ⟨Iobuf.new_wf mem q alloc, by rw [Iobuf.new_view]⟩

theorem Shown.sputn {b : Iobuf} (hb : Shown b) (s : List UInt8) :
    Shown (after (Iobuf.sputn s b)) := by
  have hsim := Iobuf.sputn_simulates s b hb.wf
  have hhidden := Window.xsputn_hidden_nil (s := s) hb.hidden
  cases hw : Window.xsputn s b.view with
  | ok r w =>
    rw [hw] at hsim hhidden
    obtain ⟨b', hb', hwf, rfl⟩ := hsim.ok_right
    rw [hb']
    exact ⟨hwf, hhidden⟩
  | error e w =>
    rw [hw] at hsim hhidden
    obtain ⟨b', hb', hwf, rfl⟩ := hsim.error_right
    rw [hb']
    exact ⟨hwf, hhidden⟩

/-- The window is all that is pending. -/
theorem Shown.inAvail {b : Iobuf} (hb : Shown b) : b.inAvail = b.view.ready.length := by
  rw [Iobuf.inAvail_eq hb.wf, hb.hidden]
  split_ifs with h
  · rw [h]
  · rfl

/-- The window as it is copied out. -/
theorem Shown.memcpyFrom {b : Iobuf} (hb : Shown b) :
    Iobuf.memcpyFrom b.getBuffer b.inAvail b = .ok b.view.pending b := by
  have hlen := hb.inAvail
  have hready : b.view.ready.length = (b.inEnd - b.inCur).toNat := length_slice _ _ _
  obtain ⟨hwf, hhidden⟩ := hb
  obtain ⟨hout, hblock, hsize, hbeg, hcur, hend, hroom⟩ := hwf
  have hacc : Iobuf.access b.getBuffer b.inAvail b = .ok () b :=
    Iobuf.access_ok (by simp only [Iobuf.getBuffer]; omega)
  simp only [Iobuf.memcpyFrom, bind_apply, get_apply, pure_apply, hacc]
  unfold Window.pending
  rw [hhidden, List.append_nil]
  simp only [Iobuf.view, Iobuf.getBuffer]
  congr 2
  omega

/-- The window as it is skipped. -/
theorem Shown.consumeGet {b : Iobuf} (hb : Shown b) :
    ∃ b', Iobuf.consumeGet b.inAvail b = .ok () b' ∧ Shown b' ∧
      b'.view = b.view.take b.view.ready.length := by
  have hlen := hb.inAvail
  have hready : b.view.ready.length = (b.inEnd - b.inCur).toNat := length_slice _ _ _
  obtain ⟨hwf, hhidden⟩ := hb
  have htake := Iobuf.consumeGet_matches (n := b.inAvail) hwf (by omega)
    (by have := hwf.cur_le; omega)
  obtain ⟨b', hb', hwf', hview⟩ := htake.ok_right
  rw [hlen, Int.toNat_natCast] at hview
  exact ⟨b', hb', ⟨hwf', by rw [hview]; exact hhidden⟩, hview⟩

namespace GpxWriter

variable {γ π τ : Type} {P : ParserClass γ} {dp : ProviderRouteWriterBase π τ}
  {parseTime : TimeParser τ} {b : Iobuf} {x : GpxWriter γ π} {g : γ}

/-- **One call of `write`**: the parser is fed all that is pending. -/
theorem write_apply (P : ParserClass γ) (dp : ProviderRouteWriterBase π τ)
    (parseTime : TimeParser τ) (hb : Shown b) (hx : x.parser = some g) (isFinal : Bool) :
    ∃ b', Shown b' ∧ b'.view = b.view.take b.view.ready.length ∧
      write P dp parseTime isFinal (b, x) =
        onSnd (complete P dp parseTime isFinal (P.parse g b.view.pending isFinal).1)
          (b', { x with
            parser := some (P.parse g b.view.pending isFinal).2
            feeds := x.feeds ++ [(b.view.pending, isFinal)] }) := by
  obtain ⟨b', hb', hshown, hview⟩ := hb.consumeGet
  refine ⟨b', hshown, hview, ?_⟩
  simp only [write, bind_apply, get_apply]
  rw [onFst, onPart, hb.memcpyFrom]
  simp only [onSnd, onPart, parse, hx]
  rw [onFst, onPart, hb']

/-- A call of `write` on a deleted parser. -/
theorem write_deleted (hb : Shown b) (hx : x.parser = none) (isFinal : Bool) :
    write P dp parseTime isFinal (b, x) = .error .nullPointer (b, x) := by
  simp only [write, bind_apply, get_apply]
  unfold onFst onPart
  rw [hb.memcpyFrom]
  simp only [onSnd, onPart, parse, hx]

/-- `parseData` over the provider of the writer. -/
theorem parseRoot_apply (P : ParserClass γ) (dp : ProviderRouteWriterBase π τ)
    (parseTime : TimeParser τ) (g : γ) (d : π) (feeds : List (List UInt8 × Bool)) :
    parseRoot P dp parseTime ⟨some g, d, feeds⟩ = match parseData dp parseTime (P.root g) d with
      | .ok b d' => .ok b ⟨some g, d', feeds⟩
      | .error e d' => .error e ⟨some g, d', feeds⟩ := by
  simp only [parseRoot, bind_apply, get_apply]
  unfold onPart
  cases parseData dp parseTime (P.root g) d <;> rfl

/-- The last statement of `write`, after a final piece that the parser took. -/
theorem complete_apply (P : ParserClass γ) (dp : ProviderRouteWriterBase π τ)
    (parseTime : TimeParser τ) (g : γ) (d : π) (feeds : List (List UInt8 × Bool)) :
    complete P dp parseTime true true ⟨some g, d, feeds⟩ =
      match parseData dp parseTime (P.root g) d with
      | .error e d' => .error e ⟨some g, d', feeds⟩
      | .ok b d' =>
          match dp.finished d' with
          | .ok _ d'' => .ok b ⟨none, d'', feeds⟩
          | .error e d'' => .error e ⟨none, d'', feeds⟩ := by
  simp only [complete, Bool.and_self, if_true, bind_apply, parseRoot_apply, modify_apply]
  cases parseData dp parseTime (P.root g) d with
  | error e d' => rfl
  | ok b d' =>
    simp only [onPart]
    cases dp.finished d' <;> rfl

/-- `write` leaves the buffer shown. -/
theorem write_shown (hb : Shown b) (isFinal : Bool) :
    Shown (after (write P dp parseTime isFinal (b, x))).1 := by
  cases hx : x.parser with
  | none =>
    rw [write_deleted hb hx]
    exact hb
  | some g =>
    obtain ⟨b', hb', -, hwrite⟩ := write_apply P dp parseTime hb hx isFinal
    rw [hwrite, onSnd, onPart]
    split <;> exact hb'

/-! ### Sessions -/

variable {mem : ℤ → UInt8} {q : ℤ} {alloc : Allocator} {st : π}
  {h : History Writer.Call Writer.Ret Exn} {w : Writer (GpxWriter γ π)}

theorem session_shown
    (hs : Session (Writer.object (plugin P dp parseTime))
      (Writer.new (Iobuf.new mem q alloc) (new P st)) h w) : Shown w.buf := by
  refine hs.invariant (I := fun _ w => Shown w.buf) (new_shown mem q alloc) ?_
  rintro h w c hw -
  have hstep := Writer.run_step (plugin P dp parseTime) c w
  show Shown (after (c.run (plugin P dp parseTime) w)).buf
  generalize c.run (plugin P dp parseTime) w = res at hstep ⊢
  cases hstep with
  | ignored s hfin => exact hw
  | threw s hfin hput =>
    have := hw.sputn s
    rwa [hput] at this
  | @wrote s hfin n b hput =>
    have hput' := hw.sputn s
    rw [hput] at hput'
    rw [Writer.after_conclude, (Writer.after_write _ _ _).1]
    exact write_shown hput' false
  | released =>
    rw [Writer.after_conclude, (Writer.after_write _ _ _).1]
    exact write_shown hw true

end GpxWriter

end Libgpsfile2
