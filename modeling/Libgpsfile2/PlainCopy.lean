import Libgpsfile2.WholeOutput

/-!
# Copying through the plain handlers

A plain writer gives its provider the C string of everything that was written to it, in one call of
`setData`: with room for the bytes and the terminator, the chunks and the calls in between do not
matter (`writeChunks_handOver`).

So handing to a plain writer what a plain reader has returned, piece by piece, does what
`setData` does with the bytes that were asked for (`plain_copy`).
-/

namespace Libgpsfile2

variable {π ρ : Type} {b : Iobuf}
  {w : Writer (DatahandlerPlainWriter π)} {chunks : List (List UInt8)} {mem mem' : ℤ → UInt8}
  {q q' : ℤ} {alloc alloc' : Allocator}

/-- A string given to a provider, and its answer as `release` passes it on. -/
def handOver (dp : ProviderWriterBase π) (s : List UInt8) : EStateM Exn π Bool := do
  if ← dp.setData s then return true else throw Writer.canNotSetValue

namespace DatahandlerPlainWriter

/-- Chunks for which there is room are collected. -/
theorem streamWriteAll_fits (dp : ProviderWriterBase π) (hwf : w.buf.WF)
    (hw : w.writeFinished = false)
    (hfits : chunks.flatten.length ≤ w.buf.view.room) :
    ∃ w', Writer.streamWriteAll (plugin dp) chunks w = .ok () w' ∧ w'.buf.WF ∧
      w'.plugin = w.plugin ∧ Window.Gains chunks.flatten 0 w.buf.view w'.buf.view := by
  induction chunks generalizing w with
  | nil => exact ⟨w, rfl, hwf, rfl, .refl _⟩
  | cons s chunks ih =>
    rw [List.flatten_cons, List.length_append] at hfits
    have hroom : s.length ≤ w.buf.view.room := by omega
    have hsim := Iobuf.sputn_simulates s w.buf hwf
    rw [Window.xsputn_of_fits hroom] at hsim
    obtain ⟨b, hput, hwf', hview⟩ := hsim.ok_right
    have hgains : Window.Gains s 0 w.buf.view b.view := hview ▸ Window.gains_append hroom
    have hrest := hgains.room
    obtain ⟨w', hrun, hwf'', hplugin, hgains'⟩ :=
      ih (w := { w with buf := b, writes := w.writes ++ [false] }) hwf' hw
        (show _ ≤ b.view.room by omega)
    refine ⟨w', ?_, hwf'', hplugin, hgains.trans hgains'⟩
    rw [Writer.streamWriteAll, bind_apply, streamWrite_apply dp s hw, hput]
    exact hrun

/-- **The final call of `write`**, when there is room for the terminator. -/
theorem write_handsOver (dp : ProviderWriterBase π) (hb : b.WF) (hroom : 0 < b.view.room)
    (x : DatahandlerPlainWriter π) :
    outcome (write dp true (b, x)) = outcome (dp.setData (cStr b.view.pending) x.dataProvider) ∧
      (after (write dp true (b, x))).2.dataProvider =
        after (dp.setData (cStr b.view.pending) x.dataProvider) := by
  have hsim := Iobuf.sputc_simulates 0 b hb
  rw [Window.sputc, if_pos hroom] at hsim
  obtain ⟨b', hput, hb', hview⟩ := hsim.ok_right
  have hpending : b'.view.pending = b.view.pending ++ [0] :=
    hview ▸ (Window.stores_store 0 b.view).pending
  have hstring := Iobuf.cString_of_mem hb' (by rw [hpending]; simp)
  rw [hpending, cStr_concat_zero] at hstring
  rw [write, if_pos rfl]
  simp only [onFst, onSnd, onPart, setData, bind_apply, get_apply, modify_apply, hput, hstring]
  cases dp.setData (cStr b.view.pending) x.dataProvider <;> exact ⟨rfl, rfl⟩

/-- **Everything that is written** is handed over at the end. -/
theorem writeChunks_handOver (dp : ProviderWriterBase π) (st : π) (mem : ℤ → UInt8) (q : ℤ)
    (alloc : Allocator) (hfits : chunks.flatten.length < bufferStepSize.toNat) :
    outcome (Writer.writeChunks (plugin dp) chunks
        (Writer.new (Iobuf.new mem q alloc) ⟨st, []⟩)) =
        outcome (handOver dp (cStr chunks.flatten) st) ∧
      (after (Writer.writeChunks (plugin dp) chunks
        (Writer.new (Iobuf.new mem q alloc) ⟨st, []⟩))).plugin.dataProvider =
        after (handOver dp (cStr chunks.flatten) st) := by
  have hroom : (Iobuf.new mem q alloc).view.room = bufferStepSize.toNat := by rw [Iobuf.new_view]
  obtain ⟨w, hrun, hwf, hsame, hgains⟩ := streamWriteAll_fits dp
    (w := Writer.new (Iobuf.new mem q alloc) ⟨st, []⟩) (Iobuf.new_wf mem q alloc) rfl
    (hfits.le.trans_eq hroom.symm)
  have hplugin : w.plugin = ⟨st, []⟩ := hsame
  have hleft : w.buf.view.room + chunks.flatten.length = bufferStepSize.toNat :=
    hgains.room.trans hroom
  have hpending : w.buf.view.pending = chunks.flatten := by
    rw [hgains.pending, Writer.new, Iobuf.new_pending, List.nil_append]
  obtain ⟨hanswer, hprovider⟩ := write_handsOver dp hwf (by omega) w.plugin
  rw [hpending, hplugin] at hanswer hprovider
  unfold Writer.writeChunks
  rw [bind_apply, hrun]
  show outcome (Writer.release (plugin dp) w) = _ ∧
    (after (Writer.release (plugin dp) w)).plugin.dataProvider = _
  have hend := (Writer.after_write (plugin dp) true { w with writeFinished := true }).2
  rw [Writer.outcome_release, Writer.release_apply, Writer.after_conclude, hend]
  show (outcome (write dp true (w.buf, w.plugin))).bind _ = _ ∧
    (after (write dp true (w.buf, w.plugin))).2.dataProvider = _
  rw [hplugin, hanswer, hprovider]
  unfold handOver
  rw [bind_apply]
  cases dp.setData (cStr chunks.flatten) st with
  | error e st' => exact ⟨rfl, rfl⟩
  | ok r st' => cases r <;> exact ⟨rfl, rfl⟩

end DatahandlerPlainWriter

/-- The pieces that the calls of a reader have returned. -/
def Reader.pieces (h : History UInt64 (List UInt8) Exn) : List (List UInt8) :=
  h.map fun x => returned x.2

theorem Reader.flatten_pieces (h : History UInt64 (List UInt8) Exn) :
    (pieces h).flatten = received h := rfl

/-- **A copy**: whatever the sizes of the calls are, the provider of the writer is given the bytes
that were asked for, up to the first NUL, in one call of `setData`. -/
theorem plain_copy {dpr : ProviderReaderBase ρ} {data : ρ} {h : History UInt64 (List UInt8) Exn}
    {r : Reader ρ} (dpw : ProviderWriterBase π) (st : π)
    (hfits : (dpr.getData data).length < bufferStepSize.toNat)
    (hs : Session (Reader.anySize (DatahandlerPlainReader.plugin dpr))
      (Reader.new (Iobuf.new mem q alloc) data) h r) :
    outcome (Writer.writeChunks (DatahandlerPlainWriter.plugin dpw) (Reader.pieces h)
        (Writer.new (Iobuf.new mem' q' alloc') ⟨st, []⟩)) =
        outcome (handOver dpw (cStr ((dpr.getData data).take (Reader.asked h))) st) ∧
      (after (Writer.writeChunks (DatahandlerPlainWriter.plugin dpw) (Reader.pieces h)
        (Writer.new (Iobuf.new mem' q' alloc') ⟨st, []⟩))).plugin.dataProvider =
        after (handOver dpw (cStr ((dpr.getData data).take (Reader.asked h))) st) := by
  have hreceived := DatahandlerPlainReader.received_take hfits.le hs
  have hshort : (Reader.pieces h).flatten.length < bufferStepSize.toNat := by
    rw [Reader.flatten_pieces, hreceived, List.length_take]
    omega
  have hcopy := DatahandlerPlainWriter.writeChunks_handOver dpw st mem' q' alloc' hshort
  rwa [Reader.flatten_pieces, hreceived] at hcopy

/-- Two bytes are copied one by one. -/
theorem plain_copy_two :
    ∃ h r, Session (Reader.anySize (DatahandlerPlainReader.plugin textReader))
        (Reader.new (Iobuf.new (fun _ => 0) 0 ⟨fun _ => none, 0⟩) [97, 98]) h r ∧
      Reader.pieces h = [[97], [98]] ∧
      (after (Writer.writeChunks (DatahandlerPlainWriter.plugin textWriter) (Reader.pieces h)
        (Writer.new (Iobuf.new (fun _ => 0) 0 ⟨fun _ => none, 0⟩) ⟨[], []⟩))).plugin.dataProvider =
        [97, 98] := by
  have h₀ : Session (Reader.anySize (DatahandlerPlainReader.plugin textReader))
      (Reader.new (Iobuf.new (fun _ => 0) 0 ⟨fun _ => none, 0⟩) [97, 98]) [] _ := .start
  have h₁ := h₀.returned (c := 1) (r := [97]) trivial (by simp [Object.Alive]) rfl
  have h₂ := h₁.returned (c := 1) (r := [98]) trivial (by simp [Object.Alive]) rfl
  exact ⟨_, _, h₂, rfl, (plain_copy textWriter [] (by decide) h₂).2.trans rfl⟩

end Libgpsfile2
