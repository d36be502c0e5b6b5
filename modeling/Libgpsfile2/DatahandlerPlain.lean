import Libgpsfile2.DatahandlerReader
import Libgpsfile2.DatahandlerWriter
import Libgpsfile2.Provider.Provider

/-!
# `src/DatahandlerPlain.cpp`: the plain handlers

`DatahandlerPlainReader` emits the string of its provider in one piece. `DatahandlerPlainWriter`
collects what it is given and hands it to its provider at the end, as a C string: it puts a
terminating NUL behind the bytes and passes `getBuffer ()` to `setData`, whose parameter is a
`std::string` made from the pointer. So the string ends at the first NUL of the data.

`plain_roundtrip_iff`: writing a byte string and reading it back is the identity if and only if it
holds no NUL, no `realloc` was refused, and the reader was asked for something.
-/

namespace Libgpsfile2

/-! ### C strings -/

/-- The bytes of the `n` cells at `p` before the first NUL, if there is one. -/
def cStringIn (m : ℤ → UInt8) : ℕ → ℤ → Option (List UInt8)
  | 0, _ => none
  | n + 1, p => if m p = 0 then some [] else (cStringIn m n (p + 1)).map (m p :: ·)

/-- The `std::string` made from the pointer `p` into the block: reading for the terminator must
not leave the block. -/
def Iobuf.cString (p : ℤ) : IobufM (List UInt8) := do
  let b ← get
  access p 0
  match cStringIn b.mem (b.block + b.size - p).toNat p with
  | some s => return s
  | none => throw .outOfBounds

theorem cStringIn_eq (m : ℤ → UInt8) (n : ℕ) (p : ℤ) :
    cStringIn m n p = if 0 ∈ slice m p (p + n) then
      some (cStr (slice m p (p + n))) else none := by
  induction n generalizing p with
  | zero => simp [cStringIn]
  | succ n ih =>
    have hcons : slice m p (p + (n + 1 : ℕ)) = m p :: slice m (p + 1) (p + 1 + n) := by
      rw [slice_cons (by omega)]
      congr 2
      push_cast
      omega
    rw [cStringIn, ih, hcons]
    by_cases h0 : m p = 0
    · simp [h0, cStr]
    · by_cases hmem : 0 ∈ slice m (p + 1) (p + 1 + n)
      · simp [h0, hmem, cStr]
      · simp [h0, hmem, Ne.symm h0]

/-- The string in a buffer that holds a NUL. -/
theorem Iobuf.cString_of_mem {b : Iobuf} (hb : b.WF) (h0 : 0 ∈ b.view.pending) :
    cString b.getBuffer b = .ok (cStr b.view.pending) b := by
  rw [hb.pending_view] at h0 ⊢
  obtain ⟨hout, hblock, hsize, hbeg, hcur, hend, hroom⟩ := hb
  have hacc : access b.getBuffer 0 b = .ok () b := access_ok (by simp only [getBuffer]; omega)
  have hscan := cStringIn_eq b.mem (b.block + b.size - b.inCur).toNat b.inCur
  rw [show b.inCur + ((b.block + b.size - b.inCur).toNat : ℤ) = b.block + b.size by omega,
    ← slice_append (b := b.outCur) (by omega) (by omega), if_pos (List.mem_append_left _ h0),
    cStr_append h0] at hscan
  simp only [cString, bind_apply, get_apply, hacc]
  simp only [getBuffer, hscan, pure_apply]

/-- In a full buffer without a NUL the search for one leaves the block. -/
theorem Iobuf.cString_of_full {b : Iobuf} (hb : b.WF) (hfull : b.view.room = 0)
    (h0 : 0 ∉ b.view.pending) : cString b.getBuffer b = .error .outOfBounds b := by
  rw [hb.pending_view] at h0
  have hfull' : (b.outEnd - b.outCur).toNat = 0 := hfull
  obtain ⟨hout, hblock, hsize, hbeg, hcur, hend, hroom⟩ := hb
  have hacc : access b.getBuffer 0 b = .ok () b := access_ok (by simp only [getBuffer]; omega)
  have hscan := cStringIn_eq b.mem (b.block + b.size - b.inCur).toNat b.inCur
  rw [show b.inCur + ((b.block + b.size - b.inCur).toNat : ℤ) = b.outCur by omega,
    if_neg h0] at hscan
  simp only [cString, bind_apply, get_apply, hacc]
  simp only [getBuffer, hscan, throw_apply]

/-! ### The reader -/

/-- `DatahandlerPlainReader::read`. The length is not used: everything is written at once. -/
def DatahandlerPlainReader.plugin {π : Type} (dp : ProviderReaderBase π) : ReaderPlugin π where
  read st _ := ([.write (dp.getData st)], .ok true, st)

namespace DatahandlerPlainReader

variable {π : Type} {dp : ProviderReaderBase π} {mem : ℤ → UInt8} {q : ℤ} {alloc : Allocator}
  {st : π} {h : History UInt64 (List UInt8) Exn} {r : Reader π}

/-- Nothing is unpublished, and the string of the provider was emitted if a call has asked for it,
which is the first one whose size is not negative as a `std::streamsize`. -/
structure Emitting (dp : ProviderReaderBase π) (st : π) (h : History UInt64 (List UInt8) Exn)
    (r : Reader π) : Prop where
  plugin : r.plugin = st
  published : unpublished r.out.paths = 0
  start : r.readFinished = false → r.reads = [] ∧ r.out.buf.view.pending = [] ∧
    ∀ x ∈ h, ¬ x.1.toNat < 2 ^ 63
  finished : r.readFinished = true → r.emitted = dp.getData st ∧ ∃ x ∈ h, x.1.toNat < 2 ^ 63

theorem streamRead_emitting {s : UInt64} (hwf : r.out.buf.WF) (hr : Emitting dp st h r)
    (hs : 0 < s) :
    Emitting dp st (h ++ [(s, outcome (Reader.streamRead (plugin dp) s r))])
      (after (Reader.streamRead (plugin dp) s r)) := by
  obtain ⟨hplugin, hpub, hstart, hfinished⟩ := hr
  rcases Reader.streamRead_cases (plugin dp) s hwf with
    ⟨hskip, b, k, htaken, hrun⟩ |
    ⟨⟨hlt, hopen⟩, o, hemit, -, ⟨eof, heof, b, k, -, hrun⟩ | ⟨e, he, -⟩⟩
  · rw [hrun]
    refine ⟨hplugin, hpub, fun hno => ?_, fun hyes => ?_⟩
    · obtain ⟨hreads, hempty, hlarge⟩ := hstart hno
      refine ⟨hreads, (List.append_eq_nil_iff.1 (htaken.pending.trans hempty)).2, ?_⟩
      rw [List.forall_mem_append, List.forall_mem_singleton]
      refine ⟨hlarge, fun hsmall => hskip ⟨?_, hno⟩⟩
      rw [Reader.inAvail_of_pending hwf hempty, lt_toStreamsize_iff le_rfl]
      exact ⟨Int.natCast_pos.2 hs, hsmall⟩
    · obtain ⟨hdata, x, hx, hsmall⟩ := hfinished hyes
      exact ⟨hdata, x, List.mem_append_left _ hx, hsmall⟩
  · -- the call that writes the string
    rw [hrun]
    have hwrite : ∀ e ∈ ((plugin dp).read r.plugin (r.lengthFor s)).1, ∃ s, e = Emit.write s :=
      fun e he => ⟨_, List.mem_singleton.1 he⟩
    have hpub' : unpublished o.paths = 0 := Reader.emitAll_unpublished hwrite hpub hemit
    obtain ⟨-, hsmall⟩ := (lt_toStreamsize_iff (Reader.inAvail_nonneg hwf) s).1 hlt
    refine ⟨hplugin, hpub', fun h => ?_, fun _ => ⟨?_, _, List.mem_concat_self, hsmall⟩⟩
    · cases h
    · show Reader.emittedBy (Reader.filled (plugin dp) r s o).reads = _
      unfold Reader.filled
      rw [(hstart hopen).1, ← hplugin]
      simp [Reader.emittedBy, plugin, Emit.bytes]
  · cases he

theorem session_emitting
    (hs : Session (Reader.object (plugin dp)) (Reader.new (Iobuf.new mem q alloc) st) h r) :
    Emitting dp st h r := by
  refine (hs.invariant (I := fun h r => Reader.Sound alloc h r ∧ Emitting dp st h r) ?_ ?_).2
  · refine ⟨Reader.new_sound mem q alloc st, rfl, rfl, fun _ => ⟨rfl, ?_, ?_⟩, fun h => ?_⟩
    · exact Iobuf.new_pending mem q alloc
    · exact fun x hx => absurd hx List.not_mem_nil
    · exact absurd h (by simp [Reader.new])
  · rintro h r s ⟨hsound, hr⟩ hs
    exact ⟨Reader.streamRead_sound hsound hs, streamRead_emitting hsound.wf hr hs⟩

/-- A session that has come to its end hands out the string of the provider, unless a `realloc` was
refused or nothing was asked for. -/
theorem received_iff
    (hs : Session (Reader.object (plugin dp)) (Reader.new (Iobuf.new mem q alloc) st) h r)
    (hthrew : r.out.threw = false) (hend : Reader.Ended h) :
    Reader.received h = dp.getData st ↔ r.out.buf.alloc.refusals = alloc.refusals ∧
      (dp.getData st = [] ∨ ∃ x ∈ h, x.1.toNat < 2 ^ 63) := by
  have hr := session_emitting hs
  have hsound := Reader.session_sound hs
  cases hread : r.readFinished with
  | true =>
    obtain ⟨hdata, hsmall⟩ := hr.finished hread
    have hrec := hsound.received_iff hthrew ⟨hread, hend⟩
    rw [hdata, hr.published, eq_self_iff_true, and_true] at hrec
    rw [hrec, and_iff_left (.inr hsmall)]
  | false =>
    -- nothing was emitted, so that nothing can be lost or handed out
    obtain ⟨hreads, -, hlarge⟩ := hr.start hread
    have hnone : r.emitted = [] := by
      unfold Reader.emitted
      rw [hreads]
      rfl
    have hsame : r.out.buf.alloc.refusals = alloc.refusals := by
      by_contra hne
      have hlost := hsound.lost hthrew ((hsound.refusals hthrew).lt_of_ne' hne)
      rw [hnone] at hlost
      exact absurd hlost (Nat.not_lt_zero _)
    obtain ⟨-, hkept, -⟩ := hsound.kept hthrew hsame
    rw [hnone] at hkept
    have hno : ¬ ∃ x ∈ h, x.1.toNat < 2 ^ 63 := fun hsmall => by
      obtain ⟨x, hx, hlt⟩ := hsmall
      exact hlarge x hx hlt
    rw [(List.append_eq_nil_iff.1 hkept).1, and_iff_right hsame, or_iff_left hno, eq_comm]

end DatahandlerPlainReader

/-! ### The writer -/

/-- A `DatahandlerPlainWriter`. `strings` is the history of the arguments of `setData`. -/
structure DatahandlerPlainWriter (π : Type) where
  dataProvider : π
  strings : List (List UInt8)

namespace DatahandlerPlainWriter

variable {π : Type} {dp : ProviderWriterBase π}

/-- The call of `setData`. -/
def setData (dp : ProviderWriterBase π) (s : List UInt8) :
    EStateM Exn (DatahandlerPlainWriter π) Bool := do
  modify fun x => { x with strings := x.strings ++ [s] }
  onPart dataProvider (fun d x => { x with dataProvider := d }) (dp.setData s)

def write (dp : ProviderWriterBase π) (finished : Bool) :
    EStateM Exn (Iobuf × DatahandlerPlainWriter π) Bool := do
  if finished then
    let _ ← onFst (Iobuf.sputc 0)
    let data ← onFst (Iobuf.cString (← get).1.getBuffer)
    let ret ← onSnd (setData dp data)
    onFst Iobuf.consumeAllGet
    return ret
  else return true

def plugin (dp : ProviderWriterBase π) : WriterPlugin (DatahandlerPlainWriter π) where
  write := write dp

/-- A final call of `write` that has found its string passes it to `setData`. -/
theorem write_string (dp : ProviderWriterBase π) {b b' b'' : Iobuf} {r : ℤ} {s : List UInt8}
    (x : DatahandlerPlainWriter π) (hput : Iobuf.sputc 0 b = .ok r b')
    (hstring : Iobuf.cString b'.getBuffer b' = .ok s b'') :
    (after (write dp true (b, x))).2.strings = x.strings ++ [s] ∧
      (after (write dp true (b, x))).1.alloc = b''.alloc := by
  rw [write, if_pos rfl]
  simp only [onFst, onSnd, onPart, setData, bind_apply, get_apply, modify_apply, hput, hstring]
  cases dp.setData s x.dataProvider <;> exact ⟨rfl, rfl⟩

/-- When there is no string nothing is passed. -/
theorem write_noString (dp : ProviderWriterBase π) {b b' b'' : Iobuf} {r : ℤ} {e : Exn}
    (x : DatahandlerPlainWriter π) (hput : Iobuf.sputc 0 b = .ok r b')
    (hstring : Iobuf.cString b'.getBuffer b' = .error e b'') :
    write dp true (b, x) = .error e (b'', x) := by
  rw [write, if_pos rfl]
  simp only [onFst, onPart, bind_apply, get_apply, hput, hstring]

/-- **The final call of `write`** passes the pending bytes up to the first NUL. When there is no
room for the terminator the bytes themselves have to hold one. -/
theorem write_final (dp : ProviderWriterBase π) {b : Iobuf} (hb : b.WF)
    (x : DatahandlerPlainWriter π) :
    ((after (write dp true (b, x))).1.alloc.refusals = b.alloc.refusals ∧
      (after (write dp true (b, x))).2.strings =
        x.strings ++ [cStr b.view.pending]) ∨
    ((after (write dp true (b, x))).1.alloc.refusals = b.alloc.refusals + 1 ∧
      (after (write dp true (b, x))).2.strings = x.strings ++
        if 0 ∈ b.view.pending then [cStr b.view.pending] else []) := by
  have hsim := Iobuf.sputc_simulates 0 b hb
  cases hw : Window.sputc 0 b.view with
  | error e w =>
    simp only [Window.sputc, Window.overflow] at hw
    split_ifs at hw
  | ok r w =>
    rw [hw] at hsim
    obtain ⟨b', hput, hb', rfl⟩ := hsim.ok_right
    rcases Window.sputc_stores hw with ⟨rfl, hs, hr⟩ | ⟨rfl, hs, hr⟩
    · -- the terminator was stored behind the pending bytes
      left
      obtain ⟨hstrings, halloc⟩ := write_string dp x hput
        (Iobuf.cString_of_mem hb' (by rw [hs.pending]; simp))
      rw [hs.pending, cStr_concat_zero] at hstrings
      exact ⟨by rw [halloc]; exact hr, hstrings⟩
    · -- it was refused, and the buffer is full: only a NUL in the data ends the string
      right
      have hpending : b'.view.pending = b.view.pending := by rw [hs.pending, List.append_nil]
      by_cases h0 : 0 ∈ b.view.pending
      · obtain ⟨hstrings, halloc⟩ := write_string dp x hput
          (Iobuf.cString_of_mem hb' (by rwa [hpending]))
        rw [hpending] at hstrings
        rw [if_pos h0]
        exact ⟨by rw [halloc]; exact hr, hstrings⟩
      · rw [write_noString dp x hput
          (Iobuf.cString_of_full hb' (Window.sputc_full hw) (by rwa [hpending])), if_neg h0]
        exact ⟨hr, (List.append_nil _).symm⟩

/-! ### Writing a list of chunks -/

variable {mem : ℤ → UInt8} {q : ℤ} {alloc : Allocator} {st : π} {chunks : List (List UInt8)}
  {w w' : Writer (DatahandlerPlainWriter π)}

/-- `streamWrite` only collects the bytes. -/
theorem streamWrite_apply (dp : ProviderWriterBase π) (s : List UInt8)
    (hw : w.writeFinished = false) :
    Writer.streamWrite (plugin dp) s w = match Iobuf.sputn s w.buf with
      | .ok n b => .ok n { w with buf := b, writes := w.writes ++ [false] }
      | .error e b => .error e { w with buf := b } := by
  rw [Writer.streamWrite_apply _ s hw]
  cases Iobuf.sputn s w.buf with
  | error e b => rfl
  | ok n b => rfl

/-- The state of a writer that has collected the bytes `s`. -/
structure Collected (s : List UInt8) (w w' : Writer (DatahandlerPlainWriter π)) : Prop where
  wf : w'.buf.WF
  unfinished : w'.writeFinished = false
  strings : w'.plugin.strings = w.plugin.strings
  puts : Window.Puts s w.buf.view w'.buf.view

theorem streamWriteAll_collected (hwf : w.buf.WF) (hw : w.writeFinished = false)
    (hrun : Writer.streamWriteAll (plugin dp) chunks w = .ok () w') :
    Collected chunks.flatten w w' := by
  induction chunks generalizing w with
  | nil =>
    cases hrun
    exact ⟨hwf, hw, rfl, .refl _⟩
  | cons s chunks ih =>
    rw [Writer.streamWriteAll, bind_apply, streamWrite_apply dp s hw] at hrun
    have hsim := Iobuf.sputn_simulates s w.buf hwf
    cases hput : Window.xsputn s w.buf.view with
    | error e v =>
      rw [hput] at hsim
      obtain ⟨b, hb, -⟩ := hsim.error_right
      rw [hb] at hrun
      cases hrun
    | ok n v =>
      rw [hput] at hsim
      obtain ⟨b, hb, hwf', rfl⟩ := hsim.ok_right
      rw [hb] at hrun
      obtain ⟨-, hputs⟩ := Window.xsputn_stores hput
      have hnext := ih (w := { w with buf := b, writes := w.writes ++ [false] }) hwf' hw hrun
      exact ⟨hnext.wf, hnext.unfinished, hnext.strings, hputs.trans hnext.puts⟩

/-- The strings that the provider of a plain writer is given. -/
theorem release_strings_iff (hrun : Writer.streamWriteAll (plugin dp) chunks
      (Writer.new (Iobuf.new mem q alloc) ⟨st, []⟩) = .ok () w) :
    (after (Writer.release (plugin dp) w)).plugin.strings = [chunks.flatten] ↔
      0 ∉ chunks.flatten ∧
        (after (Writer.release (plugin dp) w)).buf.alloc.refusals = alloc.refusals := by
  obtain ⟨hwf, -, hstrings, t, hstores, hall, hlost⟩ :=
    streamWriteAll_collected (Iobuf.new_wf mem q alloc) rfl hrun
  have hle : alloc.refusals ≤ w.buf.alloc.refusals := hstores.refusals
  have hpending : w.buf.view.pending = t := by
    rw [hstores.pending, Writer.new, Iobuf.new_pending, List.nil_append]
  have hshort : t.length ≤ chunks.flatten.length := by
    rcases hle.eq_or_lt with heq | hlt
    · rw [hall heq.symm]
    · exact (hlost hlt).le
  have htake := length_cStr_le t
  have hstrings' : w.plugin.strings = [] := hstrings
  obtain ⟨hbuf, hplugin⟩ := Writer.after_write (plugin dp) true { w with writeFinished := true }
  rw [Writer.release_apply, Writer.after_conclude, hbuf, hplugin]
  show (after (write dp true (w.buf, w.plugin))).2.strings = _ ↔
    _ ∧ (after (write dp true (w.buf, w.plugin))).1.alloc.refusals = _
  rcases write_final dp hwf w.plugin with ⟨hr, hs⟩ | ⟨hr, hs⟩ <;>
    rw [hr, hs, hstrings', hpending, List.nil_append]
  · rcases hle.eq_or_lt with heq | hlt
    · -- everything was stored: the string ends at the first NUL
      rw [hall heq.symm, ← cStr_eq_self_iff]
      simp [heq]
    · refine iff_of_false (fun heq => ?_) fun h => hlt.ne' h.2
      have := hlost hlt
      rw [← (List.cons.inj heq).1] at this
      omega
  · refine iff_of_false (fun heq => ?_) fun h => absurd h.2 (by omega)
    split_ifs at heq with h0
    · have hlt := length_cStr_lt h0
      rw [(List.cons.inj heq).1] at hlt
      omega

end DatahandlerPlainWriter

/-! ### Writing and reading back -/

section Roundtrip

variable {π ρ : Type} {dpw : ProviderWriterBase π} {dpr : ProviderReaderBase ρ}
  {mem mem' : ℤ → UInt8} {q q' : ℤ} {alloc alloc' : Allocator} {st : π} {data : ρ}
  {chunks : List (List UInt8)} {w : Writer (DatahandlerPlainWriter π)}
  {h : History UInt64 (List UInt8) Exn} {r : Reader ρ}

/-- **When writing and reading back is the identity**, for a reading session that has come to its
end. A session that has asked for nothing but negative sizes has read nothing. -/
theorem plain_roundtrip_iff
    (hwrite : Writer.streamWriteAll (DatahandlerPlainWriter.plugin dpw) chunks
      (Writer.new (Iobuf.new mem q alloc) ⟨st, []⟩) = .ok () w)
    (hs : Session (Reader.object (DatahandlerPlainReader.plugin dpr))
      (Reader.new (Iobuf.new mem' q' alloc') data) h r)
    (hthrew : r.out.threw = false) (hend : Reader.Ended h)
    (hdata : dpr.getData data = chunks.flatten) :
    ((after (Writer.release (DatahandlerPlainWriter.plugin dpw) w)).plugin.strings =
        [chunks.flatten] ∧ Reader.received h = chunks.flatten) ↔
      0 ∉ chunks.flatten ∧
        (after (Writer.release (DatahandlerPlainWriter.plugin dpw) w)).buf.alloc.refusals =
          alloc.refusals ∧
        r.out.buf.alloc.refusals = alloc'.refusals ∧
        (chunks.flatten = [] ∨ ∃ x ∈ h, x.1.toNat < 2 ^ 63) := by
  have hreceived := DatahandlerPlainReader.received_iff hs hthrew hend
  rw [hdata] at hreceived
  rw [DatahandlerPlainWriter.release_strings_iff hwrite, hreceived, and_assoc]

end Roundtrip

/-- A provider that keeps the string it was given last. -/
def textWriter : ProviderWriterBase (List UInt8) where
  setData s := do
    set s
    return true

def textReader : ProviderReaderBase (List UInt8) where
  getData s := s

/-- A NUL in the data: the provider gets what stands before it. -/
theorem plain_roundtrip_nul :
    ∃ w w', Writer.streamWriteAll (DatahandlerPlainWriter.plugin textWriter) [[97, 0, 98]]
        (Writer.new (Iobuf.new (fun _ => 0) 0 ⟨fun _ => none, 0⟩) ⟨[], []⟩) = .ok () w ∧
      Writer.release (DatahandlerPlainWriter.plugin textWriter) w = .ok true w' ∧
      w'.plugin.strings = [[97]] ∧ w'.plugin.strings ≠ [[97, 0, 98]] := by
  exact ⟨_, _, rfl, rfl, rfl, by decide⟩

/-- Two chunks without a NUL, read back byte by byte. -/
theorem plain_roundtrip_text :
    ∃ w h r, Writer.streamWriteAll (DatahandlerPlainWriter.plugin textWriter) [[97], [98]]
        (Writer.new (Iobuf.new (fun _ => 0) 0 ⟨fun _ => none, 0⟩) ⟨[], []⟩) = .ok () w ∧
      Session (Reader.object (DatahandlerPlainReader.plugin textReader))
        (Reader.new (Iobuf.new (fun _ => 0) 0 ⟨fun _ => none, 0⟩) [97, 98]) h r ∧
      Reader.received h = [97, 98] ∧
      (after (Writer.release (DatahandlerPlainWriter.plugin textWriter) w)).plugin.strings =
        [[97, 98]] := by
  have hpos : (0 : UInt64) < 1 := by decide
  have h₀ : Session (Reader.object (DatahandlerPlainReader.plugin textReader))
      (Reader.new (Iobuf.new (fun _ => 0) 0 ⟨fun _ => none, 0⟩) [97, 98]) [] _ := .start
  have h₁ := h₀.returned (c := 1) (r := [97]) hpos (by simp [Object.Alive]) rfl
  have h₂ := h₁.returned (c := 1) (r := [98]) hpos (by simp [Object.Alive]) rfl
  have h₃ := h₂.returned (c := 1) (r := []) hpos (by simp [Object.Alive]) rfl
  have hwrite : Writer.streamWriteAll (DatahandlerPlainWriter.plugin textWriter) [[97], [98]]
      (Writer.new (Iobuf.new (fun _ => 0) 0 ⟨fun _ => none, 0⟩) ⟨[], []⟩) = .ok () _ := rfl
  have hiff := plain_roundtrip_iff hwrite h₃ rfl ⟨_, 1, rfl⟩ rfl
  obtain ⟨hwritten, hread⟩ :=
    hiff.2 ⟨by decide, rfl, rfl, .inr ⟨_, List.mem_concat_self, by decide⟩⟩
  exact ⟨_, _, _, hwrite, h₃, hread, hwritten⟩

end Libgpsfile2
