import Libgpsfile2.Utils.Iobuf
import Libgpsfile2.Library.Simulation

/-!
# The buffer as lists

A `Window` is what an `Iobuf` means: the bytes `behind` the read position (latest first), the
bytes `ready` between `gptr` and `egptr`, the `hidden` bytes between `egptr` and `pptr`, which the
get area does not know of yet, and the `room` behind `pptr`. An `Iobuf` whose pointers are in
order (`WF`) has a window (`view`), and every member function does on the pointers what the
function of the same name here does on the lists (`…_simulates`). After this module nothing has
to look at an address again.
-/

namespace Libgpsfile2

/-- The contents of a buffer. -/
structure Window where
  behind : List UInt8
  ready : List UInt8
  hidden : List UInt8
  room : ℕ
  shifted : ℤ
  alloc : Allocator

/-- Programs over a `Window`. -/
abbrev WindowM := EStateM Exn Window

namespace Window

/-- The bytes not taken yet. -/
def pending (w : Window) : List UInt8 := w.ready ++ w.hidden

/-- The number of bytes in the buffer. -/
def stored (w : Window) : ℕ := w.behind.length + w.pending.length

/-- The first pending byte, as a read returns it. -/
def first : List UInt8 → ℤ
  | [] => eof
  | c :: _ => toIntType c

/-- `egptr` moved up to `pptr`. -/
def sync (w : Window) : Window :=
  { w with ready := w.pending, hidden := [] }

/-- `k` ready bytes taken. -/
def take (k : ℕ) (w : Window) : Window :=
  { w with behind := (w.ready.take k).reverse ++ w.behind, ready := w.ready.drop k }

/-- No more is taken than is ready. -/
theorem take_min (k : ℕ) (w : Window) : w.take (min k w.ready.length) = w.take k := by
  simp only [take, List.take_eq_take_min (i := k), List.drop_eq_drop_min (i := k)]

/-- The read position moved back over one byte, which becomes `c`. -/
def putBack (c : UInt8) (w : Window) : Window :=
  { w with behind := w.behind.tail, ready := c :: w.ready }

/-- A byte stored by the fast path of `sputc`. -/
def store (c : UInt8) (w : Window) : Window :=
  { w with hidden := w.hidden ++ [c], room := w.room - 1 }

/-- A byte stored by `overflow`. -/
def push (c : UInt8) (w : Window) : Window :=
  { w with ready := w.pending ++ [c], hidden := [], room := w.room - 1 }

/-- Bytes stored by the bulk copy of `xsputn`: `pptr` and `egptr` advance by their number. -/
def append (s : List UInt8) (w : Window) : Window :=
  { w with
    ready := (w.pending ++ s).take (w.ready.length + s.length)
    hidden := (w.pending ++ s).drop (w.ready.length + s.length)
    room := w.room - s.length }

/-- The pending bytes moved to the beginning of the buffer. -/
def compact (w : Window) : Window :=
  { w with
    behind := []
    room := w.room + w.behind.length
    shifted := w.shifted + w.behind.length }

/-- The buffer enlarged by a successful `realloc`. -/
def grow (w : Window) : Window :=
  { w with room := w.room + 1024, alloc := w.alloc.next }

/-- What `overflow` does before it stores its byte: it compacts the buffer when something has
been consumed, and enlarges it otherwise. -/
def makeRoom (w : Window) : Window := if w.behind = [] then w.grow else w.compact

/-- The buffer has to be enlarged, and `realloc` returns `NULL`. -/
def Refuses (w : Window) : Prop := w.behind = [] ∧ w.alloc.answers 0 = none

instance (w : Window) : Decidable w.Refuses := inferInstanceAs (Decidable (_ ∧ _))

/-- The buffer after a `realloc` that returned `NULL`. -/
def refused (w : Window) : Window := { w with alloc := w.alloc.next }

@[simp] theorem pending_sync (w : Window) : w.sync.pending = w.pending := by
  simp [pending, sync]

theorem push_sync (w : Window) (c : UInt8) : w.sync.push c = w.push c := by
  simp [push, pending, sync]

def overflow (c : ℤ) : WindowM ℤ := fun w =>
  if w.Refuses then .ok eof w.refused
  else .ok (toIntType (intToChar c)) (w.makeRoom.push (intToChar c))

/-- The exception `xsputn` throws. -/
def wrongCharacter : Exn := .runtimeError "Overflow returned the wrong character"

/-- The loop of `xsputn`. A byte that `overflow` stored is compared as a `char` with the
`unsigned char` that came back, which are equal for the ASCII bytes only. A byte that was not
stored is compared with `eof ()`, which is equal to the `char` `0xff`. -/
def xsputnLoop : List UInt8 → WindowM (List UInt8)
  | [], w => .ok [] w
  | c :: s, w =>
      if (c :: s).length ≤ w.room then .ok (c :: s) w
      else if w.Refuses then
        if c = 255 then xsputnLoop s w.refused else .error wrongCharacter w.refused
      else if c.toNat < 128 then xsputnLoop s (w.makeRoom.push c)
      else .error wrongCharacter (w.makeRoom.push c)

/-- What the loop leaves over fits into the buffer. -/
theorem xsputnLoop_fits (s : List UInt8) {w w' : Window} {rest : List UInt8}
    (h : xsputnLoop s w = .ok rest w') : rest.length ≤ w'.room := by
  induction s generalizing w with
  | nil =>
    cases h
    exact Nat.zero_le _
  | cons c s ih =>
    simp only [xsputnLoop] at h
    split_ifs at h with hroom
    · cases h
      exact hroom
    · exact ih h
    · exact ih h

def xsputn (s : List UInt8) : WindowM ℤ := fun w =>
  match xsputnLoop s w with
  | .ok rest w' => .ok s.length (w'.append rest)
  | .error e w' => .error e w'

def sputc (c : UInt8) : WindowM ℤ := fun w =>
  if 0 < w.room then .ok (toIntType c) (w.store c) else overflow (toIntType c) w

def xsgetn (n : ℤ) : WindowM (List UInt8) := fun w =>
  if n < 0 then .error .outOfBounds w else .ok (w.ready.take n.toNat) (w.take n.toNat)

def underflow : WindowM ℤ := fun w => .ok (first w.pending) w.sync

def sgetc : WindowM ℤ := fun w =>
  .ok (first w.pending) (if w.ready = [] then w.sync else w)

def sbumpc : WindowM ℤ := fun w =>
  .ok (first w.pending) ((if w.ready = [] then w.sync else w).take 1)

def sungetc : WindowM ℤ := fun w =>
  match w.behind with
  | [] => .ok eof w
  | c :: _ => .ok (toIntType c) (w.putBack c)

def sputbackc (c : UInt8) : WindowM ℤ := fun w =>
  match w.behind with
  | [] => .ok eof w
  | _ :: _ => .ok (toIntType c) (w.putBack c)

def pubsync : WindowM ℤ := fun w => .ok 0 w.sync

def consumeAllGet : WindowM Unit := fun w => .ok () (w.take w.ready.length)

end Window

namespace Iobuf

/-- The pointers are in order and the two areas share the block. -/
structure WF (b : Iobuf) : Prop where
  outBeg_eq : b.outBeg = b.inBeg
  block_eq : b.block = b.inBeg
  size_eq : b.block + b.size = b.outEnd
  beg_le : b.inBeg ≤ b.inCur
  cur_le : b.inCur ≤ b.inEnd
  end_le : b.inEnd ≤ b.outCur
  out_le : b.outCur ≤ b.outEnd

/-- The window of a buffer. -/
def view (b : Iobuf) : Window where
  behind := (slice b.mem b.inBeg b.inCur).reverse
  ready := slice b.mem b.inCur b.inEnd
  hidden := slice b.mem b.inEnd b.outCur
  room := (b.outEnd - b.outCur).toNat
  shifted := b.baseNumBuffer
  alloc := b.alloc

variable {b : Iobuf}

/-- The bytes that are in the buffer and not taken yet. -/
def pendingBytes (b : Iobuf) : List UInt8 := slice b.mem b.inCur b.outCur

theorem WF.pending_view (hb : b.WF) : b.view.pending = slice b.mem b.inCur b.outCur :=
  slice_append hb.cur_le hb.end_le

theorem WF.pendingBytes_eq (hb : b.WF) : b.pendingBytes = b.view.pending := hb.pending_view.symm

/-- `egptr` moved up to `pptr`. -/
theorem sync_spec (hb : b.WF) : ({ b with inEnd := b.outCur } : Iobuf).WF ∧
    ({ b with inEnd := b.outCur } : Iobuf).view = b.view.sync := by
  have hpending := hb.pending_view
  obtain ⟨hout, hblock, hsize, hbeg, hcur, hend, hroom⟩ := hb
  refine ⟨⟨hout, hblock, hsize, hbeg, hcur.trans hend, le_rfl, hroom⟩, ?_⟩
  simp only [Window.sync, hpending]
  simp only [view, slice_self]

theorem access_ok {p n : ℤ} (h : b.block ≤ p ∧ 0 ≤ n ∧ p + n ≤ b.block + b.size) :
    access p n b = .ok () b := by
  simp [access, inBlock, h]

theorem behind_view_eq_nil (hb : b.WF) : b.view.behind = [] ↔ b.inBeg = b.inCur := by
  have := hb.beg_le
  simp only [view, List.reverse_eq_nil_iff, slice_eq_nil_iff]
  omega

theorem access_error {p n : ℤ} (h : ¬ (b.block ≤ p ∧ 0 ≤ n ∧ p + n ≤ b.block + b.size)) :
    access p n b = .error .outOfBounds b := by
  unfold access
  rw [if_neg (by simpa only [inBlock, decide_eq_true_eq] using h)]

/-! ### The put area -/

/-- The tail of `overflow`, when there is room for its byte. -/
theorem overflowStore_matches (c : ℤ) (hb : b.WF) (hroom : b.outCur < b.outEnd) :
    Matches WF view (overflowStore c b)
      (.ok (toIntType (intToChar c)) (b.view.push (intToChar c))) := by
  have hpending := hb.pending_view
  obtain ⟨hout, hblock, hsize, hbeg, hcur, hend, -⟩ := hb
  have hacc : access b.outCur 1 b = .ok () b := access_ok (by omega)
  simp only [overflowStore, store, bind_apply, get_apply, modify_apply, pure_apply, hacc]
  refine .of_ok ?_ rfl ?_
  · constructor <;> simp only <;> omega
  · have hbehind := slice_update_of_le (m := b.mem) (a := b.inBeg) (intToChar c)
      (show b.inCur ≤ b.outCur by omega)
    have hready := slice_update_concat (m := b.mem) (intToChar c)
      (show b.inCur ≤ b.outCur by omega)
    simp only [Window.push, hpending]
    simp only [view, Window.mk.injEq, hbehind, hready, slice_self, true_and, and_true]
    omega

/-- The buffer after the pending bytes have been moved back to its beginning. -/
def compacted (b : Iobuf) : Iobuf :=
  { b with
    mem := move b.mem b.inBeg b.inCur (b.outCur - b.inCur)
    baseNumBuffer := b.baseNumBuffer + (b.inCur - b.inBeg)
    outCur := b.outCur - (b.inCur - b.inBeg)
    inCur := b.inBeg
    inEnd := b.outCur - (b.inCur - b.inBeg) }

/-- The buffer after `realloc` has enlarged it at the address `q`. -/
def grown (b : Iobuf) (q : ℤ) : Iobuf :=
  { b with
    mem := move b.mem q b.outBeg (min b.size (b.outEnd - b.outBeg + 1024))
    block := q
    size := b.outEnd - b.outBeg + 1024
    alloc := b.alloc.next
    inBeg := q
    inCur := q + (b.inCur - b.outBeg)
    inEnd := q + (b.outCur - b.outBeg)
    outBeg := q
    outCur := q + (b.outCur - b.outBeg)
    outEnd := q + (b.outEnd - b.outBeg) + 1024 }

theorem compacted_wf (hb : b.WF) : b.compacted.WF := by
  obtain ⟨hout, hblock, hsize, hbeg, hcur, hend, hroom⟩ := hb
  constructor <;> simp only [compacted] <;> omega

theorem compacted_view (hb : b.WF) : b.compacted.view = b.view.compact.sync := by
  have hpending := hb.pending_view
  obtain ⟨hout, hblock, hsize, hbeg, hcur, hend, hroom⟩ := hb
  have hmove := slice_move b.mem b.inBeg b.inCur le_rfl (le_refl (b.outCur - b.inCur))
  rw [add_zero, add_zero, show b.inCur + (b.outCur - b.inCur) = b.outCur by omega, ← hpending,
    show b.inBeg + (b.outCur - b.inCur) = b.outCur - (b.inCur - b.inBeg) by omega] at hmove
  simp only [view, compacted, Window.sync, Window.compact, Window.mk.injEq, slice_self,
    List.reverse_nil, hmove, List.length_reverse, length_slice]
  refine ⟨trivial, rfl, trivial, ?_, ?_, trivial⟩ <;> omega

theorem grown_wf (hb : b.WF) (q : ℤ) : (b.grown q).WF := by
  obtain ⟨hout, hblock, hsize, hbeg, hcur, hend, hroom⟩ := hb
  constructor <;> simp only [grown] <;> omega

theorem grown_view (hb : b.WF) (q : ℤ) : (b.grown q).view = b.view.grow.sync := by
  have hpending := hb.pending_view
  obtain ⟨hout, hblock, hsize, hbeg, hcur, hend, hroom⟩ := hb
  -- what stood at `x` stands at `q + (x - outBeg)` now
  have hmove : ∀ x y, b.outBeg ≤ x → y ≤ b.outCur →
      slice (b.grown q).mem (q + (x - b.outBeg)) (q + (y - b.outBeg)) = slice b.mem x y := by
    intro x y hx hy
    have := slice_move b.mem q b.outBeg (n := min b.size (b.outEnd - b.outBeg + 1024))
      (show 0 ≤ x - b.outBeg by omega) (show y - b.outBeg ≤ _ by omega)
    rwa [add_sub_cancel, add_sub_cancel] at this
  have hbehind := hmove b.outBeg b.inCur le_rfl (by omega)
  have hready := hmove b.inCur b.outCur (by omega) le_rfl
  rw [sub_self, add_zero, hout] at hbehind
  rw [← hpending] at hready
  simp only [view, Window.sync, Window.grow, Window.mk.injEq]
  refine ⟨congrArg _ ?_, ?_, slice_self _ _, ?_, rfl, rfl⟩
  · simpa only [grown, hout] using hbehind
  · exact hready
  · simp only [grown]; omega

/-- `overflow` on a buffer of which something has been consumed. It does not look at `egptr`. -/
theorem overflow_apply_compact (c : ℤ) (hb : ({ b with inEnd := b.outCur } : Iobuf).WF)
    (hc : b.inBeg < b.inCur) : overflow c b = overflowStore c b.compacted := by
  obtain ⟨hout, hblock, hsize, hbeg, hcur, -, hroom⟩ := hb
  simp only at hout hblock hsize hbeg hcur hroom
  have h1 : access b.inBeg (b.outCur - b.inCur) b = .ok () b := access_ok (by omega)
  have h2 : access b.inCur (b.outCur - b.inCur) b = .ok () b := access_ok (by omega)
  simp only [overflow, memmove, bind_apply, get_apply, modify_apply, if_pos hc, h1, h2, compacted]

/-- `overflow` on a buffer of which nothing has been consumed, when `realloc` succeeds. -/
theorem overflow_apply_grow (c : ℤ) (hc : ¬ b.inBeg < b.inCur) {q : ℤ}
    (ha : b.alloc.answers 0 = some q) : overflow c b = overflowStore c (b.grown q) := by
  simp only [overflow, realloc, bind_apply, get_apply, modify_apply, set_apply, pure_apply,
    if_neg hc, ha, grown]

theorem refuses_view (hb : b.WF) :
    b.view.Refuses ↔ b.inBeg = b.inCur ∧ b.alloc.answers 0 = none := by
  unfold Window.Refuses
  rw [behind_view_eq_nil hb]
  rfl

theorem overflow_simulates (c : ℤ) : Simulates WF view (overflow c) (Window.overflow c) := by
  intro b hb
  have hbeg := hb.beg_le
  have hroom := hb.out_le
  have hnil := behind_view_eq_nil hb
  -- the three branches of `overflow`: compaction, a refused `realloc`, growth
  by_cases hc : b.inBeg < b.inCur
  · rw [overflow_apply_compact c (sync_spec hb).1 hc, Window.overflow,
      if_neg (by rw [refuses_view hb]; omega), Window.makeRoom, if_neg (by rw [hnil]; omega),
      ← Window.push_sync, ← compacted_view hb]
    exact overflowStore_matches c (compacted_wf hb) (by simp only [compacted]; omega)
  · cases ha : b.alloc.answers 0 with
    | none =>
      simp only [overflow, realloc, bind_apply, get_apply, modify_apply, set_apply, pure_apply,
        if_neg hc, ha]
      unfold Window.overflow
      rw [if_pos (by rw [refuses_view hb]; exact ⟨by omega, ha⟩)]
      obtain ⟨hout, hblock, hsize, -, hcur, hend, -⟩ := hb
      refine .of_ok ?_ rfl ?_
      · constructor <;> simp only <;> omega
      · simp only [view, hout]
        rfl
    | some q =>
      rw [overflow_apply_grow c hc ha, Window.overflow,
        if_neg (by rw [refuses_view hb, ha]; simp), Window.makeRoom,
        if_pos (by rw [hnil]; omega), ← Window.push_sync, ← grown_view hb q]
      exact overflowStore_matches c (grown_wf hb q) (by simp only [grown]; omega)

theorem room_view (hb : b.WF) (n : ℕ) : b.outEnd - b.outCur < n ↔ b.view.room < n := by
  have := hb.out_le
  simp only [view]
  omega

theorem xsputnLoop_simulates (s : List UInt8) :
    Simulates WF view (xsputnLoop s) (Window.xsputnLoop s) := by
  induction s with
  | nil =>
    intro b hb
    have := hb.out_le
    simp only [xsputnLoop, bind_apply, get_apply,
      if_neg (show ¬ b.outEnd - b.outCur < 0 by omega), pure_apply]
    exact .ok [] hb
  | cons c s ih =>
    intro b hb
    have hroom := room_view hb (c :: s).length
    simp only [xsputnLoop, Window.xsputnLoop, bind_apply, get_apply]
    by_cases hlt : b.outEnd - b.outCur < (c :: s).length
    · rw [if_pos hlt, if_neg (not_le.2 (hroom.1 hlt))]
      -- one pass of the loop is one call of `overflow`, and keeps the pointers in order
      have hover := overflow_simulates (charToInt c) b hb
      simp only [Window.overflow, intToChar_charToInt] at hover
      by_cases href : b.view.Refuses
      · rw [if_pos href] at hover ⊢
        obtain ⟨b', hb', hwf, hview⟩ := hover.ok_right
        simp only [bind_apply, hb', ← hview]
        by_cases h255 : c = 255
        · rw [if_neg (not_not.2 ((charToInt_eq_eof_iff c).2 h255)), if_pos h255]
          exact ih b' hwf
        · rw [if_pos (fun h => h255 ((charToInt_eq_eof_iff c).1 h)), if_neg h255]
          exact .error _ hwf
      · rw [if_neg href] at hover ⊢
        obtain ⟨b', hb', hwf, hview⟩ := hover.ok_right
        simp only [bind_apply, hb', ← hview]
        by_cases hascii : c.toNat < 128
        · rw [if_neg (not_not.2 ((charToInt_eq_toIntType_iff c).2 hascii)), if_pos hascii]
          exact ih b' hwf
        · rw [if_pos (fun h => hascii ((charToInt_eq_toIntType_iff c).1 h)), if_neg hascii]
          exact .error _ hwf
    · rw [if_neg hlt, if_pos (not_lt.1 fun h => hlt (hroom.2 h))]
      exact .ok (c :: s) hb

theorem memcpyTo_matches (s : List UInt8) (hb : b.WF) (hs : s.length ≤ b.view.room) :
    ∃ b₁, memcpyTo b.outCur s b = .ok () b₁ ∧
      ({ b₁ with outCur := b₁.outCur + s.length, inEnd := b₁.inEnd + s.length } : Iobuf).WF ∧
      ({ b₁ with outCur := b₁.outCur + s.length, inEnd := b₁.inEnd + s.length } : Iobuf).view =
        b.view.append s := by
  have hpending := hb.pending_view
  obtain ⟨hout, hblock, hsize, hbeg, hcur, hend, hroom⟩ := hb
  have hacc : access b.outCur s.length b = .ok () b := by
    refine access_ok ⟨by omega, by omega, ?_⟩
    simp only [view] at hs
    omega
  refine ⟨{ b with mem := blit b.mem b.outCur s }, ?_, ?_, ?_⟩
  · simp only [memcpyTo, bind_apply, modify_apply, hacc]
  · simp only [view] at hs
    constructor <;> simp only <;> omega
  · -- the bytes behind `gptr` are the pending ones and `s`, cut where `egptr` now stands
    have hall : slice (blit b.mem b.outCur s) b.inCur (b.outCur + s.length) =
        b.view.pending ++ s := by
      rw [hpending, ← slice_append (b := b.outCur) (by omega) (by omega), slice_blit,
        slice_blit_of_le s le_rfl]
    have hbehind : slice (blit b.mem b.outCur s) b.inBeg b.inCur = slice b.mem b.inBeg b.inCur :=
      slice_blit_of_le s (by omega)
    have hlen : b.view.ready.length + s.length = (b.inEnd + s.length - b.inCur).toNat := by
      simp only [view, length_slice]; omega
    have hready := take_slice (blit b.mem b.outCur s) b.inCur (b.outCur + s.length)
      (b.view.ready.length + s.length)
    have hhidden := drop_slice (blit b.mem b.outCur s) b.inCur (b.outCur + s.length)
      (b.view.ready.length + s.length)
    rw [hall] at hready hhidden
    simp only [Window.append, hready, hhidden]
    simp only [view, Window.mk.injEq, hbehind, length_slice]
    refine ⟨trivial, ?_, ?_, by omega, trivial, trivial⟩
    · congr 1; push_cast; omega
    · congr 1; push_cast; omega

theorem xsputn_simulates (s : List UInt8) :
    Simulates WF view (xsputn s) (Window.xsputn s) := by
  intro b hb
  have hloop := xsputnLoop_simulates s b hb
  simp only [xsputn, Window.xsputn, bind_apply, get_apply, modify_apply, pure_apply]
  cases hw : Window.xsputnLoop s b.view with
  | error e w =>
    rw [hw] at hloop
    obtain ⟨b', hb', hwf, hview⟩ := hloop.error_right
    rw [hb', ← hview]
    exact .error e hwf
  | ok rest w =>
    rw [hw] at hloop
    obtain ⟨b', hb', hwf, hview⟩ := hloop.ok_right
    have hfits : rest.length ≤ b'.view.room := by
      rw [hview]; exact Window.xsputnLoop_fits s hw
    obtain ⟨b₁, hcopy, hwf₁, hview₁⟩ := memcpyTo_matches rest hwf hfits
    simp only [hb', hcopy, ← hview]
    exact .of_ok hwf₁ rfl hview₁

theorem sputn_simulates (s : List UInt8) : Simulates WF view (sputn s) (Window.xsputn s) :=
  xsputn_simulates s

theorem sputc_simulates (c : UInt8) : Simulates WF view (sputc c) (Window.sputc c) := by
  intro b hb
  have hroom := room_view hb 1
  simp only [sputc, Window.sputc, bind_apply, get_apply]
  by_cases hlt : b.outCur < b.outEnd
  · rw [if_pos hlt, if_pos (by simp only [view]; omega)]
    obtain ⟨hout, hblock, hsize, hbeg, hcur, hend, -⟩ := hb
    have hacc : access b.outCur 1 b = .ok () b := access_ok (by omega)
    simp only [store, bind_apply, modify_apply, pure_apply, hacc]
    refine .of_ok ?_ rfl ?_
    · constructor <;> simp only <;> omega
    · have hbehind := slice_update_of_le (m := b.mem) (a := b.inBeg) c
        (show b.inCur ≤ b.outCur by omega)
      have hready := slice_update_of_le (m := b.mem) (a := b.inCur) c hend
      have hhidden := slice_update_concat (m := b.mem) c hend
      simp only [view, Window.store, Window.mk.injEq, hbehind, hready, hhidden, true_and, and_true]
      omega
  · rw [if_neg hlt, if_neg (by simp only [view]; omega)]
    exact overflow_simulates _ b hb

/-! ### The get area -/

/-- Every byte between `gptr` and `pptr` can be read. -/
theorem load_apply {p : ℤ} (hb : b.WF) (hp : b.inBeg ≤ p ∧ p < b.outCur) :
    load p b = .ok (b.mem p) b := by
  obtain ⟨hout, hblock, hsize, hbeg, hcur, hend, hroom⟩ := hb
  have hacc : access p 1 b = .ok () b := access_ok (by omega)
  simp only [load, bind_apply, get_apply, pure_apply, hacc]

/-- `gptr` advanced over ready bytes. -/
theorem take_spec (hb : b.WF) {n : ℤ} (hn : 0 ≤ n) (hle : b.inCur + n ≤ b.inEnd) :
    ({ b with inCur := b.inCur + n } : Iobuf).WF ∧
      ({ b with inCur := b.inCur + n } : Iobuf).view = b.view.take n.toNat := by
  obtain ⟨hout, hblock, hsize, hbeg, hcur, hend, hroom⟩ := hb
  refine ⟨⟨hout, hblock, hsize, by simp only; omega, hle, hend, hroom⟩, ?_⟩
  have htake := take_slice b.mem b.inCur b.inEnd n.toNat
  rw [show min (b.inCur + (n.toNat : ℤ)) b.inEnd = b.inCur + n by omega] at htake
  have hdrop := drop_slice b.mem b.inCur b.inEnd n.toNat
  rw [show b.inCur + (n.toNat : ℤ) = b.inCur + n by omega] at hdrop
  simp only [view, Window.take, htake, hdrop, ← List.reverse_append]
  rw [slice_append hbeg (by omega)]

/-- `gptr` moved back over one byte, which is overwritten with `c`. -/
theorem putBack_spec (hb : b.WF) (hlt : b.inBeg < b.inCur) (c : UInt8) :
    ({ b with inCur := b.inCur - 1, mem := Function.update b.mem (b.inCur - 1) c } : Iobuf).WF ∧
      ({ b with inCur := b.inCur - 1, mem := Function.update b.mem (b.inCur - 1) c } : Iobuf).view
        = b.view.putBack c := by
  obtain ⟨hout, hblock, hsize, hbeg, hcur, hend, hroom⟩ := hb
  refine ⟨⟨hout, hblock, hsize, by simp only; omega, by simp only; omega, hend, hroom⟩, ?_⟩
  have hbehind : slice b.mem b.inBeg b.inCur =
      slice b.mem b.inBeg (b.inCur - 1) ++ [b.mem (b.inCur - 1)] := by
    have := slice_concat (m := b.mem) (show b.inBeg ≤ b.inCur - 1 by omega)
    rwa [sub_add_cancel] at this
  have hready := slice_cons (m := Function.update b.mem (b.inCur - 1) c)
    (show b.inCur - 1 < b.inEnd by omega)
  rw [Function.update_self, sub_add_cancel,
    slice_update_of_lt (a := b.inCur) (b := b.inEnd) c (by omega)] at hready
  simp only [view, Window.putBack, hbehind, hready, List.reverse_append, List.reverse_singleton,
    List.singleton_append, List.tail_cons, Window.mk.injEq, true_and, and_true]
  exact ⟨congrArg _ (slice_update_of_le c le_rfl), slice_update_of_lt c (by omega)⟩

theorem first_slice {p q : ℤ} (h : p < q) :
    Window.first (slice b.mem p q) = toIntType (b.mem p) := by
  rw [slice_cons h]
  rfl

theorem ready_view_eq_nil (hb : b.WF) : b.view.ready = [] ↔ b.inCur = b.inEnd := by
  have := hb.cur_le
  simp only [view, slice_eq_nil_iff]
  omega

theorem underflow_simulates : Simulates WF view underflow Window.underflow := by
  intro b hb
  obtain ⟨hwf, hview⟩ := sync_spec hb
  have hle := hb.cur_le.trans hb.end_le
  have hbeg := hb.beg_le
  simp only [underflow, Window.underflow, bind_apply, get_apply, modify_apply, hb.pending_view]
  by_cases heq : b.inCur = b.outCur
  · rw [if_pos heq]
    refine .of_ok hwf ?_ hview
    rw [heq, slice_self]
    rfl
  · have hlt : b.inCur < b.outCur := by omega
    simp only [if_neg heq, bind_apply, pure_apply, load_apply hwf ⟨hbeg, hlt⟩]
    exact .of_ok hwf (first_slice hlt).symm hview

theorem sgetc_simulates : Simulates WF view sgetc Window.sgetc := by
  intro b hb
  have hend := hb.end_le
  have hcur := hb.cur_le
  have hnil := ready_view_eq_nil hb
  simp only [sgetc, Window.sgetc, bind_apply, get_apply]
  by_cases hlt : b.inCur < b.inEnd
  · rw [if_pos hlt, if_neg (by rw [hnil]; omega), hb.pending_view]
    simp only [bind_apply, pure_apply, load_apply hb (p := b.inCur) ⟨hb.beg_le, by omega⟩]
    exact .of_ok hb (first_slice (by omega)).symm rfl
  · rw [if_neg hlt, if_pos (by rw [hnil]; omega)]
    exact underflow_simulates b hb

theorem uflow_simulates :
    Simulates WF view uflow (fun w => .ok (Window.first w.pending) (w.sync.take 1)) := by
  intro b hb
  obtain ⟨b', hb', hwf, hview⟩ := (underflow_simulates b hb).ok_right
  simp only [uflow, bind_apply, hb']
  by_cases hp : b.view.pending = []
  · have hfirst : Window.first b.view.pending = eof := by rw [hp]; rfl
    rw [if_pos hfirst, hfirst]
    refine .of_ok hwf rfl ?_
    simp [hview, Window.sync, Window.take, hp]
  · -- `underflow` has moved `egptr`, so that the byte it saw is ready
    obtain ⟨c, s, hcs⟩ := List.exists_cons_of_ne_nil hp
    have hfirst : Window.first b.view.pending = toIntType c := by rw [hcs]; rfl
    have hready : slice b'.mem b'.inCur b'.inEnd = c :: s := by
      rw [← hcs, show slice b'.mem b'.inCur b'.inEnd = b'.view.ready from rfl, hview]
      rfl
    have hlt : b'.inCur < b'.inEnd := by
      by_contra hle
      rw [slice_eq_nil_iff.2 (by omega)] at hready
      cases hready
    have hc : b'.mem b'.inCur = c := by
      rw [slice_cons hlt] at hready
      exact (List.cons.inj hready).1
    have htake := take_spec hwf (n := 1) (by omega) (by omega)
    rw [hfirst, if_neg (toIntType_ne_eof c)]
    simp only [bind_apply, get_apply, modify_apply, pure_apply,
      load_apply hwf (p := b'.inCur) ⟨hwf.beg_le, hlt.trans_le hwf.end_le⟩, hc]
    exact .of_ok htake.1 rfl (by rw [htake.2, hview]; rfl)

theorem sbumpc_simulates : Simulates WF view sbumpc Window.sbumpc := by
  intro b hb
  have hend := hb.end_le
  have hcur := hb.cur_le
  have hnil := ready_view_eq_nil hb
  simp only [sbumpc, Window.sbumpc, bind_apply, get_apply]
  by_cases hlt : b.inCur < b.inEnd
  · rw [if_pos hlt, if_neg (by rw [hnil]; omega), hb.pending_view]
    simp only [bind_apply, modify_apply, pure_apply,
      load_apply hb (p := b.inCur) ⟨hb.beg_le, by omega⟩]
    have htake := take_spec hb (n := 1) (by omega) (by omega)
    exact .of_ok htake.1 (first_slice (by omega)).symm htake.2
  · rw [if_neg hlt, if_pos (by rw [hnil]; omega)]
    exact uflow_simulates b hb

theorem xsgetn_simulates (n : ℤ) : Simulates WF view (xsgetn n) (Window.xsgetn n) := by
  intro b hb
  obtain ⟨hout, hblock, hsize, hbeg, hcur, hend, hroom⟩ := id hb
  simp only [xsgetn, Window.xsgetn, memcpyFrom, bind_apply, get_apply, modify_apply, pure_apply]
  by_cases hn : n < 0
  · have hacc : access b.inCur (min n (b.inEnd - b.inCur)) b = .error .outOfBounds b :=
      access_error (by omega)
    simp only [hacc, if_pos hn]
    exact .error _ hb
  · have hacc : access b.inCur (min n (b.inEnd - b.inCur)) b = .ok () b := access_ok (by omega)
    have htake := take_spec hb (n := min n (b.inEnd - b.inCur)) (by omega) (by omega)
    have hready : b.view.ready.take n.toNat =
        slice b.mem b.inCur (b.inCur + min n (b.inEnd - b.inCur)) := by
      rw [show b.view.ready = slice b.mem b.inCur b.inEnd from rfl, take_slice]
      congr 1
      omega
    simp only [hacc, if_neg hn]
    refine .of_ok htake.1 hready.symm ?_
    rw [htake.2, ← Window.take_min n.toNat,
      show b.view.ready.length = (b.inEnd - b.inCur).toNat from length_slice _ _ _]
    congr 1
    omega

theorem sgetn_simulates (n : ℤ) : Simulates WF view (sgetn n) (Window.xsgetn n) :=
  xsgetn_simulates n

/-- `pbackfail` on a buffer with a byte behind the read position. -/
theorem pbackfail_matches (c : ℤ) (hb : b.WF) (hlt : b.inBeg < b.inCur) :
    Matches WF view (pbackfail c b)
      (.ok (toIntType (intToChar c)) (b.view.putBack (intToChar c))) := by
  obtain ⟨hwf, hview⟩ := putBack_spec hb hlt (intToChar c)
  obtain ⟨hout, hblock, hsize, hbeg, hcur, hend, hroom⟩ := hb
  have hacc : access (b.inCur - 1) 1 { b with inCur := b.inCur - 1 } =
      .ok () { b with inCur := b.inCur - 1 } := access_ok (by simp only; omega)
  simp only [pbackfail, store, bind_apply, get_apply, modify_apply, pure_apply, if_pos hlt, hacc]
  exact .of_ok hwf rfl hview

/-- The byte before the read position is the first one behind it. -/
theorem behind_view_cons (hlt : b.inBeg < b.inCur) :
    b.view.behind = b.mem (b.inCur - 1) :: (slice b.mem b.inBeg (b.inCur - 1)).reverse := by
  have hconcat := slice_concat (m := b.mem) (show b.inBeg ≤ b.inCur - 1 by omega)
  rw [sub_add_cancel] at hconcat
  simp only [view, hconcat, List.reverse_append, List.reverse_singleton, List.singleton_append]

theorem sungetc_simulates : Simulates WF view sungetc Window.sungetc := by
  intro b hb
  simp only [sungetc, Window.sungetc, bind_apply, get_apply]
  by_cases hlt : b.inBeg < b.inCur
  · obtain ⟨hwf, hview⟩ := putBack_spec hb hlt (b.mem (b.inCur - 1))
    rw [Function.update_eq_self] at hwf hview
    have hle := hb.cur_le.trans hb.end_le
    simp only [if_pos hlt, behind_view_cons hlt, bind_apply, get_apply, modify_apply, pure_apply,
      load_apply hwf (p := b.inCur - 1) ⟨by simp only; omega, by simp only; omega⟩]
    exact .of_ok hwf rfl hview
  · have hnil : b.view.behind = [] := (behind_view_eq_nil hb).2 (by have := hb.beg_le; omega)
    simp only [if_neg hlt, hnil, pbackfail, bind_apply, get_apply, pure_apply]
    exact .ok _ hb

theorem sputbackc_simulates (c : UInt8) :
    Simulates WF view (sputbackc c) (Window.sputbackc c) := by
  intro b hb
  simp only [sputbackc, Window.sputbackc, bind_apply, get_apply]
  by_cases hlt : b.inBeg < b.inCur
  · have hle := hb.cur_le.trans hb.end_le
    simp only [if_pos hlt, behind_view_cons hlt, bind_apply,
      load_apply hb (p := b.inCur - 1) ⟨by omega, by omega⟩]
    by_cases hc : c = b.mem (b.inCur - 1)
    · -- the byte is there already: the fast path of the base class
      obtain ⟨hwf, hview⟩ := putBack_spec hb hlt (b.mem (b.inCur - 1))
      rw [Function.update_eq_self] at hwf hview
      simp only [if_pos hc, bind_apply, get_apply, modify_apply, pure_apply,
        load_apply hwf (p := b.inCur - 1) ⟨by simp only; omega, by simp only; omega⟩]
      exact .of_ok hwf (by rw [hc]) (by rw [hview, hc])
    · rw [if_neg hc]
      have := pbackfail_matches (toIntType c) hb hlt
      rwa [intToChar_toIntType] at this
  · have hnil : b.view.behind = [] := (behind_view_eq_nil hb).2 (by have := hb.beg_le; omega)
    simp only [if_neg hlt, hnil, pbackfail, bind_apply, get_apply, pure_apply]
    exact .ok _ hb

theorem pubsync_simulates : Simulates WF view pubsync Window.pubsync := by
  intro b hb
  obtain ⟨hwf, hview⟩ := sync_spec hb
  exact .of_ok hwf rfl hview

theorem consumeAllGet_simulates : Simulates WF view consumeAllGet Window.consumeAllGet := by
  intro b hb
  have hcur := hb.cur_le
  have htake := take_spec hb (n := b.inEnd - b.inCur) (by omega) (by omega)
  simp only [add_sub_cancel] at htake
  refine .of_ok htake.1 rfl ?_
  rw [htake.2]
  simp only [view, length_slice]

theorem consumeGet_matches {n : ℤ} (hb : b.WF) (hn : 0 ≤ n) (hle : n ≤ b.inEnd - b.inCur) :
    Matches WF view (consumeGet n b) (.ok () (b.view.take n.toNat)) := by
  have htake := take_spec hb hn (by omega)
  exact .of_ok htake.1 rfl htake.2

/-! ### Counters -/

theorem showmanyc_eq (hb : b.WF) : b.showmanyc = b.view.pending.length := by
  have := hb.cur_le.trans hb.end_le
  rw [hb.pending_view, length_slice, showmanyc]
  omega

theorem getNumPut_eq (hb : b.WF) : b.getNumPut = b.view.shifted + b.view.stored := by
  obtain ⟨hout, hblock, hsize, hbeg, hcur, hend, hroom⟩ := id hb
  unfold Window.stored
  rw [hb.pending_view, getNumPut]
  simp only [view, List.length_reverse, length_slice]
  omega

theorem getNumGet_eq (hb : b.WF) : b.getNumGet = b.view.shifted + b.view.behind.length := by
  have := hb.beg_le
  simp only [view, getNumGet, List.length_reverse, length_slice]
  omega

theorem inAvail_eq (hb : b.WF) : b.inAvail =
    if b.view.ready = [] then (b.view.hidden.length : ℤ) else b.view.ready.length := by
  have hnil := ready_view_eq_nil hb
  obtain ⟨hout, hblock, hsize, hbeg, hcur, hend, hroom⟩ := id hb
  by_cases heq : b.inCur = b.inEnd
  · unfold inAvail
    rw [if_neg (by omega), if_pos (hnil.2 heq), showmanyc]
    simp only [view, length_slice]
    omega
  · unfold inAvail
    rw [if_pos (by omega), if_neg (by rwa [hnil])]
    simp only [view, length_slice]
    omega

end Iobuf

end Libgpsfile2
