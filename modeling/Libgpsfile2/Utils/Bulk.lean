import Libgpsfile2.Library.View
import Libgpsfile2.Utils.Exact

/-!
# The bulk put and the single puts

`xsputn` looks at the room for all of its bytes before it stores the first one, and calls `overflow`
for a byte that would still fit. `sputc` stores a byte as long as there is room. In the end both
have made room equally often: `makeRoom` does no harm when it comes early (`sputcAll_makeRoom`). So
a bulk put that returns, and for which no `realloc` was refused, leaves the same buffer as single
puts of its bytes, except that `egptr` may stand elsewhere (`sputn_sputcAll`).
-/

namespace Libgpsfile2

namespace Window

variable {β : Type} {w w' v : Window} {c : UInt8} {s : List UInt8}

/-- The bytes put one after the other, whatever `sputc` answers. -/
def sputcAll : List UInt8 → WindowM Unit
  | [] => return ()
  | c :: s => do
      let _ ← sputc c
      sputcAll s

/-! ### Where `egptr` stands does not matter to the puts -/

theorem sync_eq_iff : w.sync = v.sync ↔ w.behind = v.behind ∧ w.pending = v.pending ∧
    w.room = v.room ∧ w.shifted = v.shifted ∧ w.alloc = v.alloc := by
  simp [sync]

/-- The two runs answer the same and leave windows that differ in `egptr` only. -/
def Alike (r r' : EStateM.Result Exn Window β) : Prop :=
  outcome r = outcome r' ∧ (after r).sync = (after r').sync

theorem Alike.refl (r : EStateM.Result Exn Window β) : Alike r r := ⟨rfl, rfl⟩

theorem Alike.symm {r r' : EStateM.Result Exn Window β} (h : Alike r r') : Alike r' r :=
  ⟨h.1.symm, h.2.symm⟩

theorem Alike.trans {r₁ r₂ r₃ : EStateM.Result Exn Window β} (h : Alike r₁ r₂)
    (h' : Alike r₂ r₃) : Alike r₁ r₃ := ⟨h.1.trans h'.1, h.2.trans h'.2⟩

theorem makeRoom_sync (w : Window) : w.sync.makeRoom = w.makeRoom.sync := by
  have hbehind : w.sync.behind = w.behind := rfl
  unfold makeRoom
  rw [hbehind]
  by_cases hb : w.behind = []
  · rw [if_pos hb, if_pos hb]
    rfl
  · rw [if_neg hb, if_neg hb]
    rfl

theorem store_sync (c : UInt8) (w : Window) : (w.store c).sync = (w.push c).sync := by
  simp [store, push, sync, pending]

theorem sputc_sync (c : UInt8) (w : Window) : Alike (sputc c w.sync) (sputc c w) := by
  have hroom : w.sync.room = w.room := rfl
  have hrefuses : w.sync.Refuses ↔ w.Refuses := Iff.rfl
  unfold sputc overflow
  rw [hroom]
  by_cases h : 0 < w.room
  · rw [if_pos h, if_pos h]
    refine ⟨rfl, ?_⟩
    rw [after_ok, after_ok, store_sync, store_sync, push_sync]
  · rw [if_neg h, if_neg h]
    by_cases href : w.Refuses
    · rw [if_pos (hrefuses.2 href), if_pos href]
      exact ⟨rfl, by simp [sync, refused, pending]⟩
    · rw [if_neg (fun h => href (hrefuses.1 h)), if_neg href, makeRoom_sync, push_sync]
      exact .refl _

theorem sputc_respects (c : UInt8) : Respects sync (sputc c) := by
  intro w v h
  have hw := (sputc_sync c w).symm
  rw [h] at hw
  exact hw.trans (sputc_sync c v)

theorem sputcAll_respects (s : List UInt8) : Respects sync (sputcAll s) := by
  induction s with
  | nil => exact .pure ()
  | cons c s ih => exact .bind (sputc_respects c) fun _ => ih

/-! ### Making room early -/

theorem makeRoom_room (w : Window) : w.room < w.makeRoom.room := by
  unfold makeRoom
  split_ifs with hb
  · exact Nat.lt_add_of_pos_right (by decide)
  · exact Nat.lt_add_of_pos_right (List.length_pos_iff.2 hb)

/-- Room can be made before a byte is stored that fits, or after it. -/
theorem makeRoom_push (c : UInt8) (hroom : 0 < w.room) :
    (w.push c).makeRoom = w.makeRoom.push c := by
  unfold makeRoom
  by_cases hb : w.behind = []
  · rw [if_pos hb, if_pos (show (w.push c).behind = [] from hb)]
    simp only [grow, push, pending, Window.mk.injEq, true_and, and_true]
    omega
  · rw [if_neg hb, if_neg (show ¬ (w.push c).behind = [] from hb)]
    simp only [compact, push, pending, Window.mk.injEq, true_and, and_true]
    omega

theorem sputcAll_cons_fits (hroom : 0 < w.room) (c : UInt8) (s : List UInt8) :
    sputcAll (c :: s) w = sputcAll s (w.store c) := by
  rw [sputcAll, bind_apply, sputc, if_pos hroom]

/-- **Making room early does no harm**: single puts that will not all fit leave the same when room
was made before the first one. -/
theorem sputcAll_makeRoom (s : List UInt8) (w : Window) (hroom : w.room < s.length)
    (href : ¬ w.Refuses) : Alike (sputcAll s w.makeRoom) (sputcAll s w) := by
  induction s generalizing w with
  | nil => exact absurd hroom (Nat.not_lt_zero _)
  | cons c s ih =>
    have hmade : 0 < w.makeRoom.room := Nat.zero_lt_of_lt w.makeRoom_room
    rw [sputcAll_cons_fits hmade]
    by_cases hfits : 0 < w.room
    · -- the byte is stored in both cases, and room is made later in one of them
      rw [sputcAll_cons_fits hfits]
      have hlen : (w.push c).room < s.length := by
        rw [List.length_cons] at hroom
        show w.room - 1 < s.length
        omega
      have hih := ih (w.push c) hlen href
      rw [makeRoom_push c hfits] at hih
      have hstore := sputcAll_respects s _ _ (store_sync c w.makeRoom)
      have hstore' := sputcAll_respects s _ _ (store_sync c w).symm
      exact Alike.trans hstore (hih.trans hstore')
    · -- there is no room, and `overflow` makes it
      have hoverflow : sputc c w = .ok (toIntType c) (w.makeRoom.push c) := by
        simp only [sputc, overflow, intToChar_toIntType, if_neg hfits, if_neg href]
      rw [sputcAll, bind_apply, hoverflow]
      exact sputcAll_respects s _ _ (store_sync c w.makeRoom)

/-! ### The bulk put -/

theorem append_sync (s : List UInt8) (w : Window) :
    (w.append s).sync = { w with
      ready := w.pending ++ s
      hidden := []
      room := w.room - s.length } := by
  simp only [append, sync, pending, List.take_append_drop]

/-- Bytes that fit. -/
theorem sputcAll_of_fits (s : List UInt8) (w : Window) (hroom : s.length ≤ w.room) :
    Alike (sputcAll s w) (.ok () (w.append s)) := by
  induction s generalizing w with
  | nil =>
    refine ⟨rfl, ?_⟩
    rw [after_ok, append_sync, List.append_nil]
    rfl
  | cons c s ih =>
    rw [List.length_cons] at hroom
    rw [sputcAll_cons_fits (by omega)]
    have hlen : s.length ≤ (w.store c).room := by
      show s.length ≤ w.room - 1
      omega
    refine (ih (w.store c) hlen).trans ⟨rfl, ?_⟩
    rw [after_ok, after_ok, append_sync, append_sync]
    simp only [store, pending, List.length_cons, List.append_assoc, List.singleton_append,
      Window.mk.injEq, true_and, and_true]
    omega

/-- The loop of `xsputn`, when it comes to its end and no `realloc` was refused. -/
theorem xsputnLoop_sputcAll {rest : List UInt8} (h : xsputnLoop s w = .ok rest v)
    (href : v.alloc.refusals = w.alloc.refusals) : Alike (sputcAll s w) (sputcAll rest v) := by
  induction s generalizing w with
  | nil =>
    cases h
    exact .refl _
  | cons c s ih =>
    simp only [xsputnLoop] at h
    split_ifs at h with hroom hrefuses h255 hascii
    · cases h
      exact .refl _
    · -- this `realloc` was refused
      obtain ⟨-, hr⟩ := stores_refused _ hrefuses
      obtain ⟨t, ht, -⟩ := xsputnLoop_stores h
      have := ht.refusals
      omega
    · obtain ⟨-, hr⟩ := stores_overflow c _ hrefuses
      have hmade : 0 < w.makeRoom.room := Nat.zero_lt_of_lt w.makeRoom_room
      have hearly := (sputcAll_makeRoom (c :: s) w (Nat.not_le.1 hroom) hrefuses).symm
      rw [sputcAll_cons_fits hmade] at hearly
      have hstore := sputcAll_respects s _ _ (store_sync c w.makeRoom)
      exact hearly.trans (Alike.trans hstore (ih h (href.trans hr.symm)))

/-- **A bulk put** that returns, and for which no `realloc` was refused. -/
theorem xsputn_sputcAll {r : ℤ} (h : xsputn s w = .ok r v)
    (href : v.alloc.refusals = w.alloc.refusals) : Alike (sputcAll s w) (.ok () v) := by
  unfold xsputn at h
  split at h
  case h_1 rest w₁ hloop =>
    cases h
    refine (xsputnLoop_sputcAll hloop href).trans ?_
    exact sputcAll_of_fits rest w₁ (xsputnLoop_fits s hloop)
  case h_2 => cases h

end Window

namespace Iobuf

/-- The bytes put one after the other, whatever `sputc` answers. -/
def sputcAll : List UInt8 → IobufM Unit
  | [] => return ()
  | c :: s => do
      let _ ← sputc c
      sputcAll s

theorem sputcAll_simulates (s : List UInt8) :
    Simulates WF view (sputcAll s) (Window.sputcAll s) := by
  induction s with
  | nil => exact fun b hb => .ok () hb
  | cons c s ih =>
    intro b hb
    have hsim := sputc_simulates c b hb
    rw [sputcAll, Window.sputcAll, bind_apply, bind_apply]
    cases hput : Window.sputc c b.view with
    | ok r w =>
      rw [hput] at hsim
      obtain ⟨b', hb', hwf, rfl⟩ := hsim.ok_right
      rw [hb']
      exact ih b' hwf
    | error e w =>
      rw [hput] at hsim
      obtain ⟨b', hb', hwf, rfl⟩ := hsim.error_right
      rw [hb']
      exact .error e hwf

/-- The block holds what is remembered, what is pending, and the room. -/
theorem WF.size {b : Iobuf} (hb : b.WF) : b.size = b.view.stored + b.view.room := by
  have hpending := congrArg List.length hb.pending_view
  obtain ⟨hout, hblock, hsize, hbeg, hcur, hend, hroom⟩ := hb
  rw [length_slice] at hpending
  have hbehind : b.view.behind.length = (b.inCur - b.inBeg).toNat := by
    rw [view, List.length_reverse, length_slice]
  have hroom' : b.view.room = (b.outEnd - b.outCur).toNat := rfl
  unfold Window.stored
  omega

/-- **The bulk put does what single puts do.** After any session, a bulk put that returns, and for
which no `realloc` was refused, leaves the buffer that single puts of its bytes leave: the same
bytes are pending, as many were put and taken, `realloc` was called as often, and the block has the
same size. Only `egptr` may stand elsewhere. -/
theorem sputn_sputcAll {mem : ℤ → UInt8} {p : ℤ} {alloc : Allocator} {h : History Call Ret Exn}
    {b b' : Iobuf} (hs : Session object (new mem p alloc) h b) {s : List UInt8} {r : ℤ}
    (hput : sputn s b = .ok r b') (href : b'.alloc.refusals = b.alloc.refusals) :
    ∃ b'', sputcAll s b = .ok () b'' ∧ b''.view.sync = b'.view.sync ∧
      b''.getNumPut = b'.getNumPut ∧ b''.getNumGet = b'.getNumGet ∧ b''.size = b'.size := by
  have hwf := (session_wf (new_wf mem p alloc) hs).1
  have hsim := sputn_simulates s b hwf
  rw [hput] at hsim
  cases hv : Window.xsputn s b.view with
  | error e v =>
    rw [hv] at hsim
    cases hsim
  | ok r' v =>
    rw [hv] at hsim
    obtain ⟨b₁, hb₁, hwf', rfl⟩ := hsim.ok_right
    cases hb₁
    obtain ⟨hout, hsync⟩ := Window.xsputn_sputcAll hv href
    have hall := sputcAll_simulates s b hwf
    cases hw : Window.sputcAll s b.view with
    | error e w =>
      rw [hw] at hout
      cases hout
    | ok u w =>
      rw [hw] at hall hsync
      obtain ⟨b'', hb'', hwf'', rfl⟩ := hall.ok_right
      rw [after_ok, after_ok] at hsync
      obtain ⟨hbehind, hpending, hroom, hshifted, -⟩ := Window.sync_eq_iff.1 hsync
      refine ⟨b'', hb'', hsync, ?_, ?_, ?_⟩
      · rw [getNumPut_eq hwf'', getNumPut_eq hwf', Window.stored, Window.stored, hbehind, hpending,
          hshifted]
      · rw [getNumGet_eq hwf'', getNumGet_eq hwf', hbehind, hshifted]
      · rw [hwf''.size, hwf'.size, Window.stored, Window.stored, hbehind, hpending, hroom]

/-- Two bytes, in one put and in two. -/
theorem sputn_sputcAll_two :
    ∃ b' b'', sputn [97, 98] roomy = .ok 2 b' ∧ sputcAll [97, 98] roomy = .ok () b'' ∧
      b''.view.sync = b'.view.sync := by
  have hs : Session object roomy [] roomy := .start
  obtain ⟨b'', hall, hsync, -⟩ := sputn_sputcAll hs (s := [97, 98]) (r := 2) rfl rfl
  exact ⟨_, b'', rfl, hall, hsync⟩

end Iobuf

end Libgpsfile2
