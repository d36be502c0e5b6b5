import Libgpsfile2.Utils.Bulk

/-!
# How large the block becomes

`overflow` enlarges the block by 1024 bytes, and only when nothing in it has been consumed; nothing
makes it smaller again. So the block becomes larger for bytes that are pending at one time, not for
bytes that come through: `size_le`.
-/

namespace Libgpsfile2

namespace Window

variable {w w' : Window} {c : UInt8} {s : List UInt8}

/-- The size of the block. -/
def size (w : Window) : ℕ := w.stored + w.room

theorem size_take (k : ℕ) (w : Window) : (w.take k).size = w.size := by
  simp only [size, stored, take, pending, List.length_append, List.length_reverse,
    List.length_take, List.length_drop]
  omega

theorem size_sync (w : Window) : w.sync.size = w.size := by
  simp only [size, stored, pending_sync]
  rfl

theorem size_putBack (c : UInt8) (hb : w.behind ≠ []) : (w.putBack c).size = w.size := by
  have hlen := List.length_pos_iff.2 hb
  simp only [size, stored, putBack, pending, List.length_append, List.length_tail,
    List.length_cons]
  omega

theorem size_store (c : UInt8) (hroom : 0 < w.room) : (w.store c).size = w.size := by
  simp only [size, stored, store, pending, List.length_append, List.length_singleton]
  omega

theorem size_push (c : UInt8) (hroom : 0 < w.room) : (w.push c).size = w.size := by
  simp only [size, stored, push, pending, List.length_append, List.length_singleton,
    List.length_nil]
  omega

theorem size_append (hroom : s.length ≤ w.room) : (w.append s).size = w.size := by
  have hpending := (stores_append s w).pending
  simp only [size, stored, hpending, List.length_append]
  simp only [append]
  omega

/-- Room is made inside of the block, or the block grows, and holds pending bytes only. -/
theorem size_makeRoom (w : Window) : w.size ≤ w.makeRoom.size ∧
    (w.makeRoom.size = w.size ∨ w.makeRoom.size = w.pending.length + w.room + 1024) := by
  unfold makeRoom
  split_ifs with hb
  · have hsize : w.size = w.pending.length + w.room := by simp [size, stored, hb]
    have hgrow : w.grow.size = w.size + 1024 := by
      simp only [size, stored, grow, pending]
      omega
    omega
  · have hcompact : w.compact.size = w.size := by
      simp only [size, stored, compact, pending, List.length_nil]
      omega
    omega

/-- The block grows for `n` pending bytes at most. -/
def Grows (n : ℕ) (w w' : Window) : Prop :=
  w.size ≤ w'.size ∧ (w'.size = w.size ∨ w'.size ≤ n + 1023)

theorem Grows.refl (n : ℕ) (w : Window) : Grows n w w := ⟨le_rfl, .inl rfl⟩

theorem Grows.of_eq (n : ℕ) (h : w'.size = w.size) : Grows n w w' := ⟨h.ge, .inl h⟩

/-- `overflow`, when it has stored its byte. -/
theorem grows_overflow (c : UInt8) {n : ℕ} (hn : w.pending.length + w.room < n) :
    Grows n w (w.makeRoom.push c) := by
  obtain ⟨hle, hsize⟩ := size_makeRoom w
  have hpush := size_push c (Nat.zero_lt_of_lt w.makeRoom_room)
  unfold Grows
  rw [hpush]
  omega

/-- The loop of `xsputn`. -/
theorem grows_xsputnLoop (s : List UInt8) (w : Window) :
    Grows (w.pending.length + s.length) w (after (xsputnLoop s w)) := by
  induction s generalizing w with
  | nil => exact .refl _ w
  | cons c s ih =>
    rw [xsputnLoop]
    split_ifs with hroom hrefuses h255 hascii
    · exact .refl _ w
    · -- nothing was stored, and one byte less is to come
      have hih := ih w.refused
      have hpending : w.refused.pending = w.pending := rfl
      have hsize : w.refused.size = w.size := rfl
      unfold Grows at hih ⊢
      rw [hpending, hsize] at hih
      rw [List.length_cons]
      omega
    · exact .refl _ w
    · -- one byte more is pending, and one byte less is to come
      have hover := grows_overflow c (w := w) (n := w.pending.length + (c :: s).length) (by omega)
      have hih := ih (w.makeRoom.push c)
      have hpending := congrArg List.length (stores_overflow c w hrefuses).1.pending
      rw [List.length_append, List.length_singleton] at hpending
      unfold Grows at hover hih ⊢
      rw [hpending] at hih
      rw [List.length_cons] at hover ⊢
      omega
    · exact grows_overflow c (by omega)

theorem grows_xsputn (s : List UInt8) (w : Window) :
    Grows (w.pending.length + s.length) w (after (xsputn s w)) := by
  have hloop := grows_xsputnLoop s w
  unfold xsputn
  cases hrun : xsputnLoop s w with
  | error e w' =>
    rw [hrun] at hloop
    exact hloop
  | ok rest w' =>
    rw [hrun, after_ok] at hloop
    show Grows _ w (w'.append rest)
    unfold Grows
    rw [size_append (xsputnLoop_fits s hrun)]
    exact hloop

theorem grows_sputc (c : UInt8) (w : Window) :
    Grows (w.pending.length + 1) w (after (sputc c w)) := by
  unfold sputc overflow
  split_ifs with hroom hrefuses
  · exact .of_eq _ (size_store c hroom)
  · exact .refl _ w
  · rw [intToChar_toIntType]
    exact grows_overflow c (by omega)

end Window

namespace Iobuf

variable {b : Iobuf} {α : Type}

theorem size_view (hb : b.WF) : b.size = b.view.size := by
  rw [hb.size, Window.size]
  norm_cast

/-- The window after a call. -/
def Call.window : Call → Window → Window
  | .sputc c, w => after (Window.sputc c w)
  | .sputn s, w => after (Window.xsputn s w)
  | .sgetc, w => after (Window.sgetc w)
  | .sbumpc, w => after (Window.sbumpc w)
  | .sgetn n, w => after (Window.xsgetn n w)
  | .sungetc, w => after (Window.sungetc w)
  | .sputbackc c, w => after (Window.sputbackc c w)
  | .pubsync, w => after (Window.pubsync w)
  | .consumeAllGet, w => after (Window.consumeAllGet w)
  | .consumeGet n, w => w.take n.toNat

theorem run_window (c : Call) (hb : b.WF) (hc : c.Permitted b) :
    (after (c.run b)).view = c.window b.view := by
  -- what a call returns is made of what its member function returns
  have hcall : ∀ {α : Type} {m : IobufM α} {m' : WindowM α} (f : α → Ret),
      Simulates WF view m m' →
      (after ((do return f (← m) : IobufM Ret) b)).view = after (m' b.view) := by
    intro α m m' f h
    rw [after_bind_pure]
    exact (h b hb).after.2
  cases c with
  | sputc c => exact hcall .int (sputc_simulates c)
  | sputn s => exact hcall .int (sputn_simulates s)
  | sgetc => exact hcall .int sgetc_simulates
  | sbumpc => exact hcall .int sbumpc_simulates
  | sgetn n => exact hcall .bytes (sgetn_simulates n)
  | sungetc => exact hcall .int sungetc_simulates
  | sputbackc c => exact hcall .int (sputbackc_simulates c)
  | pubsync => exact hcall .int pubsync_simulates
  | consumeAllGet =>
    obtain ⟨b', hb', -, hview⟩ := (consumeAllGet_simulates b hb).ok_right
    simp only [Call.run, bind_apply, get_apply, hb']
    exact hview
  | consumeGet n => exact (consumeGet_matches hb hc.1 hc.2).after.2

/-- A call enlarges the block for the bytes that are pending and that it puts, if at all. -/
theorem run_grows (c : Call) (hb : b.WF) (hc : c.Permitted b) :
    Window.Grows (b.view.pending.length + c.puts.length) b.view (after (c.run b)).view := by
  rw [run_window c hb hc]
  have hsync : (if b.view.ready = [] then b.view.sync else b.view).size = b.view.size := by
    split_ifs
    · exact Window.size_sync _
    · rfl
  cases c with
  | sputc c => exact Window.grows_sputc c b.view
  | sputn s => exact Window.grows_xsputn s b.view
  | sgetc => exact .of_eq _ hsync
  | sbumpc => exact .of_eq _ ((Window.size_take 1 _).trans hsync)
  | sgetn n =>
    show Window.Grows _ _ (after (Window.xsgetn n b.view))
    unfold Window.xsgetn
    rw [if_neg (by omega)]
    exact .of_eq _ (Window.size_take _ _)
  | sungetc =>
    show Window.Grows _ _ (after (Window.sungetc b.view))
    unfold Window.sungetc
    split
    case h_1 => exact .refl _ _
    case h_2 d t hbehind => exact .of_eq _ (Window.size_putBack d (by simp [hbehind]))
  | sputbackc c =>
    show Window.Grows _ _ (after (Window.sputbackc c b.view))
    unfold Window.sputbackc
    split
    case h_1 => exact .refl _ _
    case h_2 d t hbehind => exact .of_eq _ (Window.size_putBack c (by simp [hbehind]))
  | pubsync => exact .of_eq _ (Window.size_sync _)
  | consumeAllGet => exact .of_eq _ (Window.size_take _ _)
  | consumeGet n => exact .of_eq _ (Window.size_take _ _)

/-! ### Sessions -/

variable {mem : ℤ → UInt8} {p : ℤ} {alloc : Allocator} {h : History Call Ret Exn}

/-- **The block is bounded by what is pending.** When no call is made with more than `n` bytes that
are pending or that it puts, the block does not exceed `n + 1023` bytes, however many bytes come
through, unless it has the size it had at the start. -/
theorem size_le {n : ℕ} (hs : Session object (new mem p alloc) h b)
    (hn : object.EachCall (new mem p alloc) h fun b c =>
      b.pendingBytes.length + c.puts.length ≤ n) :
    bufferStepSize ≤ b.size ∧ b.size ≤ max bufferStepSize (n + 1023) := by
  have hnew : (new mem p alloc).size = bufferStepSize := rfl
  induction hs with
  | start =>
    rw [hnew]
    exact ⟨le_rfl, le_max_left _ _⟩
  | @call h b c hs hc ha ih =>
    rw [hs.eachCall_concat] at hn
    obtain ⟨hall, hlast⟩ := hn
    obtain ⟨hle, hbound⟩ := ih hall
    have hwf := (session_wf (new_wf mem p alloc) hs).1
    have hwf' := run_wf c hwf hc
    obtain ⟨hgrew, hsize⟩ := run_grows c hwf hc
    rw [hwf.pendingBytes_eq] at hlast
    show bufferStepSize ≤ (after (c.run b)).size ∧ _
    change _ ∧ (after (c.run b)).size ≤ _
    rw [size_view hwf] at hle hbound
    rw [size_view hwf']
    omega

/-- Two bytes. -/
theorem size_le_two :
    ∃ b, Session object roomy [(.sputn [97, 98], .ok (.int 2))] b ∧
      b.size ≤ max bufferStepSize (2 + 1023) := by
  have h₀ : Session object roomy [] roomy := .start
  have h₁ := h₀.returned (c := .sputn [97, 98]) (r := .int 2) trivial (by simp [Object.Alive]) rfl
  have hn : object.EachCall roomy ([] ++ [(Call.sputn [97, 98], Except.ok (Ret.int 2))])
      fun b c => b.pendingBytes.length + c.puts.length ≤ 2 :=
    (h₀.eachCall_concat _ _).2 ⟨Object.eachCall_nil, by decide⟩
  exact ⟨_, h₁, (size_le h₁ hn).2⟩

end Iobuf

end Libgpsfile2
