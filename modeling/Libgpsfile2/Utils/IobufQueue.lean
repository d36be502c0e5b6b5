import Libgpsfile2.Utils.Put
import Libgpsfile2.Library.Queue
import Libgpsfile2.Library.Session

/-!
# The buffer is a queue

The calls a user can make on an `Iobuf`, and the queue they implement. `Follows c r q q'` is the
queue's side of a call: when the call `c` is made on the queue `q`, the answer `r` is a correct one
and `q'` is the queue afterwards. `iobuf_fifo` says that in a session in which nothing is thrown
and every `realloc` succeeds the buffer answers every call as such a queue does, whatever the
number of compactions and growths, that its pointers stay in order, and that no access leaves the
block.
-/

namespace Libgpsfile2

namespace Iobuf

/-- The calls on a buffer. -/
inductive Call
  | sputc (c : UInt8)
  | sputn (s : List UInt8)
  | sgetc
  | sbumpc
  | sgetn (n : ℕ)
  | sungetc
  | sputbackc (c : UInt8)
  | pubsync
  | consumeAllGet
  | consumeGet (n : ℤ)

/-- What a call returns. `consumeAllGet` returns nothing: its entry is the number of bytes that it
finds between `gptr` and `egptr`, which is the number that it skips. -/
inductive Ret
  | int (n : ℤ)
  | bytes (s : List UInt8)
  | skipped (n : ℤ)
  | unit

def Call.run : Call → IobufM Ret
  | .sputc c => do return .int (← Iobuf.sputc c)
  | .sputn s => do return .int (← Iobuf.sputn s)
  | .sgetc => do return .int (← Iobuf.sgetc)
  | .sbumpc => do return .int (← Iobuf.sbumpc)
  | .sgetn n => do return .bytes (← Iobuf.sgetn n)
  | .sungetc => do return .int (← Iobuf.sungetc)
  | .sputbackc c => do return .int (← Iobuf.sputbackc c)
  | .pubsync => do return .int (← Iobuf.pubsync)
  | .consumeAllGet => do
      let b ← get
      Iobuf.consumeAllGet
      return .skipped (b.inEnd - b.inCur)
  | .consumeGet n => do Iobuf.consumeGet n; return .unit

/-- The bytes a call puts. -/
def Call.puts : Call → List UInt8
  | .sputc c => [c]
  | .sputn s => s
  | _ => []

/-- Every call may be made at any time, but `consumeGet` only inside the get area. -/
def Call.Permitted (b : Iobuf) : Call → Prop
  | .consumeGet n => 0 ≤ n ∧ n ≤ b.inEnd - b.inCur
  | _ => True

/-- A buffer and its calls. -/
def object : Object Call Ret Exn Iobuf where
  call := Call.run
  permitted := fun b c => c.Permitted b
  fatal := Exn.Fatal

/-- What a queue does at a call of the buffer. `sgetn` may take fewer bytes than it is asked for,
because it takes from what lies between `gptr` and `egptr`. -/
inductive Follows : Call → Ret → Queue UInt8 → Queue UInt8 → Prop
  | sputc (c : UInt8) (q) : Follows (.sputc c) (.int (toIntType c)) q (q.put [c])
  | sputn (s : List UInt8) (q) : Follows (.sputn s) (.int s.length) q (q.put s)
  | sgetc (q) : Follows .sgetc (.int (Window.first q.pending)) q q
  | sbumpc (q) : Follows .sbumpc (.int (Window.first q.pending)) q (q.take 1)
  | sgetn (n k : ℕ) (hk : k ≤ n) (q) :
      Follows (.sgetn n) (.bytes (q.pending.take k)) q (q.take k)
  | sungetc (c : UInt8) (q) (hq : q.taken.head? = some c) :
      Follows .sungetc (.int (toIntType c)) q (q.putBack c)
  | sungetc_eof (q) : Follows .sungetc (.int eof) q q
  | sputbackc (c : UInt8) (q) (hq : q.taken ≠ []) :
      Follows (.sputbackc c) (.int (toIntType c)) q (q.putBack c)
  | sputbackc_eof (c : UInt8) (q) : Follows (.sputbackc c) (.int eof) q q
  | pubsync (q) : Follows .pubsync (.int 0) q q
  | consumeAllGet (k : ℕ) {q : Queue UInt8} (hk : k ≤ q.pending.length) :
      Follows .consumeAllGet (.skipped k) q (q.take k)
  | consumeGet (n : ℕ) {q : Queue UInt8} (hn : n ≤ q.pending.length) :
      Follows (.consumeGet n) .unit q (q.take n)

/-- `QueueRun h q`: a queue that starts empty can go through the calls of `h`, all of which
returned, and ends as `q`. -/
inductive QueueRun : History Call Ret Exn → Queue UInt8 → Prop
  | start : QueueRun [] .empty
  | call {h q q'} {c : Call} {r : Ret} (hrun : QueueRun h q) (hcall : Follows c r q q') :
      QueueRun (h ++ [(c, .ok r)]) q'

/-- The bytes put in a session. -/
def bytesPut (h : History Call Ret Exn) : List UInt8 := h.flatMap fun x => x.1.puts

/-- Taking and pushing back do not change the number of bytes put. -/
theorem Follows.count {c : Call} {r : Ret} {q q' : Queue UInt8} (h : Follows c r q q') :
    q'.count = q.count + c.puts.length := by
  cases h with
  | sputc c q => simp [Call.puts]
  | sputn s q => simp [Call.puts]
  | sungetc c q hq =>
    have hne : q.taken ≠ [] := by rintro h; simp [h] at hq
    simp [Call.puts, Queue.count_putBack c hne]
  | sputbackc c q hq => simp [Call.puts, Queue.count_putBack c hq]
  | _ => simp [Call.puts]

theorem QueueRun.count {h : History Call Ret Exn} {q : Queue UInt8} (hrun : QueueRun h q) :
    q.count = (bytesPut h).length := by
  induction hrun with
  | start => rfl
  | call _ hcall ih =>
    rw [hcall.count, ih]
    simp [bytesPut, List.flatMap_append]

/-! ### The window as a queue -/

/-- A window represents a queue: it holds its pending bytes, and remembers some of the bytes
taken. -/
structure Represents (w : Window) (q : Queue UInt8) : Prop where
  pending : q.pending = w.pending
  behind : w.behind <+: q.taken
  taken : w.shifted + w.behind.length = q.taken.length

section Represents

variable {w w' : Window} {q : Queue UInt8}

theorem Represents.put {t : List UInt8} (h : Represents w q) (hs : w.Stores t w') :
    Represents w' (q.put t) where
  pending := by rw [hs.pending, ← h.pending]; rfl
  behind := hs.behind.trans h.behind
  taken := hs.taken.trans h.taken

theorem Represents.sync (h : Represents w q) : Represents w.sync q :=
  ⟨by rw [Window.pending_sync, h.pending], h.behind, h.taken⟩

theorem Represents.take {k : ℕ} (h : Represents w q) (hk : k ≤ w.ready.length) :
    Represents (w.take k) (q.take k) := by
  have htake : q.pending.take k = w.ready.take k := by
    rw [h.pending, Window.pending, List.take_append_of_le_length hk]
  refine ⟨?_, ?_, ?_⟩
  · simp only [Queue.take, Window.take, Window.pending, h.pending]
    rw [List.drop_append_of_le_length hk]
  · simp only [Queue.take, Window.take, htake]
    exact (List.prefix_append_right_inj _).2 h.behind
  · have := h.taken
    simp only [Queue.take, Window.take, htake, List.length_append]
    push_cast
    omega

theorem Represents.putBack {c d : UInt8} {t : List UInt8} (h : Represents w q)
    (hw : w.behind = d :: t) : Represents (w.putBack c) (q.putBack c) := by
  obtain ⟨u, hu⟩ := h.behind
  rw [hw, List.cons_append] at hu
  have htaken := h.taken
  rw [hw, ← hu] at htaken
  refine ⟨?_, ?_, ?_⟩
  · simp [Queue.putBack, Window.putBack, Window.pending, h.pending]
  · simp only [Queue.putBack, Window.putBack, hw, ← hu, List.tail_cons]
    exact List.prefix_append t u
  · simp only [Queue.putBack, Window.putBack, hw, ← hu, List.tail_cons]
    simp only [List.length_cons, List.length_append] at htaken ⊢
    omega

end Represents

/-! ### One call -/

/-- A call that returned: the pointers are in order again, and unless a `realloc` returned `NULL`
every queue that the buffer represented follows the call. -/
structure Answers (c : Call) (b : Iobuf) (r : Ret) (b' : Iobuf) : Prop where
  wf : b'.WF
  refusals : b.alloc.refusals ≤ b'.alloc.refusals
  follows : b'.alloc.refusals = b.alloc.refusals → ∀ q, Represents b.view q →
    ∃ q', Follows c r q q' ∧ Represents b'.view q'

section Step

variable {b : Iobuf} {α : Type}

/-- A member function whose window returns answers its call when the window of the result does. -/
theorem answers_of_matches {c : Call} {m : IobufM α} {f : α → Ret} {a : α} {w : Window}
    (hrun : c.run = do return f (← m)) (h : Matches WF view (m b) (.ok a w))
    (hle : b.alloc.refusals ≤ w.alloc.refusals)
    (hq : w.alloc.refusals = b.alloc.refusals → ∀ q, Represents b.view q →
      ∃ q', Follows c (f a) q q' ∧ Represents w q') :
    ∃ r b', c.run b = .ok r b' ∧ Answers c b r b' := by
  obtain ⟨b', hb', hwf, rfl⟩ := h.ok_right
  refine ⟨f a, b', ?_, hwf, hle, hq⟩
  rw [hrun, bind_apply, hb']
  rfl

theorem sputc_answers (c : UInt8) (hb : b.WF) :
    ∃ r b', (Call.sputc c).run b = .ok r b' ∧ Answers (.sputc c) b r b' := by
  have hsim := sputc_simulates c b hb
  cases hw : Window.sputc c b.view with
  | error e w =>
    simp only [Window.sputc, Window.overflow] at hw
    split_ifs at hw
  | ok a w =>
    rw [hw] at hsim
    rcases Window.sputc_stores hw with ⟨rfl, hs, hr⟩ | ⟨rfl, hs, hr⟩
    · exact answers_of_matches (f := .int) rfl hsim hs.refusals
        fun _ q hq => ⟨_, .sputc c q, hq.put hs⟩
    · exact answers_of_matches (f := .int) rfl hsim hs.refusals
        fun h => absurd (h.symm.trans hr) (Nat.succ_ne_self _).symm

theorem sputn_answers (s : List UInt8) (hb : b.WF) :
    (∃ b', (Call.sputn s).run b = .error Window.wrongCharacter b' ∧ b'.WF) ∨
      ∃ r b', (Call.sputn s).run b = .ok r b' ∧ Answers (.sputn s) b r b' := by
  have hsim := sputn_simulates s b hb
  cases hw : Window.xsputn s b.view with
  | error e w =>
    rw [hw] at hsim
    obtain ⟨b', hb', hwf, -⟩ := hsim.error_right
    refine .inl ⟨b', ?_, hwf⟩
    rw [Window.xsputn_error hw] at hb'
    simp only [Call.run, bind_apply, hb']
  | ok a w =>
    rw [hw] at hsim
    obtain ⟨rfl, t, ht, hall, -⟩ := Window.xsputn_stores hw
    refine .inr (answers_of_matches (f := .int) rfl hsim ht.refusals fun heq q hq => ?_)
    rw [hall heq] at ht
    exact ⟨_, .sputn s q, hq.put ht⟩

/-- The window from which `sgetc` and `sbumpc` read. -/
theorem ready_or_sync {w : Window} {q : Queue UInt8} (hq : Represents w q) :
    Represents (if w.ready = [] then w.sync else w) q ∧
      (q.pending ≠ [] → (if w.ready = [] then w.sync else w).ready ≠ []) := by
  split_ifs with hr
  · refine ⟨hq.sync, fun hne => ?_⟩
    rwa [hq.pending] at hne
  · exact ⟨hq, fun _ => hr⟩

theorem sbumpc_answers (hb : b.WF) :
    ∃ r b', Call.sbumpc.run b = .ok r b' ∧ Answers .sbumpc b r b' := by
  refine answers_of_matches (f := .int) rfl (sbumpc_simulates b hb) ?_ fun _ q hq => ?_
  · split_ifs <;> exact le_rfl
  · obtain ⟨hq', hne⟩ := ready_or_sync hq
    rw [← hq.pending]
    refine ⟨_, .sbumpc q, ?_⟩
    by_cases hp : q.pending = []
    · -- nothing is pending, and nothing is taken
      have hnil : (if b.view.ready = [] then b.view.sync else b.view).ready = [] := by
        have := hq'.pending.symm
        rw [hp, Window.pending, List.append_eq_nil_iff] at this
        exact this.1
      have hq0 : q.take 1 = q.take 0 := by simp [Queue.take, hp]
      rw [hq0, ← Window.take_min, hnil]
      exact hq'.take (Nat.zero_le _)
    · exact hq'.take (List.length_pos_iff.2 (hne hp))

theorem sungetc_answers (hb : b.WF) :
    ∃ r b', Call.sungetc.run b = .ok r b' ∧ Answers .sungetc b r b' := by
  have hsim := sungetc_simulates b hb
  unfold Window.sungetc at hsim
  split at hsim
  case h_1 =>
    exact answers_of_matches (f := .int) rfl hsim le_rfl fun _ q hq => ⟨q, .sungetc_eof q, hq⟩
  case h_2 c t hbehind =>
    refine answers_of_matches (f := .int) rfl hsim le_rfl fun _ q hq => ?_
    obtain ⟨u, hu⟩ := hq.behind
    exact ⟨_, .sungetc c q (by rw [← hu, hbehind]; rfl), hq.putBack hbehind⟩

theorem sputbackc_answers (c : UInt8) (hb : b.WF) :
    ∃ r b', (Call.sputbackc c).run b = .ok r b' ∧ Answers (.sputbackc c) b r b' := by
  have hsim := sputbackc_simulates c b hb
  unfold Window.sputbackc at hsim
  split at hsim
  case h_1 =>
    exact answers_of_matches (f := .int) rfl hsim le_rfl fun _ q hq => ⟨q, .sputbackc_eof c q, hq⟩
  case h_2 d t hbehind =>
    refine answers_of_matches (f := .int) rfl hsim le_rfl fun _ q hq => ?_
    obtain ⟨u, hu⟩ := hq.behind
    exact ⟨_, .sputbackc c q (by rw [← hu, hbehind]; simp), hq.putBack hbehind⟩

theorem consumeAllGet_answers (hb : b.WF) :
    ∃ r b', Call.consumeAllGet.run b = .ok r b' ∧ Answers .consumeAllGet b r b' := by
  obtain ⟨b', hb', hwf, hview⟩ := (consumeAllGet_simulates b hb).ok_right
  have hcur := hb.cur_le
  have halloc : b'.alloc = b.alloc := congrArg Window.alloc hview
  refine ⟨.skipped (b.inEnd - b.inCur), b', ?_, hwf, by rw [halloc], fun _ q hq => ?_⟩
  · simp only [Call.run, bind_apply, get_apply, hb', pure_apply]
  · have hready : b.inEnd - b.inCur = (b.view.ready.length : ℤ) := by
      simp only [view, length_slice]
      omega
    have hpending : b.view.ready.length ≤ q.pending.length := by
      rw [hq.pending, Window.pending, List.length_append]
      omega
    rw [hready, hview]
    exact ⟨_, .consumeAllGet _ hpending, hq.take le_rfl⟩

/-- **One call on a buffer**: only a bulk put can fail, by throwing its exception. -/
theorem run_answers (c : Call) (hb : b.WF) (hc : c.Permitted b) :
    (∃ b', c.run b = .error Window.wrongCharacter b' ∧ b'.WF) ∨
      ∃ r b', c.run b = .ok r b' ∧ Answers c b r b' := by
  cases c with
  | sputc c => exact .inr (sputc_answers c hb)
  | sputn s => exact sputn_answers s hb
  | sgetc =>
    refine .inr (answers_of_matches (f := .int) rfl (sgetc_simulates b hb) ?_ fun _ q hq => ?_)
    · split_ifs <;> exact le_rfl
    · rw [← hq.pending]
      exact ⟨q, .sgetc q, (ready_or_sync hq).1⟩
  | sbumpc => exact .inr (sbumpc_answers hb)
  | sgetn n =>
    have hsim := sgetn_simulates n b hb
    unfold Window.xsgetn at hsim
    rw [if_neg (by omega), ← Window.take_min, Int.toNat_natCast] at hsim
    refine .inr (answers_of_matches (f := .bytes) rfl hsim le_rfl fun _ q hq => ?_)
    have hle := Nat.min_le_right n b.view.ready.length
    have htake : b.view.ready.take n = q.pending.take (min n b.view.ready.length) := by
      rw [hq.pending, Window.pending, List.take_append_of_le_length hle, List.take_eq_take_min]
    rw [htake]
    exact ⟨_, .sgetn n _ (Nat.min_le_left _ _) q, hq.take hle⟩
  | sungetc => exact .inr (sungetc_answers hb)
  | sputbackc c => exact .inr (sputbackc_answers c hb)
  | pubsync =>
    exact .inr (answers_of_matches (f := .int) rfl (pubsync_simulates b hb) le_rfl
      fun _ q hq => ⟨q, .pubsync q, hq.sync⟩)
  | consumeAllGet => exact .inr (consumeAllGet_answers hb)
  | consumeGet n =>
    obtain ⟨hn, hle⟩ := hc
    refine .inr (answers_of_matches (f := fun _ => .unit) rfl (consumeGet_matches hb hn hle)
      le_rfl fun _ q hq => ?_)
    have hready : n.toNat ≤ b.view.ready.length := by simp only [view, length_slice]; omega
    have hpending : n.toNat ≤ q.pending.length := by
      rw [hq.pending, Window.pending, List.length_append]; omega
    have hcall := Follows.consumeGet (q := q) n.toNat hpending
    rw [Int.toNat_of_nonneg hn] at hcall
    exact ⟨_, hcall, hq.take hready⟩

theorem run_wf (c : Call) (hb : b.WF) (hc : c.Permitted b) : (after (c.run b)).WF := by
  rcases run_answers c hb hc with ⟨b', hb', hwf⟩ | ⟨r, b', hb', ha⟩
  · rw [hb']
    exact hwf
  · rw [hb']
    exact ha.wf

end Step

/-! ### Sessions -/

theorem new_wf (mem : ℤ → UInt8) (p : ℤ) (alloc : Allocator) : (new mem p alloc).WF := by
  constructor <;> simp [new, bufferStepSize]

/-- The window of a new buffer. -/
theorem new_view (mem : ℤ → UInt8) (p : ℤ) (alloc : Allocator) :
    (new mem p alloc).view = ⟨[], [], [], bufferStepSize.toNat, 0, alloc⟩ := by
  simp [view, new]

theorem new_pending (mem : ℤ → UInt8) (p : ℤ) (alloc : Allocator) :
    (new mem p alloc).view.pending = [] := by
  rw [new_view]
  rfl

theorem new_represents (mem : ℤ → UInt8) (p : ℤ) (alloc : Allocator) :
    Represents (new mem p alloc).view .empty := by
  rw [new_view]
  exact ⟨rfl, List.prefix_rfl, rfl⟩

/-- In every session the pointers stay in order, and the only exception is the one of a bulk
put. -/
theorem session_wf {b₀ b : Iobuf} {h : History Call Ret Exn} (h₀ : b₀.WF)
    (hs : Session object b₀ h b) :
    b.WF ∧ ∀ x ∈ h, x.2 = .error Window.wrongCharacter ∨ ∃ r, x.2 = .ok r := by
  refine hs.invariant (I := fun h b =>
    b.WF ∧ ∀ x ∈ h, x.2 = .error Window.wrongCharacter ∨ ∃ r, x.2 = .ok r) ?_ ?_
  · exact ⟨h₀, by simp⟩
  · rintro h b c ⟨hb, hh⟩ hc
    have hrun : object.call c b = c.run b := rfl
    rw [hrun]
    refine ⟨run_wf c hb hc, fun x hx => ?_⟩
    rcases List.mem_append.1 hx with hx | hx
    · exact hh x hx
    · rw [List.mem_singleton.1 hx]
      rcases run_answers c hb hc with ⟨b', hb', -⟩ | ⟨r, b', hb', -⟩
      · rw [hb']
        exact .inl rfl
      · rw [hb']
        exact .inr ⟨r, rfl⟩

/-- The number of refused `realloc` calls never decreases, and as long as there is none and nothing
is thrown, what holds at the start and is preserved by the calls holds after the session. -/
theorem session_quiet {I : History Call Ret Exn → Iobuf → Prop} {b₀ b : Iobuf}
    {h : History Call Ret Exn} (h₀ : b₀.WF) (start : I [] b₀)
    (step : ∀ h b c r b', b.WF → I h b → c.run b = .ok r b' → Answers c b r b' →
      b'.alloc.refusals = b.alloc.refusals → I (h ++ [(c, .ok r)]) b')
    (hs : Session object b₀ h b) (hthrow : ∀ x ∈ h, ∀ what, x.2 ≠ .error (.runtimeError what)) :
    b₀.alloc.refusals ≤ b.alloc.refusals ∧ (b.alloc.refusals = b₀.alloc.refusals → I h b) := by
  induction hs with
  | start => exact ⟨le_rfl, fun _ => start⟩
  | @call h b c hs hc _ ih =>
    obtain ⟨hle, hinv⟩ := ih fun x hx => hthrow x (List.mem_append_left _ hx)
    have hlast := hthrow _ (List.mem_append_right h (List.mem_singleton.2 rfl))
    have hwf := (session_wf h₀ hs).1
    have hrun : object.call c b = c.run b := rfl
    rw [hrun] at hlast ⊢
    rcases run_answers c hwf hc with ⟨b', hb', -⟩ | ⟨r, b', hb', ha⟩
    · rw [hb'] at hlast
      exact absurd rfl (hlast _)
    · rw [hb']
      refine ⟨hle.trans ha.refusals, fun heq => ?_⟩
      -- the number of refusals only grows: none at the end means none in any call
      have hsame : b.alloc.refusals = b₀.alloc.refusals :=
        le_antisymm (ha.refusals.trans heq.le) hle
      exact step h b c r b' hwf (hinv hsame) hb' ha (heq.trans hsame.symm)

/-- A queue follows a session in which nothing is thrown and no `realloc` is refused. -/
theorem session_queue {b₀ b : Iobuf} {h : History Call Ret Exn} (h₀ : b₀.WF)
    (hq₀ : Represents b₀.view .empty) (hs : Session object b₀ h b)
    (hthrow : ∀ x ∈ h, ∀ what, x.2 ≠ .error (.runtimeError what)) :
    b₀.alloc.refusals ≤ b.alloc.refusals ∧ (b.alloc.refusals = b₀.alloc.refusals →
      ∃ q, QueueRun h q ∧ Represents b.view q) := by
  refine session_quiet (I := fun h b => ∃ q, QueueRun h q ∧ Represents b.view q) h₀
    ⟨.empty, .start, hq₀⟩ ?_ hs hthrow
  rintro h b c r b' - ⟨q, hrun, hq⟩ - ha heq
  obtain ⟨q', hfollows, hq'⟩ := ha.follows heq q hq
  exact ⟨q', hrun.call hfollows, hq'⟩

/-- **The buffer is a first-in first-out queue.** -/
theorem iobuf_fifo {mem : ℤ → UInt8} {p : ℤ} {alloc : Allocator} {h : History Call Ret Exn}
    {b : Iobuf} (hs : Session object (new mem p alloc) h b)
    (hthrow : ∀ x ∈ h, ∀ what, x.2 ≠ .error (.runtimeError what))
    (hrealloc : b.alloc.refusals = alloc.refusals) :
    (b.inBeg = b.outBeg ∧ b.outBeg ≤ b.inCur ∧ b.inCur ≤ b.inEnd ∧ b.inEnd ≤ b.outCur ∧
        b.outCur ≤ b.outEnd) ∧
      (∀ x ∈ h, x.2 ≠ .error .outOfBounds) ∧
      (∃ q, QueueRun h q ∧ slice b.mem b.inCur b.outCur = q.pending) ∧
      b.getNumPut = (bytesPut h).length ∧
      b.getNumPut - b.getNumGet = b.showmanyc ∧
      b.showmanyc = (slice b.mem b.inCur b.outCur).length := by
  obtain ⟨hwf, houtcomes⟩ := session_wf (new_wf mem p alloc) hs
  obtain ⟨q, hrun, hq⟩ := (session_queue (new_wf mem p alloc) (new_represents mem p alloc) hs
    hthrow).2 hrealloc
  have hcount := hrun.count
  have htaken := hq.taken
  have hpending := hwf.pending_view
  refine ⟨⟨hwf.outBeg_eq.symm, ?_, hwf.cur_le, hwf.end_le, hwf.out_le⟩, ?_, ⟨q, hrun, ?_⟩, ?_, ?_,
    ?_⟩
  · rw [hwf.outBeg_eq]
    exact hwf.beg_le
  · intro x hx
    rcases houtcomes x hx with he | ⟨r, hr⟩
    · rw [he, Window.wrongCharacter]
      simp
    · rw [hr]
      simp
  · rw [← hpending, hq.pending]
  · rw [getNumPut_eq hwf, ← hcount, Queue.count, hq.pending, Window.stored]
    omega
  · rw [getNumPut_eq hwf, getNumGet_eq hwf, showmanyc_eq hwf, Window.stored]
    omega
  · rw [showmanyc_eq hwf, hpending]

/-- A session that puts two bytes, takes one and pushes another one back. -/
theorem iobuf_fifo_putback :
    ∃ b, Session object (new (fun _ => 0) 0 ⟨fun _ => none, 0⟩)
        [(.sputn [97, 98], .ok (.int 2)), (.sbumpc, .ok (.int 97)),
          (.sputbackc 99, .ok (.int 99))] b ∧
      (∃ q, QueueRun [(.sputn [97, 98], .ok (.int 2)), (.sbumpc, .ok (.int 97)),
          (.sputbackc 99, .ok (.int 99))] q ∧ slice b.mem b.inCur b.outCur = q.pending) ∧
      b.getNumPut = 2 := by
  have h₀ : Session object (new (fun _ => 0) 0 ⟨fun _ => none, 0⟩) [] _ := .start
  have h₁ := h₀.returned (c := .sputn [97, 98]) (r := .int 2) trivial (by simp [Object.Alive]) rfl
  have h₂ := h₁.returned (c := .sbumpc) (r := .int 97) trivial (by simp [Object.Alive]) rfl
  have h₃ := h₂.returned (c := .sputbackc 99) (r := .int 99) trivial (by simp [Object.Alive]) rfl
  obtain ⟨-, -, hq, hput, -⟩ := iobuf_fifo h₃ (by simp) rfl
  exact ⟨_, h₃, hq, hput⟩

end Iobuf

end Libgpsfile2
