import Libgpsfile2.Utils.Drain

/-!
# The string of the buffer

The setter `str` puts its bytes behind those that are in the buffer: its loop is one bulk put. The
getter returns all bytes of the block, also those that have been taken.

`setStr_replaces_iff`: after a setter that returns the buffer holds its bytes and no others exactly
when no byte that had been taken is left in the block, the pending bytes were as many bytes `0xff`
as the put has lost, which must be its first ones, and none of them still lies behind `egptr`.
-/

namespace Libgpsfile2

/-- A list in front of the elements of `s` other than `a` makes up `s` when `s` begins with that
list, which is a number of times `a`, and has no other `a`. -/
theorem append_filter_eq_iff {α : Type} [DecidableEq α] {p s : List α} (a : α) :
    p ++ s.filter (fun b => b ≠ a) = s ↔
      ∃ k, p = List.replicate k a ∧ ∃ t, s = List.replicate k a ++ t ∧ a ∉ t := by
  have hnot : a ∉ s.filter (fun b => b ≠ a) := fun h => by simpa using List.of_mem_filter h
  constructor
  · intro h
    -- `p` is as long as there are `a` in `s`, and so consists of them
    have hlen := congrArg List.length h
    have hcount := congrArg (List.count a) h
    rw [List.count_append, List.count_eq_zero.2 hnot, add_zero] at hcount
    have hsplit := List.length_eq_length_filter_add (l := s) (fun b => b == a)
    have hneg : s.filter (fun b => !(b == a)) = s.filter (fun b => b ≠ a) :=
      List.filter_congr fun b _ => by rw [beq_eq_decide, decide_not]
    rw [← List.count_eq_length_filter, hneg] at hsplit
    rw [List.length_append] at hlen
    have hp : p = List.replicate p.length a := by
      refine List.eq_replicate_of_mem fun b hb => ?_
      exact (List.count_eq_length.1 (show List.count a p = p.length by omega) b hb).symm
    exact ⟨p.length, hp, s.filter (fun b => b ≠ a), by rw [← hp, h], hnot⟩
  · rintro ⟨k, rfl, t, rfl, hat⟩
    have hnone : (List.replicate k a).filter (fun b => b ≠ a) = [] := by simp
    have hall : t.filter (fun b => b ≠ a) = t :=
      List.filter_eq_self.2 fun b hb => decide_eq_true fun hba => hat (hba ▸ hb)
    rw [List.filter_append, hnone, hall, List.nil_append]

namespace Window

variable {w w' : Window} {s rest : List UInt8}

/-- Of the bytes that a bulk put gives to `overflow` the first `k` are refused, and no later one. -/
def RefusesFirst : ℕ → List UInt8 → Window → Prop
  | k, [], _ => k = 0
  | 0, c :: s, w => (c :: s).length ≤ w.room ∨ ¬ w.Refuses ∧ RefusesFirst 0 s (w.makeRoom.push c)
  | k + 1, c :: s, w => w.room < (c :: s).length ∧ w.Refuses ∧ RefusesFirst k s w.refused

theorem behind_makeRoom (w : Window) : w.makeRoom.behind = [] := by
  unfold makeRoom
  split_ifs with h
  · exact h
  · rfl

/-- The first call of `overflow` compacts the buffer, if there is anything to compact. -/
theorem xsputnLoop_behind (h : xsputnLoop s w = .ok rest w') :
    w'.behind = [] ↔ w.behind = [] ∨ w.room < s.length := by
  induction s generalizing w with
  | nil =>
    cases h
    simp
  | cons c s ih =>
    simp only [xsputnLoop] at h
    split_ifs at h with hroom href
    · cases h
      exact (or_iff_left hroom.not_gt).symm
    · exact iff_of_true ((ih h).2 (.inl href.1)) (.inl href.1)
    · exact iff_of_true ((ih h).2 (.inl (behind_makeRoom w))) (.inr (not_le.1 hroom))

/-- A loop that returns has given to `overflow` a first part of its bytes. Of these it has lost the
bytes `0xff`, and only them. -/
theorem xsputnLoop_split (h : xsputnLoop s w = .ok rest w') :
    ∃ t, s = t ++ rest ∧ w'.pending = w.pending ++ t.filter (fun c => c ≠ 255) ∧
      ∀ k, RefusesFirst k s w ↔ ∃ u, t = List.replicate k 255 ++ u ∧ 255 ∉ u := by
  induction s generalizing w with
  | nil =>
    cases h
    refine ⟨[], rfl, (List.append_nil _).symm, fun k => ?_⟩
    unfold RefusesFirst
    constructor
    · rintro rfl
      exact ⟨[], rfl, List.not_mem_nil⟩
    · rintro ⟨u, hu, -⟩
      simpa using (List.append_eq_nil_iff.1 hu.symm).1
  | cons c s ih =>
    simp only [xsputnLoop] at h
    split_ifs at h with hroom href h255 hascii
    · cases h
      refine ⟨[], rfl, (List.append_nil _).symm, fun k => ?_⟩
      cases k with
      | zero => exact iff_of_true (.inl hroom) ⟨[], rfl, List.not_mem_nil⟩
      | succ k => exact iff_of_false (fun hk => hk.1.not_ge hroom) (by simp)
    · -- this byte `0xff` is lost
      subst h255
      obtain ⟨t, hs, hpending, hrefuses⟩ := ih h
      refine ⟨255 :: t, by rw [hs, List.cons_append], ?_, fun k => ?_⟩
      · rw [hpending, pending_refused, List.filter_cons_of_neg (by simp)]
      · cases k with
        | zero => exact iff_of_false (fun hk => hk.elim hroom fun h => h.1 href) (by simp)
        | succ k =>
          have hstep : RefusesFirst (k + 1) (255 :: s) w ↔ RefusesFirst k s w.refused := by
            simp only [RefusesFirst, not_le.1 hroom, href, true_and]
          rw [hstep, hrefuses, List.replicate_succ]
          simp only [List.cons_append, List.cons.injEq, true_and]
    · -- this byte is stored, and is none that can be lost
      have hne : c ≠ 255 := by
        rintro rfl
        exact absurd hascii (by decide)
      obtain ⟨t, hs, hpending, hrefuses⟩ := ih h
      refine ⟨c :: t, by rw [hs, List.cons_append], ?_, fun k => ?_⟩
      · rw [hpending, (stores_overflow c w href).1.pending, List.append_assoc,
          List.singleton_append, List.filter_cons_of_pos (by simpa using hne)]
      · cases k with
        | zero =>
          have hstep : RefusesFirst 0 (c :: s) w ↔ RefusesFirst 0 s (w.makeRoom.push c) := by
            simp only [RefusesFirst, hroom, href, false_or, not_false_eq_true, true_and]
          rw [hstep, hrefuses]
          simp [hne.symm]
        | succ k =>
          refine iff_of_false (fun hk => href hk.2.1) ?_
          rintro ⟨u, hu, -⟩
          rw [List.replicate_succ, List.cons_append] at hu
          exact hne (List.cons.inj hu).1

/-- The bytes that are refused leave `egptr` where it is. The first byte after them moves it, if it
is given to `overflow`. -/
theorem xsputnLoop_hidden_iff {k : ℕ} (h : xsputnLoop s w = .ok rest w')
    (hk : RefusesFirst k s w) : w'.hidden = [] ↔ w.hidden = [] ∨ w.room + k < s.length := by
  induction s generalizing w k with
  | nil =>
    cases h
    exact (or_iff_left (Nat.not_lt_zero _)).symm
  | cons c s ih =>
    simp only [xsputnLoop] at h
    split_ifs at h with hroom href h255 hascii
    · cases h
      exact (or_iff_left (by omega)).symm
    · cases k with
      | zero => exact absurd href (hk.resolve_left hroom).1
      | succ k =>
        rw [ih h hk.2.2, List.length_cons, ← add_assoc, Nat.add_lt_add_iff_right]
        rfl
    · cases k with
      | zero => exact iff_of_true ((ih h (hk.resolve_left hroom).2).2 (.inl rfl)) (.inr (by omega))
      | succ k => exact absurd hk.2.1 href

theorem append_nil (w : Window) : w.append [] = w := by
  simp [append, pending]

/-- **When a bulk put leaves its bytes in the buffer, all before `egptr`, and no others.** -/
theorem xsputn_replaces_iff {r : ℤ} (h : xsputn s w = .ok r w') :
    w'.behind = [] ∧ w'.pending = s ∧ w'.hidden = [] ↔ (w.behind = [] ∨ w.room < s.length) ∧
      ∃ k, w.pending = List.replicate k 255 ∧ RefusesFirst k s w ∧
        (w.hidden = [] ∨ w.room + k < s.length) := by
  unfold xsputn at h
  split at h
  case h_1 rest w₁ hloop =>
    cases h
    obtain ⟨t, hs, hpending, hrefuses⟩ := xsputnLoop_split hloop
    have hcontents : (w₁.append rest).pending = s ↔
        ∃ k, w.pending = List.replicate k 255 ∧ RefusesFirst k s w := by
      simp only [hrefuses]
      rw [← append_filter_eq_iff, (stores_append rest w₁).pending, hpending, hs,
        List.append_left_inj]
    have hhidden : (w₁.append rest).hidden = [] ↔ w₁.hidden = [] := by
      rw [← List.length_eq_zero_iff, hidden_append, List.length_eq_zero_iff]
    rw [hcontents, hhidden, ← xsputnLoop_behind hloop]
    apply and_congr_right
    intro
    constructor
    · rintro ⟨⟨k, hk, href⟩, hnil⟩
      exact ⟨k, hk, href, (xsputnLoop_hidden_iff hloop href).1 hnil⟩
    · rintro ⟨k, hk, href, hnil⟩
      exact ⟨⟨k, hk, href⟩, (xsputnLoop_hidden_iff hloop href).2 hnil⟩
  case h_2 => cases h

end Window

namespace Iobuf

variable {b : Iobuf} {s : List UInt8}

/-! ### The setter and the getter -/

/-- A bulk put that returns, returns the number of its bytes. -/
theorem xsputn_ok {r : ℤ} {b' : Iobuf} (h : xsputn s b = .ok r b') : r = s.length := by
  unfold xsputn at h
  simp only [bind_apply, get_apply, modify_apply, pure_apply] at h
  cases hloop : xsputnLoop s b with
  | error e b₁ =>
    rw [hloop] at h
    cases h
  | ok rest b₁ =>
    simp only [hloop] at h
    cases hcopy : memcpyTo b₁.outCur rest b₁ with
    | error e b₂ =>
      rw [hcopy] at h
      cases h
    | ok u b₂ =>
      rw [hcopy] at h
      cases h
      rfl

/-- The setter is one bulk put. The other branches of its loop are not reached. -/
theorem setStr_cons (c : UInt8) (s : List UInt8) (b : Iobuf) :
    setStr (c :: s) b = (do let _ ← xsputn (c :: s); return () : IobufM Unit) b := by
  have hpos : (0 : ℤ) < (c :: s).length := by
    rw [List.length_cons]
    omega
  unfold setStr setStrLoop
  rw [if_pos hpos, if_neg (lt_irrefl _)]
  simp only [Int.toNat_natCast, List.take_length, bind_apply, pure_apply]
  cases hput : xsputn (c :: s) b with
  | error e b' => rfl
  | ok r b' =>
    obtain rfl := xsputn_ok hput
    simp only [sub_self, EuclideanDomain.zero_mod, lt_irrefl, if_false, pure_apply]

/-- A setter that returns has made a bulk put that returned. -/
theorem setStr_spec (hb : b.WF) (hret : outcome (setStr s b) = .ok ()) :
    (after (setStr s b)).WF ∧
      ∃ r, Window.xsputn s b.view = .ok r (after (setStr s b)).view := by
  cases s with
  | nil => exact ⟨hb, 0, congrArg (EStateM.Result.ok 0) (Window.append_nil b.view)⟩
  | cons c s =>
    have hsim := xsputn_simulates (c :: s) b hb
    rw [setStr_cons, bind_apply] at hret ⊢
    cases hput : xsputn (c :: s) b with
    | error e b' =>
      rw [hput] at hret
      cases hret
    | ok r b' =>
      rw [hput] at hsim
      generalize Window.xsputn (c :: s) b.view = res at hsim ⊢
      cases hsim with
      | ok _ hwf => exact ⟨hwf, r, rfl⟩

/-- The getter returns what lies behind and before the read position. -/
theorem str_spec (hb : b.WF) : str b = .ok (b.view.behind.reverse ++ b.pendingBytes) b := by
  have hview : b.view.behind.reverse ++ b.pendingBytes = slice b.mem b.outBeg b.outCur := by
    rw [hb.outBeg_eq]
    simp only [view, pendingBytes, List.reverse_reverse]
    exact slice_append hb.beg_le (hb.cur_le.trans hb.end_le)
  obtain ⟨hout, hblock, hsize, hbeg, hcur, hend, hroom⟩ := hb
  have hacc : access b.outBeg (b.outCur - b.outBeg) b = .ok () b := access_ok (by omega)
  rw [hview]
  simp only [str, memcpyFrom, bind_apply, get_apply, pure_apply, hacc, add_sub_cancel]

/-! ### Reading the buffer -/

/-- The calls that read. -/
def Call.Reads : Call → Prop
  | .sgetc => True
  | .sbumpc => True
  | .sgetn _ => True
  | .pubsync => True
  | _ => False

/-- The number of bytes that a call asks for. -/
def Call.requests : Call → ℕ
  | .sbumpc => 1
  | .sgetn n => n
  | _ => 0

/-- The number of bytes asked for in a session. -/
def requested (h : History Call Ret Exn) : ℕ := (h.map fun x => x.1.requests).sum

theorem requested_concat (h : History Call Ret Exn) (c : Call) (x : Except Exn Ret) :
    requested (h ++ [(c, x)]) = requested h + c.requests := by
  simp [requested]

theorem bytesDelivered_concat (h : History Call Ret Exn) (c : Call) (x : Except Exn Ret) :
    bytesDelivered (h ++ [(c, x)]) = bytesDelivered h ++ delivered (c, x) := by
  simp [bytesDelivered]

/-- A bulk read delivers ready bytes. -/
theorem delivered_sgetn (n : ℕ) (hb : b.WF) :
    delivered (.sgetn n, outcome ((Call.sgetn n).run b)) = b.view.ready.take n := by
  obtain ⟨b', hrun, -⟩ := sgetn_spec n hb
  simp only [Call.run, bind_apply, hrun, pure_apply, outcome_ok]
  rfl

/-- A read of a buffer all of whose pending bytes lie before `egptr`. -/
theorem run_reads {c : Call} (hb : b.WF) (hnil : b.view.hidden = []) (hc : c.Reads) :
    delivered (c, outcome (c.run b)) = b.pendingBytes.take c.requests ∧
      (after (c.run b)).pendingBytes = b.pendingBytes.drop c.requests := by
  have hready : b.view.pending = b.view.ready := by
    unfold Window.pending
    rw [hnil, List.append_nil]
  cases c with
  | sgetc =>
    obtain ⟨b', hrun, hwf, hview⟩ := (sgetc_simulates b hb).ok_right
    simp only [Call.run, bind_apply, hrun, pure_apply, outcome_ok, after_ok]
    refine ⟨rfl, ?_⟩
    rw [hwf.pendingBytes_eq, hb.pendingBytes_eq, hview]
    split_ifs
    · exact Window.pending_sync b.view
    · rfl
  | sbumpc =>
    obtain ⟨b', hrun, hwf, hview⟩ := (sbumpc_simulates b hb).ok_right
    simp only [Call.run, bind_apply, hrun, pure_apply, outcome_ok, after_ok]
    rw [hwf.pendingBytes_eq, hb.pendingBytes_eq, hview]
    exact ⟨delivered_sbumpc _, Window.pending_bumped _⟩
  | sgetn n =>
    obtain ⟨b', hrun, -, hrest⟩ := sgetn_spec n hb
    have hafter : after ((Call.sgetn n).run b) = b' := by
      simp only [Call.run, bind_apply, hrun, pure_apply, after_ok]
    rw [delivered_sgetn n hb, hafter, hrest, hnil, List.append_nil, hb.pendingBytes_eq, hready]
    exact ⟨rfl, rfl⟩
  | pubsync =>
    obtain ⟨b', hrun, hwf, hview⟩ := (pubsync_simulates b hb).ok_right
    simp only [Call.run, bind_apply, hrun, pure_apply, outcome_ok, after_ok]
    refine ⟨rfl, ?_⟩
    rw [hwf.pendingBytes_eq, hb.pendingBytes_eq, hview]
    exact Window.pending_sync b.view
  | _ => cases hc

/-- Reads deliver the pending bytes one after the other. -/
theorem session_reads {b' : Iobuf} {h : History Call Ret Exn} (hb : b.WF)
    (hnil : b.view.hidden = []) (hs : Session object b h b') (hreads : ∀ x ∈ h, x.1.Reads) :
    bytesDelivered h = b.pendingBytes.take (requested h) := by
  refine (hs.invariant (I := fun h b' => (∀ x ∈ h, x.1.Reads) →
    bytesDelivered h = b.pendingBytes.take (requested h) ∧
      b'.pendingBytes = b.pendingBytes.drop (requested h) ∧ b'.WF ∧ b'.view.hidden = [])
    (fun _ => ⟨rfl, rfl, hb, hnil⟩) ?_ hreads).1
  intro h b₁ c hread hc hreads
  obtain ⟨hbytes, hpending, hwf, hnil₁⟩ := hread fun x hx => hreads x (List.mem_append_left _ hx)
  have hcall : c.Reads := hreads _ (List.mem_append_right h (List.mem_singleton.2 rfl))
  obtain ⟨hgot, hleft⟩ := run_reads hwf hnil₁ hcall
  have hslow : ¬ c.Fast b₁ := by
    intro hfast
    cases c with
    | sputc c => cases hcall
    | _ => cases hfast
  refine ⟨?_, ?_, run_wf c hwf hc, (run_hidden c hwf hc hnil₁).2 hslow⟩
  · rw [bytesDelivered_concat, requested_concat, List.take_add, ← hpending, ← hbytes]
    exact congrArg (bytesDelivered h ++ ·) hgot
  · rw [requested_concat, ← List.drop_drop, ← hpending]
    exact hleft

/-- The buffer holds `s` and nothing else: the getter returns it, and all reads that follow, single
ones and bulk ones in any order, deliver it from its first byte on, as many bytes as they ask
for. -/
structure Holds (s : List UInt8) (b : Iobuf) : Prop where
  getter : outcome (str b) = .ok s
  reads : ∀ h b', Session object b h b' → (∀ x ∈ h, x.1.Reads) →
    bytesDelivered h = s.take (requested h)

theorem holds_iff (hb : b.WF) :
    Holds s b ↔ b.view.behind = [] ∧ b.view.pending = s ∧ b.view.hidden = [] := by
  rw [← hb.pendingBytes_eq]
  constructor
  · rintro ⟨hgetter, hreads⟩
    rw [str_spec hb, outcome_ok, Except.ok.injEq] at hgetter
    obtain ⟨n, hn, hle⟩ : ∃ n, b.pendingBytes.length ≤ n ∧ s.length ≤ n :=
      ⟨_, le_max_left _ _, le_max_right _ _⟩
    have h₀ : Session object b [] b := .start
    -- a bulk read that asks for everything delivers the ready bytes
    have hready : b.view.ready = s := by
      have hread := h₀.call (Call.sgetn n) trivial (by simp [Object.Alive])
      have hbytes := hreads _ _ hread (by simp [Call.Reads])
      rw [bytesDelivered_concat, requested_concat] at hbytes
      have hlen : b.view.ready.length ≤ n := by
        rw [hb.pendingBytes_eq, Window.pending, List.length_append] at hn
        omega
      calc b.view.ready = b.view.ready.take n := (List.take_of_length_le hlen).symm
        _ = s.take (0 + n) := (delivered_sgetn n hb).symm.trans hbytes
        _ = s := by rw [zero_add, List.take_of_length_le hle]
    -- after `pubsync` it delivers all bytes
    have hpending : b.pendingBytes = s := by
      obtain ⟨b₁, hrun, hwf, hview⟩ := (pubsync_simulates b hb).ok_right
      have hsync : object.call Call.pubsync b = .ok (.int 0) b₁ := by
        simp only [object, Call.run, bind_apply, hrun, pure_apply]
      have h₁ := h₀.returned (c := .pubsync) trivial (by simp [Object.Alive]) hsync
      have hread := h₁.call (Call.sgetn n) trivial (by simp [Object.Alive])
      have hbytes := hreads _ _ hread (by simp [Call.Reads])
      rw [bytesDelivered_concat, requested_concat] at hbytes
      calc b.pendingBytes = b.pendingBytes.take n := (List.take_of_length_le hn).symm
        _ = b₁.view.ready.take n := by rw [hview, hb.pendingBytes_eq]; rfl
        _ = s.take (0 + n) := (delivered_sgetn n hwf).symm.trans hbytes
        _ = s := by rw [zero_add, List.take_of_length_le hle]
    refine ⟨?_, hpending, ?_⟩
    · rwa [hpending, List.append_left_eq_self, List.reverse_eq_nil_iff] at hgetter
    · rwa [← hready, hb.pendingBytes_eq, Window.pending, List.append_right_eq_self] at hpending
  · rintro ⟨hbehind, rfl, hnil⟩
    refine ⟨?_, fun h b' hs hr => session_reads hb hnil hs hr⟩
    rw [str_spec hb, hbehind, outcome_ok]
    rfl

/-! ### Sessions -/

/-- A buffer with its calls and the setter. -/
def strObject : Object (Call ⊕ List UInt8) Ret Exn Iobuf where
  call := Sum.elim Call.run fun s => do setStr s; return .unit
  permitted := fun b c => Sum.elim (Call.Permitted b) (fun _ => True) c
  fatal := Exn.Fatal

theorem setStr_wf (s : List UInt8) (hb : b.WF) : (after (setStr s b)).WF := by
  cases s with
  | nil => exact hb
  | cons c s =>
    rw [setStr_cons, after_bind_pure]
    exact (xsputn_simulates (c :: s) b hb).after.1

theorem strSession_wf {b₀ : Iobuf} {h : History (Call ⊕ List UInt8) Ret Exn} (h₀ : b₀.WF)
    (hs : Session strObject b₀ h b) : b.WF := by
  refine hs.invariant (I := fun _ b => b.WF) h₀ ?_
  rintro h b (c | s) hb hc
  · exact run_wf c hb hc
  · have hrun : after (strObject.call (.inr s) b) = after (setStr s b) :=
      after_bind_pure (setStr s) (fun _ => Ret.unit) b
    rw [hrun]
    exact setStr_wf s hb

/-- **When setting the string replaces the contents.** -/
theorem setStr_replaces_iff {mem : ℤ → UInt8} {p : ℤ} {alloc : Allocator}
    {h : History (Call ⊕ List UInt8) Ret Exn} (s : List UInt8)
    (hs : Session strObject (new mem p alloc) h b) (hret : outcome (setStr s b) = .ok ()) :
    Holds s (after (setStr s b)) ↔
      (b.inBeg = b.inCur ∨ b.outEnd - b.outCur < s.length) ∧
        ∃ k : ℕ, b.pendingBytes = List.replicate k 255 ∧ Window.RefusesFirst k s b.view ∧
          (b.inEnd = b.outCur ∨ b.outEnd - b.outCur + k < s.length) := by
  have hb := strSession_wf (new_wf mem p alloc) hs
  have hroom : ∀ k : ℕ, b.outEnd - b.outCur + k < s.length ↔ b.view.room + k < s.length := by
    intro k
    have := hb.out_le
    simp only [view]
    omega
  obtain ⟨hwf, r, hput⟩ := setStr_spec hb hret
  rw [holds_iff hwf, Window.xsputn_replaces_iff hput, behind_view_eq_nil hb, room_view hb,
    hb.pendingBytes_eq, hidden_view_eq_nil hb]
  simp only [hroom]

/-- On a new buffer there is nothing to replace. -/
theorem setStr_new :
    Holds [97, 98] (after (setStr [97, 98] (new (fun _ => 0) 0 ⟨fun _ => none, 0⟩))) :=
  (setStr_replaces_iff [97, 98] (.start : Session strObject _ [] _) rfl).2
    ⟨.inl rfl, 0, rfl, .inl (by decide), .inl rfl⟩

/-- A byte that was put before is still there. -/
theorem setStr_appends :
    ∃ b, Session strObject (new (fun _ => 0) 0 ⟨fun _ => none, 0⟩)
        [(.inl (.sputc 97), .ok (.int 97))] b ∧
      outcome (setStr [98] b) = .ok () ∧ outcome (str (after (setStr [98] b))) = .ok [97, 98] ∧
      outcome (sbumpcs 2 (after (setStr [98] b))) = .ok [97, 98] ∧
      ¬ Holds [98] (after (setStr [98] b)) := by
  have h₀ : Session strObject (new (fun _ => 0) 0 ⟨fun _ => none, 0⟩) [] _ := .start
  have h₁ := h₀.returned (c := .inl (.sputc 97)) (r := .int 97) trivial (by simp [Object.Alive]) rfl
  refine ⟨_, h₁, rfl, rfl, rfl, fun h => ?_⟩
  have hstr : (Except.ok [97, 98] : Except Exn (List UInt8)) = .ok [98] := h.getter
  cases hstr

end Iobuf

end Libgpsfile2
