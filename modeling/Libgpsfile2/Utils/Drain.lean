import Libgpsfile2.Utils.Reads

/-!
# Draining the buffer

`consumeAllGet` moves the read position to `egptr`, and `consumeGet (in_avail ())` moves it over
`in_avail ()` bytes, which are the bytes before `egptr`, or all bytes when there are none before
`egptr`. Bytes that lie behind `egptr` are left by the first way; the second one leaves them too, or
leaves `egptr` before the read position.

`drains_iff`: both ways drain the buffer exactly when nothing lies behind `egptr`, and they do so in
all states of a session exactly when no `sputc` takes its fast path.
-/

namespace Libgpsfile2

namespace Iobuf

variable {b b' : Iobuf} {h : History Call Ret Exn}

/-! ### Puts and reads -/

/-- The calls that put or read bytes, in the order of the queue. -/
def Call.Moves : Call → Prop
  | .sungetc => False
  | .sputbackc _ => False
  | .consumeAllGet => False
  | .consumeGet _ => False
  | _ => True

/-- The bytes that a call delivers. -/
def delivered : Call × Except Exn Ret → List UInt8
  | (.sbumpc, .ok (.int n)) => if n = eof then [] else [intToChar n]
  | (.sgetn _, .ok (.bytes s)) => s
  | _ => []

/-- The bytes delivered in a session. -/
def bytesDelivered (h : History Call Ret Exn) : List UInt8 := h.flatMap delivered

/-- What `sbumpc` returns is the first pending byte. -/
theorem delivered_sbumpc (s : List UInt8) :
    delivered (.sbumpc, .ok (.int (Window.first s))) = s.take 1 := by
  cases s with
  | nil => rfl
  | cons c s =>
    show (if toIntType c = eof then [] else [intToChar (toIntType c)]) = [c]
    rw [if_neg (toIntType_ne_eof c), intToChar_toIntType]

/-- A call that returned, when its member function corresponds to one on windows. -/
theorem returned_of_matches {α : Type} {m : IobufM α} {f : α → Ret} {r : Ret}
    {w : EStateM.Result Exn Window α} (hsim : Matches WF view (m b) w)
    (hrun : (do return f (← m) : IobufM Ret) b = .ok r b') :
    ∃ a, w = .ok a b'.view ∧ r = f a ∧ b'.WF := by
  rw [bind_apply] at hrun
  generalize m b = res at hsim hrun
  cases hsim with
  | ok a hwf =>
    cases hrun
    exact ⟨a, rfl, rfl, hwf⟩
  | error e hwf => cases hrun

/-- A call that puts or reads: the bytes that were pending and those it puts are those it delivers
and those that are pending afterwards. -/
theorem run_flow {c : Call} {r : Ret} (hb : b.WF) (hc : c.Moves) (hrun : c.run b = .ok r b')
    (href : b'.alloc.refusals = b.alloc.refusals) :
    b.pendingBytes ++ c.puts = delivered (c, .ok r) ++ b'.pendingBytes := by
  rw [hb.pendingBytes_eq]
  cases c with
  | sputc c =>
    obtain ⟨a, hw, rfl, hwf⟩ := returned_of_matches (f := .int) (sputc_simulates c b hb) hrun
    rw [hwf.pendingBytes_eq]
    rcases Window.sputc_stores hw with ⟨-, hs, -⟩ | ⟨-, -, hr⟩
    · exact hs.pending.symm
    · exact absurd (href.symm.trans hr) (Nat.succ_ne_self _).symm
  | sputn s =>
    obtain ⟨a, hw, rfl, hwf⟩ := returned_of_matches (f := .int) (sputn_simulates s b hb) hrun
    rw [hwf.pendingBytes_eq]
    obtain ⟨-, t, ht, hall, -⟩ := Window.xsputn_stores hw
    rw [hall href] at ht
    exact ht.pending.symm
  | sgetc =>
    obtain ⟨a, hw, rfl, hwf⟩ := returned_of_matches (f := .int) (sgetc_simulates b hb) hrun
    have hview : (if b.view.ready = [] then b.view.sync else b.view) = b'.view := congrArg after hw
    rw [hwf.pendingBytes_eq, ← hview]
    apply (List.append_nil _).trans
    split_ifs
    · exact (Window.pending_sync b.view).symm
    · rfl
  | sbumpc =>
    obtain ⟨a, hw, rfl, hwf⟩ := returned_of_matches (f := .int) (sbumpc_simulates b hb) hrun
    have hview : (if b.view.ready = [] then b.view.sync else b.view).take 1 = b'.view :=
      congrArg after hw
    have hret : Window.first b.view.pending = a := Except.ok.inj (congrArg outcome hw)
    rw [hwf.pendingBytes_eq, ← hview, ← hret, delivered_sbumpc, Window.pending_bumped,
      List.take_append_drop]
    exact List.append_nil _
  | sgetn n =>
    have hsim := sgetn_simulates n b hb
    unfold Window.xsgetn at hsim
    rw [if_neg (by omega), Int.toNat_natCast] at hsim
    obtain ⟨a, hw, rfl, hwf⟩ := returned_of_matches (f := .bytes) hsim hrun
    have hview : b.view.take n = b'.view := congrArg after hw
    have hret : b.view.ready.take n = a := Except.ok.inj (congrArg outcome hw)
    rw [hwf.pendingBytes_eq, ← hview, ← hret]
    show (b.view.ready ++ b.view.hidden) ++ [] =
      b.view.ready.take n ++ (b.view.ready.drop n ++ b.view.hidden)
    rw [List.append_nil, ← List.append_assoc, List.take_append_drop]
  | pubsync =>
    obtain ⟨a, hw, rfl, hwf⟩ := returned_of_matches (f := .int) (pubsync_simulates b hb) hrun
    have hview : b.view.sync = b'.view := congrArg after hw
    rw [hwf.pendingBytes_eq, ← hview, Window.pending_sync]
    exact List.append_nil _
  | sungetc => cases hc
  | sputbackc c => cases hc
  | consumeAllGet => cases hc
  | consumeGet n => cases hc

/-- **Nothing is lost between puts and reads.** -/
theorem session_flow {b₀ : Iobuf} (h₀ : b₀.WF) (hs : Session object b₀ h b)
    (hmoves : ∀ x ∈ h, x.1.Moves)
    (hthrow : ∀ x ∈ h, ∀ what, x.2 ≠ .error (.runtimeError what))
    (hrealloc : b.alloc.refusals = b₀.alloc.refusals) :
    b₀.pendingBytes ++ bytesPut h = bytesDelivered h ++ b.pendingBytes := by
  refine (session_quiet (I := fun h b => (∀ x ∈ h, x.1.Moves) →
    b₀.pendingBytes ++ bytesPut h = bytesDelivered h ++ b.pendingBytes) h₀ ?_ ?_ hs hthrow).2
      hrealloc hmoves
  · exact fun _ => List.append_nil _
  · intro h b c r b' hb hflow hrun _ heq hmoves
    have hmove : c.Moves := hmoves _ (List.mem_append_right h (List.mem_singleton.2 rfl))
    have hstep := run_flow hb hmove hrun heq
    have hput : bytesPut (h ++ [(c, .ok r)]) = bytesPut h ++ c.puts := by simp [bytesPut]
    have hdelivered : bytesDelivered (h ++ [(c, .ok r)]) =
        bytesDelivered h ++ delivered (c, .ok r) := by simp [bytesDelivered]
    rw [hput, hdelivered, ← List.append_assoc,
      hflow fun x hx => hmoves x (List.mem_append_left _ hx), List.append_assoc, hstep,
      List.append_assoc]

/-! ### A read position behind `egptr` -/

/-- The pointers are in order but for `egptr`, which is before the read position. -/
structure Overrun (b : Iobuf) : Prop where
  synced : ({ b with inEnd := b.outCur } : Iobuf).WF
  beg_le : b.inBeg ≤ b.inEnd
  lt : b.inEnd < b.inCur

/-- The pointers are in order, but perhaps for `egptr`. -/
def Loose (b : Iobuf) : Prop := b.WF ∨ b.Overrun

/-- `overflow` compacts the buffer, and moves `egptr`. -/
theorem Overrun.overflow (hb : b.Overrun) (c : ℤ) :
    overflow c b = overflow c { b with inEnd := b.outCur } := by
  have hbeg := hb.beg_le
  have hlt := hb.lt
  have hsynced := overflow_apply_compact (b := { b with inEnd := b.outCur }) c hb.synced
    (show b.inBeg < b.inCur by omega)
  exact (overflow_apply_compact c hb.synced (by omega)).trans hsynced.symm

/-- A single put. -/
theorem Overrun.sputc (hb : b.Overrun) (c : UInt8) :
    (after (sputc c b)).Loose := by
  by_cases hroom : b.outCur < b.outEnd
  · obtain ⟨⟨hout, hblock, hsize, hbeg, hcur, -, -⟩, hle, hlt⟩ := hb
    simp only at hout hblock hsize hbeg hcur
    have hacc : access b.outCur 1 b = .ok () b := access_ok (by omega)
    simp only [Iobuf.sputc, store, bind_apply, get_apply, modify_apply, pure_apply, if_pos hroom,
      hacc, after_ok]
    right
    constructor
    · constructor <;> simp only <;> omega
    · exact hle
    · exact hlt
  · have hrun : Iobuf.sputc c b = Iobuf.overflow (toIntType c) b := by
      simp only [Iobuf.sputc, bind_apply, get_apply, if_neg hroom]
    rw [hrun, hb.overflow]
    exact .inl (overflow_simulates (toIntType c) _ hb.synced).after.1

/-- A bulk put. -/
theorem Overrun.sputn (hb : b.Overrun) (s : List UInt8) :
    (after (sputn s b)).Loose := by
  by_cases hroom : b.outEnd - b.outCur < s.length
  · cases s with
    | nil =>
      have := hb.synced.out_le
      simp only [List.length_nil] at hroom this
      omega
    | cons c s =>
      -- the loop calls `overflow`
      have hrun : Iobuf.sputn (c :: s) b = Iobuf.sputn (c :: s) { b with inEnd := b.outCur } := by
        simp only [Iobuf.sputn, xsputn, xsputnLoop, bind_apply, get_apply, if_pos hroom,
          hb.overflow]
      rw [hrun]
      exact .inl (sputn_simulates (c :: s) _ hb.synced).after.1
  · obtain ⟨⟨hout, hblock, hsize, hbeg, hcur, -, hend⟩, hle, hlt⟩ := hb
    simp only at hout hblock hsize hbeg hcur hend
    have hacc : access b.outCur s.length b = .ok () b := access_ok (by omega)
    have hloop : xsputnLoop s b = .ok s b := by
      cases s with
      | nil =>
        simp only [xsputnLoop, bind_apply, get_apply, pure_apply,
          if_neg (show ¬ b.outEnd - b.outCur < 0 by omega)]
      | cons c s => simp only [xsputnLoop, bind_apply, get_apply, pure_apply, if_neg hroom]
    simp only [Iobuf.sputn, xsputn, memcpyTo, bind_apply, get_apply, modify_apply, pure_apply,
      hloop, hacc, after_ok]
    -- `egptr` may have come to the read position again
    by_cases hreach : b.inCur ≤ b.inEnd + s.length
    · left
      constructor <;> simp only <;> omega
    · right
      constructor
      · constructor <;> simp only <;> omega
      · simp only
        omega
      · simp only
        omega

/-- A bulk read computes a negative length. -/
theorem Overrun.sgetn (hb : b.Overrun) (n : ℕ) : sgetn n b = .error .outOfBounds b := by
  have hlt := hb.lt
  have hacc : access b.inCur (min n (b.inEnd - b.inCur)) b = .error .outOfBounds b :=
    access_error (by omega)
  simp only [Iobuf.sgetn, xsgetn, memcpyFrom, bind_apply, get_apply, hacc]

/-- A drain moves the read position back. -/
theorem Overrun.back (hb : b.Overrun) : ({ b with inCur := b.inEnd } : Iobuf).WF := by
  obtain ⟨⟨hout, hblock, hsize, -, hcur, -, hroom⟩, hle, hlt⟩ := hb
  simp only at hcur
  exact ⟨hout, hblock, hsize, hle, le_rfl, hlt.le.trans hcur, hroom⟩

theorem inAvail_of_ne (hne : b.inEnd ≠ b.inCur) : b.inAvail = b.inEnd - b.inCur := by
  unfold inAvail
  rw [if_pos (sub_ne_zero.2 hne)]

theorem inAvail_of_eq (heq : b.inEnd = b.inCur) : b.inAvail = b.outCur - b.inCur := by
  unfold inAvail
  rw [if_neg (not_not.2 (sub_eq_zero.2 heq))]
  rfl

theorem inAvail_of_synced (hsync : b.inEnd = b.outCur) : b.inAvail = b.inEnd - b.inCur := by
  by_cases heq : b.inEnd = b.inCur
  · rw [inAvail_of_eq heq, hsync]
  · exact inAvail_of_ne heq

theorem Loose.wf (hb : b.Loose) (hsync : b.inEnd = b.outCur) : b.WF := by
  refine hb.resolve_right fun ho => ?_
  have hcur := ho.synced.cur_le
  have hlt := ho.lt
  simp only at hcur
  omega

/-! ### Sessions -/

/-- The calls of a user who puts, reads and drains. -/
def Call.Draining (b : Iobuf) : Call → Prop
  | .sungetc => False
  | .sputbackc _ => False
  | .consumeGet n => n = b.inAvail
  | _ => True

/-- A buffer of such a user. -/
def drainObject : Object Call Ret Exn Iobuf where
  call := Call.run
  permitted := fun b c => c.Draining b
  fatal := Exn.Fatal

/-- A drain in a good state leaves the read position at `pptr`, or at `egptr`. -/
theorem consumeGet_loose (hb : b.WF) :
    (after (consumeGet b.inAvail b)).Loose := by
  by_cases heq : b.inEnd = b.inCur
  · have hrun : after (consumeGet b.inAvail b) = { b with inCur := b.outCur } := by
      rw [inAvail_of_eq heq]
      simp only [consumeGet, modify_apply, after_ok, add_sub_cancel]
    rw [hrun]
    obtain ⟨hout, hblock, hsize, hbeg, hcur, hend, hroom⟩ := hb
    by_cases hsync : b.inEnd = b.outCur
    · left
      constructor <;> simp only <;> omega
    · right
      constructor
      · constructor <;> simp only <;> omega
      · simp only
        omega
      · simp only
        omega
  · have hcur := hb.cur_le
    rw [inAvail_of_ne heq]
    exact .inl (consumeGet_matches hb (by omega) le_rfl).after.1

/-- The calls of a draining user are permitted, but for `consumeGet (in_avail ())`. -/
theorem Call.Draining.permitted {c : Call} (hc : c.Draining b) :
    c = .consumeGet b.inAvail ∨ c.Permitted b := by
  cases c with
  | consumeGet n => exact .inl (congrArg Call.consumeGet hc)
  | _ => exact .inr trivial

/-- Whatever the calls, only `egptr` can be out of order. -/
theorem run_loose (c : Call) (hb : b.Loose) (hc : c.Draining b) : (after (c.run b)).Loose := by
  rcases hb with hb | hb
  · rcases hc.permitted with rfl | hpermitted
    · exact consumeGet_loose hb
    · exact .inl (run_wf c hb hpermitted)
  · have hlt := hb.lt
    cases c with
    | sputc c =>
      have hrun : after ((Call.sputc c).run b) = after (sputc c b) := after_bind_pure _ _ _
      rw [hrun]
      exact hb.sputc c
    | sputn s =>
      have hrun : after ((Call.sputn s).run b) = after (sputn s b) := after_bind_pure _ _ _
      rw [hrun]
      exact hb.sputn s
    | sgetc =>
      -- `underflow` moves `egptr`
      have hrun : after (Call.sgetc.run b) = after (underflow { b with inEnd := b.outCur }) := by
        apply (after_bind_pure sgetc Ret.int b).trans
        simp only [sgetc, bind_apply, get_apply, if_neg hlt.not_gt]
        rfl
      rw [hrun]
      exact .inl (underflow_simulates _ hb.synced).after.1
    | sbumpc =>
      have hrun : after (Call.sbumpc.run b) = after (uflow { b with inEnd := b.outCur }) := by
        apply (after_bind_pure sbumpc Ret.int b).trans
        simp only [sbumpc, bind_apply, get_apply, if_neg hlt.not_gt]
        rfl
      rw [hrun]
      exact .inl (uflow_simulates _ hb.synced).after.1
    | sgetn n =>
      have hrun : after ((Call.sgetn n).run b) = b := by
        apply (after_bind_pure (sgetn n) Ret.bytes b).trans
        rw [hb.sgetn, after_error]
      rw [hrun]
      exact .inr hb
    | pubsync => exact .inl hb.synced
    | consumeAllGet => exact .inl hb.back
    | consumeGet n =>
      have hrun : after ((Call.consumeGet n).run b) = { b with inCur := b.inEnd } := by
        rw [show n = b.inAvail from hc, inAvail_of_ne hlt.ne]
        simp only [Call.run, consumeGet, bind_apply, modify_apply, pure_apply, after_ok,
          add_sub_cancel]
      rw [hrun]
      exact .inl hb.back
    | sungetc => cases hc
    | sputbackc c => cases hc

/-! ### What a drain leaves -/

/-- What a drain should leave: nothing is pending, the pointers are in order, and the bytes that
are delivered next are the bytes that are put next. -/
structure Drained (b : Iobuf) : Prop where
  nothing : b.getNumGet = b.getNumPut
  ordered : b.inCur ≤ b.inEnd ∧ b.inEnd ≤ b.outCur
  next : ∀ h b', Session object b h b' → (∀ x ∈ h, x.1.Moves) →
    (∀ x ∈ h, ∀ what, x.2 ≠ .error (.runtimeError what)) → b'.alloc.refusals = b.alloc.refusals →
    bytesDelivered h ++ b'.pendingBytes = bytesPut h

/-- Both ways to drain the buffer do, `in_avail ()` is not negative, and no bulk read copies a
negative number of bytes. -/
structure Drains (b : Iobuf) : Prop where
  consumeAllGet : Drained (after (consumeAllGet b))
  consumeGet : Drained (after (consumeGet b.inAvail b))
  inAvail : 0 ≤ b.inAvail
  copied : ∀ n : ℕ, 0 ≤ min (n : ℤ) (b.inEnd - b.inCur)

/-- A buffer in order of which nothing is pending. -/
theorem drained_of_wf (hb : b.WF) (hnone : b.inCur = b.outCur) : Drained b := by
  have hcur := hb.cur_le
  have hend := hb.end_le
  refine ⟨?_, ⟨hcur, hend⟩, ?_⟩
  · unfold getNumGet getNumPut
    rw [hb.outBeg_eq, hnone]
  · intro h b' hs hmoves hthrow hrefusals
    have hpending : b.pendingBytes = [] := by
      unfold pendingBytes
      rw [hnone, slice_self]
    rw [← session_flow hb hs hmoves hthrow hrefusals, hpending]
    rfl

theorem drains_iff_synced (hb : b.Loose) : Drains b ↔ b.inEnd = b.outCur := by
  constructor
  · intro h
    -- `consumeAllGet` has left nothing
    have hnothing := h.consumeAllGet.nothing
    have hout : b.outBeg = b.inBeg := by
      rcases hb with hb | hb
      · exact hb.outBeg_eq
      · exact hb.synced.outBeg_eq
    simp only [Iobuf.consumeAllGet, modify_apply, after_ok, getNumGet, getNumPut, hout] at hnothing
    omega
  · intro hsync
    have hwf := hb.wf hsync
    have hcur := hwf.cur_le
    have havail := inAvail_of_synced hsync
    -- both ways move the read position to `egptr`
    have hall : after (Iobuf.consumeGet b.inAvail b) = after (Iobuf.consumeAllGet b) := by
      rw [havail]
      simp only [Iobuf.consumeGet, Iobuf.consumeAllGet, modify_apply, after_ok, add_sub_cancel]
    have hdrained : Drained (after (Iobuf.consumeAllGet b)) :=
      drained_of_wf (consumeAllGet_simulates b hwf).after.1 hsync
    refine ⟨hdrained, by rw [hall]; exact hdrained, by omega, fun n => by omega⟩

/-- **When the buffer is drained**, in one state of a session and in all of them. -/
theorem drains_iff {mem : ℤ → UInt8} {p : ℤ} {alloc : Allocator}
    (hs : Session drainObject (new mem p alloc) h b) :
    (Drains b ↔ b.inEnd = b.outCur) ∧
      (drainObject.Always (new mem p alloc) h Drains ↔
        drainObject.EachCall (new mem p alloc) h fun b c => ¬ c.Fast b) := by
  have h₀ : (new mem p alloc).Loose := .inl (new_wf mem p alloc)
  have hloose : b.Loose :=
    hs.invariant (I := fun _ b => b.Loose) h₀ fun h b c hb hc => run_loose c hb hc
  refine ⟨drains_iff_synced hloose, ?_⟩
  refine hs.always_iff (I := Loose) h₀ ((drains_iff_synced h₀).2 rfl) ?_
  intro b c hb hgood hc
  have hafter : (after (drainObject.call c b)).Loose := run_loose c hb hc
  refine ⟨?_, fun _ => hafter⟩
  rw [drains_iff_synced hafter]
  -- a good state is in order, and there `consumeGet (in_avail ())` is permitted
  have hsync := (drains_iff_synced hb).1 hgood
  have hpermitted : c.Permitted b := by
    rcases Call.Draining.permitted hc with rfl | hpermitted
    · exact ⟨hgood.inAvail, (inAvail_of_synced hsync).le⟩
    · exact hpermitted
  exact run_synced c (hb.wf hsync) hpermitted hsync

/-- Bytes that a bulk put has put are drained. -/
theorem sputn_drains :
    ∃ b, Session drainObject (new (fun _ => 0) 0 ⟨fun _ => none, 0⟩)
        [(.sputn [97, 98], .ok (.int 2))] b ∧ Drains b := by
  have h₀ : Session drainObject (new (fun _ => 0) 0 ⟨fun _ => none, 0⟩) [] _ := .start
  have h₁ := h₀.returned (c := .sputn [97, 98]) (r := .int 2) trivial (by simp [Object.Alive]) rfl
  exact ⟨_, h₁, (drains_iff h₁).1.2 rfl⟩

/-- A byte that `sputc` has put is not drained: `consumeAllGet` leaves it, and after
`consumeGet (in_avail ())` the next bulk read copies a negative number of bytes. -/
theorem sputc_drains_not :
    ∃ b, Session drainObject (new (fun _ => 0) 0 ⟨fun _ => none, 0⟩)
        [(.sputc 97, .ok (.int 97))] b ∧
      (after (consumeAllGet b)).getNumGet = 0 ∧ (after (consumeAllGet b)).getNumPut = 1 ∧
      (after (consumeGet b.inAvail b)).inAvail = -1 ∧
      outcome (sgetn 1 (after (consumeGet b.inAvail b))) = .error .outOfBounds ∧ ¬ Drains b := by
  have h₀ : Session drainObject (new (fun _ => 0) 0 ⟨fun _ => none, 0⟩) [] _ := .start
  have h₁ := h₀.returned (c := .sputc 97) (r := .int 97) trivial (by simp [Object.Alive]) rfl
  refine ⟨_, h₁, rfl, rfl, rfl, rfl, fun h => ?_⟩
  have hnothing : (0 : ℤ) = 1 := h.consumeAllGet.nothing
  omega

end Iobuf

end Libgpsfile2
