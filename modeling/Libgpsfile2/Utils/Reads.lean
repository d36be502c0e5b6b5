import Libgpsfile2.Utils.IobufQueue

/-!
# Single and bulk reads

`sbumpc` moves `egptr` up to `pptr` when it has come to the end of the get area. `sgetn` does not:
it takes what lies before `egptr`, and leaves the bytes that the fast path of `sputc` has put since
then.

`bulk_is_single_iff`: `sgetn` reads what repeated calls of `sbumpc` read exactly when it is asked
for no more than lies before `egptr`, or nothing lies behind it; and it always does in a session
exactly when no `sputc` takes its fast path.
-/

namespace Libgpsfile2

namespace Window

variable {w : Window}

/-- Taking from the ready bytes takes from the pending ones. -/
theorem pending_take {k : ℕ} (hk : k ≤ w.ready.length) : (w.take k).pending = w.pending.drop k := by
  simp only [take, pending]
  rw [List.drop_append_of_le_length hk]

/-- `sbumpc` takes the first pending byte. -/
theorem pending_bumped (w : Window) :
    ((if w.ready = [] then w.sync else w).take 1).pending = w.pending.drop 1 := by
  by_cases hready : w.ready = []
  · rw [if_pos hready]
    simp [take, sync, pending]
  · rw [if_neg hready, pending_take (List.length_pos_iff.2 hready)]

end Window

namespace Iobuf

/-- `sbumpc`, up to `n` times; the first `eof` is the end. -/
def sbumpcs : ℕ → IobufM (List UInt8)
  | 0 => return []
  | n + 1 => do
      let c ← sbumpc
      if c = eof then return []
      else
        let s ← sbumpcs n
        return intToChar c :: s

variable {b : Iobuf}

/-- Repeated single reads read the pending bytes. -/
theorem sbumpcs_spec (n : ℕ) (hb : b.WF) :
    ∃ b', sbumpcs n b = .ok (b.pendingBytes.take n) b' ∧ b'.WF ∧
      b'.pendingBytes = b.pendingBytes.drop n := by
  induction n generalizing b with
  | zero => exact ⟨b, rfl, hb, rfl⟩
  | succ n ih =>
    obtain ⟨b₁, hrun, hwf, hview⟩ := (sbumpc_simulates b hb).ok_right
    have hdrop : b₁.pendingBytes = b.pendingBytes.drop 1 := by
      rw [hwf.pendingBytes_eq, hview, Window.pending_bumped, hb.pendingBytes_eq]
    rw [← hb.pendingBytes_eq] at hrun
    unfold sbumpcs
    rw [bind_apply, hrun]
    cases hp : b.pendingBytes with
    | nil =>
      rw [hp] at hdrop
      exact ⟨b₁, rfl, hwf, hdrop⟩
    | cons c s =>
      -- the byte that was read is the first one, and the others are read next
      rw [hp] at hdrop
      obtain ⟨b', hrest, hwf', hpending⟩ := ih hwf
      rw [hdrop] at hrest hpending
      refine ⟨b', ?_, hwf', hpending⟩
      show (if toIntType c = eof then pure [] else _ : IobufM (List UInt8)) b₁ = _
      rw [if_neg (toIntType_ne_eof c), bind_apply, hrest]
      show EStateM.Result.ok (intToChar (toIntType c) :: s.take n) b' = _
      rw [intToChar_toIntType]
      rfl

/-- A bulk read returns the ready bytes. -/
theorem sgetn_spec (n : ℕ) (hb : b.WF) :
    ∃ b', sgetn n b = .ok (b.view.ready.take n) b' ∧ b'.WF ∧
      b'.pendingBytes = b.view.ready.drop n ++ b.view.hidden := by
  have hsim := sgetn_simulates n b hb
  unfold Window.xsgetn at hsim
  rw [if_neg (by omega), Int.toNat_natCast] at hsim
  obtain ⟨b', hrun, hwf, hview⟩ := hsim.ok_right
  refine ⟨b', hrun, hwf, ?_⟩
  rw [hwf.pendingBytes_eq, hview]
  rfl

/-- What a bulk read of `n` bytes should do: it returns the bytes that `n` calls of `sbumpc`
return, leaves the same bytes, and returns as many as there are. -/
structure BulkIsSingle (n : ℕ) (b : Iobuf) : Prop where
  bytes : outcome (sgetn n b) = outcome (sbumpcs n b)
  pending : (after (sgetn n b)).pendingBytes = (after (sbumpcs n b)).pendingBytes
  count : ∀ s, outcome (sgetn n b) = .ok s → s.length = min n b.pendingBytes.length

theorem hidden_view_eq_nil (hb : b.WF) : b.view.hidden = [] ↔ b.inEnd = b.outCur := by
  have := hb.end_le
  simp only [view, slice_eq_nil_iff]
  omega

/-- **When one bulk read is a sequence of single reads.** -/
theorem bulkIsSingle_iff (n : ℕ) (hb : b.WF) :
    BulkIsSingle n b ↔ n ≤ b.inEnd - b.inCur ∨ b.inEnd = b.outCur := by
  obtain ⟨b₁, hget, hwf₁, hrest₁⟩ := sgetn_spec n hb
  obtain ⟨b₂, hbump, hwf₂, hrest₂⟩ := sbumpcs_spec n hb
  have hlen : (n : ℤ) ≤ b.inEnd - b.inCur ↔ n ≤ b.view.ready.length := by
    have := hb.cur_le
    simp only [view, length_slice]
    omega
  have hpending : b.pendingBytes = b.view.ready ++ b.view.hidden := hb.pendingBytes_eq
  rw [hlen, ← hidden_view_eq_nil hb]
  constructor
  · intro h
    have hbytes := h.bytes
    rw [hget, hbump, outcome_ok, outcome_ok, hpending, List.take_append, Except.ok.injEq] at hbytes
    -- nothing is taken from behind the get area
    have hnone : b.view.hidden.take (n - b.view.ready.length) = [] :=
      List.append_right_eq_self.1 hbytes.symm
    rcases List.take_eq_nil_iff.1 hnone with hle | hnil
    · exact .inl (Nat.sub_eq_zero_iff_le.1 hle)
    · exact .inr hnil
  · intro h
    have htake : b.view.ready.take n = b.pendingBytes.take n := by
      rw [hpending]
      rcases h with hle | hnil
      · rw [List.take_append_of_le_length hle]
      · rw [hnil, List.append_nil]
    have hdrop : b.view.ready.drop n ++ b.view.hidden = b.pendingBytes.drop n := by
      rw [hpending]
      rcases h with hle | hnil
      · rw [List.drop_append_of_le_length hle]
      · rw [hnil, List.append_nil, List.append_nil]
    refine ⟨?_, ?_, ?_⟩
    · rw [hget, hbump, outcome_ok, outcome_ok, htake]
    · rw [hget, hbump, after_ok, after_ok, hrest₁, hrest₂, hdrop]
    · intro s hs
      rw [hget, outcome_ok, Except.ok.injEq, htake] at hs
      rw [← hs, List.length_take]

/-! ### Sessions -/

/-- The call is a `sputc` that stores its byte itself. It does not move `egptr`. -/
def Call.Fast (b : Iobuf) : Call → Prop
  | .sputc _ => b.outCur < b.outEnd
  | _ => False

/-- A call on a buffer without hidden bytes hides one exactly when it is a fast `sputc`. -/
theorem run_hidden (c : Call) (hb : b.WF) (hc : c.Permitted b) (hnil : b.view.hidden = []) :
    (after (c.run b)).view.hidden = [] ↔ ¬ c.Fast b := by
  -- all other calls keep the hidden bytes, or take `egptr` to `pptr`
  have hother : ∀ {α : Type} (m : IobufM α) (f : α → Ret) {w : EStateM.Result Exn Window α},
      c.run = (do return f (← m)) → Matches WF view (m b) w → (after w).hidden = [] →
      ¬ c.Fast b → ((after (c.run b)).view.hidden = [] ↔ ¬ c.Fast b) := by
    intro α m f w hrun hsim hw hfast
    rw [hrun, after_bind_pure, hsim.after.2]
    exact iff_of_true hw hfast
  cases c with
  | sputc c =>
    have hfast : (Call.sputc c).Fast b ↔ 0 < b.view.room := by
      simp only [Call.Fast, view]
      omega
    have hrun : after ((Call.sputc c).run b) = after (sputc c b) := after_bind_pure _ _ _
    rw [hrun, (sputc_simulates c b hb).after.2, hfast]
    unfold Window.sputc Window.overflow
    split_ifs with hroom href
    · refine iff_of_false ?_ (not_not.2 hroom)
      simp [Window.store]
    · exact iff_of_true hnil hroom
    · exact iff_of_true rfl hroom
  | sputn s =>
    exact hother _ _ rfl (sputn_simulates s b hb) (Window.xsputn_hidden_nil hnil) id
  | sgetc =>
    refine hother _ _ rfl (sgetc_simulates b hb) ?_ id
    unfold Window.sgetc
    rw [after_ok]
    split_ifs
    · rfl
    · exact hnil
  | sbumpc =>
    refine hother _ _ rfl (sbumpc_simulates b hb) ?_ id
    unfold Window.sbumpc
    rw [after_ok]
    split_ifs
    · rfl
    · exact hnil
  | sgetn n =>
    refine hother _ _ rfl (sgetn_simulates n b hb) ?_ id
    unfold Window.xsgetn
    split_ifs <;> exact hnil
  | sungetc =>
    refine hother _ _ rfl (sungetc_simulates b hb) ?_ id
    unfold Window.sungetc
    cases b.view.behind <;> exact hnil
  | sputbackc c =>
    refine hother _ _ rfl (sputbackc_simulates c b hb) ?_ id
    unfold Window.sputbackc
    cases b.view.behind <;> exact hnil
  | pubsync => exact hother _ _ rfl (pubsync_simulates b hb) rfl id
  | consumeAllGet =>
    have hrun : after (Call.consumeAllGet.run b) = after (consumeAllGet b) := rfl
    rw [hrun, (consumeAllGet_simulates b hb).after.2]
    exact iff_of_true hnil id
  | consumeGet n =>
    refine hother _ (fun _ => .unit) rfl (consumeGet_matches hb hc.1 hc.2) hnil id

/-- When the bytes before `egptr` are all there are, they stay all there are as long as no `sputc`
is fast. -/
theorem run_synced (c : Call) (hb : b.WF) (hc : c.Permitted b) (hsync : b.inEnd = b.outCur) :
    (after (c.run b)).inEnd = (after (c.run b)).outCur ↔ ¬ c.Fast b := by
  rw [← hidden_view_eq_nil (run_wf c hb hc)]
  exact run_hidden c hb hc ((hidden_view_eq_nil hb).2 hsync)

/-- All bulk reads are single reads when nothing lies behind the get area. -/
theorem forall_bulkIsSingle_iff (hb : b.WF) : (∀ n, BulkIsSingle n b) ↔ b.inEnd = b.outCur := by
  constructor
  · intro h
    have hcur := hb.cur_le
    rcases (bulkIsSingle_iff ((b.inEnd - b.inCur).toNat + 1) hb).1 (h _) with hle | hsync
    · push_cast at hle
      omega
    · exact hsync
  · exact fun hsync n => (bulkIsSingle_iff n hb).2 (.inr hsync)

/-- **When bulk reads are sequences of single reads**, in one state of a session and in all of
them. -/
theorem bulk_is_single_iff {mem : ℤ → UInt8} {p : ℤ} {alloc : Allocator}
    {h : History Call Ret Exn} (hs : Session object (new mem p alloc) h b) :
    (∀ n : ℕ, BulkIsSingle n b ↔ n ≤ b.inEnd - b.inCur ∨ b.inEnd = b.outCur) ∧
      (object.Always (new mem p alloc) h (fun b => ∀ n, BulkIsSingle n b) ↔
        object.EachCall (new mem p alloc) h fun b c => ¬ c.Fast b) := by
  have hwf₀ := new_wf mem p alloc
  refine ⟨fun n => bulkIsSingle_iff n (session_wf hwf₀ hs).1, ?_⟩
  refine hs.always_iff (I := WF) hwf₀ ((forall_bulkIsSingle_iff hwf₀).2 rfl) ?_
  intro b c hb hgood hc
  have hwf : (after (object.call c b)).WF := run_wf c hb hc
  refine ⟨?_, fun _ => hwf⟩
  rw [forall_bulkIsSingle_iff hwf]
  exact run_synced c hb hc ((forall_bulkIsSingle_iff hb).1 hgood)

/-- A bulk put hides nothing. -/
theorem sputn_sgetn :
    ∃ b, Session object (new (fun _ => 0) 0 ⟨fun _ => none, 0⟩)
        [(.sputn [97, 98], .ok (.int 2))] b ∧ ∀ n, BulkIsSingle n b := by
  have h₀ : Session object (new (fun _ => 0) 0 ⟨fun _ => none, 0⟩) [] _ := .start
  have h₁ := h₀.returned (c := .sputn [97, 98]) (r := .int 2) trivial (by simp [Object.Alive]) rfl
  exact ⟨_, h₁, fun n => ((bulk_is_single_iff h₁).1 n).2 (.inr rfl)⟩

/-- A byte that `sputc` has put is read by `sbumpc`, and is not there for `sgetn`. -/
theorem sputc_sgetn :
    ∃ b, Session object (new (fun _ => 0) 0 ⟨fun _ => none, 0⟩)
        [(.sputc 97, .ok (.int 97))] b ∧
      outcome (sgetn 1 b) = .ok [] ∧ outcome (sbumpcs 1 b) = .ok [97] ∧ ¬ BulkIsSingle 1 b := by
  have h₀ : Session object (new (fun _ => 0) 0 ⟨fun _ => none, 0⟩) [] _ := .start
  have h₁ := h₀.returned (c := .sputc 97) (r := .int 97) trivial (by simp [Object.Alive]) rfl
  have hbulk := (bulkIsSingle_iff 1 (session_wf (new_wf _ _ _) h₁).1).not
  exact ⟨_, h₁, rfl, rfl, hbulk.2 (by decide)⟩

end Iobuf

end Libgpsfile2
