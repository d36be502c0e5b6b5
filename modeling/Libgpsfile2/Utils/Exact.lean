import Libgpsfile2.Utils.IobufQueue

/-!
# Exact bulk puts

A bulk put is exact when it returns and has stored all its bytes, or throws after a `realloc` that
returned `NULL` and has stored a first part of them. The loop of `xsputn` compares the `char` it
has given to `overflow` with the `int_type` that came back. A byte that was stored passes when it
is an ASCII byte; a byte that was not stored passes when it is `0xff`, and is lost.

`sputn_exact_iff`: a bulk put is exact exactly when the loop stores ASCII bytes only and loses
none, `StoresAscii`, apart from the lost bytes `0xff` that a later exception makes up for,
`LosesExcused`.
-/

namespace Libgpsfile2

namespace Window

variable {w w' : Window} {s t : List UInt8} {c : UInt8}

/-- What the loop of `xsputn` has stored stays. -/
theorem xsputnLoop_grows (s : List UInt8) (w : Window) :
    w.pending <+: (after (xsputnLoop s w)).pending := by
  induction s generalizing w with
  | nil => exact List.prefix_rfl
  | cons c s ih =>
    simp only [xsputnLoop]
    split_ifs with hroom href h255 hascii
    · exact List.prefix_rfl
    · have hpending := (stores_refused w href).1.pending
      rw [List.append_nil] at hpending
      exact hpending ▸ ih w.refused
    · have hpending := (stores_refused w href).1.pending
      rw [List.append_nil] at hpending
      rw [after_error, hpending]
    · have hpending := (stores_overflow c w href).1.pending
      exact (List.prefix_append _ _).trans (hpending ▸ ih _)
    · rw [after_error, (stores_overflow c w href).1.pending]
      exact List.prefix_append _ _

/-! ### What is exact -/

/-- The result of a bulk put of `s`, of which the part `t` is a first part that is missing some
bytes. -/
def Partial (s : List UInt8) (w w' : Window) : Prop :=
  ∃ t, t <+: s ∧ t.length < s.length ∧ w'.pending = w.pending ++ t

/-- The put has stored all of `s` and returned, or has stored a part of `s` and thrown after a
`realloc` that returned `NULL`. -/
def Exact (s : List UInt8) (w : Window) : EStateM.Result Exn Window ℤ → Prop
  | .ok r w' => r = s.length ∧ w'.pending = w.pending ++ s
  | .error _ w' => w.alloc.refusals < w'.alloc.refusals ∧ Partial s w w'

/-- Bytes `0xff` have been lost. The exception that makes up for them comes from a byte that is
not stored, or from another byte `0xff` that is. -/
def LosesExcused : List UInt8 → Window → Prop
  | [], _ => False
  | c :: s, w =>
      ¬ (c :: s).length ≤ w.room ∧
        if w.Refuses then c = 255 → LosesExcused s w.refused else c = 255

/-- The bytes that go through `overflow` are stored and are ASCII bytes, up to one that is not
stored; if that one is `0xff` its loss has to be excused. -/
def StoresAscii : List UInt8 → Window → Prop
  | [], _ => True
  | c :: s, w =>
      (c :: s).length ≤ w.room ∨
        if w.Refuses then c = 255 → LosesExcused s w.refused
        else c.toNat < 128 ∧ StoresAscii s (w.makeRoom.push c)

/-! ### The loop -/

/-- No refusal is forgotten. -/
theorem xsputnLoop_refusals (s : List UInt8) (w : Window) :
    w.alloc.refusals ≤ (after (xsputnLoop s w)).alloc.refusals := by
  induction s generalizing w with
  | nil => exact le_rfl
  | cons c s ih =>
    simp only [xsputnLoop]
    split_ifs with hroom href h255 hascii
    · exact le_rfl
    · exact (stores_refused w href).1.refusals.trans (ih w.refused)
    · exact (stores_refused w href).1.refusals
    · exact (stores_overflow c w href).1.refusals.trans (ih _)
    · exact (stores_overflow c w href).1.refusals

/-- A part of nothing but the first byte. -/
theorem partial_singleton_iff (hw : w'.pending = w.pending ++ [c]) {d : UInt8} (hs : s ≠ []) :
    Partial (d :: s) w w' ↔ c = d := by
  constructor
  · rintro ⟨t, ht, -, heq⟩
    obtain rfl : [c] = t := List.append_cancel_left (hw.symm.trans heq)
    exact (List.cons_prefix_cons.1 ht).1
  · rintro rfl
    have hpos := List.length_pos_iff.2 hs
    exact ⟨[c], List.cons_prefix_cons.2 ⟨rfl, List.nil_prefix⟩, by simpa using hpos, hw⟩

/-- A part that begins with the byte `c`. -/
theorem partial_cons_iff {w₁ : Window} (hw₁ : w₁.pending = w.pending ++ [c])
    (hgrows : w₁.pending <+: w'.pending) {d : UInt8} :
    Partial (d :: s) w w' ↔ c = d ∧ Partial s w₁ w' := by
  obtain ⟨t₁, ht₁⟩ := hgrows
  rw [hw₁, List.append_assoc, List.singleton_append] at ht₁
  constructor
  · rintro ⟨t, ht, hlen, heq⟩
    obtain rfl : c :: t₁ = t := List.append_cancel_left (ht₁.trans heq)
    obtain ⟨hc, hprefix⟩ := List.cons_prefix_cons.1 ht
    refine ⟨hc, t₁, hprefix, by simpa using hlen, ?_⟩
    rw [hw₁, List.append_assoc, List.singleton_append, ht₁]
  · rintro ⟨rfl, t, ht, hlen, heq⟩
    refine ⟨c :: t, List.cons_prefix_cons.2 ⟨rfl, ht⟩, by simpa using hlen, ?_⟩
    rw [heq, hw₁, List.append_assoc, List.singleton_append]

/-- The loop, after it has lost `n` bytes `0xff`: it has to throw. -/
def Excused (n : ℕ) (s : List UInt8) (w : Window) : EStateM.Result Exn Window (List UInt8) → Prop
  | .ok _ _ => False
  | .error _ w' => Partial (List.replicate n 255 ++ s) w w'

theorem excused_succ (n : ℕ) (s : List UInt8) (w : Window)
    (res : EStateM.Result Exn Window (List UInt8)) :
    Excused n (255 :: s) w res ↔ Excused (n + 1) s w.refused res := by
  cases res with
  | ok rest w' => rfl
  | error e w' =>
    rw [Excused, Excused, List.replicate_succ', List.append_assoc, List.singleton_append]
    rfl

theorem excused_iff {n : ℕ} (hn : 0 < n) (s : List UInt8) (w : Window) :
    Excused n s w (xsputnLoop s w) ↔ LosesExcused s w := by
  induction s generalizing n w with
  | nil => rfl
  | cons c s ih =>
    obtain ⟨m, rfl⟩ : ∃ m, n = m + 1 := ⟨n - 1, by omega⟩
    rw [LosesExcused, xsputnLoop]
    by_cases hroom : (c :: s).length ≤ w.room
    · rw [if_pos hroom]
      exact iff_of_false id fun h => h.1 hroom
    · rw [if_neg hroom, and_iff_right hroom]
      by_cases href : w.Refuses
      · rw [if_pos href, if_pos href]
        by_cases h255 : c = 255
        · -- one more byte is lost
          subst h255
          rw [if_pos rfl, excused_succ, ih (Nat.succ_pos _)]
          exact ⟨fun h _ => h, fun h => h rfl⟩
        · rw [if_neg h255]
          refine iff_of_true ⟨[], List.nil_prefix, ?_, ?_⟩ fun h => absurd h h255
          · rw [List.length_append, List.length_replicate]
            exact Nat.lt_of_lt_of_le (Nat.succ_pos m) (Nat.le_add_right _ _)
          · rw [pending_refused, List.append_nil]
      · rw [if_neg href, if_neg href]
        have hpending := (stores_overflow c w href).1.pending
        by_cases hascii : c.toNat < 128
        · rw [if_pos hascii]
          -- an ASCII byte is stored in the place of the lost one
          have hne : c ≠ 255 := by
            rintro rfl
            exact absurd hascii (by decide)
          refine iff_of_false (fun h => ?_) hne
          have hgrows := xsputnLoop_grows s (w.makeRoom.push c)
          generalize xsputnLoop s (w.makeRoom.push c) = res at h hgrows
          cases res with
          | ok rest w' => exact h
          | error e w' =>
            rw [Excused, List.replicate_succ, List.cons_append] at h
            exact hne ((partial_cons_iff hpending hgrows).1 h).1
        · rw [if_neg hascii, Excused, List.replicate_succ, List.cons_append]
          exact partial_singleton_iff hpending (by simp)

/-- The loop is exact: what it stored and what it leaves over are its bytes, or it has thrown after
a `realloc` that returned `NULL` and stored a part of them. -/
def LoopExact (s : List UInt8) (w : Window) : EStateM.Result Exn Window (List UInt8) → Prop
  | .ok rest w' => w'.pending ++ rest = w.pending ++ s
  | .error _ w' => w.alloc.refusals < w'.alloc.refusals ∧ Partial s w w'

/-- The loop goes on after it has stored a byte. -/
theorem loopExact_store (href : ¬ w.Refuses) (s : List UInt8) :
    LoopExact (c :: s) w (xsputnLoop s (w.makeRoom.push c)) ↔
      LoopExact s (w.makeRoom.push c) (xsputnLoop s (w.makeRoom.push c)) := by
  obtain ⟨hstores, hrefusals⟩ := stores_overflow c w href
  have hgrows := xsputnLoop_grows s (w.makeRoom.push c)
  generalize xsputnLoop s (w.makeRoom.push c) = res at hgrows ⊢
  cases res with
  | ok rest w' =>
    rw [LoopExact, LoopExact, hstores.pending, List.append_assoc, List.singleton_append]
  | error e w' =>
    rw [after_error] at hgrows
    rw [LoopExact, LoopExact, hrefusals, partial_cons_iff hstores.pending hgrows,
      and_iff_right rfl]

/-- The loop goes on after it has lost a byte. -/
theorem loopExact_lose (href : w.Refuses) (s : List UInt8) :
    LoopExact (255 :: s) w (xsputnLoop s w.refused) ↔
      Excused 1 s w.refused (xsputnLoop s w.refused) := by
  have hrefusals := xsputnLoop_refusals s w.refused
  rw [(stores_refused w href).2] at hrefusals
  cases hres : xsputnLoop s w.refused with
  | ok rest w' =>
    -- at least this byte is missing
    obtain ⟨t, ht, hall, hlost⟩ := xsputnLoop_stores hres
    refine iff_of_false (fun h => ?_) id
    have hlen := congrArg List.length h
    rw [ht.pending, pending_refused, List.append_assoc] at hlen
    simp only [List.length_append, List.length_cons] at hlen
    rcases ht.refusals.eq_or_lt with heq | hlt
    · have := congrArg List.length (hall heq.symm)
      rw [List.length_append] at this
      omega
    · have := hlost hlt
      rw [List.length_append] at this
      omega
  | error e w' =>
    rw [hres] at hrefusals
    exact and_iff_right hrefusals

theorem loopExact_iff (s : List UInt8) (w : Window) :
    LoopExact s w (xsputnLoop s w) ↔ StoresAscii s w := by
  induction s generalizing w with
  | nil => exact iff_of_true rfl trivial
  | cons c s ih =>
    rw [StoresAscii, xsputnLoop]
    by_cases hroom : (c :: s).length ≤ w.room
    · rw [if_pos hroom]
      exact iff_of_true rfl (.inl hroom)
    · rw [if_neg hroom, or_iff_right hroom]
      by_cases href : w.Refuses
      · rw [if_pos href, if_pos href]
        by_cases h255 : c = 255
        · subst h255
          rw [if_pos rfl, loopExact_lose href, excused_iff Nat.one_pos]
          exact ⟨fun h _ => h, fun h => h rfl⟩
        · -- the exception of a byte that is not stored
          rw [if_neg h255]
          have hrefusals := (stores_refused w href).2
          refine iff_of_true ⟨by omega, [], List.nil_prefix, Nat.succ_pos _, ?_⟩
            fun h => absurd h h255
          rw [pending_refused, List.append_nil]
      · rw [if_neg href, if_neg href]
        by_cases hascii : c.toNat < 128
        · rw [if_pos hascii, loopExact_store href, ih, and_iff_right hascii]
        · -- the exception of a byte that is stored
          rw [if_neg hascii]
          refine iff_of_false (fun h => ?_) fun h => hascii h.1
          exact absurd h.1 (stores_overflow c w href).2.not_gt

theorem xsputn_exact_iff (s : List UInt8) (w : Window) :
    Exact s w (xsputn s w) ↔ StoresAscii s w := by
  rw [← loopExact_iff, xsputn]
  cases xsputnLoop s w with
  | ok rest w' =>
    rw [Exact, LoopExact, (stores_append rest w').pending, and_iff_right rfl]
  | error e w' => rfl

end Window

/-! ### Sessions -/

namespace Iobuf

/-- What a bulk put of `s` should do: it returns the length of `s` and has stored `s`, or throws
after a `realloc` that returned `NULL`, and has stored a proper prefix of `s`. -/
def ExactPut (s : List UInt8) (b : Iobuf) : EStateM.Result Exn Iobuf ℤ → Prop
  | .ok r b' => r = s.length ∧ b'.pendingBytes = b.pendingBytes ++ s
  | .error _ b' => b.alloc.refusals < b'.alloc.refusals ∧
      ∃ t, t <+: s ∧ t.length < s.length ∧ b'.pendingBytes = b.pendingBytes ++ t

theorem exactPut_iff {b : Iobuf} (hwf : b.WF) (s : List UInt8) :
    ExactPut s b (sputn s b) ↔ Window.StoresAscii s b.view := by
  have hsim := sputn_simulates s b hwf
  rw [← Window.xsputn_exact_iff]
  generalize Window.xsputn s b.view = res at hsim
  generalize sputn s b = res' at hsim
  cases hsim with
  | ok r hwf' =>
    rw [ExactPut, Window.Exact, pendingBytes, pendingBytes, ← hwf.pending_view, ← hwf'.pending_view]
  | error e hwf' =>
    rw [ExactPut, Window.Exact, Window.Partial, pendingBytes, pendingBytes, ← hwf.pending_view,
      ← hwf'.pending_view]
    rfl

/-- **When a bulk put is exact**, in every state of a session. -/
theorem sputn_exact_iff {mem : ℤ → UInt8} {p : ℤ} {alloc : Allocator} {h : History Call Ret Exn}
    {b : Iobuf} (s : List UInt8) (hs : Session object (new mem p alloc) h b) :
    ExactPut s b (sputn s b) ↔ Window.StoresAscii s b.view :=
  exactPut_iff (session_wf (new_wf mem p alloc) hs).1 s

/-- A put of bytes that do not fit, of which the first one is not ASCII and is stored. -/
theorem sputn_wrongCharacter {b : Iobuf} (hwf : b.WF) {c : UInt8} {s : List UInt8}
    (hroom : ¬ (c :: s).length ≤ b.view.room) (href : ¬ b.view.Refuses) (hascii : ¬ c.toNat < 128) :
    outcome (sputn (c :: s) b) = .error Window.wrongCharacter ∧
      ¬ ExactPut (c :: s) b (sputn (c :: s) b) := by
  constructor
  · have hsim := sputn_simulates (c :: s) b hwf
    unfold Window.xsputn at hsim
    rw [Window.xsputnLoop, if_neg hroom, if_neg href, if_neg hascii] at hsim
    obtain ⟨b', hb', -, -⟩ := hsim.error_right
    rw [hb', outcome_error]
  · rw [exactPut_iff hwf, Window.StoresAscii, or_iff_right hroom, if_neg href]
    exact fun h => hascii h.1

/-- A buffer whose `realloc` always succeeds. -/
def roomy : Iobuf := new (fun _ => 0) 4096 ⟨fun _ => some 4096, 0⟩

/-- One byte more than fits into a fresh buffer, none of them ASCII: the first byte makes the put
throw, although no `realloc` has failed. -/
theorem sputn_throws :
    Session object roomy [] roomy ∧
      outcome (sputn (200 :: List.replicate 1048576 200) roomy) = .error Window.wrongCharacter ∧
      ¬ ExactPut (200 :: List.replicate 1048576 200) roomy
        (sputn (200 :: List.replicate 1048576 200) roomy) := by
  have hwf : roomy.WF := new_wf _ _ _
  have hrefuses : ¬ roomy.view.Refuses := fun h => by cases h.2
  have hspace : roomy.view.room = 1048576 := by decide
  have hroom : ¬ (200 :: List.replicate 1048576 (200 : UInt8)).length ≤ roomy.view.room := by
    rw [hspace, List.length_cons, List.length_replicate]
    exact Nat.not_succ_le_self _
  exact ⟨.start, sputn_wrongCharacter hwf hroom hrefuses (by decide)⟩

/-- Two ASCII bytes. -/
theorem sputn_exact :
    ExactPut [97, 98] roomy (sputn [97, 98] roomy) := by
  have h₀ : Session object roomy [] roomy := .start
  exact (sputn_exact_iff [97, 98] h₀).2 (.inl (by decide))

end Iobuf

end Libgpsfile2
