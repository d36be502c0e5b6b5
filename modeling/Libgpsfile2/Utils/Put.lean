import Libgpsfile2.Utils.Window

/-!
# What the put operations store

`Stores t w w'` says that a put operation took the window `w` to `w'` and stored the bytes `t`:
they stand behind the bytes that were pending, what is remembered of the bytes already taken can
only have become less, and the number of bytes taken is the same. Compaction and growth are put
operations that store nothing.

A bulk put that returns has stored its bytes except those that were lost to a `realloc` that
returned `NULL`; without such a `realloc` it has stored all of them (`xsputn_stores`).
-/

namespace Libgpsfile2

namespace Window

variable {w w' w'' : Window} {s s' t t' rest : List UInt8} {c : UInt8}

/-- A put operation stored the bytes `t`. -/
structure Stores (t : List UInt8) (w w' : Window) : Prop where
  pending : w'.pending = w.pending ++ t
  behind : w'.behind <+: w.behind
  taken : w'.shifted + w'.behind.length = w.shifted + w.behind.length
  refusals : w.alloc.refusals ≤ w'.alloc.refusals

theorem Stores.refl (w : Window) : Stores [] w w :=
  ⟨by simp, List.prefix_rfl, rfl, le_rfl⟩

theorem Stores.trans (h : Stores t w w') (h' : Stores t' w' w'') : Stores (t ++ t') w w'' where
  pending := by rw [h'.pending, h.pending, List.append_assoc]
  behind := h'.behind.trans h.behind
  taken := h'.taken.trans h.taken
  refusals := h.refusals.trans h'.refusals

/-- A put operation that was given the bytes `s` has stored them all, or fewer when a `realloc` was
refused. -/
def Puts (s : List UInt8) (w w' : Window) : Prop :=
  ∃ t, w.Stores t w' ∧
    (w'.alloc.refusals = w.alloc.refusals → t = s) ∧
    (w.alloc.refusals < w'.alloc.refusals → t.length < s.length)

theorem Puts.refl (w : Window) : Puts [] w w :=
  ⟨[], .refl w, fun _ => rfl, fun h => absurd h (lt_irrefl _)⟩

theorem Puts.trans (h : Puts s w w') (h' : Puts s' w' w'') : Puts (s ++ s') w w'' := by
  obtain ⟨t, ht, hall, hlost⟩ := h
  obtain ⟨t', ht', hall', hlost'⟩ := h'
  have hle := ht.refusals
  have hle' := ht'.refusals
  refine ⟨t ++ t', ht.trans ht', fun heq => ?_, fun hlt => ?_⟩
  · rw [hall (by omega), hall' (by omega)]
  · -- a byte was lost in the first part or in the second one
    rw [List.length_append, List.length_append]
    rcases hle.eq_or_lt with heq | hgrew
    · rw [hall heq.symm]
      have := hlost' (by omega)
      omega
    · have := hlost hgrew
      rcases hle'.eq_or_lt with heq' | hgrew'
      · rw [hall' heq'.symm]
        omega
      · have := hlost' hgrew'
        omega

theorem stores_store (c : UInt8) (w : Window) : Stores [c] w (w.store c) :=
  ⟨by simp [pending, store], List.prefix_rfl, rfl, le_rfl⟩

theorem stores_append (s : List UInt8) (w : Window) : Stores s w (w.append s) :=
  ⟨by simp only [append, pending, List.take_append_drop], List.prefix_rfl, rfl, le_rfl⟩

theorem stores_push (c : UInt8) (w : Window) : Stores [c] w (w.push c) :=
  ⟨by simp [push, pending], List.prefix_rfl, rfl, le_rfl⟩

theorem stores_makeRoom (w : Window) (hw : ¬ w.Refuses) :
    Stores [] w w.makeRoom ∧ w.makeRoom.alloc.refusals = w.alloc.refusals := by
  by_cases hb : w.behind = []
  · have ha : w.alloc.answers 0 ≠ none := fun h => hw ⟨hb, h⟩
    have hr : w.makeRoom.alloc.refusals = w.alloc.refusals := by
      simp [makeRoom, grow, Allocator.next, hb, ha]
    refine ⟨⟨?_, ?_, ?_, hr.ge⟩, hr⟩ <;> simp [makeRoom, grow, pending, hb]
  · refine ⟨⟨?_, ?_, ?_, ?_⟩, ?_⟩ <;> simp [makeRoom, compact, pending, hb]

theorem stores_overflow (c : UInt8) (w : Window) (hw : ¬ w.Refuses) :
    Stores [c] w (w.makeRoom.push c) ∧
      (w.makeRoom.push c).alloc.refusals = w.alloc.refusals := by
  obtain ⟨h, hr⟩ := stores_makeRoom w hw
  exact ⟨h.trans (stores_push c _), hr⟩

theorem pending_refused (w : Window) : w.refused.pending = w.pending := rfl

theorem stores_refused (w : Window) (hw : w.Refuses) :
    Stores [] w w.refused ∧ w.refused.alloc.refusals = w.alloc.refusals + 1 := by
  have hr : w.refused.alloc.refusals = w.alloc.refusals + 1 := by
    simp [refused, Allocator.next, hw.2]
  exact ⟨⟨by simp [refused, pending], List.prefix_rfl, rfl, by omega⟩, hr⟩

/-- What the loop of `xsputn` has stored when it stops, and what it leaves over: all its bytes in
order, except those lost to a `realloc` that returned `NULL`. -/
theorem xsputnLoop_stores (h : xsputnLoop s w = .ok rest w') :
    ∃ t, Stores t w w' ∧
      (w'.alloc.refusals = w.alloc.refusals → t ++ rest = s) ∧
      (w.alloc.refusals < w'.alloc.refusals → (t ++ rest).length < s.length) := by
  induction s generalizing w with
  | nil =>
    cases h
    exact ⟨[], .refl _, fun _ => rfl, fun h => absurd h (lt_irrefl _)⟩
  | cons c s ih =>
    simp only [xsputnLoop] at h
    split_ifs at h with hroom href h255 hascii
    · cases h
      exact ⟨[], .refl _, fun _ => rfl, fun h => absurd h (lt_irrefl _)⟩
    · -- the byte `0xff` is lost without a trace
      obtain ⟨hs, hr⟩ := stores_refused _ href
      obtain ⟨t, ht, hall, hlost⟩ := ih h
      have hle := ht.refusals
      refine ⟨t, hs.trans ht, fun heq => by omega, fun _ => ?_⟩
      rw [List.length_cons]
      rcases hle.eq_or_lt with heq | hlt
      · rw [hall heq.symm]
        exact Nat.lt_succ_self _
      · exact (hlost hlt).trans (Nat.lt_succ_self _)
    · -- `overflow` has stored `c`, and the rest of the loop stores `t`
      obtain ⟨hs, hr⟩ := stores_overflow c _ href
      obtain ⟨t, ht, hall, hlost⟩ := ih h
      rw [hr] at hall hlost
      refine ⟨c :: t, hs.trans ht, fun heq => ?_, fun hlt => ?_⟩
      · rw [List.cons_append, hall heq]
      · rw [List.cons_append, List.length_cons, List.length_cons]
        exact Nat.succ_lt_succ (hlost hlt)

/-- **What a bulk put that returns has stored.** -/
theorem xsputn_stores {r : ℤ} (h : xsputn s w = .ok r w') :
    r = s.length ∧ Puts s w w' := by
  unfold xsputn at h
  split at h
  case h_1 rest w₁ hloop =>
    cases h
    obtain ⟨t, ht, hall, hlost⟩ := xsputnLoop_stores hloop
    exact ⟨rfl, t ++ rest, ht.trans (stores_append rest w₁), hall, hlost⟩
  case h_2 => cases h

/-- A bulk put that does not return throws its own exception. -/
theorem xsputn_error {e : Exn} (h : xsputn s w = .error e w') : e = wrongCharacter := by
  have hloop : ∀ s w, xsputnLoop s w = .error e w' → e = wrongCharacter := by
    intro s
    induction s with
    | nil =>
      intro w h
      cases h
    | cons c s ih =>
      intro w h
      simp only [xsputnLoop] at h
      split_ifs at h
      · exact ih _ h
      · cases h
        rfl
      · exact ih _ h
      · cases h
        rfl
  unfold xsputn at h
  split at h
  case h_1 => cases h
  case h_2 e' w₁ hl =>
    cases h
    exact hloop s w hl

/-- What `sputc` has stored. -/
theorem sputc_stores {r : ℤ} (h : sputc c w = .ok r w') :
    (r = toIntType c ∧ Stores [c] w w' ∧ w'.alloc.refusals = w.alloc.refusals) ∨
      (r = eof ∧ Stores [] w w' ∧ w'.alloc.refusals = w.alloc.refusals + 1) := by
  simp only [sputc, overflow, intToChar_toIntType] at h
  split_ifs at h with hroom href <;> cases h
  · exact .inl ⟨rfl, stores_store c w, rfl⟩
  · exact .inr ⟨rfl, stores_refused w href⟩
  · exact .inl ⟨rfl, stores_overflow c w href⟩

/-- A byte is refused only by a full buffer. -/
theorem sputc_full (h : sputc c w = .ok eof w') : w'.room = 0 := by
  simp only [sputc, overflow, intToChar_toIntType] at h
  split_ifs at h with hroom href
  · cases h
  · cases h
    exact Nat.eq_zero_of_not_pos hroom
  · cases h

/-! ### The bytes the get area does not know of -/

/-- Bytes that fit are copied in one piece. -/
theorem xsputnLoop_of_fits (h : s.length ≤ w.room) : xsputnLoop s w = .ok s w := by
  cases s with
  | nil => rfl
  | cons c s => rw [xsputnLoop, if_pos h]

theorem xsputn_of_fits (h : s.length ≤ w.room) : xsputn s w = .ok s.length (w.append s) := by
  rw [xsputn, xsputnLoop_of_fits h]

theorem hidden_append (s : List UInt8) (w : Window) :
    (w.append s).hidden.length = w.hidden.length := by
  simp only [append, pending, List.length_drop, List.length_append]
  omega

/-- `overflow` moves `egptr` up to `pptr`, and the bulk copy keeps them together. -/
theorem xsputnLoop_hidden (h : xsputnLoop s w = .ok rest w')
    (href : w'.alloc.refusals = w.alloc.refusals) :
    w'.hidden.length = if s.length ≤ w.room then w.hidden.length else 0 := by
  induction s generalizing w with
  | nil =>
    cases h
    rw [if_pos (show [].length ≤ _ from Nat.zero_le _)]
  | cons c s ih =>
    simp only [xsputnLoop] at h
    split_ifs at h with hroom hrefuses h255 hascii
    · cases h
      rw [if_pos hroom]
    · -- this `realloc` was refused
      obtain ⟨-, hr⟩ := stores_refused _ hrefuses
      obtain ⟨t, ht, -⟩ := xsputnLoop_stores h
      have := ht.refusals
      omega
    · obtain ⟨-, hr⟩ := stores_overflow c _ hrefuses
      rw [ih h (href.trans hr.symm), if_neg hroom]
      exact ite_self 0

theorem xsputn_hidden {r : ℤ} (h : xsputn s w = .ok r w')
    (href : w'.alloc.refusals = w.alloc.refusals) :
    w'.hidden.length = if s.length ≤ w.room then w.hidden.length else 0 := by
  unfold xsputn at h
  split at h
  case h_1 rest w₁ hloop =>
    cases h
    rw [hidden_append]
    exact xsputnLoop_hidden hloop href
  case h_2 => cases h

/-- A bulk put on a buffer without hidden bytes hides none, also when it throws. -/
theorem xsputn_hidden_nil (h : w.hidden = []) : (after (xsputn s w)).hidden = [] := by
  have hloop : ∀ s w, w.hidden = [] → (after (xsputnLoop s w)).hidden = [] := by
    intro s
    induction s with
    | nil => exact fun w hw => hw
    | cons c s ih =>
      intro w hw
      simp only [xsputnLoop]
      split_ifs
      · exact hw
      · exact ih _ hw
      · exact hw
      · exact ih _ rfl
      · rfl
  have hrest := hloop s w h
  unfold xsputn
  cases hl : xsputnLoop s w with
  | ok rest w' =>
    rw [hl] at hrest
    rw [after_ok, ← List.length_eq_zero_iff, hidden_append]
    exact List.length_eq_zero_iff.2 hrest
  | error e w' =>
    rw [hl] at hrest
    exact hrest

theorem sputc_hidden {r : ℤ} (h : sputc c w = .ok r w')
    (href : w'.alloc.refusals = w.alloc.refusals) :
    w'.hidden.length = if 0 < w.room then w.hidden.length + 1 else 0 := by
  simp only [sputc, overflow, intToChar_toIntType] at h
  split_ifs at h with hroom hrefuses <;> cases h
  · simp [store, hroom]
  · obtain ⟨-, hr⟩ := stores_refused _ hrefuses
    omega
  · simp [push, hroom]

end Window

end Libgpsfile2
