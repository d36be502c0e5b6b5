import Libgpsfile2.Datahandler
import Libgpsfile2.Utils.Put
import Libgpsfile2.Utils.IobufQueue

/-!
# Writing through `streamWrite` and `release`

A session with a writer is a sequence of `streamWrite` and `release` calls by a caller that catches
the exceptions. `streamWrite` does nothing once `_write_finished` is set; `release` does not test
it. So the `finished` flags that the plugin gets are `false` for the `streamWrite` calls before the
first `release`, and one `true` for every `release` (`session_writes`).

* `Step` is everything a call can do to a writer, in terms of the call of the virtual `write`;
* `Writer.streamWriteAll` and `Writer.writeChunks` are the callers that write a list of chunks, the
  latter followed by one `release`, and stop at the first exception.
-/

namespace Libgpsfile2

namespace Writer

variable {σ α : Type} {p : WriterPlugin σ} {w w' : Writer σ}

/-! ### One call -/

/-- A call after its `write` has come back: it returns `r`, or throws when `write` returned
false. -/
def conclude (r : α) : EStateM.Result Exn (Writer σ) Bool → EStateM.Result Exn (Writer σ) α
  | .ok true w => .ok r w
  | .ok false w => .error canNotSetValue w
  | .error e w => .error e w

@[simp] theorem after_conclude (r : α) (res : EStateM.Result Exn (Writer σ) Bool) :
    after (conclude r res) = after res := by
  rcases res with (_ | _) | e <;> rfl

theorem write_apply (p : WriterPlugin σ) (finished : Bool) (w : Writer σ) :
    write p finished w = match p.write finished (w.buf, w.plugin) with
      | .ok r x =>
          .ok r { w with buf := x.1, plugin := x.2, writes := w.writes ++ [finished] }
      | .error e x =>
          .error e { w with buf := x.1, plugin := x.2, writes := w.writes ++ [finished] } := by
  simp only [write, onPart, bind_apply, modify_apply]
  cases p.write finished (w.buf, w.plugin) <;> rfl

theorem release_apply (p : WriterPlugin σ) (w : Writer σ) :
    release p w = conclude true (write p true { w with writeFinished := true }) := by
  simp only [release, bind_apply, get_apply, modify_apply]
  cases write p true { w with writeFinished := true } with
  | ok r w' => cases r <;> rfl
  | error e w' => rfl

/-- `streamWrite` before the first `release`. -/
theorem streamWrite_apply (p : WriterPlugin σ) (s : List UInt8) (hw : w.writeFinished = false) :
    streamWrite p s w = match Iobuf.sputn s w.buf with
      | .ok n b => conclude n (write p false { w with buf := b })
      | .error e b => .error e { w with buf := b } := by
  obtain ⟨buf, fin, st, writes⟩ := w
  change fin = false at hw
  subst hw
  simp only [streamWrite, onBuf, onPart, bind_apply, get_apply, Bool.false_eq_true, if_false]
  cases Iobuf.sputn s buf with
  | error e b => rfl
  | ok n b =>
    simp only
    cases write p false ⟨b, false, st, writes⟩ with
    | ok r w' => cases r <;> rfl
    | error e w' => rfl

/-- `streamWrite` after it. -/
theorem streamWrite_finished (p : WriterPlugin σ) (s : List UInt8) (hw : w.writeFinished = true) :
    streamWrite p s w = .ok 0 w := by
  simp only [streamWrite, bind_apply, get_apply, hw, if_true]
  rfl

/-! ### Sessions -/

/-- The calls of a writer. -/
inductive Call
  | streamWrite (s : List UInt8)
  | release
  deriving DecidableEq

/-- What a call returns. -/
inductive Ret
  | size (n : ℤ)
  | released (b : Bool)

def Call.run (p : WriterPlugin σ) : Call → EStateM Exn (Writer σ) Ret
  | .streamWrite s => do return .size (← Writer.streamWrite p s)
  | .release => do return .released (← Writer.release p)

/-- The calls of a writer, in any order. -/
def object (p : WriterPlugin σ) : Object Call Ret Exn (Writer σ) where
  call := Call.run p
  permitted _ _ := True
  fatal := Exn.Fatal

/-- The number of `release` calls. -/
def releases (h : History Call Ret Exn) : ℕ := (h.map Prod.fst).count .release

@[simp] theorem releases_nil : releases [] = 0 := rfl

@[simp] theorem releases_concat_streamWrite (h : History Call Ret Exn) (s : List UInt8)
    (x : Except Exn Ret) : releases (h ++ [(.streamWrite s, x)]) = releases h := by
  simp [releases]

@[simp] theorem releases_concat_release (h : History Call Ret Exn) (x : Except Exn Ret) :
    releases (h ++ [(.release, x)]) = releases h + 1 := by
  simp [releases]

/-- Everything a call can do: nothing, fail in the buffer, or call `write` once. -/
inductive Step (p : WriterPlugin σ) (w : Writer σ) :
    Call → EStateM.Result Exn (Writer σ) Ret → Prop
  | ignored (s : List UInt8) (hw : w.writeFinished = true) :
      Step p w (.streamWrite s) (.ok (.size 0) w)
  | threw (s : List UInt8) (hw : w.writeFinished = false) {e : Exn} {b : Iobuf}
      (hput : Iobuf.sputn s w.buf = .error e b) :
      Step p w (.streamWrite s) (.error e { w with buf := b })
  | wrote (s : List UInt8) (hw : w.writeFinished = false) {n : ℤ} {b : Iobuf}
      (hput : Iobuf.sputn s w.buf = .ok n b) :
      Step p w (.streamWrite s) (conclude (.size n) (write p false { w with buf := b }))
  | released :
      Step p w .release (conclude (.released true) (write p true { w with writeFinished := true }))

theorem run_step (p : WriterPlugin σ) (c : Call) (w : Writer σ) : Step p w c (c.run p w) := by
  cases c with
  | streamWrite s =>
    simp only [Call.run, bind_apply]
    by_cases hw : w.writeFinished = true
    · rw [streamWrite_finished p s hw]
      exact .ignored s hw
    · rw [Bool.not_eq_true] at hw
      rw [streamWrite_apply p s hw]
      cases hput : Iobuf.sputn s w.buf with
      | error e b => exact .threw s hw hput
      | ok n b =>
        have hstep := Step.wrote (p := p) s hw hput
        simp only
        generalize write p false { w with buf := b } = res at hstep ⊢
        rcases res with (_ | _) | e <;> exact hstep
  | release =>
    simp only [Call.run, bind_apply, release_apply]
    have hstep := Step.released (p := p) (w := w)
    generalize write p true { w with writeFinished := true } = res at hstep ⊢
    rcases res with (_ | _) | e <;> exact hstep

theorem writes_write (p : WriterPlugin σ) (finished : Bool) (w : Writer σ) :
    (after (write p finished w)).writes = w.writes ++ [finished] ∧
      (after (write p finished w)).writeFinished = w.writeFinished := by
  rw [write_apply]
  cases p.write finished (w.buf, w.plugin) <;> exact ⟨rfl, rfl⟩

theorem after_write (p : WriterPlugin σ) (finished : Bool) (w : Writer σ) :
    (after (write p finished w)).buf = (after (p.write finished (w.buf, w.plugin))).1 ∧
      (after (write p finished w)).plugin = (after (p.write finished (w.buf, w.plugin))).2 := by
  rw [write_apply]
  cases p.write finished (w.buf, w.plugin) <;> exact ⟨rfl, rfl⟩

/-- The answer of `release`, by what `write` returns. -/
theorem outcome_release (p : WriterPlugin σ) (w : Writer σ) :
    outcome (release p w) = (outcome (p.write true (w.buf, w.plugin))).bind fun res =>
      if res then .ok true else .error canNotSetValue := by
  rw [release_apply, write_apply]
  simp only
  cases p.write true (w.buf, w.plugin) with
  | error e x => rfl
  | ok res x => cases res <;> rfl

/-- `release` returns only when `write` returned true. -/
theorem write_of_release {r : Bool} (h : outcome (release p w) = .ok r) :
    outcome (p.write true (w.buf, w.plugin)) = .ok true := by
  rw [release_apply, write_apply] at h
  simp only at h
  cases hwrite : p.write true (w.buf, w.plugin) with
  | error e x =>
    rw [hwrite] at h
    cases h
  | ok r' x =>
    rw [hwrite] at h
    cases r' with
    | false => cases h
    | true => rfl

/-- The calls of the plugin in a session, and what the handler remembers of them. -/
theorem session_writes {w₀ : Writer σ} {h : History Call Ret Exn}
    (h₀ : w₀.writes = [] ∧ w₀.writeFinished = false) (hs : Session (object p) w₀ h w) :
    (∃ k, w.writes = List.replicate k false ++ List.replicate (releases h) true) ∧
      (w.writeFinished = true ↔ 0 < releases h) := by
  refine hs.invariant (I := fun h w =>
    (∃ k, w.writes = List.replicate k false ++ List.replicate (releases h) true) ∧
      (w.writeFinished = true ↔ 0 < releases h)) ?_ ?_
  · exact ⟨⟨0, h₀.1⟩, by simp [h₀.2]⟩
  · rintro h w c ⟨⟨k, hk⟩, hfin⟩ -
    have hstep := run_step p c w
    change Step p w c ((object p).call c w) at hstep
    generalize (object p).call c w = res at hstep ⊢
    cases hstep with
    | ignored s hw => simpa using ⟨⟨k, hk⟩, hfin⟩
    | threw s hw hput => simpa using ⟨⟨k, hk⟩, hfin⟩
    | @wrote s hw n b hput =>
      obtain ⟨hwrites, hsame⟩ := writes_write p false { w with buf := b }
      -- the plugin is called by `streamWrite` before the first `release` only
      have hzero : releases h = 0 := by
        by_contra hne
        have := hfin.2 (Nat.pos_of_ne_zero hne)
        simp [hw] at this
      simp only [after_conclude, releases_concat_streamWrite, hwrites, hsame]
      refine ⟨⟨k + 1, ?_⟩, hfin⟩
      rw [hk, hzero, List.replicate_zero, List.append_nil, List.append_nil, List.replicate_succ']
    | released =>
      obtain ⟨hwrites, hsame⟩ := writes_write p true { w with writeFinished := true }
      simp only [after_conclude, releases_concat_release, hwrites, hsame, Nat.succ_pos]
      refine ⟨⟨k, ?_⟩, trivial⟩
      rw [hk, List.append_assoc, ← List.replicate_succ']

/-- The plugin's `write` was called with `finished` at most once, and not again after that. -/
def Final (writes : List Bool) : Prop :=
  ∀ before later, writes = before ++ true :: later → later = []

theorem final_cons_false (l : List Bool) : Final (false :: l) ↔ Final l := by
  constructor
  · intro h before later heq
    exact h (false :: before) later (by rw [heq, List.cons_append])
  · intro h before later heq
    cases before with
    | nil => simp at heq
    | cons x before => exact h before later (List.cons.inj heq).2

theorem final_replicate_iff (k n : ℕ) :
    Final (List.replicate k false ++ List.replicate n true) ↔ n ≤ 1 := by
  induction k with
  | succ k ih => rw [List.replicate_succ, List.cons_append, final_cons_false, ih]
  | zero =>
    rw [List.replicate_zero, List.nil_append]
    constructor
    · intro h
      by_contra hn
      obtain ⟨m, rfl⟩ : ∃ m, n = m + 2 := ⟨n - 2, by omega⟩
      have := h [] (List.replicate (m + 1) true) (by rw [List.replicate_succ]; rfl)
      simp at this
    · intro hn before later heq
      have hlen := congrArg List.length heq
      simp only [List.length_replicate, List.length_append, List.length_cons] at hlen
      exact List.length_eq_zero_iff.1 (by omega)

theorem session_final_iff {w₀ : Writer σ} {h : History Call Ret Exn}
    (h₀ : w₀.writes = [] ∧ w₀.writeFinished = false) (hs : Session (object p) w₀ h w) :
    Final w.writes ↔ releases h ≤ 1 := by
  obtain ⟨⟨k, hk⟩, -⟩ := session_writes h₀ hs
  rw [hk, final_replicate_iff]

/-! ### Writing a list of chunks -/

/-- One `streamWrite` for every chunk, up to the first exception. -/
def streamWriteAll (p : WriterPlugin σ) : List (List UInt8) → EStateM Exn (Writer σ) Unit
  | [] => return ()
  | s :: chunks => do
      let _ ← streamWrite p s
      streamWriteAll p chunks

/-- The chunks and one `release`, up to the first exception. -/
def writeChunks (p : WriterPlugin σ) (chunks : List (List UInt8)) :
    EStateM Exn (Writer σ) Bool := do
  streamWriteAll p chunks
  release p

end Writer

end Libgpsfile2
