import Libgpsfile2.Gpx.Imports

/-!
# Writers that share a provider

A provider is a `shared_ptr`, and any number of writers may hold it. Their calls come in any order;
a call of `streamWrite` leaves the provider as it is, and a call of `release` passes on the document
of its writer.

So in every interleaving the first `release` with a document that can be passed on finishes the
provider; it finds what the releases before it have left, and nothing that is called after it
changes the provider (`sharing_first`). What such a document is depends on the bytes that were
written to its own writer only (`sharing_offered`).
-/

namespace Libgpsfile2

open GpxWriter ProviderGpsRouteWriter

variable {γ π ρ τ : Type} {P : ParserClass γ} {R : RouteClass ρ τ} {parseTime : TimeParser τ}
  {succeeds : List UInt8 → Bool → Bool} {tree : List UInt8 → Bool → GPX}
  {filing : ρ → Filing UInt16 τ}

namespace GpxWriter

variable {dp : ProviderRouteWriterBase π τ} {w : Writer (GpxWriter γ π)}

/-- A call leaves nothing hidden, and leaves the provider alone unless it is a `release`. -/
theorem run_shown (hb : Shown w.buf) (c : Writer.Call) :
    Shown (after (c.run (plugin P dp parseTime) w)).buf ∧
      (c ≠ .release → (after (c.run (plugin P dp parseTime) w)).plugin.dp = w.plugin.dp) := by
  have hstep := Writer.run_step (plugin P dp parseTime) c w
  generalize c.run (plugin P dp parseTime) w = res at hstep ⊢
  cases hstep with
  | ignored s hfin => exact ⟨hb, fun _ => rfl⟩
  | threw s hfin hput =>
    have hput' := hb.sputn s
    rw [hput] at hput'
    exact ⟨hput', fun _ => rfl⟩
  | @wrote s hfin n b hput =>
    have hput' := hb.sputn s
    rw [hput, after_ok] at hput'
    obtain ⟨hbuf, hplugin⟩ := Writer.after_write (plugin P dp parseTime) false { w with buf := b }
    rw [Writer.after_conclude, hbuf, hplugin]
    refine ⟨write_shown hput' false, fun _ => ?_⟩
    show (after (write P dp parseTime false (b, w.plugin))).2.dp = w.plugin.dp
    cases hg : w.plugin.parser with
    | none => rw [write_deleted hput' hg, after_error]
    | some g =>
      obtain ⟨b', -, -, hwrite⟩ := write_apply P dp parseTime hput' hg false
      rw [hwrite, after_onSnd]
      rfl
  | released =>
    rw [Writer.after_conclude, (Writer.after_write _ _ _).1]
    exact ⟨write_shown hb true, fun hc => absurd rfl hc⟩

/-- A `release` with a deleted parser. -/
theorem release_deleted (P : ParserClass γ) (dp : ProviderRouteWriterBase π τ)
    (parseTime : TimeParser τ) (hb : Shown w.buf) (hx : w.plugin.parser = none) :
    outcome (Writer.release (plugin P dp parseTime) w) = .error .nullPointer ∧
      (after (Writer.release (plugin P dp parseTime) w)).plugin.dp = w.plugin.dp := by
  have hplugin := (Writer.after_write (plugin P dp parseTime) true
    { w with writeFinished := true }).2
  rw [Writer.outcome_release, Writer.release_apply, Writer.after_conclude, hplugin]
  show (outcome (write P dp parseTime true (w.buf, w.plugin))).bind _ = _ ∧
    (after (write P dp parseTime true (w.buf, w.plugin))).2.dp = _
  rw [write_deleted hb hx]
  exact ⟨rfl, rfl⟩

end GpxWriter

/-- The bytes that a call writes. -/
def Writer.Call.bytes : Writer.Call → List UInt8
  | .streamWrite s => s
  | .release => []

/-- The provider, and the writers under their numbers. What they hold as their provider is not
looked at. -/
structure Sharing (γ ρ : Type) where
  provider : ProviderGpsRouteWriter ρ
  writers : ℕ → Writer (GpxWriter γ (ProviderGpsRouteWriter ρ))

namespace Sharing

variable {s s₀ : Sharing γ ρ} {p₀ : ProviderGpsRouteWriter ρ}
  {h : History (ℕ × Writer.Call) Writer.Ret Exn}

/-- The writer that is called finds the provider as it is. -/
def writer (s : Sharing γ ρ) (i : ℕ) : Writer (GpxWriter γ (ProviderGpsRouteWriter ρ)) :=
  { s.writers i with plugin := { (s.writers i).plugin with dp := s.provider } }

/-- The provider and the writer after the call. -/
def put (s : Sharing γ ρ) (i : ℕ) (w : Writer (GpxWriter γ (ProviderGpsRouteWriter ρ))) :
    Sharing γ ρ :=
  ⟨w.plugin.dp, Function.update s.writers i w⟩

def call (P : ParserClass γ) (R : RouteClass ρ τ) (parseTime : TimeParser τ) (i : ℕ)
    (c : Writer.Call) : EStateM Exn (Sharing γ ρ) Writer.Ret := fun s =>
  withState (s.put i) (c.run (plugin P (ProviderGpsRouteWriter.provider R) parseTime) (s.writer i))

/-- The calls of all the writers, in any order. -/
def object (P : ParserClass γ) (R : RouteClass ρ τ) (parseTime : TimeParser τ) :
    Object (ℕ × Writer.Call) Writer.Ret Exn (Sharing γ ρ) where
  call x := call P R parseTime x.1 x.2
  permitted _ _ := True
  fatal := Exn.Fatal

/-- What is kept of the provider and of the writers. -/
structure Sound (s : Sharing γ ρ) : Prop where
  numbered : s.provider.Numbered
  shown : ∀ i, Shown (s.writers i).buf

section Call

variable (P R parseTime)

theorem after_call (i : ℕ) (c : Writer.Call) (s : Sharing γ ρ) :
    after ((object P R parseTime).call (i, c) s) =
      s.put i (after (c.run (plugin P (ProviderGpsRouteWriter.provider R) parseTime)
        (s.writer i))) :=
  after_withState _ _

theorem writers_self (i : ℕ) (c : Writer.Call) (s : Sharing γ ρ) :
    (after ((object P R parseTime).call (i, c) s)).writers i =
      after (c.run (plugin P (ProviderGpsRouteWriter.provider R) parseTime) (s.writer i)) := by
  rw [after_call]
  exact Function.update_self _ _ _

theorem writers_of_ne {i j : ℕ} (h : j ≠ i) (c : Writer.Call) (s : Sharing γ ρ) :
    (after ((object P R parseTime).call (i, c) s)).writers j = s.writers j := by
  rw [after_call]
  exact Function.update_of_ne h _ _

theorem outcome_call (i : ℕ) (c : Writer.Call) (s : Sharing γ ρ) :
    outcome ((object P R parseTime).call (i, c) s) =
      outcome (c.run (plugin P (ProviderGpsRouteWriter.provider R) parseTime) (s.writer i)) :=
  outcome_withState _ _

theorem outcome_call_release (i : ℕ) (s : Sharing γ ρ) :
    outcome ((object P R parseTime).call (i, .release) s) =
      (outcome (Writer.release (plugin P (ProviderGpsRouteWriter.provider R) parseTime)
        (s.writer i))).map Writer.Ret.released :=
  (outcome_call P R parseTime i .release s).trans (outcome_bind_pure _ _ _)

theorem after_call_release (i : ℕ) (s : Sharing γ ρ) :
    after ((object P R parseTime).call (i, .release) s) =
      s.put i (after (Writer.release (plugin P (ProviderGpsRouteWriter.provider R) parseTime)
        (s.writer i))) :=
  (after_call P R parseTime i .release s).trans (congrArg (s.put i) (after_bind_pure _ _ _))

/-- A `release` of the writer `i`, when its parser was not deleted. -/
theorem release_some (hs : s.Sound) {i : ℕ} {g : γ} (hg : (s.writers i).plugin.parser = some g) :
    outcome ((object P R parseTime).call (i, .release) s) =
        (outcome (conclude (ProviderGpsRouteWriter.provider R) parseTime
          (offered P (s.writers i)) s.provider)).map Writer.Ret.released ∧
      (after ((object P R parseTime).call (i, .release) s)).provider =
        after (conclude (ProviderGpsRouteWriter.provider R) parseTime
          (offered P (s.writers i)) s.provider) := by
  obtain ⟨hanswer, hdp⟩ := release_offered P (ProviderGpsRouteWriter.provider R) parseTime
    (w := s.writer i) (hs.shown i) hg
  rw [outcome_call_release, after_call_release, hanswer]
  exact ⟨rfl, hdp⟩

/-- **One `release`** of the writer `i`. -/
theorem release_cases (hs : s.Sound) (i : ℕ) :
    (outcome ((object P R parseTime).call (i, .release) s) = .error .nullPointer ∧
        offered P (s.writers i) = none ∧
        (after ((object P R parseTime).call (i, .release) s)).provider = s.provider) ∨
      outcome ((object P R parseTime).call (i, .release) s) =
          (outcome (conclude (ProviderGpsRouteWriter.provider R) parseTime
            (offered P (s.writers i)) s.provider)).map Writer.Ret.released ∧
        (after ((object P R parseTime).call (i, .release) s)).provider =
          after (conclude (ProviderGpsRouteWriter.provider R) parseTime
            (offered P (s.writers i)) s.provider) := by
  cases hg : (s.writers i).plugin.parser with
  | none =>
    obtain ⟨hnull, hdp⟩ := release_deleted P (ProviderGpsRouteWriter.provider R) parseTime
      (w := s.writer i) (hs.shown i) hg
    rw [outcome_call_release, after_call_release, hnull]
    refine .inl ⟨rfl, ?_, hdp⟩
    rw [offered, hg, Option.bind_none]
  | some g => exact .inr (release_some P R parseTime hs hg)

/-- A `streamWrite` leaves the provider alone. -/
theorem streamWrite_provider (hs : s.Sound) (i : ℕ) (t : List UInt8) :
    (after ((object P R parseTime).call (i, .streamWrite t) s)).provider = s.provider ∧
      outcome ((object P R parseTime).call (i, .streamWrite t) s) ≠ .ok (.released true) := by
  have houtcome : outcome (Writer.Call.run (plugin P (ProviderGpsRouteWriter.provider R) parseTime)
      (.streamWrite t) (s.writer i)) = (outcome (Writer.streamWrite _ t _)).map Writer.Ret.size :=
    outcome_bind_pure _ _ _
  rw [outcome_call, after_call, houtcome]
  refine ⟨(run_shown (w := s.writer i) (hs.shown i) (.streamWrite t)).2 (fun h => by cases h), ?_⟩
  generalize outcome (Writer.streamWrite _ t (s.writer i)) = x
  cases x with
  | ok n => exact fun h => by cases h
  | error e => exact fun h => by cases h

theorem call_sound (hR : R.Lawful filing) (hs : s.Sound) (x : ℕ × Writer.Call) :
    (after ((object P R parseTime).call x s)).Sound := by
  obtain ⟨i, c⟩ := x
  constructor
  · cases c with
    | streamWrite t =>
      rw [(streamWrite_provider P R parseTime hs i t).1]
      exact hs.numbered
    | release =>
      rcases release_cases P R parseTime hs i with ⟨-, -, hsame⟩ | ⟨-, hend⟩
      · rw [hsame]
        exact hs.numbered
      · rw [hend]
        exact conclude_numbered hR _ _ hs.numbered
  · intro j
    by_cases hj : j = i
    · subst hj
      rw [writers_self]
      exact (run_shown (w := s.writer j) (hs.shown j) c).1
    · rw [writers_of_ne _ _ _ hj]
      exact hs.shown j

end Call

/-! ### Sessions -/

variable {mem : ℕ → ℤ → UInt8} {block : ℕ → ℤ} {alloc : ℕ → Allocator}

/-- New writers, each with a block of its own. -/
def start (P : ParserClass γ) (p : ProviderGpsRouteWriter ρ) (mem : ℕ → ℤ → UInt8)
    (block : ℕ → ℤ) (alloc : ℕ → Allocator) : Sharing γ ρ where
  provider := p
  writers i := .new (Iobuf.new (mem i) (block i) (alloc i)) (.new P p)

theorem session_sound (hR : R.Lawful filing) (hs₀ : s₀.Sound)
    (hs : Session (object P R parseTime) s₀ h s) : s.Sound :=
  hs.invariant (I := fun _ s => s.Sound) hs₀ fun _ _ x hs _ => call_sound P R parseTime hR hs x

/-- The bytes that were written to the writer `i`. -/
def written (i : ℕ) (h : History (ℕ × Writer.Call) Writer.Ret Exn) : List UInt8 :=
  h.flatMap fun x => if x.1.1 = i then x.1.2.bytes else []

theorem written_concat (i j : ℕ) (c : Writer.Call) (x : Except Exn Writer.Ret)
    (h : History (ℕ × Writer.Call) Writer.Ret Exn) :
    written i (h ++ [((j, c), x)]) = written i h ++ if j = i then c.bytes else [] := by
  rw [written, List.flatMap_append, List.flatMap_singleton]
  rfl

/-- A writer does not notice that the provider has changed. -/
theorem writer_fed {st : ProviderGpsRouteWriter ρ} {pieces : List (List UInt8)} {i : ℕ}
    (hw : Fed P st pieces (s.writers i)) : Fed P s.provider pieces (s.writer i) :=
  ⟨hw.shown, hw.drained, hw.parser, hw.feeds, rfl, hw.opened⟩

/-- A writer whose calls have all returned has fed its parser what was written to it. -/
theorem session_fed (hs : Session (object P R parseTime) (start P p₀ mem block alloc) h s) (i : ℕ)
    (hreturned : ∀ x ∈ h, x.1.1 = i → ∃ n, x.2 = .ok (.size n)) :
    ∃ st pieces, Fed P st pieces (s.writers i) ∧
      (alloc i).refusals ≤ (s.writers i).buf.alloc.refusals ∧
      ((s.writers i).buf.alloc.refusals = (alloc i).refusals →
        pieces.flatten = written i h) := by
  induction hs with
  | start => exact ⟨p₀, [], new_fed P p₀ _ _ _, le_rfl, fun _ => rfl⟩
  | @call h s x hs hc ha ih =>
    obtain ⟨j, c⟩ := x
    rw [List.forall_mem_append, List.forall_mem_singleton] at hreturned
    obtain ⟨hbefore, hlast⟩ := hreturned
    obtain ⟨st, pieces, hw, hle, hall⟩ := ih hbefore
    rw [written_concat]
    by_cases hj : j = i
    · subst hj
      rw [writers_self, if_pos rfl]
      obtain ⟨n, hn⟩ := hlast rfl
      rw [outcome_call] at hn
      cases c with
      | release =>
        rw [show outcome (Writer.Call.run _ .release (s.writer j)) = _ from
          outcome_bind_pure _ _ _] at hn
        generalize outcome (Writer.release _ (s.writer j)) = y at hn
        cases y <;> cases hn
      | streamWrite t =>
        rw [show outcome (Writer.Call.run _ (.streamWrite t) (s.writer j)) = _ from
          outcome_bind_pure _ _ _] at hn
        rw [show after (Writer.Call.run _ (.streamWrite t) (s.writer j)) = _ from
          after_bind_pure _ _ _]
        rcases streamWrite_fed (ProviderGpsRouteWriter.provider R) parseTime (writer_fed hw) t with
          ⟨b, w', -, hrun⟩ | ⟨n', b, t', w', -, -, hw', hle', hkept, -, hrun⟩
        · rw [hrun] at hn
          cases hn
        · have hafter : after (Writer.streamWrite (plugin P (ProviderGpsRouteWriter.provider R)
              parseTime) t (s.writer j)) = w' := by
            rw [hrun]
            split <;> rfl
          have hgrew : (s.writers j).buf.alloc.refusals ≤ w'.buf.alloc.refusals := hle'
          rw [hafter]
          refine ⟨_, pieces ++ [t'], hw', hle.trans hgrew, fun heq => ?_⟩
          obtain rfl := hkept (heq.trans (hle.antisymm (hgrew.trans_eq heq)))
          rw [List.flatten_append, List.flatten_singleton,
            hall ((hgrew.trans_eq heq).antisymm hle)]
          rfl
    · rw [writers_of_ne _ _ _ (Ne.symm hj), if_neg hj, List.append_nil]
      exact ⟨st, pieces, hw, hle, hall⟩

/-- **The document of a writer** is the one in the bytes that were written to it, whatever the other
writers have done in between. -/
theorem sharing_offered (hP : P.Lawful succeeds tree)
    (hs : Session (object P R parseTime) (start P p₀ mem block alloc) h s) (i : ℕ)
    (hreturned : ∀ x ∈ h, x.1.1 = i → ∃ n, x.2 = .ok (.size n))
    (hrefusals : (s.writers i).buf.alloc.refusals = (alloc i).refusals) :
    offered P (s.writers i) = parsed succeeds tree (written i h) := by
  obtain ⟨st, pieces, hw, -, hall⟩ := session_fed hs i hreturned
  rw [offered_fed hP hw, hall hrefusals]

/-- The other writer is released after the first byte of a title. -/
theorem sharing_offered_title :
    ∃ h s, Session (object titleParser timesRoute fun _ => 0) (start titleParser (create false)
        (fun _ _ => 0) (fun _ => 0) fun _ => ⟨fun _ => none, 0⟩) h s ∧
      h.map Prod.fst = [(0, .streamWrite [97]), (1, .release)] ∧
      offered titleParser (s.writers 0) = some ⟨[⟨[97], [], [], []⟩]⟩ := by
  have h₀ : Session (object titleParser timesRoute fun _ => 0) (start titleParser (create false)
      (fun _ _ => 0) (fun _ => 0) fun _ => ⟨fun _ => none, 0⟩) [] _ := .start
  have h₁ := h₀.returned (c := (0, .streamWrite [97])) (r := .size 1) trivial
    (by simp [Object.Alive]) rfl
  have h₂ := Session.call (1, .release) h₁ trivial (by simp [Object.Alive])
  have hsame := writers_of_ne titleParser timesRoute (fun _ => 0) Nat.zero_ne_one .release
  refine ⟨_, _, h₂, rfl, (sharing_offered titleParser_lawful h₂ 0 ?_ ?_).trans rfl⟩
  · intro x hx hcaller
    rw [List.mem_append, List.mem_singleton, List.nil_append, List.mem_singleton] at hx
    rcases hx with rfl | rfl
    · exact ⟨1, rfl⟩
    · cases hcaller
  · rw [hsame]
    rfl

end Sharing

end Libgpsfile2
