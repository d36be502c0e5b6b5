import Libgpsfile2.Gpx.Feeding
import Libgpsfile2.Gpx.Indices

/-!
# How a file is cut into chunks

A file is imported by `streamWrite` calls for its chunks and one `release`, up to the first
exception (`Writer.writeChunks`). Every `streamWrite` feeds the parser what it has stored of its
chunk, and `release` feeds it nothing but the end (`writeChunks_fed`). So the parser gets the bytes
of the chunks in order, whatever the chunks are, unless a `realloc` was refused: then a byte `0xff`
may have been dropped without an exception.

`ParserClass.Lawful` is what gpxlib promises: the success and the tree of the parser depend on the
concatenation of what it was fed and on the `final` flag, and a failure is permanent.
-/

namespace Libgpsfile2

/-! ### The promise of the parser -/

namespace ParserClass

variable {γ : Type} (P : ParserClass γ)

/-- The parser that was fed the pieces, none of them as the final one. -/
def fed (pieces : List (List UInt8)) : γ :=
  pieces.foldl (fun g piece => (P.parse g piece false).2) P.new

theorem fed_concat (pieces : List (List UInt8)) (piece : List UInt8) :
    P.fed (pieces ++ [piece]) = (P.parse (P.fed pieces) piece false).2 := by
  simp [fed]

/-- Success and tree depend on the concatenation of the pieces and the `final` flag, and a failure
is permanent. -/
structure Lawful (succeeds : List UInt8 → Bool → Bool) (tree : List UInt8 → Bool → GPX) :
    Prop where
  parse : ∀ pieces piece isFinal,
    (P.parse (P.fed pieces) piece isFinal).1 = succeeds (pieces.flatten ++ piece) isFinal
  root : ∀ pieces piece isFinal,
    P.root (P.parse (P.fed pieces) piece isFinal).2 = tree (pieces.flatten ++ piece) isFinal
  permanent : ∀ s t isFinal, succeeds s false = false → succeeds (s ++ t) isFinal = false

end ParserClass

/-! ### What was kept of the chunks -/

/-- The pieces `ts` are the first chunks, or shorter in all when the number of refusals has
grown. -/
structure Kept (chunks ts : List (List UInt8)) (n n' : ℕ) : Prop where
  le : n ≤ n'
  kept : n' = n → ts = chunks.take ts.length
  lost : n < n' → ts.flatten.length < (chunks.take ts.length).flatten.length

theorem Kept.nil (chunks : List (List UInt8)) (n : ℕ) : Kept chunks [] n n :=
  ⟨le_rfl, fun _ => rfl, fun h => absurd h (lt_irrefl n)⟩

theorem Kept.cons {chunks ts : List (List UInt8)} {s t : List UInt8} {n n₁ n' : ℕ} (hle : n ≤ n₁)
    (hkept : n₁ = n → t = s) (hlost : n < n₁ → t.length < s.length) (h : Kept chunks ts n₁ n') :
    Kept (s :: chunks) (t :: ts) n n' := by
  obtain ⟨hle', hkept', hlost'⟩ := h
  refine ⟨hle.trans hle', fun heq => ?_, fun hlt => ?_⟩
  · rw [hkept (by omega), List.length_cons, List.take_succ_cons, ← hkept' (by omega)]
  · simp only [List.length_cons, List.take_succ_cons, List.flatten_cons, List.length_append]
    -- no piece is longer than its chunk, and one of them is shorter
    have hs : t.length ≤ s.length := by
      rcases hle.eq_or_lt with heq | hgrew
      · rw [hkept heq.symm]
      · exact (hlost hgrew).le
    have hts : ts.flatten.length ≤ (chunks.take ts.length).flatten.length := by
      rcases hle'.eq_or_lt with heq | hgrew
      · rw [← hkept' heq.symm]
      · exact (hlost' hgrew).le
    rcases hle.eq_or_lt with heq | hgrew
    · have := hlost' (by omega)
      omega
    · have := hlost hgrew
      omega

namespace GpxWriter

variable {γ π τ : Type} {P : ParserClass γ} {dp : ProviderRouteWriterBase π τ}
  {parseTime : TimeParser τ} {succeeds : List UInt8 → Bool → Bool}
  {tree : List UInt8 → Bool → GPX} {st : π} {pieces : List (List UInt8)}
  {w : Writer (GpxWriter γ π)}

/-- The writer has fed the pieces to its parser and is still open. -/
structure Fed (P : ParserClass γ) (st : π) (pieces : List (List UInt8))
    (w : Writer (GpxWriter γ π)) : Prop where
  shown : Shown w.buf
  drained : w.buf.view.pending = []
  parser : w.plugin.parser = some (P.fed pieces)
  feeds : w.plugin.feeds = pieces.map fun piece => (piece, false)
  dp : w.plugin.dp = st
  opened : w.writeFinished = false

theorem new_fed (P : ParserClass γ) (st : π) (mem : ℤ → UInt8) (q : ℤ) (alloc : Allocator) :
    Fed P st [] (Writer.new (Iobuf.new mem q alloc) (new P st)) where
  shown := new_shown mem q alloc
  drained := Iobuf.new_pending mem q alloc
  parser := rfl
  feeds := rfl
  dp := rfl
  opened := rfl

/-- **One chunk.** -/
theorem streamWrite_fed (dp : ProviderRouteWriterBase π τ) (parseTime : TimeParser τ)
    (hw : Fed P st pieces w) (s : List UInt8) :
    (∃ b w', Iobuf.sputn s w.buf = .error Window.wrongCharacter b ∧
        Writer.streamWrite (plugin P dp parseTime) s w = .error Window.wrongCharacter w') ∨
      ∃ n b t w', Iobuf.sputn s w.buf = .ok n b ∧ w'.buf.alloc = b.alloc ∧
        Fed P st (pieces ++ [t]) w' ∧
        w.buf.alloc.refusals ≤ w'.buf.alloc.refusals ∧
        (w'.buf.alloc.refusals = w.buf.alloc.refusals → t = s) ∧
        (w.buf.alloc.refusals < w'.buf.alloc.refusals → t.length < s.length) ∧
        Writer.streamWrite (plugin P dp parseTime) s w =
          if (P.parse (P.fed pieces) t false).1 then .ok (s.length : ℤ) w'
          else .error Writer.canNotSetValue w' := by
  obtain ⟨hshown, hdrained, hparser, hfeeds, hdp, hopen⟩ := hw
  rw [Writer.streamWrite_apply _ s hopen]
  have hsim := Iobuf.sputn_simulates s w.buf hshown.wf
  have hshown' := hshown.sputn s
  cases hput : Window.xsputn s w.buf.view with
  | error e v =>
    left
    rw [hput] at hsim
    obtain ⟨b, hb, -, -⟩ := hsim.error_right
    rw [hb, Window.xsputn_error hput]
    exact ⟨b, _, rfl, rfl⟩
  | ok n v =>
    right
    rw [hput] at hsim
    obtain ⟨b, hb, -, rfl⟩ := hsim.ok_right
    rw [hb] at hshown' ⊢
    rw [after_ok] at hshown'
    obtain ⟨rfl, t, hstores, hall, hlost⟩ := Window.xsputn_stores hput
    have hpending : b.view.pending = t := by rw [hstores.pending, hdrained, List.nil_append]
    obtain ⟨b', hb', hview, hwrite⟩ := write_apply P dp parseTime (x := w.plugin) hshown'
      hparser false
    have halloc : b'.alloc = b.alloc := congrArg Window.alloc hview
    have hpending' : b'.view.pending = [] := by
      rw [hview]
      simp [Window.take, Window.pending, hshown'.hidden]
    refine ⟨_, b, t, ⟨b', false, ⟨some (P.fed (pieces ++ [t])), st, w.plugin.feeds ++ [(t, false)]⟩,
      w.writes ++ [false]⟩, rfl, halloc, ⟨hb', hpending', rfl, ?_, rfl, rfl⟩, ?_, ?_, ?_, ?_⟩
    · rw [hfeeds, List.map_append]
      rfl
    · rw [halloc]
      exact hstores.refusals
    · rw [halloc]
      exact hall
    · rw [halloc]
      exact hlost
    · simp only [Writer.write_apply]
      rw [show (plugin P dp parseTime).write false (b, w.plugin) = _ from hwrite, hpending, hopen,
        hdp, ← P.fed_concat]
      cases (P.parse (P.fed pieces) t false).1 <;> rfl

/-- **The chunks, up to the first exception.** -/
theorem streamWriteAll_fed (hP : P.Lawful succeeds tree) (dp : ProviderRouteWriterBase π τ)
    (parseTime : TimeParser τ) (chunks : List (List UInt8)) (hw : Fed P st pieces w) :
    (∃ w', Writer.streamWriteAll (plugin P dp parseTime) chunks w =
        .error Window.wrongCharacter w') ∨
      ∃ ts w', Fed P st (pieces ++ ts) w' ∧
        Kept chunks ts w.buf.alloc.refusals w'.buf.alloc.refusals ∧
        (Writer.streamWriteAll (plugin P dp parseTime) chunks w = .ok () w' ∧
            ts.length = chunks.length ∨
          Writer.streamWriteAll (plugin P dp parseTime) chunks w =
              .error Writer.canNotSetValue w' ∧
            ts.length ≤ chunks.length ∧ succeeds (pieces ++ ts).flatten false = false) := by
  induction chunks generalizing pieces w with
  | nil => exact .inr ⟨[], w, by rwa [List.append_nil], .nil _ _, .inl ⟨rfl, rfl⟩⟩
  | cons s chunks ih =>
    rw [Writer.streamWriteAll, bind_apply]
    rcases streamWrite_fed dp parseTime hw s with ⟨b, w', -, hthrow⟩ |
      ⟨n, b, t, w₁, -, -, hw₁, hle, hkept, hlost, hrun⟩
    · rw [hthrow]
      exact .inl ⟨w', rfl⟩
    · rw [hP.parse] at hrun
      -- the caller goes on exactly when the parser has taken the piece
      by_cases hok : succeeds (pieces.flatten ++ t) false = true
      · rw [if_pos hok] at hrun
        rw [hrun]
        rcases ih hw₁ with ⟨w', hthrow⟩ | ⟨ts, w', hw', hts, hres⟩
        · exact .inl ⟨w', hthrow⟩
        · rw [List.append_assoc, List.singleton_append] at hw' hres
          refine .inr ⟨t :: ts, w', hw', .cons hle hkept hlost hts, hres.imp ?_ ?_⟩
          · rintro ⟨hrun', hlen⟩
            exact ⟨hrun', congrArg Nat.succ hlen⟩
          · rintro ⟨hrun', hlen, hfail⟩
            exact ⟨hrun', Nat.succ_le_succ hlen, hfail⟩
      · rw [if_neg hok] at hrun
        rw [hrun]
        refine .inr ⟨[t], w₁, hw₁, .cons hle hkept hlost (.nil _ _), .inr ⟨rfl, ?_, ?_⟩⟩
        · exact Nat.succ_le_succ (Nat.zero_le _)
        · simpa using hok

/-! ### The end of the file -/

/-- What a provider is asked at the end of a file that was taken. -/
def importRoot (dp : ProviderRouteWriterBase π τ) (parseTime : TimeParser τ) (root : GPX) :
    EStateM Exn π Unit := do
  let _ ← parseData dp parseTime root
  dp.finished

/-- The last statement of `write`, as the provider sees it. -/
theorem complete_import (dp : ProviderRouteWriterBase π τ) (parseTime : TimeParser τ)
    {x : GpxWriter γ π} {g : γ} (hx : x.parser = some g) (res : Bool) :
    (after (complete P dp parseTime true res x)).feeds = x.feeds ∧
      (after (complete P dp parseTime true res x)).dp =
        if res then after (importRoot dp parseTime (P.root g) x.dp) else x.dp := by
  obtain ⟨parser, d, feeds⟩ := x
  change parser = some g at hx
  subst hx
  cases res with
  | false => exact ⟨rfl, rfl⟩
  | true =>
    rw [complete_apply, importRoot, bind_apply, if_pos rfl]
    cases parseData dp parseTime (P.root g) d with
    | error e d' => exact ⟨rfl, rfl⟩
    | ok b d' =>
      simp only
      cases dp.finished d' <;> exact ⟨rfl, rfl⟩

/-- **`release`** tells the parser the end, and feeds it nothing. -/
theorem release_fed (hP : P.Lawful succeeds tree) (dp : ProviderRouteWriterBase π τ)
    (parseTime : TimeParser τ) (hw : Fed P st pieces w) :
    (after (Writer.release (plugin P dp parseTime) w)).buf.alloc = w.buf.alloc ∧
      (after (Writer.release (plugin P dp parseTime) w)).plugin.feeds =
        (pieces.map fun piece => (piece, false)) ++ [([], true)] ∧
      (after (Writer.release (plugin P dp parseTime) w)).plugin.dp =
        if succeeds pieces.flatten true then
          after (importRoot dp parseTime (tree pieces.flatten true) st)
        else st := by
  obtain ⟨hbuf, hplugin⟩ :=
    Writer.after_write (plugin P dp parseTime) true { w with writeFinished := true }
  obtain ⟨b', -, hview, hwrite⟩ := write_apply P dp parseTime hw.shown hw.parser true
  have halloc : b'.alloc = w.buf.alloc := congrArg Window.alloc hview
  rw [Writer.release_apply, Writer.after_conclude, hbuf, hplugin]
  show (after (write P dp parseTime true (w.buf, w.plugin))).1.alloc = _ ∧
    (after (write P dp parseTime true (w.buf, w.plugin))).2.feeds = _ ∧
    (after (write P dp parseTime true (w.buf, w.plugin))).2.dp = _
  rw [hwrite, after_onSnd, hw.drained, hP.parse, List.append_nil]
  obtain ⟨hfeeds, hdp⟩ := complete_import (P := P) dp parseTime
    (x := ⟨some (P.parse (P.fed pieces) [] true).2, w.plugin.dp, w.plugin.feeds ++ [([], true)]⟩)
    rfl (succeeds pieces.flatten true)
  refine ⟨halloc, hfeeds.trans (by rw [hw.feeds]), hdp.trans ?_⟩
  rw [hP.root, List.append_nil, hw.dp]

variable {mem : ℤ → UInt8} {q : ℤ} {alloc : Allocator} {chunks : List (List UInt8)}

/-- **The whole file**: what the parser was fed, and what the provider was asked. -/
theorem writeChunks_fed (hP : P.Lawful succeeds tree) (dp : ProviderRouteWriterBase π τ)
    (parseTime : TimeParser τ) (chunks : List (List UInt8))
    (hthrew : outcome (Writer.streamWriteAll (plugin P dp parseTime) chunks
      (Writer.new (Iobuf.new mem q alloc) (new P st))) ≠ .error Window.wrongCharacter) :
    ∃ ts : List (List UInt8), ∃ res, Writer.writeChunks (plugin P dp parseTime) chunks
        (Writer.new (Iobuf.new mem q alloc) (new P st)) = res ∧
      Kept chunks ts alloc.refusals (after res).buf.alloc.refusals ∧
      (ts.length = chunks.length ∧
          (after res).plugin.feeds = (ts.map fun t => (t, false)) ++ [([], true)] ∧
          (after res).plugin.dp = (if succeeds ts.flatten true then
            after (importRoot dp parseTime (tree ts.flatten true) st) else st) ∨
        ts.length ≤ chunks.length ∧ outcome res = .error Writer.canNotSetValue ∧
          (after res).plugin.feeds = (ts.map fun t => (t, false)) ∧
          (after res).plugin.dp = st ∧ succeeds ts.flatten false = false) := by
  rcases streamWriteAll_fed hP dp parseTime chunks (new_fed P st mem q alloc) with
    ⟨w', hrun⟩ | ⟨ts, w', hw', hkept, ⟨hrun, hlen⟩ | ⟨hrun, hlen, hfail⟩⟩
  · rw [hrun] at hthrew
    exact absurd rfl hthrew
  · rw [List.nil_append] at hw'
    obtain ⟨halloc, hfeeds, hdp⟩ := release_fed hP dp parseTime hw'
    refine ⟨ts, Writer.release (plugin P dp parseTime) w', ?_, ?_, .inl ⟨hlen, hfeeds, hdp⟩⟩
    · unfold Writer.writeChunks
      rw [bind_apply, hrun]
    · rw [halloc]
      exact hkept
  · rw [List.nil_append] at hw' hfail
    refine ⟨ts, .error Writer.canNotSetValue w', ?_, hkept,
      .inr ⟨hlen, rfl, hw'.feeds, hw'.dp, hfail⟩⟩
    unfold Writer.writeChunks
    rw [bind_apply, hrun]

/-! ### The chunks do not matter -/

/-- The parser was fed the bytes of the chunks that were written, each once and in order, and was
told the end by the last call only. All chunks were written, or the caller has stopped because the
parser failed. -/
def FedExactly (chunks : List (List UInt8))
    (res : EStateM.Result Exn (Writer (GpxWriter γ π)) Bool) : Prop :=
  ∃ n ≤ chunks.length,
    ((after res).plugin.feeds.map Prod.fst).flatten = (chunks.take n).flatten ∧
      (n = chunks.length ∧
          (after res).plugin.feeds.map Prod.snd = List.replicate n false ++ [true] ∨
        outcome res = .error Writer.canNotSetValue ∧
          (after res).plugin.feeds.map Prod.snd = List.replicate n false)

theorem map_snd_feeds (ts : List (List UInt8)) :
    (ts.map fun t => (t, false)).map Prod.snd = List.replicate ts.length false := by
  rw [List.map_map, List.eq_replicate_iff]
  simp

theorem map_fst_feeds (ts : List (List UInt8)) :
    (ts.map fun t => (t, false)).map Prod.fst = ts := by
  rw [List.map_map]
  exact List.map_id ts

/-- The bytes that the parser was fed are those of the chunks when no `realloc` was refused, and
fewer otherwise. -/
theorem fedExactly_iff (hP : P.Lawful succeeds tree) (dp : ProviderRouteWriterBase π τ)
    (parseTime : TimeParser τ) (chunks : List (List UInt8))
    (hthrew : outcome (Writer.streamWriteAll (plugin P dp parseTime) chunks
      (Writer.new (Iobuf.new mem q alloc) (new P st))) ≠ .error Window.wrongCharacter) :
    FedExactly chunks (Writer.writeChunks (plugin P dp parseTime) chunks
        (Writer.new (Iobuf.new mem q alloc) (new P st))) ↔
      (after (Writer.writeChunks (plugin P dp parseTime) chunks
        (Writer.new (Iobuf.new mem q alloc) (new P st)))).buf.alloc.refusals = alloc.refusals := by
  obtain ⟨ts, res, hres, ⟨hle, hkept, hlost⟩, hcases⟩ :=
    writeChunks_fed hP dp parseTime chunks hthrew
  rw [hres]
  have hbytes : ((after res).plugin.feeds.map Prod.fst).flatten = ts.flatten := by
    rcases hcases with ⟨-, hfeeds, -⟩ | ⟨-, -, hfeeds, -⟩
    · rw [hfeeds, List.map_append, map_fst_feeds, List.flatten_append]
      exact List.append_nil _
    · rw [hfeeds, map_fst_feeds]
  constructor
  · rintro ⟨n, hn, hfed, hflags⟩
    by_contra hne
    have hshort := hlost (lt_of_le_of_ne hle (Ne.symm hne))
    -- the flags say how many chunks were written
    have hcount : ((after res).plugin.feeds.map Prod.snd).count false = ts.length := by
      rcases hcases with ⟨-, hfeeds, -⟩ | ⟨-, -, hfeeds, -⟩
      · rw [hfeeds, List.map_append, map_snd_feeds]
        simp
      · rw [hfeeds, map_snd_feeds, List.count_replicate_self]
    have hlen : n = ts.length := by
      rcases hflags with ⟨-, hflags⟩ | ⟨-, hflags⟩ <;> rw [← hcount, hflags] <;> simp
    rw [← hbytes, hfed, hlen] at hshort
    exact lt_irrefl _ hshort
  · intro heq
    unfold FedExactly
    rw [hbytes]
    have hts := congrArg List.flatten (hkept heq)
    rcases hcases with ⟨hlen, hfeeds, -⟩ | ⟨hlen, hthrow, hfeeds, -, -⟩
    · refine ⟨ts.length, hlen.le, hts, .inl ⟨hlen, ?_⟩⟩
      rw [hfeeds, List.map_append, map_snd_feeds]
      rfl
    · exact ⟨ts.length, hlen, hts, .inr ⟨hthrow, by rw [hfeeds, map_snd_feeds]⟩⟩

/-- What the provider is asked for a file does not depend on the chunks when no `realloc` was
refused: it is what the parser makes of all the bytes. -/
theorem writeChunks_dp (hP : P.Lawful succeeds tree) (dp : ProviderRouteWriterBase π τ)
    (parseTime : TimeParser τ) (chunks : List (List UInt8))
    (hthrew : outcome (Writer.streamWriteAll (plugin P dp parseTime) chunks
      (Writer.new (Iobuf.new mem q alloc) (new P st))) ≠ .error Window.wrongCharacter)
    (hrefusals : (after (Writer.writeChunks (plugin P dp parseTime) chunks
      (Writer.new (Iobuf.new mem q alloc) (new P st)))).buf.alloc.refusals = alloc.refusals) :
    (after (Writer.writeChunks (plugin P dp parseTime) chunks
        (Writer.new (Iobuf.new mem q alloc) (new P st)))).plugin.dp =
      if succeeds chunks.flatten true then
        after (importRoot dp parseTime (tree chunks.flatten true) st)
      else st := by
  obtain ⟨ts, res, hres, ⟨-, hkept, -⟩, hcases⟩ := writeChunks_fed hP dp parseTime chunks hthrew
  rw [hres] at hrefusals ⊢
  have hts := hkept hrefusals
  rcases hcases with ⟨hlen, -, hdp⟩ | ⟨hlen, -, -, hdp, hfail⟩
  · rw [hlen, List.take_length] at hts
    rw [hdp, hts]
  · -- the parser has failed on a first part, so it fails on the whole
    have hwhole : ts.flatten ++ (chunks.drop ts.length).flatten = chunks.flatten := by
      rw [← List.flatten_append]
      nth_rewrite 1 [hts]
      rw [List.take_append_drop]
    have := hP.permanent _ (chunks.drop ts.length).flatten true hfail
    rw [hwhole] at this
    rw [hdp, this]
    rfl

variable {mem' : ℤ → UInt8} {q' : ℤ} {alloc' : Allocator} {chunks' : List (List UInt8)}

/-- **When the import does not depend on the chunks**: neither what the parser is fed, nor the calls
that are made of the provider, with `finished`, nor the state in which they leave it. -/
theorem import_chunks_iff {st : π} (hP : P.Lawful succeeds tree)
    (hbytes : chunks.flatten = chunks'.flatten)
    (hthrew : outcome (Writer.streamWriteAll (plugin P (logged dp) parseTime) chunks
      (Writer.new (Iobuf.new mem q alloc) (new P (st, [])))) ≠ .error Window.wrongCharacter)
    (hthrew' : outcome (Writer.streamWriteAll (plugin P (logged dp) parseTime) chunks'
      (Writer.new (Iobuf.new mem' q' alloc') (new P (st, [])))) ≠ .error Window.wrongCharacter) :
    (FedExactly chunks (Writer.writeChunks (plugin P (logged dp) parseTime) chunks
        (Writer.new (Iobuf.new mem q alloc) (new P (st, [])))) ∧
      FedExactly chunks' (Writer.writeChunks (plugin P (logged dp) parseTime) chunks'
        (Writer.new (Iobuf.new mem' q' alloc') (new P (st, [])))) ∧
      (after (Writer.writeChunks (plugin P (logged dp) parseTime) chunks
          (Writer.new (Iobuf.new mem q alloc) (new P (st, []))))).plugin.dp =
        (after (Writer.writeChunks (plugin P (logged dp) parseTime) chunks'
          (Writer.new (Iobuf.new mem' q' alloc') (new P (st, []))))).plugin.dp) ↔
      (after (Writer.writeChunks (plugin P (logged dp) parseTime) chunks
          (Writer.new (Iobuf.new mem q alloc) (new P (st, []))))).buf.alloc.refusals =
        alloc.refusals ∧
      (after (Writer.writeChunks (plugin P (logged dp) parseTime) chunks'
          (Writer.new (Iobuf.new mem' q' alloc') (new P (st, []))))).buf.alloc.refusals =
        alloc'.refusals := by
  rw [fedExactly_iff hP _ _ _ hthrew, fedExactly_iff hP _ _ _ hthrew', ← and_assoc]
  refine and_iff_left_of_imp fun ⟨hrefusals, hrefusals'⟩ => ?_
  rw [writeChunks_dp hP _ _ _ hthrew hrefusals, writeChunks_dp hP _ _ _ hthrew' hrefusals', hbytes]

/-- A parser that takes everything, and finds one track with the bytes as its title. -/
def titleParser : ParserClass (List UInt8) where
  new := []
  parse g bytes _ := (true, g ++ bytes)
  root g := ⟨[⟨g, [], [], []⟩]⟩

theorem titleParser_fed (pieces : List (List UInt8)) :
    titleParser.fed pieces = pieces.flatten := by
  have hfold : ∀ g : List UInt8,
      pieces.foldl (fun g piece => (titleParser.parse g piece false).2) g =
        g ++ pieces.flatten := by
    induction pieces with
    | nil => exact fun g => (List.append_nil g).symm
    | cons piece pieces ih =>
      intro g
      rw [List.foldl_cons, ih, List.flatten_cons, ← List.append_assoc]
      rfl
  exact hfold []

theorem titleParser_lawful :
    titleParser.Lawful (fun _ _ => true) fun s _ => ⟨[⟨s, [], [], []⟩]⟩ where
  parse _ _ _ := rfl
  root pieces piece isFinal := by
    rw [titleParser_fed]
    rfl
  permanent _ _ _ h := by cases h

/-- A `realloc` that is refused at the byte `0xff`: `overflow` returns `eof ()`, which is equal to
the `char` that was put, and the byte is dropped. -/
theorem xsputn_drops {w : Window} {s : List UInt8} (hs : s.length = w.room) (hw : w.Refuses) :
    Window.xsputn (255 :: s) w = .ok (s.length + 1 : ℕ) (w.refused.append s) := by
  have hroom : ¬ ((255 : UInt8) :: s).length ≤ w.room := by
    rw [List.length_cons, hs]
    omega
  have hrest : Window.xsputnLoop s w.refused = .ok s w.refused := by
    cases s with
    | nil => rfl
    | cons c s =>
      rw [Window.xsputnLoop, if_pos (show (c :: s).length ≤ w.refused.room from hs.le)]
  unfold Window.xsputn
  rw [Window.xsputnLoop, if_neg hroom, if_pos hw, if_pos rfl, hrest]
  rfl

/-- The byte `0xff` in front of a full buffer of blanks, written in one piece while `realloc`
returns `NULL`: no exception is thrown, and the parser is not fed all the bytes. -/
theorem import_drops_byte :
    ∃ chunks : List (List UInt8),
      outcome (Writer.streamWriteAll (plugin titleParser (logged (@takesAll Unit)) fun _ => ())
        chunks (Writer.new (Iobuf.new (fun _ => 0) 0 ⟨fun _ => none, 0⟩)
          (new titleParser ((), [])))) = .ok () ∧
      ¬ FedExactly chunks
        (Writer.writeChunks (plugin titleParser (logged (@takesAll Unit)) fun _ => ())
          chunks (Writer.new (Iobuf.new (fun _ => 0) 0 ⟨fun _ => none, 0⟩)
            (new titleParser ((), [])))) := by
  obtain ⟨s, hs⟩ : ∃ s : List UInt8, s.length = 1048576 :=
    ⟨List.replicate 1048576 32, List.length_replicate⟩
  have hfed := new_fed titleParser ((), ([] : List (ProviderCall Unit))) (fun _ => 0) 0
    ⟨fun _ => none, 0⟩
  have hrefuses : (Iobuf.new (fun _ => 0) 0 ⟨fun _ => none, 0⟩).view.Refuses := ⟨rfl, rfl⟩
  have hdrops := xsputn_drops (w := (Iobuf.new (fun _ => 0) 0 ⟨fun _ => none, 0⟩).view) hs hrefuses
  have hsim := Iobuf.sputn_simulates (255 :: s) _ hfed.shown.wf
  change Matches Iobuf.WF Iobuf.view _
    (Window.xsputn (255 :: s) (Iobuf.new (fun _ => 0) 0 ⟨fun _ => none, 0⟩).view) at hsim
  rw [hdrops] at hsim
  obtain ⟨b, hput, -, hview⟩ := hsim.ok_right
  rcases streamWrite_fed (logged (@takesAll Unit)) (fun _ => ()) hfed (255 :: s) with
    ⟨b', w', hput', -⟩ | ⟨n, b', t, w', hput', halloc, hw', -, -, -, hrun⟩
  · rw [hput] at hput'
    cases hput'
  · rw [hput] at hput'
    cases hput'
    have hone : w'.buf.alloc.refusals = 1 := by
      rw [halloc, show b.alloc = b.view.alloc from rfl, hview]
      rfl
    have hall : Writer.streamWriteAll (plugin titleParser (logged (@takesAll Unit)) fun _ => ())
        [255 :: s] (Writer.new (Iobuf.new (fun _ => 0) 0 ⟨fun _ => none, 0⟩)
          (new titleParser ((), []))) = .ok () w' := by
      rw [Writer.streamWriteAll, bind_apply, hrun]
      rfl
    refine ⟨[255 :: s], by rw [hall]; rfl, ?_⟩
    rw [fedExactly_iff titleParser_lawful _ _ _ (by rw [hall]; simp), Writer.writeChunks,
      bind_apply, hall]
    simp only
    rw [(release_fed titleParser_lawful _ _ hw').1, hone]
    exact one_ne_zero

/-- Two chunks, and the same bytes in one chunk. -/
theorem import_two_chunks :
    FedExactly [[97], [98]] (Writer.writeChunks
        (plugin titleParser (logged (@takesAll Unit)) fun _ => ()) [[97], [98]]
        (Writer.new (Iobuf.new (fun _ => 0) 0 ⟨fun _ => none, 0⟩) (new titleParser ((), [])))) ∧
      FedExactly [[97, 98]] (Writer.writeChunks
        (plugin titleParser (logged (@takesAll Unit)) fun _ => ()) [[97, 98]]
        (Writer.new (Iobuf.new (fun _ => 0) 0 ⟨fun _ => none, 0⟩) (new titleParser ((), [])))) ∧
      (after (Writer.writeChunks (plugin titleParser (logged (@takesAll Unit)) fun _ => ())
          [[97], [98]] (Writer.new (Iobuf.new (fun _ => 0) 0 ⟨fun _ => none, 0⟩)
            (new titleParser ((), []))))).plugin.dp =
        (after (Writer.writeChunks (plugin titleParser (logged (@takesAll Unit)) fun _ => ())
          [[97, 98]] (Writer.new (Iobuf.new (fun _ => 0) 0 ⟨fun _ => none, 0⟩)
            (new titleParser ((), []))))).plugin.dp := by
  have hall : outcome (Writer.streamWriteAll
      (plugin titleParser (logged (@takesAll Unit)) fun _ => ()) [[97], [98]]
      (Writer.new (Iobuf.new (fun _ => 0) 0 ⟨fun _ => none, 0⟩) (new titleParser ((), [])))) ≠
        .error Window.wrongCharacter := by
    decide +kernel
  have hall' : outcome (Writer.streamWriteAll
      (plugin titleParser (logged (@takesAll Unit)) fun _ => ()) [[97, 98]]
      (Writer.new (Iobuf.new (fun _ => 0) 0 ⟨fun _ => none, 0⟩) (new titleParser ((), [])))) ≠
        .error Window.wrongCharacter := by
    decide +kernel
  exact (import_chunks_iff titleParser_lawful (by rfl) hall hall').2
    ⟨by decide +kernel, by decide +kernel⟩

end GpxWriter

end Libgpsfile2
