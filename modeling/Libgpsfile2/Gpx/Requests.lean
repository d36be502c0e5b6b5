import Libgpsfile2.Gpx.GpxWriter
import Libgpsfile2.Library.Simulation

/-!
# What a document asks of a provider

A document asks for a list of `Request`s, in which tracks and segments are numbered by natural
numbers, in the order of the document. Walking over the document, `parseData` meets `Action`s: a
request, a request of `readExtensions`, which is `noexcept`, or an element whose name is shorter
than the name space prefix, which ends the process. `parseTracks_eq_exec` says that the loops of
`parseData` perform the actions of the document one after the other.

`made` are the calls a provider gets when a list of calls is made of it, up to the first one that
throws: `parseData_traced` says that these are the calls of `parseData`, for the calls
`GPX.calls` of the document.
-/

namespace Libgpsfile2

/-- What a document asks for. -/
inductive Request (τ : Type)
  | title (track : ℕ) (s : StdString)
  | summary (track : ℕ) (s : StdString)
  | details (track : ℕ) (s : StdString)
  | point (track segment : ℕ) (time : τ)
  | data (track segment : ℕ) (time : τ) (type value : StdString)

/-- What `parseData` meets. -/
inductive Action (τ : Type)
  | request (r : Request τ)
  | guarded (r : Request τ)
  | terminate

variable {π τ α β σ : Type}

/-- The call made for a request: the numbers are `unsigned short`. -/
def Request.call : Request τ → RouteCall τ
  | .title j s => .setTrackTitle (UInt16.ofNat j) s
  | .summary j s => .setTrackSummary (UInt16.ofNat j) s
  | .details j s => .setTrackDetails (UInt16.ofNat j) s
  | .point j k t => .addTrackPoint (UInt16.ofNat j) (UInt16.ofNat k) t
  | .data j k t type value =>
      .addTrackPointDataString (UInt16.ofNat j) (UInt16.ofNat k) t type value

/-- Performing an action. -/
def Action.run (dp : ProviderRouteWriterBase π τ) : Action τ → EStateM Exn π Unit
  | .request r => do let _ ← dp.call r.call
  | .guarded r => noexcept do let _ ← dp.call r.call
  | .terminate => throw .terminate

/-- Performing actions one after the other. -/
def exec (dp : ProviderRouteWriterBase π τ) : List (Action τ) → EStateM Exn π Unit
  | [] => return ()
  | a :: as => do
      a.run dp
      exec dp as

theorem exec_append (dp : ProviderRouteWriterBase π τ) (as bs : List (Action τ)) :
    exec dp (as ++ bs) = exec dp as >>= fun _ => exec dp bs := by
  induction as with
  | nil => rfl
  | cons a as ih =>
    funext s
    simp only [List.cons_append, exec, ih, bind_apply]
    cases a.run dp s <;> rfl

theorem exec_singleton (dp : ProviderRouteWriterBase π τ) (a : Action τ) :
    exec dp [a] = a.run dp := by
  funext s
  simp only [exec, bind_apply]
  cases a.run dp s <;> rfl

theorem exec_request (dp : ProviderRouteWriterBase π τ) (r : Request τ) (as : List (Action τ)) :
    exec dp (.request r :: as) = dp.call r.call >>= fun _ => exec dp as := by
  funext s
  simp only [exec, Action.run, bind_apply]
  cases dp.call r.call s <;> rfl

/-! ### `noexcept` -/

theorem noexcept_bind (m : EStateM Exn σ α) (k : α → EStateM Exn σ β) :
    noexcept (m >>= k) = noexcept m >>= fun a => noexcept (k a) := by
  funext s
  simp only [noexcept, bind_apply]
  cases m s with
  | ok a s' => rfl
  | error e s' => by_cases he : e.Fatal <;> simp only [he, if_true, if_false]

theorem noexcept_noexcept (m : EStateM Exn σ α) : noexcept (noexcept m) = noexcept m := by
  funext s
  simp only [noexcept]
  cases m s with
  | ok a s' => rfl
  | error e s' =>
    by_cases he : e.Fatal
    · simp only [he, if_true]
    · simp only [he, if_false]
      rfl

/-! ### The actions of a document -/

section Actions

mutual

/-- The actions for an element below `extensions`. -/
def extensionActions (j k : ℕ) (t : τ) (nsLen : UInt16) : Node → List (Action τ)
  | .mk name value elements =>
      if name.length < nsLen.toNat then [.terminate]
      else
        match extensionType (name.drop nsLen.toNat) with
        | some type => [.guarded (.data j k t type value)]
        | none =>
            if name.drop nsLen.toNat = lit "TrackPointExtension" then
              elementsActions j k t nsLen elements
            else []

def elementsActions (j k : ℕ) (t : τ) (nsLen : UInt16) : List Node → List (Action τ)
  | [] => []
  | node :: nodes =>
      extensionActions j k t (nsLength nsLen node.name) node ++
        elementsActions j k t (nsLength nsLen node.name) nodes

end

variable (parseTime : TimeParser τ)

def pointActions (j k : ℕ) (point : WPT) : List (Action τ) :=
  let t := parseTime (cStr point.time)
  [.request (.point j k t), .request (.data j k t (lit "LAT") point.lat),
    .request (.data j k t (lit "LON") point.lon), .request (.data j k t (lit "ALT") point.ele)] ++
    elementsActions j k t 0 point.extensions

def segmentsActions (j : ℕ) : ℕ → List TRKSeg → List (Action τ)
  | _, [] => []
  | k, segment :: segments =>
      segment.trkpts.flatMap (pointActions parseTime j k) ++ segmentsActions j (k + 1) segments

def tracksActions : ℕ → List TRK → List (Action τ)
  | _, [] => []
  | j, track :: tracks =>
      [.request (.title j (cStr track.name)), .request (.summary j (cStr track.cmt)),
        .request (.details j (cStr track.desc))] ++
        (segmentsActions parseTime j 0 track.trksegs ++ tracksActions (j + 1) tracks)

end Actions

/-! ### Which tracks and segments the actions are about -/

/-- The track of a request. -/
def Request.track : Request τ → ℕ
  | .title j _ => j
  | .summary j _ => j
  | .details j _ => j
  | .point j _ _ => j
  | .data j _ _ _ _ => j

/-- The segment of a request, if it is about one. -/
def Request.segment : Request τ → Option ℕ
  | .point _ k _ => some k
  | .data _ k _ _ _ => some k
  | _ => none

/-- An action is about a track between `j` and `n`, if it is about any. -/
def Action.Within (j n : ℕ) : Action τ → Prop
  | .request r => j ≤ r.track ∧ r.track < n
  | .guarded r => j ≤ r.track ∧ r.track < n
  | .terminate => True

section Members

variable {a : Action τ} {j k : ℕ} {t : τ} {parseTime : TimeParser τ}

mutual

theorem mem_extensionActions {nsLen : UInt16} {node : Node}
    (h : a ∈ extensionActions j k t nsLen node) :
    a = .terminate ∨ ∃ type value, a = .guarded (.data j k t type value) := by
  match node with
  | .mk name value elements =>
    rw [extensionActions] at h
    split at h
    · exact .inl (List.mem_singleton.1 h)
    · split at h
      · exact .inr ⟨_, _, List.mem_singleton.1 h⟩
      · split at h
        · exact mem_elementsActions h
        · exact absurd h List.not_mem_nil

theorem mem_elementsActions {nsLen : UInt16} {nodes : List Node}
    (h : a ∈ elementsActions j k t nsLen nodes) :
    a = .terminate ∨ ∃ type value, a = .guarded (.data j k t type value) := by
  match nodes with
  | [] => exact absurd h List.not_mem_nil
  | node :: nodes =>
    rw [elementsActions] at h
    rcases List.mem_append.1 h with h | h
    · exact mem_extensionActions h
    · exact mem_elementsActions h

end

theorem pointActions_within {point : WPT} (h : a ∈ pointActions parseTime j k point) :
    a.Within j (j + 1) := by
  rcases List.mem_append.1 h with h | h
  · simp only [List.mem_cons, List.not_mem_nil, or_false] at h
    rcases h with rfl | rfl | rfl | rfl <;> exact ⟨le_rfl, Nat.lt_succ_self j⟩
  · rcases mem_elementsActions h with rfl | ⟨type, value, rfl⟩
    · trivial
    · exact ⟨le_rfl, Nat.lt_succ_self j⟩

theorem segmentsActions_within {segments : List TRKSeg}
    (h : a ∈ segmentsActions parseTime j k segments) : a.Within j (j + 1) := by
  induction segments generalizing k with
  | nil => exact absurd h List.not_mem_nil
  | cons segment segments ih =>
    rw [segmentsActions] at h
    rcases List.mem_append.1 h with h | h
    · obtain ⟨point, -, h⟩ := List.mem_flatMap.1 h
      exact pointActions_within h
    · exact ih h

theorem Action.Within.mono {i j m n : ℕ} (h : a.Within j n) (hj : i ≤ j) (hn : n ≤ m) :
    a.Within i m := by
  cases a with
  | request r => exact ⟨hj.trans h.1, h.2.trans_le hn⟩
  | guarded r => exact ⟨hj.trans h.1, h.2.trans_le hn⟩
  | terminate => trivial

theorem tracksActions_within {tracks : List TRK} (h : a ∈ tracksActions parseTime j tracks) :
    a.Within j (j + tracks.length) := by
  induction tracks generalizing j with
  | nil => exact absurd h List.not_mem_nil
  | cons track tracks ih =>
    rw [List.length_cons]
    rcases List.mem_append.1 h with h | h
    · have hj : j ≤ j ∧ j < j + (tracks.length + 1) := by omega
      simp only [List.mem_cons, List.not_mem_nil, or_false] at h
      rcases h with rfl | rfl | rfl <;> exact hj
    · rcases List.mem_append.1 h with h | h
      · exact (segmentsActions_within h).mono le_rfl (by omega)
      · exact (ih h).mono (by omega) (by omega)

end Members

/-! ### The loops perform the actions -/

section Loops

variable (dp : ProviderRouteWriterBase π τ) (parseTime : TimeParser τ)

mutual

theorem readExtension_eq_exec (j k : ℕ) (t : τ) (nsLen : UInt16) (node : Node) :
    noexcept (readExtension dp (UInt16.ofNat j) (UInt16.ofNat k) t nsLen node) =
      exec dp (extensionActions j k t nsLen node) := by
  match node with
  | .mk name value elements =>
    rw [readExtension, extensionActions]
    by_cases hlen : name.length < nsLen.toNat
    · rw [if_pos hlen, if_pos hlen, exec_singleton]
      rfl
    · rw [if_neg hlen, if_neg hlen]
      cases extensionType (name.drop nsLen.toNat) with
      | some type =>
        rw [exec_singleton]
        rfl
      | none =>
        by_cases hname : name.drop nsLen.toNat = lit "TrackPointExtension"
        · simp only [if_pos hname]
          rw [noexcept_noexcept]
          exact readElements_eq_exec j k t nsLen elements
        · simp only [if_neg hname]
          rfl

theorem readElements_eq_exec (j k : ℕ) (t : τ) (nsLen : UInt16) (nodes : List Node) :
    noexcept (readElements dp (UInt16.ofNat j) (UInt16.ofNat k) t nsLen nodes) =
      exec dp (elementsActions j k t nsLen nodes) := by
  match nodes with
  | [] => rfl
  | node :: nodes =>
    -- the length of the prefix is carried from one element to the next
    rw [readElements, elementsActions, noexcept_bind, exec_append,
      readExtension_eq_exec j k t (nsLength nsLen node.name) node,
      readElements_eq_exec j k t (nsLength nsLen node.name) nodes]

end

theorem parsePoint_eq_exec (j k : ℕ) (point : WPT) :
    parsePoint dp parseTime (UInt16.ofNat j) (UInt16.ofNat k) point =
      exec dp (pointActions parseTime j k point) := by
  simp only [parsePoint, pointActions, List.cons_append, List.nil_append, exec_request,
    ← readElements_eq_exec]
  rfl

theorem parsePoints_eq_exec (j k : ℕ) (points : List WPT) :
    parsePoints dp parseTime (UInt16.ofNat j) (UInt16.ofNat k) points =
      exec dp (points.flatMap (pointActions parseTime j k)) := by
  induction points with
  | nil => rfl
  | cons point points ih =>
    rw [parsePoints, List.flatMap_cons, exec_append, parsePoint_eq_exec, ih]

theorem ofNat_succ (n : ℕ) : UInt16.ofNat n + 1 = UInt16.ofNat (n + 1) := by
  rw [UInt16.ofNat_add]
  rfl

theorem parseSegments_eq_exec (j k : ℕ) (segments : List TRKSeg) :
    parseSegments dp parseTime (UInt16.ofNat j) (UInt16.ofNat k) segments =
      exec dp (segmentsActions parseTime j k segments) := by
  induction segments generalizing k with
  | nil => rfl
  | cons segment segments ih =>
    rw [parseSegments, segmentsActions, exec_append, parsePoints_eq_exec, ofNat_succ, ih]

/-- **The loops of `parseData`** perform the actions of the tracks. -/
theorem parseTracks_eq_exec (j : ℕ) (tracks : List TRK) :
    parseTracks dp parseTime (UInt16.ofNat j) tracks =
      exec dp (tracksActions parseTime j tracks) := by
  induction tracks generalizing j with
  | nil => rfl
  | cons track tracks ih =>
    simp only [parseTracks, tracksActions, List.cons_append, List.nil_append, exec_request,
      exec_append, ← parseSegments_eq_exec, ofNat_succ, ih]
    rfl

end Loops

/-! ### The calls that are made -/

/-- The requests that are reached: an element with a short name ends the process. -/
def reached : List (Action τ) → List (Request τ)
  | [] => []
  | .request r :: as => r :: reached as
  | .guarded r :: as => r :: reached as
  | .terminate :: _ => []

theorem reached_cons {a : Action τ} {r : Request τ} (ha : a = .request r ∨ a = .guarded r)
    (as : List (Action τ)) : reached (a :: as) = r :: reached as := by
  rcases ha with rfl | rfl <;> rfl

theorem mem_reached {as : List (Action τ)} {r : Request τ} (h : r ∈ reached as) :
    .request r ∈ as ∨ .guarded r ∈ as := by
  induction as with
  | nil => exact absurd h List.not_mem_nil
  | cons a as ih =>
    cases a with
    | terminate => exact absurd h List.not_mem_nil
    | request r' =>
      rcases List.mem_cons.1 h with rfl | h
      · exact .inl List.mem_cons_self
      · exact (ih h).imp (List.mem_cons_of_mem _) (List.mem_cons_of_mem _)
    | guarded r' =>
      rcases List.mem_cons.1 h with rfl | h
      · exact .inr List.mem_cons_self
      · exact (ih h).imp (List.mem_cons_of_mem _) (List.mem_cons_of_mem _)

/-- The requests of a document that `parseData` reaches. -/
def GPX.requests (parseTime : TimeParser τ) (root : GPX) : List (Request τ) :=
  reached (tracksActions parseTime 0 root.trks)

/-- The calls `parseData` makes for a document. -/
def GPX.calls (parseTime : TimeParser τ) (root : GPX) : List (RouteCall τ) :=
  if root.trks.length < 1 then []
  else .setNumTracks (UInt16.ofNat root.trks.length) :: (root.requests parseTime).map Request.call

/-- Every request is about a track of the document. -/
theorem GPX.track_lt {parseTime : TimeParser τ} {root : GPX} {r : Request τ}
    (h : r ∈ root.requests parseTime) : r.track < root.trks.length := by
  rcases mem_reached h with h | h
  · have := (tracksActions_within h).2
    omega
  · have := (tracksActions_within h).2
    omega

/-- The calls a provider gets when `calls` are made of it, up to the first one that throws. -/
def made (dp : ProviderRouteWriterBase π τ) : List (RouteCall τ) → π → List (Made π τ)
  | [], _ => []
  | c :: calls, p =>
      match dp.call c p with
      | .ok b p' => ⟨c, p, .ok b⟩ :: made dp calls p'
      | .error e _ => [⟨c, p, .error e⟩]

/-- What a call returned is what the provider returns in the state it found. -/
theorem made_result {dp : ProviderRouteWriterBase π τ} {calls : List (RouteCall τ)} {p : π}
    {m : Made π τ} (hm : m ∈ made dp calls p) : m.result = outcome (dp.call m.call m.state) := by
  induction calls generalizing p with
  | nil => exact absurd hm List.not_mem_nil
  | cons c calls ih =>
    rw [made] at hm
    cases hcall : dp.call c p with
    | ok b p' =>
      rw [hcall] at hm
      rcases List.mem_cons.1 hm with rfl | hm
      · exact congrArg outcome hcall.symm
      · exact ih hm
    | error e p' =>
      rw [hcall] at hm
      rw [List.mem_singleton.1 hm]
      exact congrArg outcome hcall.symm

theorem made_cons_ok {dp : ProviderRouteWriterBase π τ} {c : RouteCall τ}
    {calls : List (RouteCall τ)} {p : π}
    (hok : ∀ m ∈ made dp (c :: calls) p, ∃ b, m.result = .ok b) :
    ∃ b p', dp.call c p = .ok b p' ∧
      made dp (c :: calls) p = ⟨c, p, .ok b⟩ :: made dp calls p' := by
  rw [made] at hok ⊢
  cases hcall : dp.call c p with
  | ok b p' => exact ⟨b, p', rfl, rfl⟩
  | error e p' =>
    rw [hcall] at hok
    obtain ⟨b, hb⟩ := hok _ (List.mem_singleton.2 rfl)
    cases hb

/-- When no call throws all of them are made. -/
theorem made_all {dp : ProviderRouteWriterBase π τ} {calls : List (RouteCall τ)} {p : π}
    (hok : ∀ m ∈ made dp calls p, ∃ b, m.result = .ok b) :
    (made dp calls p).map Made.call = calls := by
  induction calls generalizing p with
  | nil => rfl
  | cons c calls ih =>
    obtain ⟨b, p', -, hmade⟩ := made_cons_ok hok
    rw [hmade] at hok ⊢
    rw [List.map_cons, ih fun m hm => hok m (List.mem_cons_of_mem _ hm)]

section Traced

variable (dp : ProviderRouteWriterBase π τ) {p : π} {log : List (Made π τ)}

theorem traced_call (c : RouteCall τ) (p : π) (log : List (Made π τ)) :
    (traced dp).call c (p, log) = match dp.call c p with
      | .ok b p' => .ok b (p', log ++ [⟨c, p, .ok b⟩])
      | .error e p' => .error e (p', log ++ [⟨c, p, .error e⟩]) := rfl

/-- An action of a traced provider either is a call or ends the process. -/
theorem run_traced (a : Action τ) (p : π) (log : List (Made π τ)) :
    (a = .terminate ∧ a.run (traced dp) (p, log) = .error .terminate (p, log)) ∨
      ∃ r, (a = .request r ∨ a = .guarded r) ∧
        ((∃ b p', dp.call r.call p = .ok b p' ∧
          a.run (traced dp) (p, log) = .ok () (p', log ++ [⟨r.call, p, .ok b⟩])) ∨
        ∃ e e' p', dp.call r.call p = .error e p' ∧
          a.run (traced dp) (p, log) = .error e' (p', log ++ [⟨r.call, p, .error e⟩])) := by
  cases a with
  | terminate => exact .inl ⟨rfl, rfl⟩
  | request r =>
    refine .inr ⟨r, .inl rfl, ?_⟩
    simp only [Action.run, bind_apply, traced_call]
    cases dp.call r.call p with
    | ok b p' => exact .inl ⟨b, p', rfl, rfl⟩
    | error e p' => exact .inr ⟨e, e, p', rfl, rfl⟩
  | guarded r =>
    refine .inr ⟨r, .inr rfl, ?_⟩
    simp only [Action.run, noexcept, bind_apply, traced_call]
    cases dp.call r.call p with
    | ok b p' => exact .inl ⟨b, p', rfl, rfl⟩
    | error e p' =>
      by_cases he : e.Fatal
      · exact .inr ⟨e, e, p', rfl, by simp only [he, if_true]⟩
      · exact .inr ⟨e, .terminate, p', rfl, by simp only [he, if_false]⟩

theorem exec_traced (as : List (Action τ)) (p : π) (log : List (Made π τ)) :
    (after (exec (traced dp) as (p, log))).2 =
      log ++ made dp ((reached as).map Request.call) p := by
  induction as generalizing p log with
  | nil => exact (List.append_nil log).symm
  | cons a as ih =>
    rw [exec, bind_apply]
    -- the end of the process, a call that returns, and a call that throws
    rcases run_traced dp a p log with ⟨rfl, hrun⟩ | ⟨r, ha, ⟨b, p', hcall, hrun⟩ |
      ⟨e, e', p', hcall, hrun⟩⟩
    · rw [hrun]
      exact (List.append_nil log).symm
    · rw [hrun, reached_cons ha, List.map_cons, made, hcall]
      simp only [ih, List.append_assoc, List.singleton_append]
    · rw [hrun, reached_cons ha, List.map_cons, made, hcall]
      rfl

/-- When the actions come to their end, every one of them was a call that returned. -/
theorem exec_ok {as : List (Action τ)} {s : π × List (Made π τ)}
    (h : exec (traced dp) as (p, log) = .ok () s) :
    .terminate ∉ as ∧
      ∀ m ∈ made dp ((reached as).map Request.call) p, ∃ b, m.result = .ok b := by
  induction as generalizing p log with
  | nil => exact ⟨List.not_mem_nil, fun m hm => absurd hm List.not_mem_nil⟩
  | cons a as ih =>
    rw [exec, bind_apply] at h
    rcases run_traced dp a p log with ⟨rfl, hrun⟩ | ⟨r, ha, ⟨b, p', hcall, hrun⟩ |
      ⟨e, e', p', hcall, hrun⟩⟩ <;> rw [hrun] at h
    · cases h
    · obtain ⟨hend, hmade⟩ := ih h
      rw [reached_cons ha, List.map_cons, made, hcall]
      refine ⟨fun hmem => ?_, fun m hm => ?_⟩
      · rcases List.mem_cons.1 hmem with hmem | hmem
        · rcases ha with rfl | rfl <;> cases hmem
        · exact hend hmem
      · rcases List.mem_cons.1 hm with rfl | hm
        · exact ⟨b, rfl⟩
        · exact hmade m hm
    · cases h

variable (parseTime : TimeParser τ) (root : GPX)

theorem parseData_eq_exec :
    parseData dp parseTime root = if root.trks.length < 1 then pure false
      else dp.call (.setNumTracks (UInt16.ofNat root.trks.length)) >>= fun _ =>
        exec dp (tracksActions parseTime 0 root.trks) >>= fun _ => pure true := by
  unfold parseData
  rw [← parseTracks_eq_exec]
  rfl

/-- **The calls `parseData` makes** are the calls for the document. -/
theorem parseData_traced (p : π) (log : List (Made π τ)) :
    (after (parseData (traced dp) parseTime root (p, log))).2 =
      log ++ made dp (root.calls parseTime) p := by
  rw [parseData_eq_exec, GPX.calls]
  by_cases hlen : root.trks.length < 1
  · rw [if_pos hlen, if_pos hlen]
    exact (List.append_nil log).symm
  · rw [if_neg hlen, if_neg hlen, made, bind_apply, traced_call]
    cases dp.call (.setNumTracks (UInt16.ofNat root.trks.length)) p with
    | error e p' => rfl
    | ok b p' =>
      have htracks := exec_traced dp (tracksActions parseTime 0 root.trks) p'
        (log ++ [⟨.setNumTracks (UInt16.ofNat root.trks.length), p, .ok b⟩])
      simp only [bind_apply]
      cases hrun : exec (traced dp) (tracksActions parseTime 0 root.trks)
        (p', log ++ [⟨.setNumTracks (UInt16.ofNat root.trks.length), p, .ok b⟩]) with
      | ok u s =>
        rw [hrun] at htracks
        simpa [GPX.requests, pure_apply] using htracks
      | error e s =>
        rw [hrun] at htracks
        simpa [GPX.requests] using htracks

/-- When `parseData` returns, every call was reached and returned. It returns true, unless there is
no track. -/
theorem parseData_ok {b : Bool} {s : π × List (Made π τ)}
    (h : parseData (traced dp) parseTime root (p, log) = .ok b s) :
    .terminate ∉ tracksActions parseTime 0 root.trks ∧
      (∀ m ∈ made dp (root.calls parseTime) p, ∃ b, m.result = .ok b) ∧
      b = !decide (root.trks.length < 1) := by
  rw [parseData_eq_exec] at h
  unfold GPX.calls
  by_cases hlen : root.trks.length < 1
  · rw [if_pos hlen] at h ⊢
    cases h
    rw [List.length_eq_zero_iff.1 (Nat.lt_one_iff.1 hlen)]
    exact ⟨List.not_mem_nil, fun m hm => absurd hm List.not_mem_nil, by simp⟩
  · rw [if_neg hlen, bind_apply, traced_call] at h
    rw [if_neg hlen, made]
    cases hnum : dp.call (.setNumTracks (UInt16.ofNat root.trks.length)) p with
    | error e p' =>
      rw [hnum] at h
      cases h
    | ok b' p' =>
      rw [hnum] at h
      simp only [bind_apply] at h
      cases hrun : exec (traced dp) (tracksActions parseTime 0 root.trks)
        (p', log ++ [⟨.setNumTracks (UInt16.ofNat root.trks.length), p, .ok b'⟩]) with
      | error e s' =>
        rw [hrun] at h
        cases h
      | ok u s' =>
        obtain ⟨hend, hmade⟩ := exec_ok dp hrun
        rw [hrun] at h
        cases h
        refine ⟨hend, fun m hm => ?_, by simp [hlen]⟩
        rcases List.mem_cons.1 hm with rfl | hm
        · exact ⟨b', rfl⟩
        · exact hmade m hm

end Traced

end Libgpsfile2
