import Mathlib.Tactic
import Mathlib.Data.List.DropRight

/-!
# Tables with keys

A table lists items, and has at most one item for every key. An item is added at the end, and is
refused when its key is taken; the item with a given key is removed, unless the removal is refused;
and the table can be cleared. `Log key es t` says that the operations `es`, listed with their
outcomes, make the table `t` out of the empty one.

`Log.eq_survivors` and `Log.find?_eq_earliest` read the table off the log: its items are the
accepted ones that nothing has removed, and the item with a key is the earliest that was added
since the key was last reset, accepted or not.
-/

namespace Libgpsfile2

variable {α κ : Type*}

/-! ### Lists with different keys -/

section Keys

variable {key : α → κ} {t : List α}

theorem nodup_concat (hkeys : (t.map key).Nodup) {a : α} (hnew : ∀ b ∈ t, key b ≠ key a) :
    ((t ++ [a]).map key).Nodup := by
  rw [List.map_append, List.map_singleton, List.nodup_append]
  refine ⟨hkeys, List.nodup_singleton _, ?_⟩
  intro k hk k' hk'
  obtain ⟨b, hb, rfl⟩ := List.mem_map.1 hk
  rw [List.mem_singleton.1 hk']
  exact hnew b hb

variable [DecidableEq κ]

/-- The first item with a key is the only one. -/
theorem eraseP_eq_filter (hkeys : (t.map key).Nodup) (k : κ) :
    t.eraseP (fun a => key a = k) = t.filter fun a => key a ≠ k := by
  induction t with
  | nil => rfl
  | cons a t ih =>
    rw [List.map_cons, List.nodup_cons] at hkeys
    by_cases ha : key a = k
    · have hrest : t.filter (fun b => key b ≠ k) = t := by
        rw [List.filter_eq_self]
        intro b hb
        refine decide_eq_true fun hbk => hkeys.1 ?_
        rw [ha, ← hbk]
        exact List.mem_map_of_mem hb
      rw [List.eraseP_cons_of_pos (by simpa using ha), List.filter_cons_of_neg (by simpa using ha),
        hrest]
    · rw [List.eraseP_cons_of_neg (by simpa using ha), List.filter_cons_of_pos (by simpa using ha),
        ih hkeys.2]

theorem mem_eraseP_iff (hkeys : (t.map key).Nodup) (k : κ) {a : α} :
    a ∈ t.eraseP (fun a => key a = k) ↔ a ∈ t ∧ key a ≠ k := by
  rw [eraseP_eq_filter hkeys, List.mem_filter, decide_eq_true_iff]

theorem nodup_eraseP (hkeys : (t.map key).Nodup) (k : κ) :
    ((t.eraseP fun a => key a = k).map key).Nodup :=
  hkeys.sublist ((List.eraseP_sublist).map key)

theorem find?_key {k : κ} {a : α} (h : t.find? (fun b => key b = k) = some a) :
    a ∈ t ∧ key a = k := by
  have hk := List.find?_some h
  exact ⟨List.mem_of_find?_eq_some h, of_decide_eq_true hk⟩

theorem find?_eq_none_iff {k : κ} :
    t.find? (fun b => key b = k) = none ↔ ∀ a ∈ t, key a ≠ k := by
  simp [List.find?_eq_none]

/-- The item with a key is the one that the lookup finds. -/
theorem find?_of_mem (hkeys : (t.map key).Nodup) {a : α} (ha : a ∈ t) :
    t.find? (fun b => key b = key a) = some a := by
  cases hb : t.find? (fun b => key b = key a) with
  | none => exact absurd rfl (find?_eq_none_iff.1 hb a ha)
  | some b =>
    obtain ⟨hmem, hkey⟩ := find?_key hb
    rw [List.inj_on_of_nodup_map hkeys hmem ha hkey]

end Keys

namespace Keyed

/-! ### Operations and their outcomes -/

/-- An operation on a table, with its outcome. -/
inductive Event (α κ : Type*)
  | added (a : α) (accepted : Bool)
  | removed (k : κ) (found : Bool)
  | cleared

variable [DecidableEq κ]

/-- After the event no item with the key `k` is in the table. -/
def Event.resets (k : κ) : Event α κ → Bool
  | .added .. => false
  | .removed k' found => found && decide (k' = k)
  | .cleared => true

/-- The item that was added, if it has the key `k`. -/
def Event.item (key : α → κ) (k : κ) : Event α κ → Option α
  | .added a _ => if key a = k then some a else none
  | .removed .. => none
  | .cleared => none

/-- The operations `es` make the table `t`. -/
inductive Log (key : α → κ) : List (Event α κ) → List α → Prop
  | start : Log key [] []
  | accepted {es : List (Event α κ)} {t : List α} (h : Log key es t) (a : α)
      (hnew : ∀ b ∈ t, key b ≠ key a) : Log key (es ++ [.added a true]) (t ++ [a])
  | refused {es : List (Event α κ)} {t : List α} (h : Log key es t) (a : α)
      (hold : ∃ b ∈ t, key b = key a) : Log key (es ++ [.added a false]) t
  | removed {es : List (Event α κ)} {t : List α} (h : Log key es t) (k : κ) :
      Log key (es ++ [.removed k true]) (t.eraseP fun a => key a = k)
  | kept {es : List (Event α κ)} {t : List α} (h : Log key es t) (k : κ) :
      Log key (es ++ [.removed k false]) t
  | cleared {es : List (Event α κ)} {t : List α} (h : Log key es t) :
      Log key (es ++ [.cleared]) []

variable {key : α → κ} {es : List (Event α κ)} {t : List α}

/-- No two items have the same key. -/
theorem Log.nodup (h : Log key es t) : (t.map key).Nodup := by
  induction h with
  | start => exact List.nodup_nil
  | accepted _ _ hnew ih => exact nodup_concat ih hnew
  | refused _ _ _ ih => exact ih
  | removed _ k ih => exact nodup_eraseP ih k
  | kept _ _ ih => exact ih
  | cleared _ _ => exact List.nodup_nil

/-! ### The items of the table -/

/-- The items that were accepted and not removed afterwards, in the order of their additions. -/
def survivors (key : α → κ) : List (Event α κ) → List α
  | [] => []
  | .added a true :: es =>
      if es.any (Event.resets (key a)) then survivors key es else a :: survivors key es
  | .added _ false :: es => survivors key es
  | .removed .. :: es => survivors key es
  | .cleared :: es => survivors key es

/-- What comes later takes away the items that it resets. -/
theorem survivors_append (es es' : List (Event α κ)) :
    survivors key (es ++ es') =
      (survivors key es).filter (fun a => !es'.any (Event.resets (key a))) ++
        survivors key es' := by
  induction es with
  | nil => rfl
  | cons e es ih =>
    rw [List.cons_append]
    cases e with
    | added a accepted =>
      cases accepted with
      | false => simpa only [survivors] using ih
      | true =>
        simp only [survivors, List.any_append, Bool.or_eq_true]
        by_cases hes : es.any (Event.resets (key a)) = true
        · rw [if_pos (.inl hes), if_pos hes, ih]
        · by_cases hes' : es'.any (Event.resets (key a)) = true
          · rw [if_pos (.inr hes'), if_neg hes, ih, List.filter_cons_of_neg (by simpa using hes')]
          · rw [if_neg (not_or.2 ⟨hes, hes'⟩), if_neg hes, ih,
              List.filter_cons_of_pos (by simpa using hes'), List.cons_append]
    | removed k found => simpa only [survivors] using ih
    | cleared => simpa only [survivors] using ih

/-- The table has the items that survived. -/
theorem Log.eq_survivors (h : Log key es t) : t = survivors key es := by
  induction h with
  | start => rfl
  | accepted _ a _ ih => rw [survivors_append, ih]; simp [survivors, Event.resets]
  | refused _ a _ ih => rw [survivors_append, ← ih]; simp [survivors, Event.resets]
  | removed h k ih =>
    rw [survivors_append, ← ih, eraseP_eq_filter h.nodup]
    simp [survivors, Event.resets, eq_comm]
  | kept _ k ih => rw [survivors_append, ← ih]; simp [survivors, Event.resets]
  | cleared _ _ => rw [survivors_append]; simp [survivors, Event.resets]

/-! ### Looking a key up -/

/-- The events since the key was last reset. -/
def since (k : κ) (es : List (Event α κ)) : List (Event α κ) :=
  es.rtakeWhile fun e => !e.resets k

/-- The item with the key `k` that was added first since the key was last reset. -/
def earliest (key : α → κ) (k : κ) (es : List (Event α κ)) : Option α :=
  (since k es).findSome? (Event.item key k)

theorem earliest_concat_reset {k : κ} {e : Event α κ} (he : e.resets k = true) :
    earliest key k (es ++ [e]) = none := by
  unfold earliest since
  rw [List.rtakeWhile_concat_neg _ _ _ (by simpa using he)]
  rfl

theorem earliest_concat_idle {k : κ} {e : Event α κ} (he : e.resets k = false) :
    earliest key k (es ++ [e]) = (earliest key k es).or (e.item key k) := by
  rw [earliest, since, List.rtakeWhile_concat_pos _ _ _ (by simpa using he),
    List.findSome?_append, List.findSome?_singleton]
  rfl

/-- The lookup of a key finds the earliest item since the key was last reset. -/
theorem Log.find?_eq_earliest (h : Log key es t) (k : κ) :
    t.find? (fun a => key a = k) = earliest key k es := by
  induction h with
  | start => simp [earliest, since]
  | @accepted es t h a hnew ih =>
    rw [earliest_concat_idle rfl, ← ih, List.find?_append]
    by_cases ha : key a = k
    · simp [Event.item, ha]
    · simp [Event.item, ha]
  | @refused es t h a hold ih =>
    rw [earliest_concat_idle rfl, ← ih]
    by_cases ha : key a = k
    · -- the item that stands in the way was added before
      obtain ⟨b, hb, hba⟩ := hold
      rw [← ha, ← hba, find?_of_mem h.nodup hb]
      rfl
    · simp [Event.item, ha]
  | @removed es t h k' ih =>
    by_cases hk : k' = k
    · rw [earliest_concat_reset (by simp [Event.resets, hk]), find?_eq_none_iff]
      intro a ha
      exact hk ▸ ((mem_eraseP_iff h.nodup k').1 ha).2
    · rw [earliest_concat_idle (by simp [Event.resets, hk]), ← ih, Event.item, Option.or_none,
        eraseP_eq_filter h.nodup, List.find?_filter]
      congr 1
      funext a
      by_cases ha : key a = k
      · simp [ha, Ne.symm hk]
      · simp [ha]
  | kept _ k' ih => rw [earliest_concat_idle rfl, ← ih, Event.item, Option.or_none]
  | cleared _ _ =>
    rw [earliest_concat_reset rfl]
    rfl

end Keyed

end Libgpsfile2
