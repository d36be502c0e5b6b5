import Mathlib.Tactic
import Mathlib.Data.Multiset.AddSub

/-!
# Items filed under keys

A `Filing κ α` has a folder of items for some of the keys. `add k a` files the item `a` under the
key `k`, in a new folder if need be, unless the item is filed already, under whatever key. A filing
made by `add` holds every item once (`Distinct`), and adding never moves or removes an item or a
folder (`Sub`).
-/

namespace Libgpsfile2

variable {κ α : Type*}

/-- The folders, by key. -/
def Filing (κ α : Type*) := κ → Option (Multiset α)

namespace Filing

variable {f g : Filing κ α} {k k' : κ} {a b : α}

/-- No folders at all. -/
def empty : Filing κ α := fun _ => none

/-- The item `a` is in the folder of `k`. -/
def At (f : Filing κ α) (k : κ) (a : α) : Prop := ∃ m, f k = some m ∧ a ∈ m

/-- The item `a` is filed. -/
def Mem (f : Filing κ α) (a : α) : Prop := ∃ k, f.At k a

@[simp] theorem not_at_empty (k : κ) (a : α) : ¬ (empty : Filing κ α).At k a := by
  rintro ⟨m, hm, -⟩
  cases hm

theorem not_mem_empty (a : α) : ¬ (empty : Filing κ α).Mem a := fun ⟨k, hk⟩ => not_at_empty k a hk

/-! ### Adding an item -/

variable [DecidableEq κ]

/-- A new folder for `k`. -/
def openFolder (f : Filing κ α) (k : κ) : Filing κ α := Function.update f k (some 0)

/-- The item `a` put into the folder of `k`. -/
def insert (f : Filing κ α) (k : κ) (a : α) : Filing κ α :=
  Function.update f k (some (a ::ₘ (f k).getD 0))

open Classical in
/-- File the item `a` under `k`, unless it is filed already. -/
noncomputable def add (f : Filing κ α) (k : κ) (a : α) : Filing κ α :=
  if f.Mem a then f else f.insert k a

theorem add_of_mem (h : f.Mem a) : f.add k a = f := if_pos h

theorem add_of_not_mem (h : ¬ f.Mem a) : f.add k a = f.insert k a := if_neg h

theorem insert_self : f.insert k a k = some (a ::ₘ (f k).getD 0) := Function.update_self ..

theorem insert_of_ne (h : k' ≠ k) : f.insert k a k' = f k' := Function.update_of_ne h ..

theorem openFolder_self : f.openFolder k k = some 0 := Function.update_self ..

theorem openFolder_of_ne (h : k' ≠ k) : f.openFolder k k' = f k' := Function.update_of_ne h ..

theorem mem_openFolder_iff (hk : f k = none) : (f.openFolder k).Mem a ↔ f.Mem a := by
  have hat : ∀ k', (f.openFolder k).At k' a ↔ f.At k' a := by
    intro k'
    unfold At
    by_cases hkk : k' = k
    · rw [hkk, openFolder_self, hk]
      simp
    · rw [openFolder_of_ne hkk]
  simp only [Mem, hat]

theorem insert_openFolder (hk : f k = none) : (f.openFolder k).insert k a = f.insert k a := by
  funext k'
  by_cases hkk : k' = k
  · rw [hkk, insert_self, insert_self, openFolder_self, hk]
    rfl
  · rw [insert_of_ne hkk, insert_of_ne hkk, openFolder_of_ne hkk]

theorem at_insert_iff : (f.insert k a).At k' b ↔ f.At k' b ∨ k' = k ∧ b = a := by
  by_cases hk : k' = k
  · subst hk
    unfold At
    rw [insert_self]
    cases hf : f k' with
    | none => simp
    | some m => simp [or_comm]
  · unfold At
    rw [insert_of_ne hk]
    simp [hk]

theorem at_add_iff : (f.add k a).At k' b ↔ f.At k' b ∨ ¬ f.Mem a ∧ k' = k ∧ b = a := by
  by_cases h : f.Mem a
  · rw [add_of_mem h]
    simp [h]
  · rw [add_of_not_mem h, at_insert_iff]
    simp [h]

theorem mem_add_iff : (f.add k a).Mem b ↔ f.Mem b ∨ b = a := by
  simp only [Mem, at_add_iff]
  constructor
  · rintro ⟨k', hat | ⟨-, -, rfl⟩⟩
    · exact .inl ⟨k', hat⟩
    · exact .inr rfl
  · rintro (⟨k', hat⟩ | rfl)
    · exact ⟨k', .inl hat⟩
    · by_cases h : f.Mem b
      · obtain ⟨k', hat⟩ := h
        exact ⟨k', .inl hat⟩
      · exact ⟨k, .inr ⟨h, rfl, rfl⟩⟩

/-! ### Nothing is lost -/

/-- Every folder of `f` is a folder of `g`, and its items are still in it. -/
def Sub (f g : Filing κ α) : Prop := ∀ k m, f k = some m → ∃ m', g k = some m' ∧ m ≤ m'

omit [DecidableEq κ] in
theorem Sub.refl (f : Filing κ α) : f.Sub f := fun _ m hm => ⟨m, hm, le_rfl⟩

omit [DecidableEq κ] in
theorem Sub.at (hfg : f.Sub g) (hf : f.At k a) : g.At k a := by
  obtain ⟨m, hm, ha⟩ := hf
  obtain ⟨m', hm', hle⟩ := hfg k m hm
  exact ⟨m', hm', Multiset.mem_of_le hle ha⟩

theorem sub_insert (f : Filing κ α) (k : κ) (a : α) : f.Sub (f.insert k a) := by
  intro k' m hm
  by_cases hk : k' = k
  · subst hk
    exact ⟨_, insert_self, by rw [hm]; exact Multiset.le_cons_self m a⟩
  · exact ⟨m, by rw [insert_of_ne hk, hm], le_rfl⟩

theorem sub_add (f : Filing κ α) (k : κ) (a : α) : f.Sub (f.add k a) := by
  by_cases h : f.Mem a
  · rw [add_of_mem h]
    exact .refl f
  · rw [add_of_not_mem h]
    exact sub_insert f k a

/-! ### Every item is filed once -/

/-- No item is filed twice, neither in one folder nor in two. -/
structure Distinct (f : Filing κ α) : Prop where
  nodup : ∀ k m, f k = some m → m.Nodup
  key : ∀ k k' a, f.At k a → f.At k' a → k = k'

omit [DecidableEq κ] in
theorem distinct_empty : (empty : Filing κ α).Distinct where
  nodup k m hm := by cases hm
  key k k' a h := absurd h (not_at_empty k a)

theorem Distinct.add (hf : f.Distinct) (k : κ) (a : α) : (f.add k a).Distinct := by
  by_cases h : f.Mem a
  · rwa [add_of_mem h]
  · constructor
    · intro k' m hm
      rw [add_of_not_mem h] at hm
      by_cases hk : k' = k
      · subst hk
        rw [insert_self, Option.some.injEq] at hm
        subst hm
        cases hfk : f k' with
        | none => exact Multiset.nodup_singleton a
        | some m =>
          exact Multiset.nodup_cons.2 ⟨fun ha => h ⟨k', m, hfk, ha⟩, hf.nodup k' m hfk⟩
      · exact hf.nodup k' m (by rwa [insert_of_ne hk] at hm)
    · intro k₁ k₂ b h₁ h₂
      -- an item that was filed before is not `a`, which was not
      rcases at_add_iff.1 h₁ with h₁' | ⟨-, hk₁, hb₁⟩ <;>
        rcases at_add_iff.1 h₂ with h₂' | ⟨-, hk₂, hb₂⟩
      · exact hf.key k₁ k₂ b h₁' h₂'
      · exact absurd ⟨k₁, hb₂ ▸ h₁'⟩ h
      · exact absurd ⟨k₂, hb₁ ▸ h₂'⟩ h
      · rw [hk₁, hk₂]

/-! ### Adding several items -/

/-- File the items one after the other, each under its key. -/
noncomputable def addAll (f : Filing κ α) (l : List (κ × α)) : Filing κ α :=
  l.foldl (fun f x => f.add x.1 x.2) f

theorem addAll_cons (f : Filing κ α) (x : κ × α) (l : List (κ × α)) :
    f.addAll (x :: l) = (f.add x.1 x.2).addAll l := rfl

theorem addAll_append (f : Filing κ α) (l l' : List (κ × α)) :
    f.addAll (l ++ l') = (f.addAll l).addAll l' := List.foldl_append

/-- To file an item again changes nothing. -/
theorem addAll_of_mem {l : List (κ × α)} (hf : f.Mem a) (hl : ∀ x ∈ l, x.2 = a) :
    f.addAll l = f := by
  induction l with
  | nil => rfl
  | cons x l ih =>
    obtain ⟨hx, hl⟩ := List.forall_mem_cons.1 hl
    rw [addAll_cons, add_of_mem (hx ▸ hf), ih hl]

/-- The pair stands in the list, and its item is not the item of an earlier pair. -/
def First (l : List (κ × α)) (k : κ) (a : α) : Prop :=
  ∃ before later, l = before ++ (k, a) :: later ∧ a ∉ before.map Prod.snd

omit [DecidableEq κ] in
theorem first_cons_iff (x : κ × α) (l : List (κ × α)) (k : κ) (a : α) :
    First (x :: l) k a ↔ x = (k, a) ∨ a ≠ x.2 ∧ First l k a := by
  constructor
  · rintro ⟨before, later, heq, hnew⟩
    cases before with
    | nil => exact .inl (List.cons.inj heq).1
    | cons y before =>
      obtain ⟨rfl, rfl⟩ := List.cons.inj heq
      rw [List.map_cons, List.mem_cons, not_or] at hnew
      exact .inr ⟨hnew.1, before, later, rfl, hnew.2⟩
  · rintro (rfl | ⟨hne, before, later, rfl, hnew⟩)
    · exact ⟨[], l, rfl, List.not_mem_nil⟩
    · refine ⟨x :: before, later, rfl, ?_⟩
      rw [List.map_cons, List.mem_cons, not_or]
      exact ⟨hne, hnew⟩

/-- **Every item is filed where it is named first**, unless it was filed before. -/
theorem at_addAll_iff (l : List (κ × α)) :
    (f.addAll l).At k a ↔ f.At k a ∨ ¬ f.Mem a ∧ First l k a := by
  induction l generalizing f with
  | nil =>
    refine ⟨.inl, fun h => h.resolve_right ?_⟩
    rintro ⟨-, before, later, heq, -⟩
    cases before <;> cases heq
  | cons x l ih =>
    obtain ⟨k', b⟩ := x
    rw [addAll_cons, ih, at_add_iff, mem_add_iff, first_cons_iff, not_or, Prod.mk.injEq]
    -- the item is filed already, it is the next one, or neither
    by_cases hmem : f.Mem a
    · simp only [hmem, not_true_eq_false, false_and, or_false, or_iff_left_iff_imp]
      rintro ⟨hnew, rfl, rfl⟩
      exact absurd hmem hnew
    · by_cases hab : a = b
      · subst hab
        simp [hmem, eq_comm]
      · simp [hmem, hab, Ne.symm hab]

theorem mem_addAll_iff (l : List (κ × α)) :
    (f.addAll l).Mem a ↔ f.Mem a ∨ a ∈ l.map Prod.snd := by
  induction l generalizing f with
  | nil => simp [addAll]
  | cons x l ih => rw [addAll_cons, ih, mem_add_iff, List.map_cons, List.mem_cons, or_assoc]

/-- No folder is empty. -/
def NoneEmpty (f : Filing κ α) : Prop := ∀ k, f k ≠ none → ∃ a, f.At k a

omit [DecidableEq κ] in
theorem noneEmpty_empty : (empty : Filing κ α).NoneEmpty := fun _ hk => absurd rfl hk

theorem NoneEmpty.add (hf : f.NoneEmpty) (k : κ) (a : α) : (f.add k a).NoneEmpty := by
  by_cases h : f.Mem a
  · rwa [add_of_mem h]
  · intro k' hk'
    by_cases hk : k' = k
    · exact ⟨a, at_add_iff.2 (.inr ⟨h, hk, rfl⟩)⟩
    · rw [add_of_not_mem h, insert_of_ne hk] at hk'
      obtain ⟨b, hb⟩ := hf k' hk'
      exact ⟨b, at_add_iff.2 (.inl hb)⟩

theorem NoneEmpty.addAll (hf : f.NoneEmpty) (l : List (κ × α)) : (f.addAll l).NoneEmpty := by
  induction l generalizing f with
  | nil => exact hf
  | cons x l ih => exact ih (hf.add x.1 x.2)

end Filing

end Libgpsfile2
