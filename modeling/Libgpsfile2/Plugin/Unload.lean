import Libgpsfile2.Plugin.GpsfilePlugin

/-!
# `src/plugins/gpx/plugin.cpp`: loading and unloading plugins

A plugin registers itself in the constructor function of its library, and its destructor function
removes the entry with its code, also when the registration was refused. The plugins are a family
`lib`; several of them may have the same code, and they are loaded and unloaded in any order.

`keeps_entries_iff`: every plugin whose registration was accepted keeps its entry, in a run where
no plugin that was refused is unloaded while the table has an entry with its code.
-/

namespace Libgpsfile2

variable {π ι κ : Type}

/-- Whether a plugin is loaded, and what came of its registration. -/
inductive Registration
  | unloaded
  | refused
  | accepted
  deriving DecidableEq

/-- The table, and the state of every plugin. -/
structure Plugins (π ι κ : Type) where
  table : DataFileTable ι κ
  registration : π → Registration

namespace Plugins

/-- No plugin is loaded. -/
def init : Plugins π ι κ := ⟨[], fun _ => .unloaded⟩

inductive Call (π : Type)
  | load (i : π)
  | unload (i : π)

section Object

variable [DecidableEq π]

/-- `register_handler`, the constructor function of the library. -/
def registerHandler (l : PluginLibrary ι κ) (i : π) : EStateM Exn (Plugins π ι κ) Unit :=
  modify fun s =>
    ⟨registerPlugin l.code l.details l.data s.table, Function.update s.registration i
      (if (addDataFileEntry (cStr l.code) l.details l.data s.table).1 then .accepted
        else .refused)⟩

/-- `remove_handler`, the destructor function of the library. -/
def removeHandler (l : PluginLibrary ι κ) (i : π) : EStateM Exn (Plugins π ι κ) Unit :=
  modify fun s =>
    ⟨removePlugin l.code s.table, Function.update s.registration i .unloaded⟩

def Call.run (lib : π → PluginLibrary ι κ) : Call π → EStateM Exn (Plugins π ι κ) Unit
  | .load i => registerHandler (lib i) i
  | .unload i => removeHandler (lib i) i

/-- Loads and unloads in any order. -/
def object (lib : π → PluginLibrary ι κ) : Object (Call π) Unit Exn (Plugins π ι κ) where
  call := Call.run lib
  permitted
    | s, .load i => s.registration i = .unloaded
    | s, .unload i => s.registration i ≠ .unloaded
  fatal := Exn.Fatal

end Object

section Runs

variable {lib : π → PluginLibrary ι κ} {s : Plugins π ι κ}

/-- The plugins that were accepted have their entries. -/
def KeepsEntries (lib : π → PluginLibrary ι κ) (s : Plugins π ι κ) : Prop :=
  ∀ i, s.registration i = .accepted → (lib i).entry ∈ s.table

/-- The call does not unload a plugin that was refused while its code is in the table. -/
def OwnCode (lib : π → PluginLibrary ι κ) (s : Plugins π ι κ) : Call π → Prop
  | .load _ => True
  | .unload i => s.registration i = .refused →
      cStr (lib i).code = [] ∨ ∀ e ∈ s.table, e.code ≠ cStr (lib i).code

/-- What holds as long as the plugins keep their entries. -/
structure Owned (lib : π → PluginLibrary ι κ) (s : Plugins π ι κ) : Prop where
  codes : (s.table.map PluginDataFileEntry.code).Nodup
  owner : ∀ e ∈ s.table, e.code ≠ [] → ∃ i, s.registration i = .accepted ∧ (lib i).entry = e
  single : ∀ i j, s.registration i = .accepted → s.registration j = .accepted →
    cStr (lib i).code = cStr (lib j).code → i = j

theorem Owned.init : Owned lib init :=
  ⟨List.nodup_nil, fun _ he => absurd he List.not_mem_nil, fun _ _ hi => by cases hi⟩

variable [DecidableEq π]

/-- Everything a call can do to the table. -/
inductive Step (lib : π → PluginLibrary ι κ) (s : Plugins π ι κ) : Call π → Plugins π ι κ → Prop
  | accepted (i : π) (hnew : ∀ e ∈ s.table, e.code ≠ cStr (lib i).code) :
      Step lib s (.load i)
        ⟨s.table ++ [(lib i).entry], Function.update s.registration i .accepted⟩
  | refused (i : π) (hold : ∃ e ∈ s.table, e.code = cStr (lib i).code) :
      Step lib s (.load i) ⟨s.table, Function.update s.registration i .refused⟩
  | kept (i : π) (hkept : cStr (lib i).code = [] ∨ ∀ e ∈ s.table, e.code ≠ cStr (lib i).code) :
      Step lib s (.unload i) ⟨s.table, Function.update s.registration i .unloaded⟩
  | removed (i : π) (hcode : cStr (lib i).code ≠ [])
      (hold : ∃ e ∈ s.table, e.code = cStr (lib i).code) :
      Step lib s (.unload i) ⟨s.table.eraseP fun e => e.code = cStr (lib i).code,
        Function.update s.registration i .unloaded⟩

theorem run_step (lib : π → PluginLibrary ι κ) (s : Plugins π ι κ) (c : Call π) :
    Step lib s c (after (c.run lib s)) := by
  cases c with
  | load i =>
    rw [Call.run, registerHandler, modify_apply, after_ok, registerPlugin]
    by_cases hold : ∃ e ∈ s.table, e.code = cStr (lib i).code
    · rw [addDataFileEntry_old _ _ hold]
      exact .refused i hold
    · have hnew : ∀ e ∈ s.table, e.code ≠ cStr (lib i).code :=
        fun e he heq => hold ⟨e, he, heq⟩
      rw [addDataFileEntry_new _ _ hnew]
      exact .accepted i hnew
  | unload i =>
    rw [Call.run, removeHandler, modify_apply, after_ok]
    by_cases hcode : cStr (lib i).code = []
    · rw [removePlugin_empty hcode]
      exact .kept i (.inl hcode)
    · by_cases hold : ∃ e ∈ s.table, e.code = cStr (lib i).code
      · rw [removePlugin_found hcode hold]
        exact .removed i hcode hold
      · have hnew : ∀ e ∈ s.table, e.code ≠ cStr (lib i).code :=
          fun e he heq => hold ⟨e, he, heq⟩
        rw [removePlugin_unknown hnew]
        exact .kept i (.inr hnew)

/-- The registration of another plugin. -/
theorem update_accepted {r : π → Registration} {i j : π} {x : Registration}
    (hx : x ≠ .accepted) : Function.update r i x j = .accepted ↔ j ≠ i ∧ r j = .accepted := by
  by_cases hj : j = i
  · subst hj
    simp [hx]
  · simp [hj]

/-- A plugin that is accepted owns its entry. -/
theorem Owned.accept {i : π} (howned : Owned lib s) (hkeeps : KeepsEntries lib s)
    (hi : s.registration i = .unloaded) (hnew : ∀ e ∈ s.table, e.code ≠ cStr (lib i).code) :
    Owned lib ⟨s.table ++ [(lib i).entry], Function.update s.registration i .accepted⟩ := by
  obtain ⟨hcodes, howner, hsingle⟩ := howned
  have hne : ∀ j, s.registration j = .accepted → j ≠ i := by
    rintro j hj rfl
    rw [hi] at hj
    cases hj
  have hold : ∀ j, s.registration j = .accepted → cStr (lib j).code ≠ cStr (lib i).code :=
    fun j hj => hnew _ (hkeeps j hj)
  refine ⟨nodup_concat hcodes hnew, ?_, ?_⟩
  · intro e he hcode
    rcases List.mem_append.1 he with he | he
    · obtain ⟨j, hj, hentry⟩ := howner e he hcode
      exact ⟨j, (Function.update_of_ne (hne j hj) ..).trans hj, hentry⟩
    · exact ⟨i, Function.update_self .., (List.mem_singleton.1 he).symm⟩
  · intro j k hj hk hcode
    by_cases hji : j = i
    · by_cases hki : k = i
      · rw [hji, hki]
      · simp only [Function.update_of_ne hki] at hk
        rw [hji] at hcode
        exact absurd hcode.symm (hold k hk)
    · simp only [Function.update_of_ne hji] at hj
      by_cases hki : k = i
      · rw [hki] at hcode
        exact absurd hcode (hold j hj)
      · simp only [Function.update_of_ne hki] at hk
        exact hsingle j k hj hk hcode

/-- A plugin that is not accepted any more owns nothing, and its entry must not stay. -/
theorem Owned.dismiss {i : π} {x : Registration} {table : DataFileTable ι κ}
    (howned : Owned lib s) (hx : x ≠ .accepted)
    (hcodes : (table.map PluginDataFileEntry.code).Nodup)
    (hother : ∀ e ∈ table, e.code ≠ [] →
      e ∈ s.table ∧ (s.registration i = .accepted → (lib i).entry ≠ e)) :
    Owned lib ⟨table, Function.update s.registration i x⟩ := by
  obtain ⟨-, howner, hsingle⟩ := howned
  refine ⟨hcodes, fun e he hcode => ?_, fun j k hj hk => ?_⟩
  · obtain ⟨hmem, hne⟩ := hother e he hcode
    obtain ⟨j, hj, hentry⟩ := howner e hmem hcode
    refine ⟨j, (update_accepted hx).2 ⟨?_, hj⟩, hentry⟩
    rintro rfl
    exact hne hj hentry
  · exact hsingle j k ((update_accepted hx).1 hj).2 ((update_accepted hx).1 hk).2

/-- The plugins keep owning the entries. -/
theorem Step.owned {c : Call π} {s' : Plugins π ι κ} (hstep : Step lib s c s')
    (hc : (object lib).permitted s c) (howned : Owned lib s) (hkeeps : KeepsEntries lib s) :
    Owned lib s' := by
  cases hstep with
  | accepted i hnew => exact howned.accept hkeeps hc hnew
  | refused i hold =>
    refine howned.dismiss (by decide) howned.codes fun e he _ => ⟨he, fun hi => ?_⟩
    rw [show s.registration i = .unloaded from hc] at hi
    cases hi
  | kept i hkept =>
    refine howned.dismiss (by decide) howned.codes fun e he hcode => ⟨he, ?_⟩
    rintro - rfl
    exact hkept.elim hcode fun hnew => hnew _ he rfl
  | removed i hcode hold =>
    refine howned.dismiss (by decide) (nodup_eraseP howned.codes _) fun e he _ => ?_
    obtain ⟨hmem, hne⟩ := (mem_eraseP_iff howned.codes _).1 he
    refine ⟨hmem, ?_⟩
    rintro - rfl
    exact hne rfl

/-- The plugins keep their entries exactly when the call has its own code. -/
theorem Step.keeps_iff {c : Call π} {s' : Plugins π ι κ} (hstep : Step lib s c s')
    (hc : (object lib).permitted s c) (howned : Owned lib s) (hkeeps : KeepsEntries lib s) :
    KeepsEntries lib s' ↔ OwnCode lib s c := by
  cases hstep with
  | accepted i hnew =>
    refine iff_of_true (fun j hj => ?_) trivial
    by_cases hji : j = i
    · rw [hji]
      exact List.mem_append_right _ (List.mem_singleton_self _)
    · simp only [Function.update_of_ne hji] at hj
      exact List.mem_append_left _ (hkeeps j hj)
  | refused i hold =>
    refine iff_of_true (fun j hj => ?_) trivial
    exact hkeeps j ((update_accepted (by decide)).1 hj).2
  | kept i hkept =>
    refine iff_of_true (fun j hj => ?_) fun _ => hkept
    exact hkeeps j ((update_accepted (by decide)).1 hj).2
  | removed i hcode hold =>
    obtain ⟨hcodes, howner, hsingle⟩ := howned
    constructor
    · intro hkeeps' hrefused
      -- the entry that was removed had another owner
      obtain ⟨e, he, heq⟩ := hold
      obtain ⟨j, hj, rfl⟩ := howner e he (heq ▸ hcode)
      have hji : j ≠ i := by
        rintro rfl
        rw [hrefused] at hj
        cases hj
      have hmem := hkeeps' j ((update_accepted (by decide)).2 ⟨hji, hj⟩)
      exact absurd heq ((mem_eraseP_iff hcodes _).1 hmem).2
    · intro hown j hj
      obtain ⟨hji, hj⟩ := (update_accepted (by decide)).1 hj
      refine (mem_eraseP_iff hcodes _).2 ⟨hkeeps j hj, fun heq => ?_⟩
      cases hi : s.registration i with
      | unloaded => exact hc hi
      | refused =>
        rcases hown hi with hempty | hnew
        · exact hcode hempty
        · exact hnew _ (hkeeps j hj) heq
      | accepted => exact hji (hsingle j i hj hi heq)

/-- **When the plugins keep their entries**, in every state of a run. -/
theorem keeps_entries_iff (lib : π → PluginLibrary ι κ) {h : History (Call π) Unit Exn}
    (hs : Session (object lib) init h s) :
    (object lib).Always init h (KeepsEntries lib) ↔ (object lib).EachCall init h (OwnCode lib) := by
  refine hs.always_iff (I := Owned lib) Owned.init (fun i hi => by cases hi) ?_
  intro s c howned hkeeps hc
  have hstep := run_step lib s c
  exact ⟨hstep.keeps_iff hc howned hkeeps, fun _ => hstep.owned hc howned hkeeps⟩

end Runs

/-- Two plugins with the code `gpx`. -/
def twoPlugins (i : Bool) : PluginLibrary Unit Bool :=
  ⟨lit "gpx", ⟨lit "gpx datafile handler", lit "", lit "GPLv2.0+", 0, 1⟩,
    ⟨(), some i, some i, none, none⟩⟩

/-- The second plugin is refused, and its unloading removes the entry of the first. -/
theorem entry_taken :
    ∃ h s, Session (object twoPlugins) init h s ∧
      h.map Prod.fst = [.load false, .load true, .unload true] ∧
      s.registration false = .accepted ∧ s.table = [] ∧ ¬ KeepsEntries twoPlugins s := by
  have h₀ : Session (object twoPlugins) init [] _ := .start
  have h₁ := h₀.returned (c := .load false) (r := ()) rfl (by simp [Object.Alive]) rfl
  have h₂ := h₁.returned (c := .load true) (r := ()) rfl (by simp [Object.Alive]) rfl
  have h₃ := h₂.returned (c := .unload true) (r := ()) (fun h => by cases h)
    (by simp [Object.Alive]) rfl
  refine ⟨_, _, h₃, rfl, rfl, by decide, fun hkeeps => ?_⟩
  exact absurd (hkeeps false rfl) (by decide)

/-- One plugin is loaded and unloaded after the other. -/
theorem entries_kept :
    ∃ h s, Session (object twoPlugins) init h s ∧
      h.map Prod.fst = [.load false, .unload false, .load true] ∧ KeepsEntries twoPlugins s := by
  have h₀ : Session (object twoPlugins) init [] _ := .start
  have h₁ := h₀.returned (c := .load false) (r := ()) rfl (by simp [Object.Alive]) rfl
  have h₂ := h₁.returned (c := .unload false) (r := ()) (fun h => by cases h)
    (by simp [Object.Alive]) rfl
  have h₃ := h₂.returned (c := .load true) (r := ()) rfl (by simp [Object.Alive]) rfl
  refine ⟨_, _, h₃, rfl, (keeps_entries_iff twoPlugins h₃).2 ?_ _ [] _ (List.append_nil _).symm h₃⟩
  refine (h₂.eachCall_concat _ _).2 ⟨(h₁.eachCall_concat _ _).2 ⟨?_, fun hi => ?_⟩, trivial⟩
  · exact (h₀.eachCall_concat _ _).2 ⟨Object.eachCall_nil, trivial⟩
  · exact absurd hi (by decide)

end Plugins

end Libgpsfile2
