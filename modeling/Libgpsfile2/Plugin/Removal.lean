import Libgpsfile2.Plugin.Log

/-!
# Registering and removing

`addDataFileEntry` and `removeDataFileEntry` look for the same code, and a code is in the table at
most once. So removing takes back what registering has done, with one exception: an entry with the
empty code can be added, and is never removed.

`undoes_iff`: removing a code undoes its registration exactly when the code is not empty.
-/

namespace Libgpsfile2

variable {ι κ : Type} {table : DataFileTable ι κ}

/-- Removing the code `c` takes back its registration with `d` and `f`, and takes exactly the
entry with this code. -/
structure Undoes (c : StdString) (d : PluginDetails) (f : PluginDatahandler ι κ)
    (table : DataFileTable ι κ) : Prop where
  added : (∀ e ∈ table, e.code ≠ c) →
    (addDataFileEntry c d f table).1 = true ∧
      removeDataFileEntry c (addDataFileEntry c d f table).2 = (true, table)
  removed : (∃ e ∈ table, e.code = c) → ∃ before e later,
    table = before ++ e :: later ∧ e.code = c ∧ (∀ e' ∈ before ++ later, e'.code ≠ c) ∧
      removeDataFileEntry c table = (true, before ++ later)

/-- A new entry is the one that is removed. -/
theorem removeDataFileEntry_added {c : StdString} (d : PluginDetails) (f : PluginDatahandler ι κ)
    (hc : c ≠ []) (hnew : ∀ e ∈ table, e.code ≠ c) :
    removeDataFileEntry c (addDataFileEntry c d f table).2 = (true, table) := by
  rw [addDataFileEntry_new d f hnew]
  have hnone : ∀ e ∈ table, ¬ decide (e.code = c) = true := by simpa using hnew
  rw [removeDataFileEntry_found hc ⟨_, List.mem_concat_self, rfl⟩, List.eraseP_append_right _ hnone]
  simp

/-- The entry with the code is in one place, and goes from there. -/
theorem removeDataFileEntry_split (hcodes : (table.map PluginDataFileEntry.code).Nodup)
    {c : StdString} (hc : c ≠ []) (hold : ∃ e ∈ table, e.code = c) : ∃ before e later,
      table = before ++ e :: later ∧ e.code = c ∧ (∀ e' ∈ before ++ later, e'.code ≠ c) ∧
        removeDataFileEntry c table = (true, before ++ later) := by
  rw [removeDataFileEntry_found hc hold]
  obtain ⟨e₀, he₀, hcode₀⟩ := hold
  obtain ⟨e, before, later, -, hcode, hsplit, herase⟩ := List.exists_of_eraseP
    (p := fun e : PluginDataFileEntry ι κ => decide (e.code = c)) he₀ (decide_eq_true hcode₀)
  refine ⟨before, e, later, hsplit, of_decide_eq_true hcode, ?_, by rw [herase]⟩
  -- what is left has other codes, since no two entries have the same one
  rw [← herase]
  exact fun e' he' => ((mem_eraseP_iff hcodes c).1 he').2

theorem Undoes.of_ne {c : StdString} (d : PluginDetails) (f : PluginDatahandler ι κ)
    (hcodes : (table.map PluginDataFileEntry.code).Nodup) (hc : c ≠ []) : Undoes c d f table where
  added hnew := by
    refine ⟨?_, removeDataFileEntry_added d f hc hnew⟩
    rw [addDataFileEntry_new d f hnew]
  removed hold := removeDataFileEntry_split hcodes hc hold

/-- The empty code is not removed, whether it was there or has just been registered. -/
theorem not_undoes_empty (d : PluginDetails) (f : PluginDatahandler ι κ) :
    ¬ Undoes [] d f table := by
  intro hundoes
  have hkept : ∀ t : DataFileTable ι κ, (removeDataFileEntry [] t).1 ≠ true := by
    intro t
    rw [removeDataFileEntry_empty rfl]
    exact Bool.false_ne_true
  by_cases hold : ∃ e ∈ table, e.code = []
  · obtain ⟨before, e, later, -, -, -, hremove⟩ := hundoes.removed hold
    exact hkept table (congrArg Prod.fst hremove)
  · obtain ⟨-, hremove⟩ := hundoes.added fun e he heq => hold ⟨e, he, heq⟩
    exact hkept _ (congrArg Prod.fst hremove)

/-- **When removing undoes registering**, in every state of the table. -/
theorem undoes_iff {files : List (PluginFile ι κ)} {s : GpsfilePlugin ι κ}
    {h : History (RegistryCall ι κ) (List (TableEvent ι κ)) Exn} (c : StdString)
    (d : PluginDetails) (f : PluginDatahandler ι κ)
    (hs : Session (registryObject files) GpsfilePlugin.init h s) :
    Undoes c d f s.dataFileTable ↔ c ≠ [] := by
  constructor
  · rintro hundoes rfl
    exact not_undoes_empty d f hundoes
  · exact .of_ne d f (session_log hs).1.nodup

/-- A plugin that creates readers. -/
def readerDetails : PluginDetails := ⟨lit "reader", lit "", lit "GPLv2.0+", 0, 1⟩

def readerData : PluginDatahandler Unit Unit := ⟨(), some (), none, none, none⟩

/-- Without a code it is registered, and cannot be removed again. -/
theorem empty_code_stays :
    Session (registryObject []) GpsfilePlugin.init [] (@GpsfilePlugin.init Unit Unit) ∧
      addDataFileEntry [] readerDetails readerData [] =
        (true, [⟨[], 1, readerDetails, readerData⟩]) ∧
      removeDataFileEntry [] [⟨[], 1, readerDetails, readerData⟩] =
        (false, [⟨[], 1, readerDetails, readerData⟩]) ∧
      ¬ Undoes [] readerDetails readerData (@GpsfilePlugin.init Unit Unit).dataFileTable :=
  ⟨.start, by decide, by decide, not_undoes_empty readerDetails readerData⟩

/-- With a code it can be removed, in a table with other entries and in one with its own. -/
theorem code_goes :
    ∃ h s, Session (@registryObject Unit Unit []) GpsfilePlugin.init h s ∧
      s.dataFileTable.map PluginDataFileEntry.code = [lit "tcx", lit "gpx"] ∧
      Undoes (lit "gpx") readerDetails readerData s.dataFileTable ∧
      Undoes (lit "fit") readerDetails readerData s.dataFileTable := by
  have h₀ : Session (@registryObject Unit Unit []) GpsfilePlugin.init [] _ := .start
  have h₁ := h₀.returned (c := .static (.registerPlugin (lit "tcx") readerDetails readerData))
    trivial (by simp [Object.Alive]) rfl
  have h₂ := h₁.returned (c := .static (.registerPlugin (lit "gpx") readerDetails readerData))
    trivial (by simp [Object.Alive]) rfl
  exact ⟨_, _, h₂, by decide, (undoes_iff (lit "gpx") readerDetails readerData h₂).2 (by decide),
    (undoes_iff (lit "fit") readerDetails readerData h₂).2 (by decide)⟩

end Libgpsfile2
