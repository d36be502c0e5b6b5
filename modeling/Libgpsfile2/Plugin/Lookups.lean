import Libgpsfile2.Plugin.Registry

/-!
# `src/GpsfilePlugin.cpp`: the lookups

A lookup drops the leading dots of the extension it is given. The table can be asked in three ways
whether a plugin creates handlers of a type: `getDataFileExtentions` looks at the creator functions,
`isExtentionMatch` at the mask, and `getDatahandlerFunctions` at the code only.

`views_agree_iff`: the three agree in every state of a run as long as no plugin that creates
handlers of the type is registered under a code with a leading dot.
-/

namespace Libgpsfile2

variable {ι κ : Type} {table : DataFileTable ι κ}

/-! ### What the lookups find -/

/-- The entry that a pointer points into. -/
theorem getElem?_getDatahandlerFunctions (ext : StdString) :
    (getDatahandlerFunctions ext table).bind (table[·]?) =
      table.find? fun e => e.code = dropDots (cStr ext) :=
  List.find?_eq_bind_findIdx?_getElem?.symm

theorem getDatahandlerFunctions_eq_some {ext : StdString} {i : ℕ}
    (hi : getDatahandlerFunctions ext table = some i) :
    ∃ e, table[i]? = some e ∧ e.code = dropDots (cStr ext) := by
  obtain ⟨hlt, hcode, -⟩ := List.findIdx?_eq_some_iff_getElem.1 hi
  exact ⟨table[i], List.getElem?_eq_getElem hlt, of_decide_eq_true hcode⟩

theorem getDatahandlerFunctions_eq_none {ext : StdString} :
    getDatahandlerFunctions ext table = none ↔ ∀ e ∈ table, e.code ≠ dropDots (cStr ext) := by
  simp [getDatahandlerFunctions]

theorem mem_getDataFileExtentions_iff (t : HandlerType) (c : StdString) :
    c ∈ getDataFileExtentions t.mask table ↔
      ∃ e ∈ table, e.code = c ∧ (e.data.creator t).isSome := by
  unfold getDataFileExtentions
  rw [List.mem_map]
  refine exists_congr fun e => ?_
  rw [List.mem_filter, and_assoc, and_comm (b := e.code = c)]
  cases t <;> simp [HandlerType.mask, PluginDatahandler.creator, pluginTypeDataFileRead,
    pluginTypeDataFileWrite, pluginTypeDataFileWaypoint, pluginTypeDataFileTable]

theorem isExtentionMatch_iff (h : TableWF table) (t : HandlerType) (ext : StdString) :
    isExtentionMatch ext t.mask table = true ↔
      ∃ e ∈ table, e.code = dropDots (cStr ext) ∧ (e.data.creator t).isSome := by
  unfold isExtentionMatch
  rw [List.any_eq_true]
  refine exists_congr fun e => and_congr_right fun he => ?_
  rw [Bool.and_eq_true, decide_eq_true_iff, h.handlers e he, isSet_handlersOf]

theorem dropDots_eq_self_iff (s : StdString) : dropDots s = s ↔ s.head? ≠ some dot := by
  cases s with
  | nil => simp [dropDots]
  | cons c s =>
    unfold dropDots
    rw [List.dropWhile_eq_self_iff]
    simp

/-! ### Agreement -/

/-- The three lookups agree about the handlers of the type `t`. -/
structure ViewsAgree (t : HandlerType) (table : DataFileTable ι κ) : Prop where
  matched : ∀ c ∈ getDataFileExtentions t.mask table, isExtentionMatch c t.mask table = true
  pointed : ∀ c ∈ getDataFileExtentions t.mask table, ∃ i e,
    getDatahandlerFunctions c table = some i ∧ table[i]? = some e ∧ e.code = c ∧
      (e.data.creator t).isSome
  listed : ∀ ext, 0 ∉ ext → isExtentionMatch ext t.mask table = true →
    dropDots ext ∈ getDataFileExtentions t.mask table

/-- No entry with handlers of the type `t` has a code with a leading dot. -/
def Undotted (t : HandlerType) (table : DataFileTable ι κ) : Prop :=
  ∀ e ∈ table, (e.data.creator t).isSome → e.code.head? ≠ some dot

theorem viewsAgree_iff (h : TableWF table) (t : HandlerType) :
    ViewsAgree t table ↔ Undotted t table := by
  constructor
  · intro hviews e he hcreator
    -- the lookup of the code finds an entry with the same code
    have hmem := (mem_getDataFileExtentions_iff t e.code).2 ⟨e, he, rfl, hcreator⟩
    obtain ⟨i, e', hi, hget, hcode, -⟩ := hviews.pointed e.code hmem
    obtain ⟨e'', hget', hcode'⟩ := getDatahandlerFunctions_eq_some hi
    have heq : e'' = e' := Option.some_injective _ (hget'.symm.trans hget)
    rw [(cStr_eq_self_iff _).2 (h.noNul e he), heq, hcode] at hcode'
    exact (dropDots_eq_self_iff _).1 hcode'.symm
  · intro hundotted
    have hself : ∀ e ∈ table, (e.data.creator t).isSome → dropDots (cStr e.code) = e.code := by
      intro e he hcreator
      rw [(cStr_eq_self_iff _).2 (h.noNul e he)]
      exact (dropDots_eq_self_iff _).2 (hundotted e he hcreator)
    refine ⟨?_, ?_, ?_⟩
    · intro c hc
      obtain ⟨e, he, rfl, hcreator⟩ := (mem_getDataFileExtentions_iff t c).1 hc
      exact (isExtentionMatch_iff h t e.code).2 ⟨e, he, (hself e he hcreator).symm, hcreator⟩
    · intro c hc
      obtain ⟨e, he, rfl, hcreator⟩ := (mem_getDataFileExtentions_iff t c).1 hc
      have hself := hself e he hcreator
      cases hi : getDatahandlerFunctions e.code table with
      | none => exact absurd hself.symm (getDatahandlerFunctions_eq_none.1 hi e he)
      | some i =>
        obtain ⟨e', hget, hcode⟩ := getDatahandlerFunctions_eq_some hi
        rw [hself] at hcode
        have heq : e' = e :=
          List.inj_on_of_nodup_map h.codes (List.mem_of_getElem? hget) he hcode
        exact ⟨i, e', rfl, hget, hcode, heq ▸ hcreator⟩
    · intro ext h0 hmatch
      obtain ⟨e, he, hcode, hcreator⟩ := (isExtentionMatch_iff h t ext).1 hmatch
      rw [(cStr_eq_self_iff _).2 h0] at hcode
      exact (mem_getDataFileExtentions_iff t _).2 ⟨e, he, hcode, hcreator⟩

/-! ### Runs -/

/-- The call does not register a plugin that creates handlers of the type `t` under a new code with
a leading dot. -/
def RegistersUndotted (t : HandlerType) (table : DataFileTable ι κ) : TableCall ι κ → Prop
  | .registerPlugin code _ data =>
      (∀ e ∈ table, e.code ≠ cStr code) → (data.creator t).isSome → (cStr code).head? ≠ some dot
  | .removePlugin _ => True

theorem undotted_run_iff {t : HandlerType} (hundotted : Undotted t table) (c : TableCall ι κ) :
    Undotted t (after (c.run table)) ↔ RegistersUndotted t table c := by
  cases c with
  | removePlugin code =>
    refine iff_of_true (fun e he => ?_) trivial
    exact hundotted e ((removePlugin_sublist code).subset he)
  | registerPlugin code details data =>
    rw [TableCall.run, modify_apply, after_ok, RegistersUndotted]
    by_cases hold : ∃ e ∈ table, e.code = cStr code
    · rw [registerPlugin_old details data hold]
      obtain ⟨e, he, hcode⟩ := hold
      exact iff_of_true hundotted fun hnew => absurd hcode (hnew e he)
    · have hnew : ∀ e ∈ table, e.code ≠ cStr code := fun e he heq => hold ⟨e, he, heq⟩
      rw [registerPlugin_new details data hnew]
      constructor
      · intro h _
        exact h _ (List.mem_append_right _ (List.mem_singleton_self _))
      · intro h e he
        rcases List.mem_append.1 he with he | he
        · exact hundotted e he
        · rw [List.mem_singleton.1 he]
          exact h hnew

/-- **When the three lookups agree**, in every state of a run. -/
theorem views_agree_iff (t : HandlerType) {h : History (TableCall ι κ) Unit Exn}
    (hs : Session (tableObject ι κ) [] h table) :
    (tableObject ι κ).Always [] h (ViewsAgree t) ↔
      (tableObject ι κ).EachCall [] h (RegistersUndotted t) := by
  refine hs.always_iff (I := TableWF) TableWF.empty ?_ ?_
  · rw [viewsAgree_iff TableWF.empty]
    exact fun e he => absurd he List.not_mem_nil
  · intro table c hkept hagree _
    refine ⟨?_, fun _ => hkept.run c⟩
    rw [viewsAgree_iff hkept] at hagree
    rw [← undotted_run_iff hagree c]
    exact viewsAgree_iff (hkept.run c) t

/-- The plugin for GPX files, under the code `.gpx`. -/
def dottedCall : TableCall Unit Unit :=
  .registerPlugin (lit ".gpx") ⟨lit "gpx datafile handler", lit "", lit "GPLv2.0+", 0, 1⟩
    ⟨(), some (), some (), none, none⟩

/-- The code `.gpx` is listed, and no lookup finds it. -/
theorem dotted_code_lost :
    ∃ table, Session (tableObject Unit Unit) [] [(dottedCall, .ok ())] table ∧
      getDataFileExtentions HandlerType.read.mask table = [lit ".gpx"] ∧
      isExtentionMatch (lit ".gpx") HandlerType.read.mask table = false ∧
      getDatahandlerFunctions (lit ".gpx") table = none ∧ ¬ ViewsAgree .read table := by
  have h₀ : Session (tableObject Unit Unit) [] [] _ := .start
  have h₁ := h₀.returned (c := dottedCall) (r := ()) trivial (by simp [Object.Alive]) rfl
  refine ⟨_, h₁, by decide, by decide, by decide, fun hagree => ?_⟩
  exact absurd (hagree.matched (lit ".gpx") (by decide)) (by decide)

/-- The plugin under its own code. -/
theorem plain_code_found :
    ∃ table, Session (tableObject Unit Unit) [] [(.registerPlugin (lit "gpx")
        ⟨lit "gpx datafile handler", lit "", lit "GPLv2.0+", 0, 1⟩
        ⟨(), some (), some (), none, none⟩, .ok ())] table ∧
      ViewsAgree .read table := by
  have h₀ : Session (tableObject Unit Unit) [] [] _ := .start
  have h₁ := h₀.returned (c := .registerPlugin (lit "gpx")
    ⟨lit "gpx datafile handler", lit "", lit "GPLv2.0+", 0, 1⟩
    ⟨(), some (), some (), none, none⟩) (r := ()) trivial (by simp [Object.Alive]) rfl
  refine ⟨_, h₁, (views_agree_iff .read h₁).2 ?_ _ [] _ (List.append_nil _).symm h₁⟩
  refine (h₀.eachCall_concat _ _).2 ⟨Object.eachCall_nil, fun _ _ => by decide⟩

end Libgpsfile2
