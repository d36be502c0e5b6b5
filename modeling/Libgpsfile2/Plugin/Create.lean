import Libgpsfile2.Plugin.Log

/-!
# `src/GpsfilePlugin.cpp`: creating handlers

`createReader` and `createWriter` look up the entry for a type string, call its creator function
with the provider cast to the kind that the function needs, and test in between that the creator
function is not null. Neither the pointer from the lookup nor the one from the cast is tested.

A provider is a pointer of a type `π` that is not null; `isA` tells which kinds it is of, so that
`std::dynamic_pointer_cast` yields null for the others.
-/

namespace Libgpsfile2

variable {π ι κ : Type}

/-- A handler: the plain one, or what a creator function made from its arguments. -/
inductive Handler (π ι κ : Type)
  | plain (provider : π) (path : StdString)
  | created (creator : κ) (instance' : ι) (provider : Option π) (path : StdString)
  deriving DecidableEq

/-- One of the branches of `createReader` and `createWriter`. -/
def createFrom (isA : π → HandlerType → Bool) (t : HandlerType) (provider : π)
    (path type : StdString) (table : DataFileTable ι κ) : Except Exn (Option (Handler π ι κ)) :=
  match (getDatahandlerFunctions type table).bind (table[·]?) with
  | none => .error .nullPointer
  | some e =>
      match e.data.creator t with
      | none => .ok none
      | some creator =>
          .ok (some (.created creator e.data.plugin (if isA provider t then some provider else none)
            path))

/-- `createReader`. -/
def createReader (isA : π → HandlerType → Bool) (dpr : π) (dht : DatahandlerType)
    (path type : StdString) (table : DataFileTable ι κ) : Except Exn (Option (Handler π ι κ)) :=
  if dht = pluginTypeDataFileNone then .ok (some (.plain dpr path))
  else if dht = pluginTypeDataFileRead then createFrom isA .read dpr path type table
  else if dht = pluginTypeDataFileWaypoint then createFrom isA .waypoint dpr path type table
  else if dht = pluginTypeDataFileTable then createFrom isA .table dpr path type table
  else .ok none

/-- `createWriter`. -/
def createWriter (isA : π → HandlerType → Bool) (dpw : π) (dht : DatahandlerType)
    (path type : StdString) (table : DataFileTable ι κ) : Except Exn (Option (Handler π ι κ)) :=
  if dht = pluginTypeDataFileNone then .ok (some (.plain dpw path))
  else if dht = pluginTypeDataFileWrite then createFrom isA .write dpw path type table
  else .ok none

/-! ### Safe results -/

section Safe

variable {isA : π → HandlerType → Bool} {t : HandlerType} {provider : π} {path type : StdString}
  {table : DataFileTable ι κ}

/-- The entry `e` has the type string for its code. -/
def Matching (type : StdString) (e : PluginDataFileEntry ι κ) : Prop :=
  e.code = dropDots (cStr type)

/-- The handler was made by the creator function of a matching entry, and holds the provider. -/
def MadeBy (t : HandlerType) (provider : π) (path type : StdString) (table : DataFileTable ι κ)
    (handler : Handler π ι κ) : Prop :=
  ∃ e ∈ table, Matching type e ∧ ∃ creator, e.data.creator t = some creator ∧
    handler = .created creator e.data.plugin (some provider) path

/-- What a call for handlers of the types `kinds` should do: it comes back; it returns the plain
handler, or one from a matching entry, or null; and it returns null when there is no matching entry,
its creator function is null, or the provider is of another kind. -/
structure Safe (kinds : List HandlerType) (isA : π → HandlerType → Bool) (provider : π)
    (dht : DatahandlerType) (path type : StdString) (table : DataFileTable ι κ)
    (res : Except Exn (Option (Handler π ι κ))) : Prop where
  returned : ∃ o, res = .ok o
  built : ∀ handler, res = .ok (some handler) →
    dht = pluginTypeDataFileNone ∧ handler = .plain provider path ∨
      ∃ t ∈ kinds, dht = t.mask ∧ MadeBy t provider path type table handler
  null : ∀ t ∈ kinds, dht = t.mask →
    (¬ ∃ e ∈ table, Matching type e ∧ (e.data.creator t).isSome ∧ isA provider t = true) →
      res = .ok none

/-- There is a matching entry, and the provider is of the kind that its creator function needs. -/
def Served (isA : π → HandlerType → Bool) (t : HandlerType) (provider : π) (type : StdString)
    (table : DataFileTable ι κ) : Prop :=
  ∃ e ∈ table, Matching type e ∧ ((e.data.creator t).isSome → isA provider t = true)

theorem HandlerType.mask_injective : Function.Injective HandlerType.mask := by
  intro t t' h
  cases t <;> cases t' <;> first | rfl | exact absurd h (by decide)

theorem HandlerType.mask_ne_none (t : HandlerType) : t.mask ≠ pluginTypeDataFileNone := by
  cases t <;> decide

/-- The lookup of a branch, when no entry matches. -/
theorem createFrom_unknown (hnew : ∀ e ∈ table, ¬ Matching type e) :
    createFrom isA t provider path type table = .error .nullPointer := by
  unfold createFrom
  rw [getDatahandlerFunctions_eq_none.2 hnew]
  rfl

/-- The lookup of a branch, when an entry matches. -/
theorem createFrom_matching (h : TableWF table) {e : PluginDataFileEntry ι κ} (he : e ∈ table)
    (hcode : Matching type e) :
    createFrom isA t provider path type table = .ok ((e.data.creator t).map fun creator =>
      .created creator e.data.plugin (if isA provider t then some provider else none) path) := by
  unfold createFrom
  rw [getElem?_getDatahandlerFunctions, ← hcode, find?_of_mem h.codes he]
  simp only
  cases e.data.creator t <;> rfl

/-- When a branch is safe. -/
theorem createFrom_safe_iff (h : TableWF table) {kinds : List HandlerType} (ht : t ∈ kinds) :
    Safe kinds isA provider t.mask path type table
        (createFrom isA t provider path type table) ↔ Served isA t provider type table := by
  by_cases hold : ∃ e ∈ table, Matching type e
  · obtain ⟨e, he, hcode⟩ := hold
    have honly : ∀ e' ∈ table, Matching type e' → e' = e := fun e' he' hcode' =>
      List.inj_on_of_nodup_map h.codes he' he (hcode'.trans hcode.symm)
    have hserved : Served isA t provider type table ↔
        ((e.data.creator t).isSome → isA provider t = true) := by
      constructor
      · rintro ⟨e', he', hcode', hkind⟩
        rwa [honly e' he' hcode'] at hkind
      · exact fun hkind => ⟨e, he, hcode, hkind⟩
    rw [createFrom_matching h he hcode, hserved]
    cases hc : e.data.creator t with
    | none =>
      -- the test of the creator function
      exact iff_of_true ⟨⟨_, rfl⟩, fun _ h => (by cases h), fun _ _ _ _ => rfl⟩ (by simp)
    | some creator =>
      cases hkind : isA provider t with
      | false =>
        refine iff_of_false (fun hsafe => ?_) (by simp)
        have := hsafe.null t ht rfl (by simp [hkind])
        cases this
      | true =>
        refine iff_of_true ⟨⟨_, rfl⟩, ?_, ?_⟩ fun _ => rfl
        · rintro handler hres
          obtain rfl : Handler.created creator e.data.plugin (some provider) path = handler := by
            simpa using hres
          exact .inr ⟨t, ht, rfl, e, he, hcode, creator, hc, rfl⟩
        · intro t' _ hmask hno
          obtain rfl := HandlerType.mask_injective hmask
          exact absurd ⟨e, he, hcode, by simp [hc], hkind⟩ hno
  · have hnew : ∀ e ∈ table, ¬ Matching type e := fun e he hcode => hold ⟨e, he, hcode⟩
    rw [createFrom_unknown hnew]
    refine iff_of_false (fun hsafe => ?_) ?_
    · obtain ⟨o, ho⟩ := hsafe.returned
      cases ho
    · rintro ⟨e, he, hcode, -⟩
      exact hnew e he hcode

/-- The condition on the types that are asked for, when it is one of them. -/
theorem served_asked_iff {kinds : List HandlerType} (ht : t ∈ kinds) :
    (∀ t' ∈ kinds, t.mask = t'.mask → Served isA t' provider type table) ↔
      Served isA t provider type table := by
  refine ⟨fun hall => hall t ht rfl, fun hserved t' _ hmask => ?_⟩
  rwa [← HandlerType.mask_injective hmask]

theorem branch_safe_iff (h : TableWF table) {kinds : List HandlerType} (ht : t ∈ kinds) :
    Safe kinds isA provider t.mask path type table
        (createFrom isA t provider path type table) ↔
      ∀ t' ∈ kinds, t.mask = t'.mask → Served isA t' provider type table := by
  rw [createFrom_safe_iff h ht, served_asked_iff ht]

/-- The plain handler is safe. -/
theorem plain_safe_iff (kinds : List HandlerType) :
    Safe kinds isA provider pluginTypeDataFileNone path type table
        (.ok (some (.plain provider path))) ↔
      ∀ t ∈ kinds, pluginTypeDataFileNone = t.mask → Served isA t provider type table := by
  refine iff_of_true ⟨⟨_, rfl⟩, ?_, ?_⟩ fun t _ hmask => absurd hmask.symm t.mask_ne_none
  · rintro handler hres
    cases hres
    exact .inl ⟨rfl, rfl⟩
  · intro t _ hmask
    exact absurd hmask.symm t.mask_ne_none

/-- So is null, when no handler of these types is asked for. -/
theorem null_safe_iff {kinds : List HandlerType} {dht : DatahandlerType}
    (hother : ∀ t ∈ kinds, dht ≠ t.mask) :
    Safe kinds isA provider dht path type table (.ok none) ↔
      ∀ t ∈ kinds, dht = t.mask → Served isA t provider type table :=
  iff_of_true ⟨⟨_, rfl⟩, fun _ h => (by cases h), fun _ _ _ _ => rfl⟩
    fun t ht hmask => absurd hmask (hother t ht)

end Safe

/-! ### When creating is safe -/

/-- The types of readers. -/
def readers : List HandlerType := [.read, .waypoint, .table]

/-- The types of writers. -/
def writers : List HandlerType := [.write]

theorem createReader_safe_iff {table : DataFileTable ι κ} (h : TableWF table)
    (isA : π → HandlerType → Bool) (provider : π) (dht : DatahandlerType)
    (path type : StdString) :
    Safe readers isA provider dht path type table
        (createReader isA provider dht path type table) ↔
      ∀ t ∈ readers, dht = t.mask → Served isA t provider type table := by
  unfold createReader
  by_cases hnone : dht = pluginTypeDataFileNone
  · subst hnone
    rw [if_pos rfl]
    exact plain_safe_iff readers
  · rw [if_neg hnone]
    by_cases hread : dht = pluginTypeDataFileRead
    · subst hread
      rw [if_pos rfl]
      exact branch_safe_iff (t := .read) h (by decide)
    · rw [if_neg hread]
      by_cases hwaypoint : dht = pluginTypeDataFileWaypoint
      · subst hwaypoint
        rw [if_pos rfl]
        exact branch_safe_iff (t := .waypoint) h (by decide)
      · rw [if_neg hwaypoint]
        by_cases htable : dht = pluginTypeDataFileTable
        · subst htable
          rw [if_pos rfl]
          exact branch_safe_iff (t := .table) h (by decide)
        · rw [if_neg htable]
          refine null_safe_iff fun t ht => ?_
          cases t with
          | read => exact hread
          | write => exact absurd ht (by decide)
          | waypoint => exact hwaypoint
          | table => exact htable

theorem createWriter_safe_iff {table : DataFileTable ι κ} (h : TableWF table)
    (isA : π → HandlerType → Bool) (provider : π) (dht : DatahandlerType)
    (path type : StdString) :
    Safe writers isA provider dht path type table
        (createWriter isA provider dht path type table) ↔
      ∀ t ∈ writers, dht = t.mask → Served isA t provider type table := by
  unfold createWriter
  by_cases hnone : dht = pluginTypeDataFileNone
  · subst hnone
    rw [if_pos rfl]
    exact plain_safe_iff writers
  · rw [if_neg hnone]
    by_cases hwrite : dht = pluginTypeDataFileWrite
    · subst hwrite
      rw [if_pos rfl]
      exact branch_safe_iff (t := .write) h (by decide)
    · rw [if_neg hwrite]
      refine null_safe_iff fun t ht => ?_
      rw [List.mem_singleton.1 ht]
      exact hwrite

section Runs

variable {files : List (PluginFile ι κ)} {s : GpsfilePlugin ι κ}
  {h : History (RegistryCall ι κ) (List (TableEvent ι κ)) Exn}

/-- **When creating a handler is safe**, in every state of the table. -/
theorem create_safe_iff (isA : π → HandlerType → Bool) (provider : π) (dht : DatahandlerType)
    (path type : StdString) (hs : Session (registryObject files) GpsfilePlugin.init h s) :
    (Safe readers isA provider dht path type s.dataFileTable
        (createReader isA provider dht path type s.dataFileTable) ↔
      ∀ t ∈ readers, dht = t.mask → Served isA t provider type s.dataFileTable) ∧
    (Safe writers isA provider dht path type s.dataFileTable
        (createWriter isA provider dht path type s.dataFileTable) ↔
      ∀ t ∈ writers, dht = t.mask → Served isA t provider type s.dataFileTable) := by
  have hkept := (session_log hs).wf
  exact ⟨createReader_safe_iff hkept isA provider dht path type,
    createWriter_safe_iff hkept isA provider dht path type⟩

end Runs

/-! ### Asking first -/

section Ask

variable {table : DataFileTable ι κ} {isA : π → HandlerType → Bool} {t : HandlerType}
  {provider : π} {path type : StdString}

theorem createReader_reader (ht : t ∈ readers) :
    createReader isA provider t.mask path type table =
      createFrom isA t provider path type table := by
  cases t with
  | write => exact absurd ht (by decide)
  | _ => rfl

/-- With no type at all `isExtentionMatch` tells whether an entry matches. -/
theorem isExtentionMatch_none_iff :
    isExtentionMatch type pluginTypeDataFileNone table = true ↔ ∃ e ∈ table, Matching type e := by
  have hset : ∀ v : DatahandlerType, isSet v pluginTypeDataFileNone = true := by
    intro v
    simp [isSet, pluginTypeDataFileNone]
  unfold isExtentionMatch Matching
  simp only [hset, Bool.and_true, List.any_eq_true, decide_eq_true_eq]

/-- What the two answers of `isExtentionMatch` tell of a call for a handler of the type `t` that
ends with `res`. A handler that comes back is made by the creator function of a matching entry. -/
structure Asked (isA : π → HandlerType → Bool) (t : HandlerType) (provider : π)
    (path type : StdString) (table : DataFileTable ι κ)
    (res : Except Exn (Option (Handler π ι κ))) : Prop where
  handler : isExtentionMatch type t.mask table = true ↔ ∃ handler, res = .ok (some handler)
  made : ∀ handler, res = .ok (some handler) →
    ∃ e ∈ table, Matching type e ∧ ∃ creator, e.data.creator t = some creator ∧
      handler = .created creator e.data.plugin (if isA provider t then some provider else none) path
  null : isExtentionMatch type t.mask table = false ∧
    isExtentionMatch type pluginTypeDataFileNone table = true ↔ res = .ok none
  unknown : isExtentionMatch type pluginTypeDataFileNone table = false ↔ res = .error .nullPointer

/-- What a branch does, by the two answers of `isExtentionMatch`. -/
theorem createFrom_asked (h : TableWF table) :
    Asked isA t provider path type table (createFrom isA t provider path type table) := by
  have hmatch := isExtentionMatch_iff h t type
  by_cases hold : ∃ e ∈ table, Matching type e
  · obtain ⟨e, he, hcode⟩ := hold
    have hall : isExtentionMatch type pluginTypeDataFileNone table = true :=
      isExtentionMatch_none_iff.2 ⟨e, he, hcode⟩
    rw [createFrom_matching h he hcode]
    cases hcreator : e.data.creator t with
    | none =>
      -- no other entry matches
      have hno : isExtentionMatch type t.mask table = false := by
        rw [← Bool.not_eq_true, hmatch]
        rintro ⟨e', he', hcode', hsome⟩
        rw [List.inj_on_of_nodup_map h.codes he' he (hcode'.trans hcode.symm), hcreator] at hsome
        cases hsome
      constructor
      · simp [hno]
      · intro handler hres
        cases hres
      · simp [hno, hall]
      · simp [hall]
    | some creator =>
      have hyes : isExtentionMatch type t.mask table = true :=
        hmatch.2 ⟨e, he, hcode, by rw [hcreator]; rfl⟩
      constructor
      · simp [hyes]
      · intro handler hres
        cases hres
        exact ⟨e, he, hcode, creator, hcreator, rfl⟩
      · simp [hyes]
      · simp [hall]
  · have hnone : isExtentionMatch type pluginTypeDataFileNone table = false := by
      rw [← Bool.not_eq_true, isExtentionMatch_none_iff]
      exact hold
    have hno : isExtentionMatch type t.mask table = false := by
      rw [← Bool.not_eq_true, hmatch]
      rintro ⟨e, he, hcode, -⟩
      exact hold ⟨e, he, hcode⟩
    rw [createFrom_unknown fun e he hcode => hold ⟨e, he, hcode⟩]
    constructor
    · simp [hno]
    · intro handler hres
      cases hres
    · simp [hnone]
    · simp [hnone]

variable {files : List (PluginFile ι κ)} {s : GpsfilePlugin ι κ}
  {h : History (RegistryCall ι κ) (List (TableEvent ι κ)) Exn}

/-- **Asking first**: in every state of the table a handler of a plugin comes back if and only if
`isExtentionMatch` has the type string for the type, null comes back if and only if it has it for
other types only, and null is dereferenced if and only if it does not have it at all. -/
theorem create_asked (isA : π → HandlerType → Bool) (provider : π) (path type : StdString)
    (hs : Session (registryObject files) GpsfilePlugin.init h s) :
    (∀ t ∈ readers, Asked isA t provider path type s.dataFileTable
      (createReader isA provider t.mask path type s.dataFileTable)) ∧
    ∀ t ∈ writers, Asked isA t provider path type s.dataFileTable
      (createWriter isA provider t.mask path type s.dataFileTable) := by
  have hkept := (session_log hs).wf
  refine ⟨fun t ht => ?_, fun t ht => ?_⟩
  · rw [createReader_reader ht]
    exact createFrom_asked hkept
  · rw [List.mem_singleton.1 ht]
    exact createFrom_asked hkept

/-- The plugin for GPX files is registered. -/
theorem create_asked_gpx :
    ∃ h s, Session (@registryObject Unit Unit []) GpsfilePlugin.init h s ∧
      ∃ handler, createReader (fun _ _ => true) () HandlerType.read.mask [] (lit "..gpx")
        s.dataFileTable = .ok (some handler) := by
  have h₀ : Session (@registryObject Unit Unit []) GpsfilePlugin.init [] _ := .start
  have h₁ := h₀.returned (c := .static (.registerPlugin (lit "gpx")
    ⟨lit "gpx datafile handler", lit "", lit "GPLv2.0+", 0, 1⟩
    ⟨(), some (), some (), none, none⟩)) trivial (by simp [Object.Alive]) rfl
  have hasked := (create_asked (fun _ _ => true) () [] (lit "..gpx") h₁).1 .read (by decide)
  exact ⟨_, _, h₁, hasked.handler.1 (by decide)⟩

end Ask

/-- What the plugin for GPX files registers. -/
def gpxPlugin : PluginDetails := ⟨lit "gpx datafile handler", lit "", lit "GPLv2.0+", 0, 1⟩

def gpxHandlers : PluginDatahandler Unit Unit := ⟨(), some (), some (), none, none⟩

/-- The plugin for GPX files is registered: a reader for another type of files dereferences null,
and one with a provider of another kind holds a null provider. -/
theorem create_unsafe :
    ∃ h s, Session (@registryObject Unit Unit []) GpsfilePlugin.init h s ∧
      (∃ e ∈ s.dataFileTable, e.code = lit "gpx") ∧
      createReader (fun _ _ => true) () HandlerType.read.mask [] (lit "tcx") s.dataFileTable =
        .error .nullPointer ∧
      createReader (fun _ _ => false) () HandlerType.read.mask [] (lit "gpx") s.dataFileTable =
        .ok (some (.created () () none [])) ∧
      ¬ Safe readers (fun _ _ => true) () HandlerType.read.mask [] (lit "tcx") s.dataFileTable
        (createReader (fun _ _ => true) () HandlerType.read.mask [] (lit "tcx")
          s.dataFileTable) := by
  have h₀ : Session (@registryObject Unit Unit []) GpsfilePlugin.init [] _ := .start
  have h₁ := h₀.returned (c := .static (.registerPlugin (lit "gpx") gpxPlugin gpxHandlers)) trivial
    (by simp [Object.Alive]) rfl
  refine ⟨_, _, h₁, ⟨_, List.mem_singleton_self _, rfl⟩, rfl, rfl, fun hsafe => ?_⟩
  obtain ⟨o, ho⟩ := hsafe.returned
  cases ho

/-- A reader for GPX files, and a provider of the right kind. -/
theorem create_safe :
    ∃ h s, Session (@registryObject Unit Unit []) GpsfilePlugin.init h s ∧
      Safe readers (fun _ _ => true) () HandlerType.read.mask [] (lit ".gpx") s.dataFileTable
        (createReader (fun _ _ => true) () HandlerType.read.mask [] (lit ".gpx")
          s.dataFileTable) := by
  have h₀ : Session (@registryObject Unit Unit []) GpsfilePlugin.init [] _ := .start
  have h₁ := h₀.returned (c := .static (.registerPlugin (lit "gpx") gpxPlugin gpxHandlers)) trivial
    (by simp [Object.Alive]) rfl
  refine ⟨_, _, h₁, (create_safe_iff (fun _ _ => true) () _ [] (lit ".gpx") h₁).1.2 ?_⟩
  intro t _ _
  exact ⟨_, List.mem_singleton_self _, rfl, fun _ => rfl⟩

end Libgpsfile2
