import Libgpsfile2.Library.Keyed
import Libgpsfile2.Library.Session
import Libgpsfile2.Basic

/-!
# `src/GpsfilePlugin.cpp`: the table of the plugins

`data_file_table` has an entry for every plugin that is registered, under its code. The creator
functions of a plugin are pointers of a type `κ`, and its instance is a pointer of a type `ι`.
What `getDatahandlerFunctions` returns points into the table: it is the position of an entry.
-/

namespace Libgpsfile2

/-! ### Types of handlers -/

/-- `enum DatahandlerType : uint8_t`. -/
abbrev DatahandlerType := UInt8

def pluginTypeDataFileNone : DatahandlerType := 0
def pluginTypeDataFileRead : DatahandlerType := 1
def pluginTypeDataFileWrite : DatahandlerType := 2
def pluginTypeDataFileWaypoint : DatahandlerType := 4
def pluginTypeDataFileTable : DatahandlerType := 8

/-- The types of the handlers that a plugin creates. -/
inductive HandlerType
  | read
  | write
  | waypoint
  | table
  deriving DecidableEq

/-- The place of the type in a mask. -/
def HandlerType.bit : HandlerType → ℕ
  | .read => 0
  | .write => 1
  | .waypoint => 2
  | .table => 3

def HandlerType.mask : HandlerType → DatahandlerType
  | .read => pluginTypeDataFileRead
  | .write => pluginTypeDataFileWrite
  | .waypoint => pluginTypeDataFileWaypoint
  | .table => pluginTypeDataFileTable

/-- The macro `IS_SET`. -/
def isSet (v m : DatahandlerType) : Bool := v &&& m == m

/-! ### The table -/

/-- The struct `pluginDetails`. -/
structure PluginDetails where
  name : StdString
  author : StdString
  license : StdString
  majorVersion : UInt8
  minorVersion : UInt8
  deriving DecidableEq

/-- The struct `pluginDatahandler`: a creator function may be null. -/
structure PluginDatahandler (ι κ : Type) where
  plugin : ι
  routeReadClass : Option κ
  routeWriteClass : Option κ
  waypointReadClass : Option κ
  tableReadClass : Option κ
  deriving DecidableEq

/-- The creator function of the handlers of a type. -/
def PluginDatahandler.creator {ι κ : Type} (f : PluginDatahandler ι κ) : HandlerType → Option κ
  | .read => f.routeReadClass
  | .write => f.routeWriteClass
  | .waypoint => f.waypointReadClass
  | .table => f.tableReadClass

/-- The struct `pluginDataFileEntry`. -/
structure PluginDataFileEntry (ι κ : Type) where
  code : StdString
  handlers : UInt8
  details : PluginDetails
  data : PluginDatahandler ι κ
  deriving DecidableEq

/-- A value of `data_file_table`. -/
abbrev DataFileTable (ι κ : Type) := List (PluginDataFileEntry ι κ)

section Table

variable {ι κ : Type}

/-- The mask of the kinds of handlers that a plugin creates: `PLUGIN_TYPE_DATA_FILE_READ`,
`_WRITE`, `_WAYPOINT` and `_TABLE`. -/
def handlersOf (f : PluginDatahandler ι κ) : UInt8 :=
  (if f.routeReadClass.isSome then 1 else 0) ||| (if f.routeWriteClass.isSome then 2 else 0) |||
    (if f.waypointReadClass.isSome then 4 else 0) ||| (if f.tableReadClass.isSome then 8 else 0)

/-- `addDataFileEntry`: an entry with the same code is kept. -/
def addDataFileEntry (c : StdString) (d : PluginDetails) (f : PluginDatahandler ι κ)
    (table : DataFileTable ι κ) : Bool × DataFileTable ι κ :=
  if table.any fun e => e.code = c then (false, table)
  else (true, table ++ [⟨c, handlersOf f, d, f⟩])

/-- `registerPlugin`. The code is a C string. -/
def registerPlugin (code : StdString) (details : PluginDetails) (data : PluginDatahandler ι κ)
    (table : DataFileTable ι κ) : DataFileTable ι κ :=
  (addDataFileEntry (cStr code) details data table).2

/-- `removeDataFileEntry`: the first entry with the code goes. -/
def removeDataFileEntry (code : StdString) (table : DataFileTable ι κ) :
    Bool × DataFileTable ι κ :=
  if code.isEmpty then (false, table)
  else if table.any fun e => e.code = code then (true, table.eraseP fun e => e.code = code)
  else (false, table)

/-- `removePlugin`. The code is a C string. -/
def removePlugin (code : StdString) (table : DataFileTable ι κ) : DataFileTable ι κ :=
  (removeDataFileEntry (cStr code) table).2

/-- The character `'.'`. -/
def dot : UInt8 := 46

/-- The loop in front of a lookup: the pointer moves behind the leading dots. -/
def dropDots (ext : StdString) : StdString := ext.dropWhile (· = dot)

def isExtentionMatch (ext : StdString) (t : DatahandlerType) (table : DataFileTable ι κ) : Bool :=
  table.any fun e => decide (e.code = dropDots (cStr ext)) && isSet e.handlers t

def getDataFileExtentions (t : DatahandlerType) (table : DataFileTable ι κ) : List StdString :=
  (table.filter fun e =>
    (t = pluginTypeDataFileRead && e.data.routeReadClass.isSome) ||
      (t = pluginTypeDataFileWrite && e.data.routeWriteClass.isSome) ||
      (t = pluginTypeDataFileWaypoint && e.data.waypointReadClass.isSome) ||
      (t = pluginTypeDataFileTable && e.data.tableReadClass.isSome)).map PluginDataFileEntry.code

/-- `getDatahandlerFunctions`: the position of the entry whose data the pointer points to. -/
def getDatahandlerFunctions (ext : StdString) (table : DataFileTable ι κ) : Option ℕ :=
  table.findIdx? fun e => e.code = dropDots (cStr ext)

end Table

/-! ### Masks -/

section Masks

variable {ι κ : Type}

theorem HandlerType.exists_iff {p : HandlerType → Prop} :
    (∃ t, p t) ↔ ((p .read ∨ p .write) ∨ p .waypoint) ∨ p .table := by
  constructor
  · rintro ⟨t, ht⟩
    cases t with
    | read => exact .inl (.inl (.inl ht))
    | write => exact .inl (.inl (.inr ht))
    | waypoint => exact .inl (.inr ht)
    | table => exact .inr ht
  · rintro (((h | h) | h) | h) <;> exact ⟨_, h⟩

/-- One step of the computation of the mask. -/
theorem testBit_flag (m : UInt8) (k i : ℕ) (hm : m.toNat = 2 ^ k) (b : Bool) :
    (if b then m else 0).toNat.testBit i = true ↔ k = i ∧ b = true := by
  cases b with
  | false => simp
  | true => simp [hm, Nat.testBit_two_pow]

/-- The mask has the bits of the creator functions that are not null. -/
theorem testBit_handlersOf (f : PluginDatahandler ι κ) (i : ℕ) :
    (handlersOf f).toNat.testBit i = true ↔
      ∃ t : HandlerType, t.bit = i ∧ (f.creator t).isSome := by
  rw [HandlerType.exists_iff]
  simp only [handlersOf, UInt8.toNat_or, Nat.testBit_or, Bool.or_eq_true]
  rw [testBit_flag 1 0 i rfl, testBit_flag 2 1 i rfl, testBit_flag 4 2 i rfl,
    testBit_flag 8 3 i rfl]
  rfl

theorem isSet_handlersOf (f : PluginDatahandler ι κ) (t : HandlerType) :
    isSet (handlersOf f) t.mask = (f.creator t).isSome := by
  unfold handlersOf isSet
  cases t <;> simp only [HandlerType.mask, PluginDatahandler.creator] <;>
    cases f.routeReadClass.isSome <;> cases f.routeWriteClass.isSome <;>
    cases f.waypointReadClass.isSome <;> cases f.tableReadClass.isSome <;> rfl

end Masks

/-! ### Registrations and removals -/

section Table

variable {ι κ : Type} {table : DataFileTable ι κ}

/-- A code that is not in the table gets an entry at its end. -/
theorem addDataFileEntry_new {c : StdString} (d : PluginDetails) (f : PluginDatahandler ι κ)
    (hnew : ∀ e ∈ table, e.code ≠ c) :
    addDataFileEntry c d f table = (true, table ++ [⟨c, handlersOf f, d, f⟩]) := by
  unfold addDataFileEntry
  rw [if_neg]
  simpa using hnew

/-- A code that is in the table keeps its entry. -/
theorem addDataFileEntry_old {c : StdString} (d : PluginDetails) (f : PluginDatahandler ι κ)
    (hold : ∃ e ∈ table, e.code = c) : addDataFileEntry c d f table = (false, table) := by
  unfold addDataFileEntry
  rw [if_pos]
  simpa using hold

theorem registerPlugin_new {code : StdString} (details : PluginDetails)
    (data : PluginDatahandler ι κ) (hnew : ∀ e ∈ table, e.code ≠ cStr code) :
    registerPlugin code details data table =
      table ++ [⟨cStr code, handlersOf data, details, data⟩] := by
  unfold registerPlugin
  rw [addDataFileEntry_new details data hnew]

theorem registerPlugin_old {code : StdString} (details : PluginDetails)
    (data : PluginDatahandler ι κ) (hold : ∃ e ∈ table, e.code = cStr code) :
    registerPlugin code details data table = table := by
  unfold registerPlugin
  rw [addDataFileEntry_old details data hold]

/-- The empty code is never removed. -/
theorem removeDataFileEntry_empty {code : StdString} (hcode : code = []) :
    removeDataFileEntry code table = (false, table) := by
  unfold removeDataFileEntry
  rw [if_pos (List.isEmpty_iff.2 hcode)]

theorem removeDataFileEntry_unknown {code : StdString} (hnew : ∀ e ∈ table, e.code ≠ code) :
    removeDataFileEntry code table = (false, table) := by
  have hany : ¬ (table.any fun e => decide (e.code = code)) = true := by simpa using hnew
  unfold removeDataFileEntry
  rw [if_neg hany, ite_self]

theorem removeDataFileEntry_found {code : StdString} (hcode : code ≠ [])
    (hold : ∃ e ∈ table, e.code = code) :
    removeDataFileEntry code table = (true, table.eraseP fun e => e.code = code) := by
  unfold removeDataFileEntry
  rw [if_neg (by simpa using hcode), if_pos (by simpa using hold)]

theorem removePlugin_empty {code : StdString} (hcode : cStr code = []) :
    removePlugin code table = table := by
  unfold removePlugin
  rw [removeDataFileEntry_empty hcode]

theorem removePlugin_unknown {code : StdString} (hnew : ∀ e ∈ table, e.code ≠ cStr code) :
    removePlugin code table = table := by
  unfold removePlugin
  rw [removeDataFileEntry_unknown hnew]

theorem removePlugin_found {code : StdString} (hcode : cStr code ≠ [])
    (hold : ∃ e ∈ table, e.code = cStr code) :
    removePlugin code table = table.eraseP fun e => e.code = cStr code := by
  unfold removePlugin
  rw [removeDataFileEntry_found hcode hold]

theorem zero_notMem_cStr (s : StdString) : 0 ∉ cStr s := by
  intro h0
  simpa using List.mem_takeWhile_imp h0

/-- What holds of every table that registrations and removals lead to. -/
structure TableWF (table : DataFileTable ι κ) : Prop where
  codes : (table.map PluginDataFileEntry.code).Nodup
  noNul : ∀ e ∈ table, 0 ∉ e.code
  handlers : ∀ e ∈ table, e.handlers = handlersOf e.data

theorem TableWF.empty : TableWF ([] : DataFileTable ι κ) :=
  ⟨List.nodup_nil, fun _ he => absurd he List.not_mem_nil, fun _ he => absurd he List.not_mem_nil⟩

theorem TableWF.registerPlugin (h : TableWF table) (code : StdString) (details : PluginDetails)
    (data : PluginDatahandler ι κ) : TableWF (registerPlugin code details data table) := by
  by_cases hold : ∃ e ∈ table, e.code = cStr code
  · rwa [registerPlugin_old details data hold]
  · have hnew : ∀ e ∈ table, e.code ≠ cStr code := fun e he heq => hold ⟨e, he, heq⟩
    rw [registerPlugin_new details data hnew]
    refine ⟨nodup_concat h.codes hnew, ?_, ?_⟩
    · intro e he
      rcases List.mem_append.1 he with he | he
      · exact h.noNul e he
      · rw [List.mem_singleton.1 he]
        exact zero_notMem_cStr code
    · intro e he
      rcases List.mem_append.1 he with he | he
      · exact h.handlers e he
      · rw [List.mem_singleton.1 he]

/-- A removal leaves a part of the table. -/
theorem removePlugin_sublist (code : StdString) : (removePlugin code table).Sublist table := by
  by_cases hold : ∃ e ∈ table, e.code = cStr code
  · by_cases hcode : cStr code = []
    · rw [removePlugin_empty hcode]
    · rw [removePlugin_found hcode hold]
      exact List.eraseP_sublist
  · rw [removePlugin_unknown fun e he heq => hold ⟨e, he, heq⟩]

theorem TableWF.removePlugin (h : TableWF table) (code : StdString) :
    TableWF (removePlugin code table) := by
  have hsub : (Libgpsfile2.removePlugin code table).Sublist table := removePlugin_sublist code
  exact ⟨h.codes.sublist (hsub.map _), fun e he => h.noNul e (hsub.subset he),
    fun e he => h.handlers e (hsub.subset he)⟩

end Table

/-! ### Runs -/

/-- The static functions that change the table. -/
inductive TableCall (ι κ : Type)
  | registerPlugin (code : StdString) (details : PluginDetails) (data : PluginDatahandler ι κ)
  | removePlugin (code : StdString)

def TableCall.run {ι κ : Type} : TableCall ι κ → EStateM Exn (DataFileTable ι κ) Unit
  | .registerPlugin code details data => modify (Libgpsfile2.registerPlugin code details data)
  | .removePlugin code => modify (Libgpsfile2.removePlugin code)

/-- Registrations and removals in any order, with any codes and creator functions. -/
def tableObject (ι κ : Type) : Object (TableCall ι κ) Unit Exn (DataFileTable ι κ) where
  call := TableCall.run
  permitted _ _ := True
  fatal := Exn.Fatal

theorem TableWF.run {ι κ : Type} {table : DataFileTable ι κ} (h : TableWF table)
    (c : TableCall ι κ) : TableWF (after (c.run table)) := by
  cases c with
  | registerPlugin code details data => exact h.registerPlugin code details data
  | removePlugin code => exact h.removePlugin code

end Libgpsfile2
