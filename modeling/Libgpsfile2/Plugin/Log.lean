import Libgpsfile2.Plugin.Lookups
import Libgpsfile2.Plugin.GpsfilePlugin

/-!
# The table and its log

Registrations, removals, and creations and destructions of instances, in any order. Every call
reports what it should do to the table: a creation registers the plugins of the libraries that it
loads, and the destruction of the last instance clears the table. The files in the plugin directory
are arbitrary; several plugins may have the same code.

`registry_recorded`: the table is what these reports make of it, and the destructions that clear it
are those that leave no instance alive.
-/

namespace Libgpsfile2

variable {ι κ : Type}

/-! ### Reports -/

/-- What a call did to the table. -/
abbrev TableEvent (ι κ : Type) := Keyed.Event (PluginDataFileEntry ι κ) StdString

/-- What the call does to this table: the result of `addDataFileEntry` or `removeDataFileEntry`. -/
def TableCall.event (table : DataFileTable ι κ) : TableCall ι κ → TableEvent ι κ
  | .registerPlugin code details data =>
      .added ⟨cStr code, handlersOf data, details, data⟩
        (addDataFileEntry (cStr code) details data table).1
  | .removePlugin code => .removed (cStr code) (removeDataFileEntry (cStr code) table).1

/-- The reports of several calls, one after the other. -/
def TableCall.events : List (TableCall ι κ) → DataFileTable ι κ → List (TableEvent ι κ)
  | [], _ => []
  | c :: cs, table => c.event table :: events cs (after (c.run table))

/-- The table after several calls. -/
def TableCall.runAll (cs : List (TableCall ι κ)) (table : DataFileTable ι κ) : DataFileTable ι κ :=
  cs.foldl (fun table c => after (c.run table)) table

section Table

variable {es : List (TableEvent ι κ)} {table : DataFileTable ι κ}

/-- The report goes into the log. -/
theorem TableCall.log_event (h : Keyed.Log PluginDataFileEntry.code es table) (c : TableCall ι κ) :
    Keyed.Log PluginDataFileEntry.code (es ++ [c.event table]) (after (c.run table)) := by
  cases c with
  | registerPlugin code details data =>
    rw [event, TableCall.run, modify_apply, after_ok, Libgpsfile2.registerPlugin]
    by_cases hold : ∃ e ∈ table, e.code = cStr code
    · rw [addDataFileEntry_old details data hold]
      exact .refused h _ hold
    · have hnew : ∀ e ∈ table, e.code ≠ cStr code := fun e he heq => hold ⟨e, he, heq⟩
      rw [addDataFileEntry_new details data hnew]
      exact .accepted h _ hnew
  | removePlugin code =>
    rw [event, TableCall.run, modify_apply, after_ok, Libgpsfile2.removePlugin]
    by_cases hcode : cStr code = []
    · rw [removeDataFileEntry_empty hcode]
      exact .kept h _
    · by_cases hold : ∃ e ∈ table, e.code = cStr code
      · rw [removeDataFileEntry_found hcode hold]
        exact .removed h _
      · rw [removeDataFileEntry_unknown fun e he heq => hold ⟨e, he, heq⟩]
        exact .kept h _

theorem TableCall.log_events (h : Keyed.Log PluginDataFileEntry.code es table)
    (cs : List (TableCall ι κ)) :
    Keyed.Log PluginDataFileEntry.code (es ++ events cs table) (runAll cs table) := by
  induction cs generalizing es table with
  | nil => simpa [events, runAll] using h
  | cons c cs ih =>
    have := ih (log_event h c)
    rwa [List.append_assoc] at this

theorem TableWF.runAll (h : TableWF table) (cs : List (TableCall ι κ)) :
    TableWF (TableCall.runAll cs table) := by
  induction cs generalizing table with
  | nil => exact h
  | cons c cs ih => exact ih (h.run c)

end Table

/-! ### Loading -/

namespace GpsfilePlugin

/-- The registrations made by the constructor functions of the libraries that `loadLoop` loads. -/
def constructors : List (PluginFile ι κ) → List StdString → List (TableCall ι κ)
  | [], _ => []
  | ⟨_, _, none⟩ :: files, loaded => constructors files loaded
  | ⟨name, _, some l⟩ :: files, loaded =>
      if loaded.contains name then constructors files loaded
      else .registerPlugin l.code l.details l.data :: constructors files (loaded ++ [name])

/-- Loading makes these registrations, and changes nothing else but the loaded libraries. -/
theorem loadLoop_registers (files : List (PluginFile ι κ)) (s : GpsfilePlugin ι κ) :
    ∃ loaded, loadLoop files s = .ok () { s with
      loaded := loaded
      dataFileTable := TableCall.runAll (constructors files s.loaded) s.dataFileTable } := by
  induction files generalizing s with
  | nil => exact ⟨s.loaded, rfl⟩
  | cons file files ih =>
    obtain ⟨name, regular, library⟩ := file
    rw [loadLoop, bind_apply]
    cases library with
    | none =>
      obtain ⟨loaded, hload⟩ := ih s
      exact ⟨loaded, hload⟩
    | some l =>
      by_cases hname : name ∈ s.loaded
      · obtain ⟨loaded, hload⟩ := ih s
        obtain ⟨b, hopen⟩ := dlopen_idle (s := s) ⟨name, regular, some l⟩ fun _ => hname
        refine ⟨loaded, ?_⟩
        simp only [hopen, hload, constructors, List.contains_iff_mem, if_pos hname]
      · obtain ⟨loaded, hload⟩ := ih { s with
          loaded := s.loaded ++ [name]
          dataFileTable := registerPlugin l.code l.details l.data s.dataFileTable }
        refine ⟨loaded, ?_⟩
        simp only [dlopen, bind_apply, get_apply, if_neg hname, modify_apply, pure_apply, hload,
          constructors, List.contains_iff_mem]
        rfl

end GpsfilePlugin

/-! ### Runs -/

/-- Everything that changes the table. -/
inductive RegistryCall (ι κ : Type)
  | static (c : TableCall ι κ)
  | create
  | destroy

/-- A call, and its report. -/
def RegistryCall.run (files : List (PluginFile ι κ)) :
    RegistryCall ι κ → EStateM Exn (GpsfilePlugin ι κ) (List (TableEvent ι κ))
  | .static c => do
      let s ← get
      onPart GpsfilePlugin.dataFileTable (fun table s => { s with dataFileTable := table }) c.run
      return [c.event s.dataFileTable]
  | .create => do
      let s ← get
      GpsfilePlugin.construct files
      return TableCall.events (GpsfilePlugin.constructors (selected files) s.loaded) s.dataFileTable
  | .destroy => do
      GpsfilePlugin.destroy
      -- `2 ^ 32` instances are none for the `int` that counts them
      return if (← get).instances % 2 ^ 32 = 0 then [.cleared] else []

/-- The calls in any order; only an instance that is alive is destroyed. -/
def registryObject (files : List (PluginFile ι κ)) :
    Object (RegistryCall ι κ) (List (TableEvent ι κ)) Exn (GpsfilePlugin ι κ) where
  call := RegistryCall.run files
  permitted
    | s, .destroy => 0 < s.instances
    | _, _ => True
  fatal := Exn.Fatal

/-- The report of a call. -/
def report : Except Exn (List (TableEvent ι κ)) → List (TableEvent ι κ)
  | .ok es => es
  | .error _ => []

/-- What the calls of a history reported. -/
def reports (h : History (RegistryCall ι κ) (List (TableEvent ι κ)) Exn) : List (TableEvent ι κ) :=
  h.flatMap fun x => report x.2

section Runs

variable {files : List (PluginFile ι κ)} {s : GpsfilePlugin ι κ}
  {h : History (RegistryCall ι κ) (List (TableEvent ι κ)) Exn}

theorem reports_concat (c : RegistryCall ι κ) (es : List (TableEvent ι κ)) :
    reports (h ++ [(c, .ok es)]) = reports h ++ es := by
  simp [reports, report]

/-- The number of instances that are alive after the call, when there were `n`. -/
def RegistryCall.living (n : ℕ) : RegistryCall ι κ → ℕ
  | .static _ => n
  | .create => n + 1
  | .destroy => n - 1

/-- The number of instances that are alive after the calls of a history. -/
def living (h : History (RegistryCall ι κ) (List (TableEvent ι κ)) Exn) : ℕ :=
  (h.map Prod.fst).foldl RegistryCall.living 0

theorem living_concat (c : RegistryCall ι κ) (x : Except Exn (List (TableEvent ι κ))) :
    living (h ++ [(c, x)]) = c.living (living h) := by
  simp [living]

/-- The reports are the log of the table, and the instances are those that are alive. -/
structure RegistryLog (h : History (RegistryCall ι κ) (List (TableEvent ι κ)) Exn)
    (s : GpsfilePlugin ι κ) : Prop where
  log : Keyed.Log PluginDataFileEntry.code (reports h) s.dataFileTable
  wf : TableWF s.dataFileTable
  instances : s.instances = living h
  counter : s.instanceCounter = Int32.ofNat (living h)

theorem RegistryLog.static (hs : RegistryLog h s) (files : List (PluginFile ι κ))
    (c : TableCall ι κ) :
    RegistryLog (h ++ [(.static c, outcome ((RegistryCall.static c).run files s))])
      (after ((RegistryCall.static c).run files s)) := by
  have hlog := TableCall.log_event hs.log c
  have hwf := hs.wf.run c
  obtain ⟨table, hrun⟩ : ∃ table, c.run s.dataFileTable = .ok () table := by
    cases c <;> exact ⟨_, rfl⟩
  rw [hrun, after_ok] at hlog hwf
  have hcall : (RegistryCall.static c).run files s =
      .ok [c.event s.dataFileTable] { s with dataFileTable := table } := by
    simp only [RegistryCall.run, bind_apply, get_apply, onPart, hrun, pure_apply]
  rw [hcall, outcome_ok, after_ok]
  refine ⟨?_, hwf, ?_, ?_⟩
  · rwa [reports_concat]
  · rw [living_concat]
    exact hs.instances
  · rw [living_concat]
    exact hs.counter

theorem RegistryLog.create (hs : RegistryLog h s) (files : List (PluginFile ι κ)) :
    RegistryLog (h ++ [(.create, outcome (RegistryCall.create.run files s))])
      (after (RegistryCall.create.run files s)) := by
  obtain ⟨loaded, hload⟩ := GpsfilePlugin.loadLoop_registers (selected files) { s with
    instanceCounter := s.instanceCounter + 1, instances := s.instances + 1 }
  have hlog := TableCall.log_events hs.log (GpsfilePlugin.constructors (selected files) s.loaded)
  simp only [RegistryCall.run, GpsfilePlugin.construct, GpsfilePlugin.loadPlugins, bind_apply,
    get_apply, modify_apply, hload, pure_apply, outcome_ok, after_ok]
  refine ⟨?_, hs.wf.runAll _, ?_, ?_⟩
  · rwa [reports_concat]
  · rw [living_concat, hs.instances]
    rfl
  · rw [living_concat, hs.counter]
    exact (Int32.ofNat_add _ 1).symm

/-- The destruction of an instance that is alive. -/
theorem RegistryLog.run_destroy (hs : RegistryLog h s) (files : List (PluginFile ι κ))
    (hpos : 0 < s.instances) :
    RegistryCall.destroy.run files s =
      .ok (if (living h - 1) % 2 ^ 32 = 0 then [.cleared] else []) { s with
        instanceCounter := Int32.ofNat (living h - 1)
        instances := living h - 1
        dataFileTable := if (living h - 1) % 2 ^ 32 = 0 then [] else s.dataFileTable } := by
  rw [hs.instances] at hpos
  have hcounter : s.instanceCounter - 1 = Int32.ofNat (living h - 1) := by
    rw [hs.counter, Int32.ofNat_sub _ _ hpos]
    rfl
  simp only [RegistryCall.run, bind_apply, GpsfilePlugin.destroy_apply, get_apply, pure_apply,
    hcounter, hs.instances, GpsfilePlugin.ofNat_eq_zero_iff]

theorem RegistryLog.destroy (hs : RegistryLog h s) (files : List (PluginFile ι κ))
    (hpos : 0 < s.instances) :
    RegistryLog (h ++ [(.destroy, outcome (RegistryCall.destroy.run files s))])
      (after (RegistryCall.destroy.run files s)) := by
  rw [hs.run_destroy files hpos, outcome_ok, after_ok]
  refine ⟨?_, ?_, ?_, ?_⟩
  · rw [reports_concat]
    split_ifs
    · exact .cleared hs.log
    · rw [List.append_nil]
      exact hs.log
  · show TableWF (if (living h - 1) % 2 ^ 32 = 0 then [] else s.dataFileTable)
    split_ifs
    · exact TableWF.empty
    · exact hs.wf
  · rw [living_concat]
    rfl
  · rw [living_concat]
    rfl

theorem session_log (hs : Session (registryObject files) GpsfilePlugin.init h s) :
    RegistryLog h s := by
  refine hs.invariant (I := RegistryLog) ⟨.start, TableWF.empty, rfl, rfl⟩ ?_
  intro h s c hlog hc
  cases c with
  | static c => exact hlog.static files c
  | create => exact hlog.create files
  | destroy => exact hlog.destroy files hc

/-- A destruction clears the table when it leaves no instance alive, as far as an `int` can tell,
and leaves the table otherwise. -/
def ClearsLast (files : List (PluginFile ι κ))
    (h : History (RegistryCall ι κ) (List (TableEvent ι κ)) Exn) : Prop :=
  ∀ before x later s₁ s₂, h = before ++ (.destroy, x) :: later →
    Session (registryObject files) GpsfilePlugin.init before s₁ →
    Session (registryObject files) GpsfilePlugin.init (before ++ [(.destroy, x)]) s₂ →
    if living (before ++ [(.destroy, x)]) % 2 ^ 32 = 0 then
      x = .ok [.cleared] ∧ s₂.dataFileTable = []
    else x = .ok [] ∧ s₂.dataFileTable = s₁.dataFileTable

theorem clearsLast (files : List (PluginFile ι κ))
    (h : History (RegistryCall ι κ) (List (TableEvent ι κ)) Exn) : ClearsLast files h := by
  rintro before x later s₁ s₂ - hs₁ hs₂
  obtain ⟨s, hs', hpos, rfl⟩ := hs₂.last
  obtain rfl := hs'.unique hs₁
  obtain ⟨hx, -⟩ := (hs₂.rest hs').head
  have hrun : (registryObject files).call .destroy s = _ :=
    (session_log hs').run_destroy files hpos
  rw [hrun, outcome_ok] at hx
  rw [hrun, after_ok, living_concat, RegistryCall.living, hx]
  split_ifs <;> exact ⟨rfl, rfl⟩

/-- What the table is after the operations `es`. -/
structure Recorded (es : List (TableEvent ι κ)) (table : DataFileTable ι κ) : Prop where
  codes : (table.map PluginDataFileEntry.code).Nodup
  order : table = Keyed.survivors PluginDataFileEntry.code es
  masks : ∀ e ∈ table, ∀ i, e.handlers.toNat.testBit i = true ↔
    ∃ t : HandlerType, t.bit = i ∧ (e.data.creator t).isSome
  refused : ∀ code details data, (∃ e ∈ table, e.code = cStr code) →
    registerPlugin code details data table = table
  unknown : ∀ code, (∀ e ∈ table, e.code ≠ cStr code) → removePlugin code table = table
  found : ∀ ext, 0 ∉ ext → ∀ i, getDatahandlerFunctions ext table = some i →
    ∃ e, table[i]? = some e ∧ e.code = dropDots ext ∧ ∀ e' ∈ table, e'.code = e.code → e' = e
  lookup : ∀ ext, 0 ∉ ext → (getDatahandlerFunctions ext table).bind (table[·]?) =
    Keyed.earliest PluginDataFileEntry.code (dropDots ext) es
  null : ∀ ext, 0 ∉ ext → (getDatahandlerFunctions ext table = none ↔
    Keyed.earliest PluginDataFileEntry.code (dropDots ext) es = none)

/-- **The table in every state of a run**, and the destructions that clear it. -/
theorem registry_recorded (hs : Session (registryObject files) GpsfilePlugin.init h s) :
    Recorded (reports h) s.dataFileTable ∧ ClearsLast files h := by
  refine ⟨?_, clearsLast files h⟩
  obtain ⟨hlog, hkept, -, -⟩ := session_log hs
  have hlookup : ∀ ext, 0 ∉ ext →
      (getDatahandlerFunctions ext s.dataFileTable).bind (s.dataFileTable[·]?) =
        Keyed.earliest PluginDataFileEntry.code (dropDots ext) (reports h) := by
    intro ext h0
    rw [getElem?_getDatahandlerFunctions, (cStr_eq_self_iff ext).2 h0, hlog.find?_eq_earliest]
  refine ⟨hlog.nodup, hlog.eq_survivors, ?_, ?_, ?_, ?_, hlookup, ?_⟩
  · intro e he i
    rw [hkept.handlers e he, testBit_handlersOf]
  · exact fun code details data hold => registerPlugin_old details data hold
  · exact fun code hnew => removePlugin_unknown hnew
  · intro ext h0 i hi
    obtain ⟨e, hget, hcode⟩ := getDatahandlerFunctions_eq_some hi
    rw [(cStr_eq_self_iff ext).2 h0] at hcode
    refine ⟨e, hget, hcode, fun e' he' heq => ?_⟩
    exact List.inj_on_of_nodup_map hlog.nodup he' (List.mem_of_getElem? hget) heq
  · intro ext h0
    rw [← hlookup ext h0]
    cases hi : getDatahandlerFunctions ext s.dataFileTable with
    | none => simp
    | some i =>
      obtain ⟨e, hget, -⟩ := getDatahandlerFunctions_eq_some hi
      simp [hget]

end Runs

/-- Two instances are created and destroyed. The second destruction clears the table, the plugin is
not registered again by the next creation, and then registered by another call. -/
theorem registered_again :
    ∃ h s, Session (registryObject GpsfilePlugin.gpxDirectory.files) GpsfilePlugin.init h s ∧
      h.map Prod.snd = [.ok [.added GpsfilePlugin.gpxLibrary.entry true], .ok [], .ok [],
        .ok [.cleared], .ok [], .ok [.added GpsfilePlugin.gpxLibrary.entry true]] ∧
      getDatahandlerFunctions (lit "..gpx") s.dataFileTable = some 0 ∧
      Recorded (reports h) s.dataFileTable ∧ ClearsLast GpsfilePlugin.gpxDirectory.files h := by
  have h₀ : Session (registryObject GpsfilePlugin.gpxDirectory.files) GpsfilePlugin.init [] _ :=
    .start
  have h₁ := h₀.returned (c := .create) (r := [.added GpsfilePlugin.gpxLibrary.entry true])
    trivial (by simp [Object.Alive]) rfl
  have h₂ := h₁.returned (c := .create) (r := []) trivial (by simp [Object.Alive]) rfl
  have h₃ := h₂.returned (c := .destroy) (r := []) (Nat.succ_pos _) (by simp [Object.Alive]) rfl
  have h₄ := h₃.returned (c := .destroy) (r := [.cleared]) (Nat.succ_pos _)
    (by simp [Object.Alive]) rfl
  have h₅ := h₄.returned (c := .create) (r := []) trivial (by simp [Object.Alive]) rfl
  have h₆ := h₅.returned (c := .static (.registerPlugin GpsfilePlugin.gpxLibrary.code
    GpsfilePlugin.gpxLibrary.details GpsfilePlugin.gpxLibrary.data))
    (r := [.added GpsfilePlugin.gpxLibrary.entry true]) trivial (by simp [Object.Alive]) rfl
  obtain ⟨hrecorded, hclears⟩ := registry_recorded h₆
  exact ⟨_, _, h₆, rfl, rfl, hrecorded, hclears⟩

end Libgpsfile2
