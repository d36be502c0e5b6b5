import Libgpsfile2.Plugin.Registry
import Libgpsfile2.Library.Session

/-!
# `src/GpsfilePlugin.cpp`: the instances and the plugins

The constructor of `GpsfilePlugin` opens every file of the plugin directory with `dlopen`; the
constructor function of a library that was not loaded yet registers its plugin. The destructor
empties the table when `instance_counter` is zero, but the libraries stay loaded, so that nothing
registers their plugins again.

`plugins_available_iff`: the plugins are available whenever an instance is alive, in a run in which
nothing comes after a destruction that empties the table, and in no other run.
-/

namespace Libgpsfile2

variable {ι κ : Type}

/-! ### The plugin directory -/

/-- What the constructor function of a library registers. -/
structure PluginLibrary (ι κ : Type) where
  code : StdString
  details : PluginDetails
  data : PluginDatahandler ι κ

/-- The entry of a plugin in the table. -/
def PluginLibrary.entry (l : PluginLibrary ι κ) : PluginDataFileEntry ι κ :=
  ⟨cStr l.code, handlersOf l.data, l.details, l.data⟩

/-- A file: its `dirent`, and the library in it if `dlopen` can load it. -/
structure PluginFile (ι κ : Type) where
  name : StdString
  regular : Bool
  library : Option (PluginLibrary ι κ)

/-- The name ends with `.so`. In front of a name that is too short for the comparison stands
`d_type`, which differs from the characters of the suffix. -/
def loadPluginFilter (file : PluginFile ι κ) : Bool :=
  file.regular && decide (lit ".so" <:+ file.name)

/-- The files that `loadPlugins` opens. -/
def selected (files : List (PluginFile ι κ)) : List (PluginFile ι κ) :=
  files.filter loadPluginFilter

/-- The plugins of these files. -/
def pluginsOf (files : List (PluginFile ι κ)) : List (PluginLibrary ι κ) :=
  files.filterMap PluginFile.library

/-- The plugin directory. Its files have different names, and its plugins different codes. -/
structure PluginDirectory (ι κ : Type) where
  files : List (PluginFile ι κ)
  names : (files.map PluginFile.name).Nodup
  codes : ((pluginsOf (selected files)).map fun l => cStr l.code).Nodup

/-- The plugins of the directory. -/
def PluginDirectory.plugins (D : PluginDirectory ι κ) : List (PluginLibrary ι κ) :=
  pluginsOf (selected D.files)

/-! ### Instances -/

/-- The statics of `GpsfilePlugin`, the libraries that are loaded, and the number of instances
that are alive. An `int` wraps around in the build. -/
structure GpsfilePlugin (ι κ : Type) where
  dataFileTable : DataFileTable ι κ
  instanceCounter : Int32
  loaded : List StdString
  instances : ℕ

namespace GpsfilePlugin

/-- The start of the process. -/
def init : GpsfilePlugin ι κ := ⟨[], 0, [], 0⟩

/-- `dlopen`, of a file in the plugin directory: false is a null handle. The constructor function
runs when the library was not loaded yet. -/
def dlopen (file : PluginFile ι κ) : EStateM Exn (GpsfilePlugin ι κ) Bool := do
  match file.library with
  | none => return false
  | some l =>
      if file.name ∈ (← get).loaded then return true
      else
        modify fun s => { s with loaded := s.loaded ++ [file.name] }
        modify fun s =>
          { s with dataFileTable := registerPlugin l.code l.details l.data s.dataFileTable }
        return true

/-- The loop of `loadPlugins`. -/
def loadLoop : List (PluginFile ι κ) → EStateM Exn (GpsfilePlugin ι κ) Unit
  | [] => return ()
  | file :: files => do
      let _ ← dlopen file
      loadLoop files

def loadPlugins (files : List (PluginFile ι κ)) : EStateM Exn (GpsfilePlugin ι κ) Unit :=
  loadLoop (selected files)

/-- The constructor, with these files in the plugin directory. -/
def construct (files : List (PluginFile ι κ)) : EStateM Exn (GpsfilePlugin ι κ) Unit := do
  modify fun s => { s with instanceCounter := s.instanceCounter + 1, instances := s.instances + 1 }
  loadPlugins files

/-- The constructor, with the files of a plugin directory. -/
def create (D : PluginDirectory ι κ) : EStateM Exn (GpsfilePlugin ι κ) Unit := construct D.files

/-- The destructor. -/
def destroy : EStateM Exn (GpsfilePlugin ι κ) Unit := do
  modify fun s => { s with instanceCounter := s.instanceCounter - 1, instances := s.instances - 1 }
  if (← get).instanceCounter = 0 then modify fun s => { s with dataFileTable := [] }

/-! ### Loading -/

section Loading

variable {s : GpsfilePlugin ι κ} {files : List (PluginFile ι κ)}

/-- The names of the files that are libraries. -/
def libraryNames (files : List (PluginFile ι κ)) : List StdString :=
  files.filterMap fun file => file.library.map fun _ => file.name

theorem dlopen_new {file : PluginFile ι κ} {l : PluginLibrary ι κ} (hl : file.library = some l)
    (hnew : file.name ∉ s.loaded) (hcode : ∀ e ∈ s.dataFileTable, e.code ≠ cStr l.code) :
    dlopen file s = .ok true { s with
      loaded := s.loaded ++ [file.name]
      dataFileTable := s.dataFileTable ++ [l.entry] } := by
  simp only [dlopen, hl, bind_apply, get_apply, if_neg hnew, modify_apply,
    registerPlugin_new l.details l.data hcode]
  rfl

theorem dlopen_idle (file : PluginFile ι κ) (h : file.library ≠ none → file.name ∈ s.loaded) :
    ∃ b, dlopen file s = .ok b s := by
  unfold dlopen
  cases hl : file.library with
  | none => exact ⟨false, rfl⟩
  | some l =>
    have hmem := h (by simp [hl])
    simp only [bind_apply, get_apply, if_pos hmem]
    exact ⟨true, rfl⟩

/-- Libraries that are loaded for the first time register their plugins. -/
theorem loadLoop_new (hnames : (files.map PluginFile.name).Nodup)
    (hloaded : ∀ file ∈ files, file.name ∉ s.loaded)
    (hcodes : ((pluginsOf files).map fun l => cStr l.code).Nodup)
    (htable : ∀ l ∈ pluginsOf files, ∀ e ∈ s.dataFileTable, e.code ≠ cStr l.code) :
    loadLoop files s = .ok () { s with
      loaded := s.loaded ++ libraryNames files
      dataFileTable := s.dataFileTable ++ (pluginsOf files).map PluginLibrary.entry } := by
  induction files generalizing s with
  | nil => simp [loadLoop, pure_apply, libraryNames, pluginsOf]
  | cons file files ih =>
    rw [List.map_cons, List.nodup_cons] at hnames
    rw [loadLoop, bind_apply]
    cases hl : file.library with
    | none =>
      obtain ⟨b, hopen⟩ := dlopen_idle (s := s) file fun h => absurd hl h
      have hplugins : pluginsOf (file :: files) = pluginsOf files := by simp [pluginsOf, hl]
      have hlibs : libraryNames (file :: files) = libraryNames files := by simp [libraryNames, hl]
      rw [hplugins] at hcodes htable ⊢
      rw [hopen, hlibs]
      exact ih hnames.2 (fun f hf => hloaded f (List.mem_cons_of_mem _ hf)) hcodes htable
    | some l =>
      have hplugins : pluginsOf (file :: files) = l :: pluginsOf files := by simp [pluginsOf, hl]
      have hlibs : libraryNames (file :: files) = file.name :: libraryNames files := by
        simp [libraryNames, hl]
      rw [hplugins] at hcodes htable ⊢
      rw [List.map_cons, List.nodup_cons] at hcodes
      -- neither the name nor the code is the one of an earlier library
      rw [dlopen_new hl (hloaded file List.mem_cons_self) (htable l List.mem_cons_self), hlibs]
      simp only
      rw [ih hnames.2 ?_ hcodes.2 ?_]
      · simp
      · intro f hf
        rw [List.mem_append, List.mem_singleton, not_or]
        refine ⟨hloaded f (List.mem_cons_of_mem _ hf), fun heq => hnames.1 ?_⟩
        rw [← heq]
        exact List.mem_map_of_mem hf
      · intro l' hl' e he
        rcases List.mem_append.1 he with he | he
        · exact htable l' (List.mem_cons_of_mem _ hl') e he
        · rw [List.mem_singleton.1 he]
          intro heq
          exact hcodes.1 (List.mem_map.2 ⟨l', hl', heq.symm⟩)

/-- Libraries that are loaded already do nothing. -/
theorem loadLoop_loaded (h : ∀ name ∈ libraryNames files, name ∈ s.loaded) :
    loadLoop files s = .ok () s := by
  induction files with
  | nil => rfl
  | cons file files ih =>
    have hidle : file.library ≠ none → file.name ∈ s.loaded := by
      intro hl
      obtain ⟨l, hl⟩ := Option.ne_none_iff_exists'.1 hl
      exact h _ (List.mem_filterMap.2 ⟨file, List.mem_cons_self, by simp [hl]⟩)
    obtain ⟨b, hopen⟩ := dlopen_idle file hidle
    rw [loadLoop, bind_apply, hopen]
    refine ih fun name hname => h name ?_
    obtain ⟨f, hf, hname⟩ := List.mem_filterMap.1 hname
    exact List.mem_filterMap.2 ⟨f, List.mem_cons_of_mem _ hf, hname⟩

end Loading

/-! ### Runs -/

/-- What the user of the library does. -/
inductive Call
  | create
  | destroy
  deriving DecidableEq

def Call.run (D : PluginDirectory ι κ) : Call → EStateM Exn (GpsfilePlugin ι κ) Unit
  | .create => GpsfilePlugin.create D
  | .destroy => GpsfilePlugin.destroy

/-- Creations and destructions in any order; only an instance that is alive is destroyed. -/
def object (D : PluginDirectory ι κ) : Object Call Unit Exn (GpsfilePlugin ι κ) where
  call := Call.run D
  permitted s c := c = .destroy → 0 < s.instances
  fatal := Exn.Fatal

section Runs

variable {D : PluginDirectory ι κ} {s : GpsfilePlugin ι κ} {h : History Call Unit Exn}

/-- The number of instances that are alive after the calls of a history. -/
def alive (h : History Call Unit Exn) : ℕ :=
  (h.map Prod.fst).count .create - (h.map Prod.fst).count .destroy

/-- The last call of the history was a destruction that brought `instance_counter` to zero. -/
def Emptied (h : History Call Unit Exn) : Prop :=
  ∃ before x, h = before ++ [(.destroy, x)] ∧ alive h % 2 ^ 32 = 0

theorem ofNat_eq_zero_iff (n : ℕ) : Int32.ofNat n = 0 ↔ n % 2 ^ 32 = 0 := by
  rw [← Int32.toBitVec_inj, ← BitVec.toNat_inj]
  simp

/-- A destruction of the history has emptied the table. -/
def WasEmptied (h : History Call Unit Exn) : Prop :=
  ∃ before later, h = before ++ later ∧ Emptied before

theorem not_emptied_nil : ¬ Emptied [] := by
  rintro ⟨before, x, hnil, -⟩
  simp at hnil

theorem wasEmptied_concat (h : History Call Unit Exn) (c : Call) (x : Except Exn Unit) :
    WasEmptied (h ++ [(c, x)]) ↔
      WasEmptied h ∨ c = .destroy ∧ alive (h ++ [(c, x)]) % 2 ^ 32 = 0 := by
  constructor
  · rintro ⟨before, later, heq, hbefore⟩
    rcases List.eq_nil_or_concat later with rfl | ⟨later, y, rfl⟩
    · rw [List.append_nil] at heq
      subst heq
      obtain ⟨h', y, heq, halive⟩ := hbefore
      obtain ⟨-, heq⟩ := List.append_inj' heq rfl
      cases heq
      exact .inr ⟨rfl, halive⟩
    · rw [List.concat_eq_append, ← List.append_assoc] at heq
      exact .inl ⟨before, later, List.append_inj_left' heq rfl, hbefore⟩
  · rintro (⟨before, later, rfl, hbefore⟩ | ⟨rfl, halive⟩)
    · exact ⟨before, later ++ [(c, x)], by rw [List.append_assoc], hbefore⟩
    · exact ⟨_, [], (List.append_nil _).symm, h, x, rfl, halive⟩

theorem alive_concat_create (h : History Call Unit Exn) (x : Except Exn Unit)
    (hle : (h.map Prod.fst).count .destroy ≤ (h.map Prod.fst).count .create) :
    alive (h ++ [(.create, x)]) = alive h + 1 := by
  simp only [alive, List.map_append, List.map_cons, List.map_nil, List.count_append,
    List.count_singleton_self, List.count_singleton]
  simp
  omega

theorem alive_concat_destroy (h : History Call Unit Exn) (x : Except Exn Unit) :
    alive (h ++ [(.destroy, x)]) = alive h - 1 := by
  simp only [alive, List.map_append, List.map_cons, List.map_nil, List.count_append,
    List.count_singleton_self, List.count_singleton]
  simp
  omega

/-- The table and the loaded libraries after a run. -/
structure Tracks (D : PluginDirectory ι κ) (h : History Call Unit Exn) (s : GpsfilePlugin ι κ) :
    Prop where
  destroys : (h.map Prod.fst).count .destroy ≤ (h.map Prod.fst).count .create
  instances : s.instances = alive h
  counter : s.instanceCounter = Int32.ofNat (alive h)
  start : h = [] → s.loaded = [] ∧ s.dataFileTable = []
  loaded : h ≠ [] → ∀ name ∈ libraryNames (selected D.files), name ∈ s.loaded
  emptied : WasEmptied h → s.dataFileTable = []
  filled : h ≠ [] → ¬ WasEmptied h → s.dataFileTable = D.plugins.map PluginLibrary.entry

/-- The first creation loads the libraries, and fills the table. -/
theorem create_first (D : PluginDirectory ι κ) (hloaded : s.loaded = [])
    (htable : s.dataFileTable = []) :
    create D s = .ok () ⟨D.plugins.map PluginLibrary.entry, s.instanceCounter + 1,
      libraryNames (selected D.files), s.instances + 1⟩ := by
  obtain ⟨table, counter, loaded, instances⟩ := s
  change loaded = [] at hloaded
  change table = [] at htable
  subst hloaded htable
  have hnames : ((selected D.files).map PluginFile.name).Nodup :=
    D.names.sublist (List.filter_sublist.map _)
  unfold create construct
  rw [bind_apply, modify_apply]
  simp only
  rw [loadPlugins, loadLoop_new hnames (fun file _ => List.not_mem_nil) D.codes
    fun l _ e he => absurd he List.not_mem_nil]
  rfl

/-- A later creation does not load anything. -/
theorem create_later (D : PluginDirectory ι κ)
    (hloaded : ∀ name ∈ libraryNames (selected D.files), name ∈ s.loaded) :
    create D s = .ok () { s with
      instanceCounter := s.instanceCounter + 1, instances := s.instances + 1 } := by
  unfold create construct
  rw [bind_apply, modify_apply]
  exact loadLoop_loaded hloaded

theorem destroy_apply (s : GpsfilePlugin ι κ) :
    destroy s = .ok () { s with
      instanceCounter := s.instanceCounter - 1
      instances := s.instances - 1
      dataFileTable := if s.instanceCounter - 1 = 0 then [] else s.dataFileTable } := by
  simp only [destroy, bind_apply, modify_apply, get_apply]
  split_ifs <;> rfl

theorem not_wasEmptied_nil : ¬ WasEmptied [] := by
  rintro ⟨before, later, hnil, hbefore⟩
  rw [(List.append_eq_nil_iff.1 hnil.symm).1] at hbefore
  exact not_emptied_nil hbefore

/-- A creation keeps track. -/
theorem Tracks.create (hs : Tracks D h s) (x : Except Exn Unit) :
    Tracks D (h ++ [(.create, x)]) (after (create D s)) := by
  obtain ⟨hdestroys, hinstances, hcounter, hstart, hloaded, hemptied, hfilled⟩ := hs
  have hsame : WasEmptied (h ++ [(.create, x)]) ↔ WasEmptied h := by simp [wasEmptied_concat]
  have hcounts : ((h ++ [(Call.create, x)]).map Prod.fst).count .destroy ≤
      ((h ++ [(Call.create, x)]).map Prod.fst).count .create := by
    simp
    omega
  have hcounter' : s.instanceCounter + 1 = Int32.ofNat (alive (h ++ [(.create, x)])) := by
    rw [alive_concat_create h x hdestroys, hcounter, Int32.ofNat_add]
    rfl
  have hinstances' : s.instances + 1 = alive (h ++ [(.create, x)]) := by
    rw [alive_concat_create h x hdestroys, hinstances]
  by_cases hnil : h = []
  · obtain ⟨hl, ht⟩ := hstart hnil
    rw [create_first D hl ht, after_ok]
    refine ⟨hcounts, hinstances', hcounter', by simp, fun _ name hname => hname, ?_, fun _ _ => rfl⟩
    rw [hsame, hnil]
    exact fun h => absurd h not_wasEmptied_nil
  · rw [create_later D (hloaded hnil), after_ok]
    refine ⟨hcounts, hinstances', hcounter', by simp, fun _ => hloaded hnil, ?_, ?_⟩
    · rwa [hsame]
    · rw [hsame]
      exact fun _ => hfilled hnil

/-- A destruction of an instance that is alive keeps track. -/
theorem Tracks.destroy (hs : Tracks D h s) (x : Except Exn Unit) (hpos : 0 < s.instances) :
    Tracks D (h ++ [(.destroy, x)]) (after (destroy s)) := by
  obtain ⟨hdestroys, hinstances, hcounter, hstart, hloaded, hemptied, hfilled⟩ := hs
  rw [hinstances] at hpos
  have hnil : h ≠ [] := by
    rintro rfl
    exact absurd hpos (lt_irrefl 0)
  have hcounter' : s.instanceCounter - 1 = Int32.ofNat (alive (h ++ [(.destroy, x)])) := by
    rw [alive_concat_destroy, hcounter, Int32.ofNat_sub _ _ hpos]
    rfl
  rw [destroy_apply, after_ok]
  -- the table is emptied exactly when this call is one of those that `WasEmptied` counts
  refine ⟨?_, ?_, hcounter', by simp, fun _ => hloaded hnil, ?_, ?_⟩
  · have : (h.map Prod.fst).count .destroy < (h.map Prod.fst).count .create := by
      unfold alive at hpos
      omega
    simp
    omega
  · rw [alive_concat_destroy, hinstances]
  · rw [wasEmptied_concat]
    rintro (hold | ⟨-, hzero⟩)
    · simp [hemptied hold]
    · rw [if_pos]
      rw [hcounter', ofNat_eq_zero_iff]
      exact hzero
  · rw [wasEmptied_concat, not_or]
    rintro - ⟨hold, hnonzero⟩
    rw [if_neg]
    · exact hfilled hnil hold
    · rw [hcounter', ofNat_eq_zero_iff]
      exact fun hzero => hnonzero ⟨rfl, hzero⟩

theorem session_tracks (hs : Session (object D) init h s) : Tracks D h s := by
  refine hs.invariant (I := Tracks D) ?_ ?_
  · exact ⟨le_rfl, rfl, rfl, fun _ => ⟨rfl, rfl⟩, fun h => absurd rfl h, fun _ => rfl,
      fun h => absurd rfl h⟩
  · intro h s c hs hpermitted
    cases c with
    | create => exact hs.create _
    | destroy => exact hs.destroy _ (hpermitted rfl)

/-- The entry of every plugin of the directory is in the table. -/
def Available (D : PluginDirectory ι κ) (s : GpsfilePlugin ι κ) : Prop :=
  ∀ l ∈ D.plugins, l.entry ∈ s.dataFileTable

/-- When the table has been emptied the plugins are gone. -/
theorem Tracks.not_available (hs : Tracks D h s) (hplugins : D.plugins ≠ [])
    (hwas : WasEmptied h) : ¬ Available D s := by
  intro havailable
  obtain ⟨l, hl⟩ := List.exists_mem_of_ne_nil _ hplugins
  have hmem := havailable l hl
  rw [hs.emptied hwas] at hmem
  exact absurd hmem List.not_mem_nil

/-- Before that they are there. -/
theorem Tracks.available (hs : Tracks D h s) (hpos : 0 < s.instances) (hwas : ¬ WasEmptied h) :
    Available D s := by
  have hnil : h ≠ [] := by
    rintro rfl
    rw [hs.instances] at hpos
    exact absurd hpos (lt_irrefl 0)
  intro l hl
  rw [hs.filled hnil hwas]
  exact List.mem_map_of_mem hl

/-- When no instance is alive the next call creates one. -/
theorem alive_next {before later : History Call Unit Exn} {c : Call} {x : Except Exn Unit}
    (hs : Session (object D) init (before ++ (c, x) :: later) s) (hzero : alive before = 0) :
    alive (before ++ [(c, x)]) = 1 := by
  obtain ⟨s₁, hs₁⟩ := hs.split
  rw [List.append_cons] at hs
  obtain ⟨s₂, hs₂⟩ := hs.split
  cases c with
  | create => rw [alive_concat_create before x (session_tracks hs₁).destroys, hzero]
  | destroy =>
    -- there is no instance to destroy
    have hdestroys := (session_tracks hs₂).destroys
    unfold alive at hzero
    simp at hdestroys
    omega

/-- **When the plugins are available whenever an instance is alive**, in every state of a run. -/
theorem plugins_available_iff (hs : Session (object D) init h s) :
    (∀ before later s₁, h = before ++ later → Session (object D) init before s₁ →
        0 < s₁.instances → Available D s₁) ↔
      D.plugins = [] ∨
        ∀ before later, h = before ++ later → Emptied before → later = [] ∧ alive before = 0 := by
  constructor
  · intro hall
    by_cases hplugins : D.plugins = []
    · exact .inl hplugins
    · refine .inr fun before later heq hemptied => ?_
      subst heq
      -- the plugins are gone from here on, so that no instance can be alive
      have hnone : ∀ h₁ h₂, before ++ later = h₁ ++ h₂ → WasEmptied h₁ → alive h₁ = 0 := by
        intro h₁ h₂ heq hwas
        have hs' := hs
        rw [heq] at hs'
        obtain ⟨s₁, hs₁⟩ := hs'.split
        have htracks := session_tracks hs₁
        by_contra hne
        have hpos : 0 < s₁.instances := by
          rw [htracks.instances]
          exact Nat.pos_of_ne_zero hne
        exact htracks.not_available hplugins hwas (hall h₁ h₂ s₁ heq hs₁ hpos)
      have hzero := hnone before later rfl ⟨before, [], (List.append_nil _).symm, hemptied⟩
      refine ⟨?_, hzero⟩
      cases later with
      | nil => rfl
      | cons x later =>
        have hone := alive_next hs hzero
        rw [hnone _ later (List.append_cons ..) ⟨before, [x], rfl, hemptied⟩] at hone
        cases hone
  · rintro (hplugins | hend) before later s₁ heq hs₁ hpos
    · intro l hl
      rw [hplugins] at hl
      exact absurd hl List.not_mem_nil
    · have htracks := session_tracks hs₁
      refine htracks.available hpos ?_
      rintro ⟨h₁, h₂, rfl, hemptied⟩
      rw [List.append_assoc] at heq
      obtain ⟨hlater, hzero⟩ := hend h₁ (h₂ ++ later) heq hemptied
      rw [htracks.instances, (List.append_eq_nil_iff.1 hlater).1, List.append_nil, hzero] at hpos
      exact absurd hpos (lt_irrefl 0)

end Runs

/-- The plugin for GPX files. -/
def gpxLibrary : PluginLibrary Unit Unit :=
  ⟨lit "gpx", ⟨lit "gpx datafile handler", lit "", lit "GPLv2.0+", 0, 1⟩,
    ⟨(), some (), some (), none, none⟩⟩

/-- A directory with this plugin. -/
def gpxDirectory : PluginDirectory Unit Unit where
  files := [⟨lit "gpx.so", true, some gpxLibrary⟩]
  names := by simp
  codes := by decide

/-- An instance is destroyed and another one created: its table is empty. -/
theorem plugins_gone :
    ∃ h s, Session (object gpxDirectory) init h s ∧
      h.map Prod.fst = [.create, .destroy, .create] ∧
      0 < s.instances ∧ gpxLibrary ∈ gpxDirectory.plugins ∧ s.dataFileTable = [] ∧
      ¬ Available gpxDirectory s := by
  have hmem : gpxLibrary ∈ gpxDirectory.plugins := List.mem_singleton.2 rfl
  have h₀ : Session (object gpxDirectory) init [] _ := .start
  have h₁ := h₀.returned (c := .create) (r := ()) (fun h => by cases h) (by simp [Object.Alive])
    (create_first gpxDirectory rfl rfl)
  have h₂ := h₁.returned (c := .destroy) (r := ()) (fun _ => Nat.succ_pos 0)
    (by simp [Object.Alive]) (destroy_apply _)
  have h₃ := h₂.returned (c := .create) (r := ()) (fun h => by cases h) (by simp [Object.Alive])
    (create_later gpxDirectory fun name hname => hname)
  exact ⟨_, _, h₃, rfl, Nat.succ_pos _, hmem, rfl, fun havailable =>
    absurd (havailable gpxLibrary hmem) List.not_mem_nil⟩

/-- One instance. -/
theorem plugins_there :
    ∃ s, Session (object gpxDirectory) init [(.create, .ok ())] s ∧ 0 < s.instances ∧
      Available gpxDirectory s := by
  have h₀ : Session (object gpxDirectory) init [] _ := .start
  have h₁ := h₀.returned (c := .create) (r := ()) (fun h => by cases h) (by simp [Object.Alive])
    (create_first gpxDirectory rfl rfl)
  refine ⟨_, h₁, Nat.succ_pos 0, (plugins_available_iff h₁).2 (.inr ?_) _ [] _ rfl h₁
    (Nat.succ_pos 0)⟩
  rintro before later heq ⟨h', x, rfl, -⟩
  have hcalls := congrArg (List.map Prod.fst) heq
  have hdestroy : Call.destroy ∈ ([.create] : List Call) := by
    rw [show ([.create] : List Call) = _ from hcalls]
    simp
  simp at hdestroy

end GpsfilePlugin

end Libgpsfile2
