import Mathlib.Data.List.Dedup
import Mathlib.Data.List.Sort
import SphinxBackend.Backend.Configuration
import SphinxBackend.Json.Pointer

/-!
# The constructors

Before the settings are read, the levels of the loggers are taken from the configuration; and every
look at a setting, also at one that is missing, leaves the configuration changed. The constructors
are given here as they run, one look after the other, each at what the others have left.

It makes no difference. What the constructors of the application and of its base do is to read the
levels and then the settings off the configuration as it was in the file (`construct_eq_readOff`).
So the application starts exactly if the levels are numbers and the settings are of their types, and
what anyone reads later is what stands in the file. It fails at the first level or setting that is
not as it has to be (`errorOf_readOff`).
-/

namespace Sphinx.Backend

open Db Nlohmann Collections
open Nlohmann.Json (ReadsFirst readsFirst_lookUp reads_lift Reads SameScalars)

namespace StartUp

/-- A part of the constructors. -/
abbrev ConfigM (α : Type) : Type := StateT Json (Except Error) α

/-- `config_[path]`. -/
def configAt (path : List String) : ConfigM Json := fun config ↦ config.lookUp path

/-- `Application::config_get`. -/
def configGet {α : Type} (get : Json → Except Error α) (path : List String) : ConfigM α := do
  get (← configAt path)

/-! ## The loggers -/

def loggersPath : List String := ["loggers"]

/-- The keys in the order in which an iteration comes to them. -/
def keys (members : List (String × Json)) : List String :=
  (members.map Prod.fst).dedup.insertionSort (· ≤ ·)

/-- The loggers that are made, with their levels. An iterator over anything but an object has no
key, and asking for it throws; over null and the empty array there is nothing to iterate. -/
def loggerLevels : Json → Except Error (List (String × Int32))
  | .null | .array [] => .ok []
  | .object members => (keys members).mapM fun key ↦
      ((members.lookup key).getD .null).getInt32.map (key, ·)
  | _ => .error .typeError

/-- `Application::configure_logger`. -/
def configureLogger : ConfigM (List (String × Int32)) := do
  loggerLevels (← configAt loggersPath)

/-! ## The constructor -/

/-- `BackendApp::prepare_db_config`. -/
def prepareDbConfig : ConfigM ConnectionConfig := do
  let engine ← configGet Json.getString dbEnginePath
  if engine ≠ "postgres" then throw (.unsupported "Unsupported database engine.")
  else do
    let host ← configGet Json.getString dbHostPath
    let port ← configGet Json.getUInt16 dbPortPath
    let user ← configGet Json.getString dbUserPath
    let password ← configGet Json.getString dbPasswordPath
    let dbName ← configGet Json.getString dbDbnamePath
    return ⟨host, port, user, password, dbName⟩

/-- The initializers of `BackendApp::BackendApp`. -/
def backendApp : ConfigM BackendApp := do
  let dbConfig ← prepareDbConfig
  let restApiPort ← configGet Json.getUInt16 restApiPortPath
  let version ← configGet Json.getString restApiVersionPath
  let dumpIndent ← configGet Json.getInt32 dumpLevelPath
  return ⟨dbConfig, restApiPort, "/" ++ version, dumpIndent⟩

/-- The base is constructed first. -/
def construct : ConfigM (List (String × Int32) × BackendApp) := do
  let levels ← configureLogger
  let app ← backendApp
  return (levels, app)

/-! ## What it reads -/

section Reads

open Json

theorem takesForNull_getString : TakesForNull getString := fun _ ↦ rfl

theorem takesForNull_getUInt16 : TakesForNull getUInt16 := fun _ ↦ rfl

theorem takesForNull_getInt32 : TakesForNull getInt32 := fun _ ↦ rfl

theorem reads_configGet {α : Type} {get : Json → Except Error α} (hget : TakesForNull get)
    (path : List String) : Reads (configGet get path) (Backend.configGet get · path) :=
  reads_lookUp hget path

theorem reads_prepareDbConfig : Reads prepareDbConfig Backend.prepareDbConfig := by
  have htext (path : List String) := reads_configGet takesForNull_getString path
  have hport := reads_configGet takesForNull_getUInt16 dbPortPath
  unfold prepareDbConfig Backend.prepareDbConfig
  refine (htext _).bind fun engine ↦ ?_
  by_cases hengine : engine ≠ "postgres"
  · simp only [if_pos hengine]
    exact reads_lift (.error _)
  · simp only [if_neg hengine]
    refine (htext _).bind fun host ↦ hport.bind fun port ↦ (htext _).bind fun user ↦
      (htext _).bind fun password ↦ (htext _).bind fun dbName ↦ ?_
    exact reads_lift (.ok _)

theorem reads_backendApp : Reads backendApp BackendApp.ofConfig := by
  have hport := reads_configGet takesForNull_getUInt16 restApiPortPath
  have hversion := reads_configGet takesForNull_getString restApiVersionPath
  have hlevel := reads_configGet takesForNull_getInt32 dumpLevelPath
  unfold backendApp BackendApp.ofConfig
  refine reads_prepareDbConfig.bind fun dbConfig ↦ hport.bind fun port ↦
    hversion.bind fun version ↦ hlevel.bind fun dumpIndent ↦ ?_
  exact reads_lift (.ok _)

end Reads

/-! ## Whether it starts -/

/-- What the file says. -/
def readOff (config : Json) : Except Error (List (String × Int32) × BackendApp) := do
  let levels ← config.atPointer loggersPath >>= loggerLevels
  let app ← BackendApp.ofConfig config
  return (levels, app)

/-- There are no loggers, or each of them has a number for its level. -/
def LevelsOf : Json → Prop
  | .null | .array [] => True
  | .object members =>
    ∀ key ∈ members.map Prod.fst, Setting.int32.holds ((members.lookup key).getD .null)
  | _ => False

/-- The levels that are read, in order. -/
def levelLooks (config : Json) : List Look :=
  match config.atPointer loggersPath with
  | .ok .null | .ok (.array []) => []
  | .ok (.object members) => (keys members).map fun key ↦
      ⟨some ((members.lookup key).getD .null), .int32⟩
  | _ => [⟨none, .int32⟩]

theorem mem_keys_iff {members : List (String × Json)} {key : String} :
    key ∈ keys members ↔ key ∈ members.map Prod.fst := by
  rw [keys, List.mem_insertionSort, List.mem_dedup]

theorem errorOf_loggerLevels (config : Json) :
    errorOf (config.atPointer loggersPath >>= loggerLevels)
      = (levelLooks config).findSome? Look.error := by
  rw [levelLooks]
  cases hloggers : config.atPointer loggersPath with
  | error e =>
    obtain rfl := eq_typeError_of_atPointer hloggers
    rfl
  | ok loggers =>
    cases loggers with
    | array elements => cases elements <;> rfl
    | object members =>
      change errorOf ((keys members).mapM _) = _
      rw [errorOf_mapM, List.findSome?_map]
      refine congrArg₂ _ (funext fun key ↦ ?_) rfl
      exact (errorOf_map _ _).trans (Setting.errorOf_getInt32 _)
    | _ => rfl

theorem levelLooks_hold_iff (config : Json) : (∀ l ∈ levelLooks config, l.holds) ↔
    ∃ loggers, config.atPointer loggersPath = .ok loggers ∧ LevelsOf loggers := by
  rw [levelLooks]
  cases config.atPointer loggersPath with
  | error e => exact iff_of_false (by simp [Look.holds]) (by simp)
  | ok loggers =>
    simp only [Except.ok.injEq, exists_eq_left']
    cases loggers with
    | null => exact iff_of_true (List.forall_mem_nil _) trivial
    | array elements =>
      cases elements with
      | nil => exact iff_of_true (List.forall_mem_nil _) trivial
      | cons => exact iff_of_false (by simp [Look.holds]) id
    | object members =>
      rw [List.forall_mem_map, LevelsOf]
      exact forall_congr' fun key ↦ imp_congr_left mem_keys_iff
    | _ => exact iff_of_false (by simp [Look.holds]) id

example : loggerLevels (.object [("Sphinx::GLOBAL", .numberUnsigned 2),
    ("Sphinx::Backend", .numberUnsigned 1)])
    = .ok [("Sphinx::Backend", 1), ("Sphinx::GLOBAL", 2)] := by decide

theorem readsFirst_construct : ReadsFirst construct readOff := by
  unfold construct readOff
  refine (readsFirst_lookUp loggerLevels loggersPath).bind fun levels ↦
    reads_backendApp.bind fun app ↦ ?_
  exact reads_lift (.ok _)

/-- All that is read, in order. -/
def startLooks (config : Json) : List Look := levelLooks config ++ looks config settingsRead

/-- The start fails at the first look that does. -/
theorem errorOf_readOff (config : Json) :
    errorOf (readOff config) = (startLooks config).findSome? Look.error := by
  rw [startLooks, List.findSome?_append, ← errorOf_loggerLevels, ← errorOf_ofConfig]
  refine errorOf_bind fun levels ↦ ?_
  rw [errorOf_bind fun app ↦ errorOf_pure _, Option.or_none]

/-- The levels are numbers and the settings are of their types. -/
def Startable (config : Json) : Prop :=
  (∃ loggers, config.atPointer loggersPath = .ok loggers ∧ LevelsOf loggers) ∧ Configured config

theorem startLooks_hold_iff (config : Json) :
    (∀ l ∈ startLooks config, l.holds) ↔ Startable config := by
  rw [startLooks, List.forall_mem_append, levelLooks_hold_iff, Startable, Configured]

theorem exists_readOff_iff (config : Json) :
    (∃ r, readOff config = .ok r) ↔ Startable config := by
  rw [← errorOf_eq_none_iff, errorOf_readOff, List.findSome?_eq_none_iff, ← startLooks_hold_iff]
  simp only [Look.error_eq_none_iff]

/-- What the constructors set. -/
def start (config : Json) : Except Error BackendApp :=
  (construct.run config).map fun r ↦ r.1.2

theorem start_eq (config : Json) : start config = (readOff config).map Prod.snd := by
  rw [start, ← readsFirst_construct.reads]
  cases construct.run config <;> rfl

theorem ofConfig_of_start {config : Json} {app : BackendApp} (h : start config = .ok app) :
    BackendApp.ofConfig config = .ok app := by
  rw [start_eq, map_eq_ok_iff] at h
  obtain ⟨r, hr, rfl⟩ := h
  simp only [readOff, bind_eq_ok_iff] at hr
  obtain ⟨levels, -, app, happ, hr⟩ := hr
  obtain rfl := Except.ok.inj hr
  exact happ

/-- Whatever number is too large, something goes wrong before it is read. -/
def Sheltered (config : Json) : Prop := Preceded (·.overflows) (·.wrong) (startLooks config)

theorem errorOf_start (config : Json) :
    errorOf (start config) = (startLooks config).findSome? Look.error := by
  rw [start_eq, errorOf_map, errorOf_readOff]

theorem sheltered_iff (config : Json) :
    Sheltered config ↔ ∀ e, start config = .error e → ¬e.IsUndefined := by
  simp only [← errorOf_eq_some_iff, errorOf_start, findSome?_avoids_iff, Sheltered,
    Look.error_isUndefined_iff, Look.error_not_isUndefined_iff]

theorem exists_start_iff (config : Json) : (∃ app, start config = .ok app) ↔ Startable config := by
  rw [← errorOf_eq_none_iff, errorOf_start, ← errorOf_readOff, errorOf_eq_none_iff,
    exists_readOff_iff]

/-- **The constructors read what stands in the file.** They end as reading the levels and then the
settings ends, with the same values or the same exception; they return exactly if the levels are
numbers and the settings are of their types; and every scalar is read later as before. -/
theorem construct_eq_readOff (config : Json) :
    (construct.run config).map Prod.fst = readOff config ∧
      ((∃ r config', construct.run config = .ok (r, config')) ↔
        (∃ loggers, config.atPointer loggersPath = .ok loggers ∧ LevelsOf loggers) ∧
          Configured config) ∧
      ∀ r config', construct.run config = .ok (r, config') → SameScalars config config' := by
  refine ⟨readsFirst_construct.reads config, ?_, fun r config' h ↦ readsFirst_construct.keeps h⟩
  rw [← Startable, ← exists_readOff_iff, ← readsFirst_construct.reads]
  simp only [map_eq_ok_iff]
  constructor
  · rintro ⟨r, config', h⟩
    exact ⟨r, (r, config'), h, rfl⟩
  · rintro ⟨r, ⟨r', config'⟩, h, rfl⟩
    exact ⟨r', config', h⟩

end StartUp

end Sphinx.Backend
