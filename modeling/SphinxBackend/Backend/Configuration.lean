import SphinxBackend.Backend.Decoding
import SphinxBackend.Db.ConnectionString
import SphinxBackend.Numbers.IntegerType

/-!
# Starting the application

The configuration file is one JSON value, in which a setting is found by its path. The constructor
of the application reads all of the settings it needs, first those of the database, and fails at the
first that is not as it has to be (`errorOf_ofConfig`). Such a setting throws, unless it is a
floating-point number that does not fit the type it is read at, which is undefined. So it starts
exactly if all of them are as they have to be (`exists_ofConfig_iff`), and from then on uses what it
read (`ofConfig_eq_ok_iff`).

Any texts and any port can be settings (`prepareDbConfig_databaseSettings`), so the connection
string is ambiguous for some of them; for which ones is `prepareDbConfig_determined_iff`.
-/

namespace Sphinx.Backend

open Db Nlohmann Collections

/-- `Application::config_get`. What a look at the configuration adds to it is null, and no later
look can tell. -/
def configGet {α : Type} (get : Json → Except Error α) (config : Json) (path : List String) :
    Except Error α :=
  config.atPointer path >>= get

/-! ## The paths -/

def dbEnginePath : List String := ["database", "engine"]

def dbHostPath : List String := ["database", "host"]

def dbPortPath : List String := ["database", "port"]

def dbPasswordPath : List String := ["database", "password"]

def dbUserPath : List String := ["database", "user"]

def dbDbnamePath : List String := ["database", "dbname"]

def restApiPortPath : List String := ["server", "port"]

def restApiVersionPath : List String := ["server", "version"]

def dumpLevelPath : List String := ["debug", "dump_level"]

/-! ## The constructor -/

/-- `BackendApp::prepare_db_config`. -/
def prepareDbConfig (config : Json) : Except Error ConnectionConfig := do
  let engine ← configGet Json.getString config dbEnginePath
  if engine ≠ "postgres" then .error (.unsupported "Unsupported database engine.")
  else do
    let host ← configGet Json.getString config dbHostPath
    let port ← configGet Json.getUInt16 config dbPortPath
    let user ← configGet Json.getString config dbUserPath
    let password ← configGet Json.getString config dbPasswordPath
    let dbName ← configGet Json.getString config dbDbnamePath
    .ok ⟨host, port, user, password, dbName⟩

/-- What the constructor sets. -/
structure BackendApp where
  /-- The configuration of `dao_`, to which it connects. -/
  dbConfig : ConnectionConfig
  restApiPort : UInt16
  restApiVersion : String
  dumpIndent : Int32
  deriving DecidableEq, Repr

/-- The initializers of `BackendApp::BackendApp`. The constructor of the base, which runs before
them and reads the levels of the loggers, is left out here; `StartUp.construct` has both. -/
def BackendApp.ofConfig (config : Json) : Except Error BackendApp := do
  let dbConfig ← prepareDbConfig config
  let restApiPort ← configGet Json.getUInt16 config restApiPortPath
  let version ← configGet Json.getString config restApiVersionPath
  let dumpIndent ← configGet Json.getInt32 config dumpLevelPath
  .ok ⟨dbConfig, restApiPort, "/" ++ version, dumpIndent⟩

/-! ## What it sets -/

theorem prepareDbConfig_eq_ok_iff {config : Json} {c : ConnectionConfig} :
    prepareDbConfig config = .ok c ↔
      configGet Json.getString config dbEnginePath = .ok "postgres" ∧
        configGet Json.getString config dbHostPath = .ok c.host ∧
        configGet Json.getUInt16 config dbPortPath = .ok c.port ∧
        configGet Json.getString config dbUserPath = .ok c.user ∧
        configGet Json.getString config dbPasswordPath = .ok c.password ∧
        configGet Json.getString config dbDbnamePath = .ok c.dbName := by
  rw [prepareDbConfig, bind_eq_ok_iff]
  constructor
  · rintro ⟨engine, hengine, h⟩
    by_cases hpostgres : engine = "postgres"
    · subst hpostgres
      rw [if_neg (by simp)] at h
      simp only [bind_eq_ok_iff] at h
      obtain ⟨host, hhost, port, hport, user, huser, password, hpassword, dbName, hdbName, h⟩ := h
      obtain rfl := Except.ok.inj h
      exact ⟨hengine, hhost, hport, huser, hpassword, hdbName⟩
    · rw [if_pos hpostgres] at h
      exact absurd h (by simp)
  · rintro ⟨hengine, hhost, hport, huser, hpassword, hdbName⟩
    refine ⟨_, hengine, ?_⟩
    rw [if_neg (by simp)]
    simp only [bind_eq_ok_iff]
    exact ⟨_, hhost, _, hport, _, huser, _, hpassword, _, hdbName, rfl⟩

theorem ofConfig_eq_ok_iff {config : Json} {app : BackendApp} :
    BackendApp.ofConfig config = .ok app ↔
      prepareDbConfig config = .ok app.dbConfig ∧
        configGet Json.getUInt16 config restApiPortPath = .ok app.restApiPort ∧
        (∃ version, configGet Json.getString config restApiVersionPath = .ok version ∧
          app.restApiVersion = "/" ++ version) ∧
        configGet Json.getInt32 config dumpLevelPath = .ok app.dumpIndent := by
  simp only [BackendApp.ofConfig, bind_eq_ok_iff]
  constructor
  · rintro ⟨dbConfig, hdb, port, hport, version, hversion, dumpIndent, hdump, h⟩
    obtain rfl := Except.ok.inj h
    exact ⟨hdb, hport, ⟨version, hversion, rfl⟩, hdump⟩
  · rintro ⟨hdb, hport, ⟨version, hversion, hroute⟩, hdump⟩
    refine ⟨_, hdb, _, hport, _, hversion, _, hdump, ?_⟩
    rw [← hroute]

/-! ## Settings -/

/-- What a setting has to be. -/
inductive Setting where
  | engine
  | text
  | int32
  | uint16

namespace Setting

/-- The value is what the setting has to be. -/
def holds : Setting → Json → Bool
  | engine, .string s => s = "postgres"
  | engine, _ => false
  | text, v => hasType .string v
  | int32, v => hasType .int32 v && !v.exceeds Int32
  | uint16, v => hasType .int32 v && !v.exceeds UInt16

/-- The value is a number that cannot be converted to the type of the setting. -/
def overflows : Setting → Json → Bool
  | int32, v => v.exceeds Int32
  | uint16, v => v.exceeds UInt16
  | _, _ => false

/-- What is thrown for a value that is not what the setting has to be. -/
def complaint : Setting → Json → Error
  | engine, .string _ => .unsupported "Unsupported database engine."
  | _, _ => .typeError

/-- How reading the value fails. -/
def error (setting : Setting) (v : Json) : Option Error :=
  if setting.holds v then none
  else some (if setting.overflows v then .unrepresentable else setting.complaint v)

theorem errorOf_getString (v : Json) : errorOf v.getString = text.error v := by cases v <;> rfl

theorem errorOf_engine (v : Json) : errorOf (v.getString >>= fun engine ↦
    if engine ≠ "postgres" then (.error (.unsupported "Unsupported database engine.")
      : Except Error Unit) else .ok ()) = engine.error v := by
  cases v with
  | string s =>
    change errorOf (if s ≠ "postgres" then _ else _) = _
    by_cases hpostgres : s = "postgres"
    · subst hpostgres
      rfl
    · rw [if_pos hpostgres, error, holds, decide_eq_false hpostgres]
      rfl
  | _ => rfl

theorem errorOf_getInt32 (v : Json) : errorOf v.getInt32 = int32.error v := by
  cases v with
  | numberFloat x =>
    rw [Json.getInt32, errorOf_castFloat, error, holds, overflows]
    cases (Json.numberFloat x).exceeds Int32 <;> rfl
  | _ => rfl

theorem errorOf_getUInt16 (v : Json) : errorOf v.getUInt16 = uint16.error v := by
  cases v with
  | numberFloat x =>
    rw [Json.getUInt16, errorOf_castFloat, error, holds, overflows]
    cases (Json.numberFloat x).exceeds UInt16 <;> rfl
  | _ => rfl

theorem not_isUndefined_complaint (setting : Setting) (v : Json) :
    ¬(setting.complaint v).IsUndefined := by
  cases setting with
  | engine => cases v <;> exact id
  | _ => exact id

/-- A number that is too large is not what a setting has to be. -/
theorem not_holds_of_overflows {setting : Setting} {v : Json} (h : setting.overflows v) :
    setting.holds v = false := by
  cases setting with
  | engine | text => exact absurd h (by simp [overflows])
  | int32 | uint16 =>
    rw [overflows] at h
    rw [holds, h]
    exact Bool.and_false _

end Setting

/-! ## Looks -/

/-- What is found of a setting, if one can get there. -/
structure Look where
  found : Option Json
  setting : Setting

namespace Look

def holds (l : Look) : Bool := l.found.any l.setting.holds

def overflows (l : Look) : Bool := l.found.any l.setting.overflows

/-- The setting cannot be got to, or is of another type, or names another engine. -/
def wrong (l : Look) : Bool := !l.holds && !l.overflows

/-- How the look fails. -/
def error (l : Look) : Option Error :=
  match l.found with
  | some v => l.setting.error v
  | none => some .typeError

theorem error_eq_none_iff {l : Look} : l.error = none ↔ l.holds := by
  rw [error, holds]
  cases l.found with
  | none => exact iff_of_false (by simp) (by simp)
  | some v =>
    change l.setting.error v = none ↔ l.setting.holds v
    rw [Setting.error]
    cases l.setting.holds v <;> simp

theorem error_isUndefined_iff {l : Look} :
    (∃ e, e.IsUndefined ∧ l.error = some e) ↔ l.overflows := by
  rw [error, overflows]
  cases l.found with
  | none =>
    refine iff_of_false ?_ (by simp)
    rintro ⟨e, hundefined, he⟩
    obtain rfl := Option.some.inj he
    exact hundefined
  | some v =>
    change (∃ e, e.IsUndefined ∧ l.setting.error v = some e) ↔ l.setting.overflows v
    rw [Setting.error]
    by_cases hoverflows : l.setting.overflows v = true
    · rw [hoverflows, Setting.not_holds_of_overflows hoverflows]
      exact iff_of_true ⟨.unrepresentable, trivial, rfl⟩ rfl
    · refine iff_of_false ?_ hoverflows
      rintro ⟨e, hundefined, he⟩
      rw [if_neg hoverflows] at he
      split at he
      · exact absurd he (by simp)
      · obtain rfl := Option.some.inj he
        exact l.setting.not_isUndefined_complaint v hundefined

theorem error_not_isUndefined_iff {l : Look} :
    (∃ e, ¬e.IsUndefined ∧ l.error = some e) ↔ l.wrong := by
  have hholds := l.error_eq_none_iff
  have hoverflows := l.error_isUndefined_iff
  rw [wrong, Bool.and_eq_true, Bool.not_eq_true', Bool.not_eq_true', ← Bool.not_eq_true,
    ← Bool.not_eq_true, ← hholds, ← hoverflows]
  cases l.error with
  | none => simp
  | some e => simp

end Look

/-- The settings that are read for the database, in order. -/
def databaseSettingsRead : List (List String × Setting) :=
  [(dbEnginePath, .engine), (dbHostPath, .text), (dbPortPath, .uint16), (dbUserPath, .text),
    (dbPasswordPath, .text), (dbDbnamePath, .text)]

/-- All settings that are read, in order. -/
def settingsRead : List (List String × Setting) :=
  databaseSettingsRead ++
    [(restApiPortPath, .uint16), (restApiVersionPath, .text), (dumpLevelPath, .int32)]

/-- What stands at a path, if it can be got to. -/
def lookAt (config : Json) (path : List String) (setting : Setting) : Look :=
  ⟨(config.atPointer path).toOption, setting⟩

def looks (config : Json) (settings : List (List String × Setting)) : List Look :=
  settings.map fun p ↦ lookAt config p.1 p.2

/-- The library throws for what it cannot look into. -/
theorem eq_typeError_of_atPointer {config : Json} {path : List String} {e : Error}
    (h : config.atPointer path = .error e) : e = .typeError := by
  induction path generalizing config with
  | nil => cases config <;> exact absurd h (by simp [Json.atPointer])
  | cons token path ih =>
    cases config with
    | null | object members => exact ih h
    | _ => exact (Except.error.inj h).symm

theorem errorOf_configGet {α : Type} {get : Json → Except Error α} {setting : Setting}
    (hget : ∀ v, errorOf (get v) = setting.error v) (config : Json) (path : List String) :
    errorOf (configGet get config path) = (lookAt config path setting).error := by
  rw [configGet, lookAt, Look.error]
  cases hfound : config.atPointer path with
  | ok v => exact hget v
  | error e =>
    obtain rfl := eq_typeError_of_atPointer hfound
    rfl

/-- Reading a setting, and then others. -/
theorem errorOf_configGet_bind {α β : Type} {g : Json → Except Error α} {setting : Setting}
    (hget : ∀ v, errorOf (g v) = setting.error v) {config : Json} {path : List String}
    {f : α → Except Error β} {l : List Look}
    (hf : ∀ a, errorOf (f a) = l.findSome? Look.error) :
    errorOf (configGet g config path >>= f)
      = (lookAt config path setting :: l).findSome? Look.error := by
  rw [errorOf_bind hf, errorOf_configGet hget, List.findSome?_cons]
  cases (lookAt config path setting).error <;> rfl

/-- The engine is checked as soon as it is read. -/
theorem errorOf_engine_bind {α : Type} {config : Json} {x : Except Error α} {ls : List Look}
    (hx : errorOf x = ls.findSome? Look.error) :
    errorOf (configGet Json.getString config dbEnginePath >>= fun engine ↦
        if engine ≠ "postgres" then .error (.unsupported "Unsupported database engine.") else x)
      = (lookAt config dbEnginePath .engine :: ls).findSome? Look.error := by
  rw [← errorOf_configGet_bind (g := fun v ↦ v.getString >>= fun engine ↦
    if engine ≠ "postgres" then .error (.unsupported "Unsupported database engine.") else .ok ())
      Setting.errorOf_engine fun _ ↦ hx, configGet, configGet]
  refine congrArg errorOf ?_
  cases config.atPointer dbEnginePath with
  | error e => rfl
  | ok v =>
    cases v with
    | string engine =>
      change (if engine ≠ "postgres" then _ else x) = (if engine ≠ "postgres" then _ else _) >>= _
      split <;> rfl
    | _ => rfl

theorem errorOf_prepareDbConfig (config : Json) :
    errorOf (prepareDbConfig config)
      = (looks config databaseSettingsRead).findSome? Look.error := by
  refine errorOf_engine_bind ?_
  refine errorOf_configGet_bind Setting.errorOf_getString fun host ↦ ?_
  refine errorOf_configGet_bind Setting.errorOf_getUInt16 fun port ↦ ?_
  refine errorOf_configGet_bind Setting.errorOf_getString fun user ↦ ?_
  refine errorOf_configGet_bind Setting.errorOf_getString fun password ↦ ?_
  exact errorOf_configGet_bind (l := []) Setting.errorOf_getString fun dbName ↦ rfl

/-- **The application fails at the first setting that is not as it has to be.** -/
theorem errorOf_ofConfig (config : Json) :
    errorOf (BackendApp.ofConfig config) = (looks config settingsRead).findSome? Look.error := by
  rw [settingsRead, looks, List.map_append, List.findSome?_append, ← looks,
    ← errorOf_prepareDbConfig]
  refine errorOf_bind fun dbConfig ↦ ?_
  refine errorOf_configGet_bind Setting.errorOf_getUInt16 fun port ↦ ?_
  refine errorOf_configGet_bind Setting.errorOf_getString fun version ↦ ?_
  exact errorOf_configGet_bind (l := []) Setting.errorOf_getInt32 fun dumpIndent ↦ rfl

/-! ## Whether it starts -/

/-- All settings that are read are as they have to be: those of a database of the supported kind,
and of their types. -/
def Configured (config : Json) : Prop := ∀ l ∈ looks config settingsRead, l.holds

instance (config : Json) : Decidable (Configured config) := List.decidableBAll _ _

/-- **The application starts exactly when it is configured.** -/
theorem exists_ofConfig_iff (config : Json) :
    (∃ app, BackendApp.ofConfig config = .ok app) ↔ Configured config := by
  rw [← errorOf_eq_none_iff, errorOf_ofConfig, List.findSome?_eq_none_iff, Configured]
  simp only [Look.error_eq_none_iff]

/-- The settings of the repository, with any ports. -/
def settings (dbPort restApiPort : Json) : Json :=
  .object [("debug", .object [("dump_level", .numberUnsigned 1)]),
    ("server", .object [("port", restApiPort), ("version", .string "v1")]),
    ("database", .object [("engine", .string "postgres"), ("host", .string "localhost"),
      ("port", dbPort), ("user", .string "sphinx"), ("password", .string "sphinx.123"),
      ("dbname", .string "sphinx_backend")])]

example : BackendApp.ofConfig (settings (.numberUnsigned 5432) (.numberUnsigned 9998))
    = .ok ⟨⟨"localhost", 5432, "sphinx", "sphinx.123", "sphinx_backend"⟩, 9998, "/v1", 1⟩ := by
  decide

/-! ## The connection string -/

/-- A file with these settings for the database, and no others. -/
def databaseSettings (c : ConnectionConfig) : Json :=
  .object [("database", .object [("engine", .string "postgres"), ("host", .string c.host),
    ("port", .numberUnsigned c.port.toUInt64), ("user", .string c.user),
    ("password", .string c.password), ("dbname", .string c.dbName)])]

/-- Every configuration is one that can be read. -/
theorem prepareDbConfig_databaseSettings (c : ConnectionConfig) :
    prepareDbConfig (databaseSettings c) = .ok c := by
  have hport : Json.castUInt16 c.port.toUInt64.toNat = c.port := by
    rw [UInt16.toNat_toUInt64]
    exact Numbers.ExactIntegerType.ofInt_toInt c.port
  refine prepareDbConfig_eq_ok_iff.mpr ⟨rfl, rfl, ?_, rfl, rfl, rfl⟩
  exact congrArg Except.ok hport

/-- **No other configuration that is read gives the same connection string exactly if the fields
are unambiguous.** This is about the `std::string` that `get_connection_string` returns. -/
theorem prepareDbConfig_determined_iff (c : ConnectionConfig) :
    (∀ config c', prepareDbConfig config = .ok c' →
      c'.getConnectionString = c.getConnectionString → c' = c) ↔ c.Unambiguous := by
  rw [← determined_iff]
  constructor
  · intro h c' heq
    exact h _ c' (prepareDbConfig_databaseSettings c') heq
  · intro h config c' _ heq
    exact h c' heq

/-- The server is told the characters up to the first NUL. Of a configuration that has none, it is
told apart from the others that have none exactly if its fields are unambiguous; and there is always
another one that has some. -/
theorem prepareDbConfig_cString_determined_iff (c : ConnectionConfig) :
    (c.NulFree → ((∀ config c', prepareDbConfig config = .ok c' → c'.NulFree →
      Text.cString c'.getConnectionString = Text.cString c.getConnectionString → c' = c) ↔
        c.Unambiguous)) ∧
      ∃ config c', prepareDbConfig config = .ok c' ∧ c' ≠ c ∧
        Text.cString c'.getConnectionString = Text.cString c.getConnectionString := by
  refine ⟨fun hc ↦ ?_, ?_⟩
  · rw [← cString_determined_iff hc]
    constructor
    · intro h c' hc' heq
      exact h _ c' (prepareDbConfig_databaseSettings c') hc' heq
    · intro h config c' _ hc' heq
      exact h c' hc' heq
  · obtain ⟨c', hne, heq⟩ := exists_ne_cString_eq c
    exact ⟨_, c', prepareDbConfig_databaseSettings c', hne, heq⟩

/-- A colon can end the user or stand in the password. -/
theorem prepareDbConfig_ambiguous :
    ∃ config config' c c', prepareDbConfig config = .ok c ∧ prepareDbConfig config' = .ok c' ∧
      c.getConnectionString = c'.getConnectionString ∧ c ≠ c' :=
  ⟨databaseSettings ⟨"localhost", 5432, "sphinx", "admin:123", "sphinx_backend"⟩,
    databaseSettings ⟨"localhost", 5432, "sphinx:admin", "123", "sphinx_backend"⟩, _, _,
    rfl, rfl, by decide, by decide⟩

end Sphinx.Backend
