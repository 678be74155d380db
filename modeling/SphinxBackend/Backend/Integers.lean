import SphinxBackend.Backend.Outcomes
import SphinxBackend.Backend.StartUp

/-!
# Integers from JSON

A number in a JSON text is kept in 64 bits, and is read at 32 bits for a column and at 16 bits for a
port. Reading it wraps around, and nothing tells: what comes out is a valid reference or a valid
port, and it is that which is stored, sent back and connected to. So an integer is used as it was
given exactly when it fits the type it is read at, and otherwise refused only if something else is
wrong. All of this holds as long as nothing undefined is reached on the way.
-/

namespace Sphinx.Backend

open Db Nlohmann Collections Numbers StartUp

/-! ## Returning or throwing -/

/-- There is a value, and it has the property, or an exception. -/
def ReturnsOrThrows {α : Type} (P : α → Prop) : Except Error α → Prop
  | .ok a => P a
  | .error e => ¬e.IsUndefined

section ReturnsOrThrows

variable {α β : Type}

/-- If the property comes down to a condition on what is decoded, a body is decoded to such a value
or refused when the condition holds or something is wrong. -/
theorem returnsOrThrows_iff {P : α → Prop} {p : Prop} {x : Except Error α} {rs : List Read}
    (hx : errorOf x = rs.findSome? Read.error) (hP : ∀ a, x = .ok a → (P a ↔ p)) :
    ReturnsOrThrows P x ↔ Shielded rs ∧ ((∃ r ∈ rs, r.wrong) ∨ p) := by
  cases hxr : x with
  | ok a =>
    rw [ReturnsOrThrows, hP a hxr, or_iff_right (not_wrong_of_ok hx hxr),
      and_iff_right (shielded_of_ok hx hxr)]
  | error e =>
    have hshielded : Shielded rs ↔ ¬e.IsUndefined := by
      rw [shielded_iff hx, hxr]
      exact ⟨fun h ↦ h e rfl, fun h e' he' ↦ Except.error.inj he' ▸ h⟩
    rw [ReturnsOrThrows, ← hshielded]
    exact ⟨fun hs ↦ ⟨hs, .inl (exists_wrong_of_error hx hs hxr)⟩, fun h ↦ h.1⟩

end ReturnsOrThrows

/-! ## References -/

/-- The accessor of a foreign key without further traits that refers to an `id`. -/
abbrev referenceAccessor {E : Type} (name : String) (n : ℕ) (get : E → Int32)
    (set : E → Int32 → E) : Accessor E :=
  ⟨name, foreignKey n ⟨0, .int32, [.primarykey]⟩ [], get, set⟩

/-- The parameters that the insertion of an entity has for its columns, as the server reads them. -/
def insertParams {E : Type} [Struct E] (entity : E) : List (String × Option String) :=
  ((getInsertColumns E).map (·.name)).zip
    (callOf (prepareInsertQuery E) (makeValueList (getValuesToInsert entity))).request.params

/-- The column is the integer, and so is what is inserted and encoded for it. -/
structure Carries {E : Type} [Struct E] (get : E → Int32) (name : String) (n : Int) (entity : E) :
    Prop where
  column : (get entity).toInt = n
  parameter : (insertParams entity).lookup name = some (some (toString n))
  json : ∃ data, Json.toJson entity = .ok data ∧ (data.member name).bind Json.integer = some n

section References

variable {E : Type} [Entity E]

theorem insertParams_eq (e : E) : insertParams e
    = (getInsertColumns E).map fun a ↦ (a.name, (a.get e).toOptionalString.map Text.cString) := by
  rw [insertParams, ← call_inserted, Insertion.params_request, inserted, List.map_map,
    List.zip_map']
  rfl

variable {name : String} {k : ℕ} {get : E → Int32} {set : E → Int32 → E}

theorem carries_iff (ha : referenceAccessor name k get set ∈ getInsertColumns E) (e : E) (n : Int) :
    Carries get name n e ↔ (get e).toInt = n := by
  refine ⟨fun h ↦ h.column, ?_⟩
  rintro rfl
  refine ⟨rfl, ?_, Json.document e, Json.toJson_eq e, ?_⟩
  · have hlookup := lookup_map_of_mem (fun a ↦ (a.get e).toOptionalString.map Text.cString)
      insertColumns_names_nodup ha
    rw [insertParams_eq]
    refine hlookup.trans (congrArg (fun s ↦ some (some s)) ?_)
    exact Text.cString_toString (get e).toInt
  · have hmember := Json.member_document e (mem_accessors_of_mem_insertColumns ha)
    rw [show name = (referenceAccessor name k get set).name from rfl, hmember, Option.bind_some]
    exact congrArg some (Int32.toInt_toInt64 _)

/-- A decoded reference is the integer, as far as 32 bits hold it. -/
theorem get_of_fromJson (ha : referenceAccessor name k get set ∈ getInsertColumns E) {junk : Int32}
    {d v : Json} {e : E} {n : Int} (h : Json.fromJson junk d = .ok e) (hd : d.member name = some v)
    (hv : v.integer = some n) : get e = Json.castInt n := by
  obtain ⟨w, hw, hget⟩ := exists_of_load h (mem_accessors_of_mem_insertColumns ha)
  have hcolumn : Json.columnFromJson d (referenceAccessor name k get set)
      = v.getInt32.map some := by
    rw [Json.columnFromJson, Json.isAbsent_of_member hd, Json.isNull_of_integer hv, Json.getValue,
      Json.at_of_member hd]
    rfl
  rw [hcolumn, Json.getInt32_of_integer hv] at hw
  obtain rfl := Except.ok.inj hw
  exact hget

/-- **A reference is exact or refused exactly when nothing undefined is reached, and the integer
fits or something is wrong.** -/
theorem reference_returnsOrThrows_iff (ha : referenceAccessor name k get set ∈ getInsertColumns E)
    {d v : Json} {n : Int} (hd : d.member name = some v) (hv : v.integer = some n)
    (junk : Int32) :
    ReturnsOrThrows (Carries get name n) (Json.fromJson junk d : Except Error E) ↔
      Shielded (reads E d) ∧ ((∃ r ∈ reads E d, r.wrong) ∨ Fits Int32 n) := by
  refine returnsOrThrows_iff (errorOf_fromJson junk d) fun e he ↦ ?_
  rw [carries_iff ha, get_of_fromJson ha he hd hv]
  exact @toInt_ofInt_iff Int32 _ n

end References

namespace Model

abbrev ownerIdAccessor : Accessor Course :=
  referenceAccessor "owner_id" 3 Course.ownerId fun e v ↦ { e with ownerId := v }

theorem ownerIdAccessor_mem : ownerIdAccessor ∈ getInsertColumns Course :=
  List.mem_cons_of_mem _ (List.mem_cons_of_mem _ List.mem_cons_self)

end Model

/-! ## Ports -/

/-- The port of the database is the integer, and so is what the connection string says. -/
structure DatabasePortIs (n : Int) (app : BackendApp) : Prop where
  port : (app.dbConfig.port.toNat : Int) = n
  connectionString : app.dbConfig.getConnectionString = "postgresql://" ++ app.dbConfig.user ++ ":"
    ++ app.dbConfig.password ++ "@" ++ app.dbConfig.host ++ ":" ++ toString n ++ "/"
    ++ app.dbConfig.dbName

/-- The port the application listens on is the integer. -/
def ServerPortIs (n : Int) (app : BackendApp) : Prop := (app.restApiPort.toNat : Int) = n

section Ports

variable {config v : Json} {n : Int}

theorem databasePortIs_iff (app : BackendApp) (n : Int) :
    DatabasePortIs n app ↔ (app.dbConfig.port.toNat : Int) = n := by
  refine ⟨fun h ↦ h.port, ?_⟩
  rintro rfl
  exact ⟨rfl, rfl⟩

/-- If the property comes down to a condition on the file, the application starts with it or throws
when no number is too large for what it is read at, and the condition holds if the application can
start. -/
theorem start_returnsOrThrows_iff {P : BackendApp → Prop} {p : Prop}
    (hP : ∀ app, BackendApp.ofConfig config = .ok app → (P app ↔ p)) :
    ReturnsOrThrows P (start config) ↔ Sheltered config ∧ (Startable config → p) := by
  rw [sheltered_iff, ← exists_start_iff]
  cases hstart : start config with
  | ok app =>
    rw [ReturnsOrThrows, hP app (ofConfig_of_start hstart)]
    exact ⟨fun hp ↦ ⟨fun e he ↦ absurd he (by simp), fun _ ↦ hp⟩, fun h ↦ h.2 ⟨app, rfl⟩⟩
  | error e =>
    rw [ReturnsOrThrows]
    constructor
    · intro hdefined
      exact ⟨fun e' he' ↦ Except.error.inj he' ▸ hdefined, fun ⟨app, happ⟩ ↦ absurd happ (by simp)⟩
    · exact fun h ↦ h.1 e rfl

theorem configGet_of_integer {path : List String} (hpath : config.atPointer path = .ok v)
    (hv : v.integer = some n) {port : UInt16}
    (h : configGet Json.getUInt16 config path = .ok port) : port = Json.castUInt16 n := by
  rw [configGet, hpath] at h
  exact Except.ok.inj (h.symm.trans (Json.getUInt16_of_integer hv))

theorem databasePort_returnsOrThrows_iff (hpath : config.atPointer dbPortPath = .ok v)
    (hv : v.integer = some n) :
    ReturnsOrThrows (DatabasePortIs n) (start config) ↔
      Sheltered config ∧ (Startable config → Fits UInt16 n) := by
  refine start_returnsOrThrows_iff fun app happ ↦ ?_
  obtain ⟨hdb, -⟩ := ofConfig_eq_ok_iff.mp happ
  obtain ⟨-, -, hport, -⟩ := prepareDbConfig_eq_ok_iff.mp hdb
  rw [databasePortIs_iff, configGet_of_integer hpath hv hport]
  exact @toInt_ofInt_iff UInt16 _ n

theorem serverPort_returnsOrThrows_iff (hpath : config.atPointer restApiPortPath = .ok v)
    (hv : v.integer = some n) :
    ReturnsOrThrows (ServerPortIs n) (start config) ↔
      Sheltered config ∧ (Startable config → Fits UInt16 n) := by
  refine start_returnsOrThrows_iff fun app happ ↦ ?_
  obtain ⟨-, hport, -⟩ := ofConfig_eq_ok_iff.mp happ
  rw [ServerPortIs, configGet_of_integer hpath hv hport]
  exact @toInt_ofInt_iff UInt16 _ n

end Ports

/-! ## All integers -/

/-- **An integer from JSON is exact or refused if it fits the type it is read at**, and otherwise
only if something else is wrong, as long as nothing undefined is reached. The ports are those with
which both constructors end. -/
theorem integer_returnsOrThrows_iff {v : Json} {n : Int} (hv : v.integer = some n) (junk : Int32)
    (d config : Json) :
    (d.member "owner_id" = some v →
        (ReturnsOrThrows (Carries Model.Course.ownerId "owner_id" n)
            (Json.fromJson junk d : Except Error Model.Course) ↔
          Shielded (reads Model.Course d) ∧
            ((∃ r ∈ reads Model.Course d, r.wrong) ∨ Fits Int32 n))) ∧
      (d.member "course_id" = some v →
        (ReturnsOrThrows (Carries Model.Module.courseId "course_id" n)
            (Json.fromJson junk d : Except Error Model.Module) ↔
          Shielded (reads Model.Module d) ∧
            ((∃ r ∈ reads Model.Module d, r.wrong) ∨ Fits Int32 n))) ∧
      (config.atPointer dbPortPath = .ok v →
        (ReturnsOrThrows (DatabasePortIs n) (start config) ↔
          Sheltered config ∧ (Startable config → Fits UInt16 n))) ∧
      (config.atPointer restApiPortPath = .ok v →
        (ReturnsOrThrows (ServerPortIs n) (start config) ↔
          Sheltered config ∧ (Startable config → Fits UInt16 n))) :=
  ⟨fun hd ↦ reference_returnsOrThrows_iff Model.ownerIdAccessor_mem hd hv junk,
    fun hd ↦ reference_returnsOrThrows_iff Model.courseIdAccessor_mem hd hv junk,
    fun hpath ↦ databasePort_returnsOrThrows_iff hpath hv,
    fun hpath ↦ serverPort_returnsOrThrows_iff hpath hv⟩

/-- A course with any owner. -/
def ownedBy (owner : Json) : Json := .object [("title", .string "Algebra"), ("owner_id", owner)]

/-- The owner `2 ^ 32 + 1` is taken for `1`, and the port `2 ^ 16 + 5432` for `5432`. -/
theorem integer_wraps :
    (¬∀ (v : Json) (n : Int), v.integer = some n → ∀ d, d.member "owner_id" = some v →
        ReturnsOrThrows (Carries Model.Course.ownerId "owner_id" n)
          (Json.fromJson 0 d : Except Error Model.Course)) ∧
      ¬∀ (v : Json) (n : Int), v.integer = some n → ∀ config, config.atPointer dbPortPath = .ok v →
        ReturnsOrThrows (DatabasePortIs n) (start config) := by
  constructor
  · intro h
    have hcourse : (Json.fromJson 0 (ownedBy (.numberUnsigned 4294967297))
        : Except Error Model.Course) = .ok ⟨0, "Algebra", none, 1, none⟩ := by decide
    have hcarries := h (.numberUnsigned 4294967297) 4294967297 rfl (ownedBy _) rfl
    rw [hcourse] at hcarries
    exact absurd hcarries.column (by decide)
  · intro h
    have happ : start (settings (.numberUnsigned 70968) (.numberUnsigned 9998))
        = .ok ⟨⟨"localhost", 5432, "sphinx", "sphinx.123", "sphinx_backend"⟩, 9998, "/v1", 1⟩ := by
      decide
    have hport := h (.numberUnsigned 70968) 70968 rfl (settings _ (.numberUnsigned 9998)) rfl
    rw [happ] at hport
    exact absurd hport.port (by decide)

theorem integer_returnsOrThrows_9998 :
    ReturnsOrThrows (Carries Model.Course.ownerId "owner_id" 9998)
        (Json.fromJson 0 (ownedBy (.numberUnsigned 9998)) : Except Error Model.Course) ∧
      ReturnsOrThrows (Carries Model.Module.courseId "course_id" 9998)
        (Json.fromJson 0 (.object [("title", .string "Groups"),
          ("course_id", .numberUnsigned 9998)]) : Except Error Model.Module) ∧
      ReturnsOrThrows (DatabasePortIs 9998)
        (start (settings (.numberUnsigned 9998) (.numberUnsigned 80))) ∧
      ReturnsOrThrows (ServerPortIs 9998)
        (start (settings (.numberUnsigned 5432) (.numberUnsigned 9998))) := by
  have hv : (Json.numberUnsigned 9998).integer = some 9998 := rfl
  have h (d config : Json) := integer_returnsOrThrows_iff hv 0 d config
  refine ⟨((h _ .null).1 rfl).mpr ⟨shielded_of_not_undefined (by decide), .inr (by decide)⟩,
    ((h _ .null).2.1 rfl).mpr ⟨shielded_of_not_undefined (by decide), .inr (by decide)⟩,
    ((h .null _).2.2.1 rfl).mpr ⟨preceded_of_forall_not (by decide), fun _ ↦ by decide⟩,
    ((h .null _).2.2.2 rfl).mpr ⟨preceded_of_forall_not (by decide), fun _ ↦ by decide⟩⟩

end Sphinx.Backend
