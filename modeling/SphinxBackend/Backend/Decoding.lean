import SphinxBackend.Backend.App

/-!
# What a request body decodes to

A body stands for a list of documents, one for each entity, and a document is read column by column.
`Read` is one such look at a document. Whether it fails, and how, depends on the document and the
column alone, so the error of a body is that of the first of its reads that fails.

The JSON library throws if a value is of the wrong type or is looked up in something that is no
object. In two cases it does not throw, and the behaviour is undefined: if the value is looked up in
an object that does not have it, and if it is a floating-point number that is read as an integer and
does not fit. The decoder asks whether a member is there only for some of the columns, and how large
a number is for none.
-/

namespace Sphinx.Backend

open Db Nlohmann Collections Numbers

/-! ## The documents of a body -/

/-- An array stands for its elements, and anything else for itself. -/
def documents : Json → List Json
  | .array elements => elements
  | data => [data]

section Documents

variable {E : Type} [Creatable E] {junk : List ℕ → Int32} {sub : Bool}

theorem deserializeEntities_eq (data : Json) :
    deserializeEntities E junk data sub
      = (documents data).zipIdx.mapM fun d ↦ deserializeEntity E junk sub d.2 d.1 := by
  cases data with
  | array elements => rfl
  | _ =>
    change (deserializeEntity E junk sub 0 _).map _ = [(_, 0)].mapM _
    rw [List.mapM_cons]
    cases deserializeEntity E junk sub 0 _ <;> rfl

/-- The entities of a body are those of its documents, one by one. -/
theorem forall₂_of_deserializeEntities {data : Json} {es : List E}
    (h : deserializeEntities E junk data sub = .ok es) :
    List.Forall₂ (fun d e ↦ ∃ i, deserializeEntity E junk sub i d = .ok e) (documents data) es := by
  rw [deserializeEntities_eq] at h
  have hzip := mapM_eq_ok_iff.mp h
  rw [← List.zipIdx_map_fst 0 (documents data), List.forall₂_map_left_iff]
  exact hzip.imp fun d e hd ↦ ⟨d.2, hd⟩

theorem errorOf_deserializeEntities {err : Json → Option Error}
    (h : ∀ i d, errorOf (deserializeEntity E junk sub i d) = err d) (data : Json) :
    errorOf (deserializeEntities E junk data sub) = (documents data).findSome? err := by
  rw [deserializeEntities_eq, errorOf_mapM]
  simp only [h]
  conv_rhs => rw [← List.zipIdx_map_fst 0 (documents data), List.findSome?_map]
  rfl

end Documents

/-! ## Reads -/

/-- One column looked up in one document. -/
structure Read where
  document : Json
  name : String
  type : ColumnType
  /-- The decoder asks whether the member is there, and takes a null value for none. -/
  guarded : Bool

/-- Values of a column's type can be got from the JSON value. -/
def hasType : ColumnType → Json → Bool
  | .int32, .numberInteger _ | .int32, .numberUnsigned _ | .int32, .numberFloat _
  | .int32, .boolean _ => true
  | .string, .string _ => true
  | _, _ => false

/-- The JSON value is a number that cannot be converted to the column's type. -/
def tooLarge : ColumnType → Json → Bool
  | .int32, value => value.exceeds Int32
  | .string, _ => false

theorem errorOf_castFloat (α : Type) [IntegerType α] (x : Rat) :
    errorOf (Json.castFloat α x)
      = if (Json.numberFloat x).exceeds α then some .unrepresentable else none := by
  rw [Json.castFloat, Json.exceeds]
  by_cases hfits : Fits α (Json.integerPart x)
  · rw [if_pos hfits, decide_eq_true hfits]
    rfl
  · rw [if_neg hfits, decide_eq_false hfits]
    rfl

theorem errorOf_getAs (t : ColumnType) (value : Json) :
    errorOf (Json.getAs t value) = if hasType t value then
      if tooLarge t value then some .unrepresentable else none else some .typeError := by
  cases t with
  | int32 =>
    cases value with
    | numberFloat x => exact errorOf_castFloat Int32 x
    | _ => rfl
  | string => cases value <;> rfl

/-- A number that is too large is a number. -/
theorem hasType_of_tooLarge {t : ColumnType} {value : Json} (h : tooLarge t value) :
    hasType t value := by
  cases t with
  | int32 => cases value <;> first | rfl | exact absurd h (by simp [tooLarge, Json.exceeds])
  | string => exact absurd h (by simp [tooLarge])

namespace Read

/-- The document is an object without the member, and the decoder does not ask. -/
def missing (r : Read) : Bool :=
  !r.guarded && r.document.isObject && (r.document.member r.name).isNone

/-- The member is a number that cannot be converted to the column's type. -/
def overflows (r : Read) : Bool := (r.document.member r.name).any (tooLarge r.type)

/-- It is not known what comes of the read. -/
def undefined (r : Read) : Bool := r.missing || r.overflows

/-- The library throws: there is a member of another type, or the document is not an object. -/
def wrong (r : Read) : Bool :=
  match r.document.member r.name with
  | some value => !(r.guarded && value.isNull) && !hasType r.type value
  | none => !r.guarded && !r.document.isObject

/-- How the read fails. -/
def error (r : Read) : Option Error :=
  if r.missing then some .missingKey
  else if r.overflows then some .unrepresentable
  else if r.wrong then some .typeError
  else none

theorem error_of_member {r : Read} {value : Json} (h : r.document.member r.name = some value) :
    r.error = if r.guarded && value.isNull then none else errorOf (Json.getAs r.type value) := by
  have hmissing : r.missing = false := by rw [missing, h]; exact Bool.and_false _
  have hoverflows : r.overflows = tooLarge r.type value := by rw [overflows, h]; rfl
  have hwrong : r.wrong = (!(r.guarded && value.isNull) && !hasType r.type value) := by
    rw [wrong, h]
  rw [error, hmissing, hoverflows, hwrong, errorOf_getAs]
  by_cases habsent : (r.guarded && value.isNull) = true
  · -- null is no number
    have hsmall : tooLarge r.type value = false := by
      cases value with
      | null => cases r.type <;> rfl
      | _ => exact absurd habsent (by simp [Json.isNull])
    simp [habsent, hsmall]
  · by_cases hlarge : tooLarge r.type value = true
    · simp [habsent, hlarge, hasType_of_tooLarge hlarge]
    · cases hasType r.type value <;> simp [habsent, hlarge]

theorem error_of_not_member {r : Read} (h : r.document.member r.name = none) :
    r.error = if r.guarded then none
      else some (if r.document.isObject then .missingKey else .typeError) := by
  rw [error, missing, overflows, wrong, h]
  cases r.guarded <;> cases r.document.isObject <;> rfl

/-- What is not known is neither thrown nor returned. -/
theorem not_undefined_of_wrong {r : Read} (h : r.wrong) : ¬r.undefined := by
  rw [wrong] at h
  rw [undefined, missing, overflows]
  cases hmember : r.document.member r.name with
  | none =>
    rw [hmember] at h
    simp_all
  | some value =>
    rw [hmember] at h
    simp only [Bool.and_eq_true, Bool.not_eq_eq_eq_not, Bool.not_true] at h
    have hsmall : ¬tooLarge r.type value := fun hlarge ↦ by
      rw [hasType_of_tooLarge hlarge] at h
      exact absurd h.2 (by simp)
    simpa using hsmall

theorem error_of_undefined {r : Read} (h : r.undefined) :
    ∃ e, e.IsUndefined ∧ r.error = some e := by
  rw [error]
  by_cases hmissing : r.missing = true
  · exact ⟨.missingKey, trivial, if_pos hmissing⟩
  · have hoverflows : r.overflows = true := by
      rw [undefined, Bool.or_eq_true] at h
      exact h.resolve_left hmissing
    exact ⟨.unrepresentable, trivial, by rw [if_neg hmissing, if_pos hoverflows]⟩

theorem error_of_not_undefined {r : Read} (h : ¬r.undefined) :
    r.error = if r.wrong then some .typeError else none := by
  rw [undefined, Bool.or_eq_true, not_or] at h
  rw [error, if_neg h.1, if_neg h.2]

theorem error_isUndefined_iff {r : Read} :
    (∃ e, e.IsUndefined ∧ r.error = some e) ↔ r.undefined := by
  refine ⟨fun ⟨e, hundefined, he⟩ ↦ ?_, error_of_undefined⟩
  by_contra hdefined
  rw [error_of_not_undefined hdefined] at he
  split at he
  · obtain rfl := Option.some.inj he
    exact hundefined
  · exact absurd he (by simp)

/-- A read that throws is one of something wrong. -/
theorem error_not_isUndefined_iff {r : Read} :
    (∃ e, ¬e.IsUndefined ∧ r.error = some e) ↔ r.wrong := by
  constructor
  · rintro ⟨e, hdefined, he⟩
    have hread : ¬r.undefined := fun h ↦ by
      obtain ⟨e', hundefined, he'⟩ := error_of_undefined h
      obtain rfl := Option.some.inj (he.symm.trans he')
      exact hdefined hundefined
    rw [error_of_not_undefined hread] at he
    split at he
    · assumption
    · exact absurd he (by simp)
  · intro hwrong
    refine ⟨.typeError, id, ?_⟩
    rw [error_of_not_undefined (not_undefined_of_wrong hwrong), if_pos hwrong]

theorem isJsonException_of_error {r : Read} {e : Error} (h : r.error = some e)
    (hdefined : ¬e.IsUndefined) : e.IsJsonException := by
  have hread : ¬r.undefined := fun hundefined ↦ by
    obtain ⟨e', he', hr⟩ := error_of_undefined hundefined
    obtain rfl := Option.some.inj (h.symm.trans hr)
    exact hdefined he'
  rw [error_of_not_undefined hread] at h
  split at h
  · exact .inr (Option.some.inj h).symm
  · exact absurd h (by simp)

end Read

/-- The reads of the columns of `E` in a document, in order. -/
def reads (E : Type) [Struct E] (document : Json) : List Read :=
  (Struct.accessors (E := E)).map fun a ↦ ⟨document, a.name, a.column.type,
    a.column.isPrimarykey || (a.column.isOptional || a.column.isForeignkey)⟩

/-- The reads of a course: its columns, then those of its modules if it has any. -/
def courseReads (document : Json) : List Read :=
  reads Model.Course document ++
    match document.member "modules" with
    | some modules => (documents modules).flatMap (reads Model.Module)
    | none => []

/-! ## The error of a body -/

/-- Of the three ways to decode a column, two skip a member that is absent. -/
theorem errorOf_columnFromJson_of_isAbsent {E : Type} {document : Json} {a : Accessor E}
    {absent : Bool} (h : Json.isAbsent document a.name = .ok absent) :
    errorOf (Json.columnFromJson document a)
      = if (a.column.isPrimarykey || (a.column.isOptional || a.column.isForeignkey)) && absent
        then none else errorOf (Json.getValue document a) := by
  have hbind (f : Bool → Except Error (Option a.column.Value)) :
      (Json.isAbsent document a.name >>= f) = f absent := by rw [h]; rfl
  rw [Json.columnFromJson, hbind, hbind]
  cases a.column.isPrimarykey
  · cases a.column.isOptional || a.column.isForeignkey
    · exact errorOf_map _ _
    · cases absent
      · exact errorOf_map _ _
      · rfl
  · cases absent
    · exact errorOf_map _ _
    · rfl

theorem errorOf_columnFromJson {E : Type} (document : Json) (a : Accessor E) :
    errorOf (Json.columnFromJson document a)
      = Read.error ⟨document, a.name, a.column.type,
          a.column.isPrimarykey || (a.column.isOptional || a.column.isForeignkey)⟩ := by
  cases hmember : document.member a.name with
  | none =>
    rw [errorOf_columnFromJson_of_isAbsent (Json.isAbsent_of_not_member hmember),
      Read.error_of_not_member hmember, Bool.and_true, Json.getValue,
      Json.at_of_not_member hmember]
    rfl
  | some value =>
    have hvalue : errorOf (Json.getValue document a)
        = errorOf (Json.getAs a.column.type value) := by
      rw [Json.getValue, Json.at_of_member hmember]
      rfl
    rw [errorOf_columnFromJson_of_isAbsent (Json.isAbsent_of_member hmember),
      Read.error_of_member hmember, hvalue]

theorem errorOf_fromJson {E : Type} [Entity E] (junk : Int32) (document : Json) :
    errorOf (Json.fromJson junk document : Except Error E)
      = (reads E document).findSome? Read.error := by
  rw [Json.fromJson, errorOf_load, reads, List.findSome?_map]
  exact congrArg₂ _ (funext fun a ↦ errorOf_columnFromJson document a) rfl

/-- An entity without links is read by its columns. -/
theorem errorOf_leaf {E : Type} [Creatable E]
    (h : ∀ junk data (e : E), Creatable.deserializeSubentities junk data e = .ok e)
    (junk : List ℕ → Int32) (sub : Bool) (i : ℕ) (document : Json) :
    errorOf (deserializeEntity E junk sub i document)
      = (reads E document).findSome? Read.error := by
  rw [deserializeEntity]
  cases sub with
  | false => exact errorOf_fromJson _ _
  | true =>
    rw [if_pos rfl, errorOf_bind fun e ↦ by rw [h]; rfl, Option.or_none, errorOf_fromJson]

theorem errorOf_leaves {E : Type} [Creatable E]
    (h : ∀ junk data (e : E), Creatable.deserializeSubentities junk data e = .ok e)
    (junk : List ℕ → Int32) (sub : Bool) (data : Json) :
    errorOf (deserializeEntities E junk data sub)
      = ((documents data).flatMap (reads E)).findSome? Read.error := by
  rw [errorOf_deserializeEntities (errorOf_leaf h junk sub), findSome?_flatMap]

/-- The modules of a course are those of its member `modules`, if it has one. -/
theorem deserializeSubentities_course (junk : List ℕ → Int32) (document : Json)
    (c : Model.Course) :
    Model.Course.modulesLink.deserializeSubentities junk document c
      = match document.member "modules" with
        | none => .ok { c with modules := none }
        | some modules => (deserializeEntities Model.Module junk modules).map fun ms ↦
            { c with modules := some ms } := by
  rw [LinkMany.deserializeSubentities]
  have hname : Model.Course.modulesLink.name = "modules" := rfl
  rw [hname]
  cases hmember : document.member "modules" with
  | none => rw [if_pos (Json.count_eq_zero_iff.mpr hmember)]; rfl
  | some modules =>
    have hcount : document.count "modules" ≠ 0 := fun hzero ↦ by
      rw [Json.count_eq_zero_iff.mp hzero] at hmember
      exact absurd hmember (by simp)
    rw [if_neg hcount, Json.at_of_member hmember]
    rfl

theorem errorOf_modules (junk : List ℕ → Int32) (document : Json) (c : Model.Course) :
    errorOf (Model.Course.modulesLink.deserializeSubentities junk document c)
      = (match document.member "modules" with
        | some modules => (documents modules).flatMap (reads Model.Module)
        | none => []).findSome? Read.error := by
  rw [deserializeSubentities_course]
  cases document.member "modules" with
  | none => rfl
  | some modules =>
    rw [errorOf_map, errorOf_leaves fun _ _ _ ↦ rfl]

theorem errorOf_course (junk : List ℕ → Int32) (i : ℕ) (document : Json) :
    errorOf (deserializeEntity Model.Course junk true i document)
      = (courseReads document).findSome? Read.error := by
  rw [deserializeEntity, if_pos rfl, courseReads, List.findSome?_append, ← errorOf_fromJson]
  exact errorOf_bind fun c ↦ errorOf_modules _ document c

theorem errorOf_courses (junk : List ℕ → Int32) (data : Json) :
    errorOf (deserializeEntities Model.Course junk data true)
      = ((documents data).flatMap courseReads).findSome? Read.error := by
  rw [errorOf_deserializeEntities (errorOf_course junk), findSome?_flatMap]

/-! ## What is caught and what is not -/

/-- Decoding returns, or throws an exception of the JSON library. -/
def Decodes {α : Type} (x : Except Error α) : Prop := ∀ e, x = .error e → e.IsJsonException

/-- Whatever is undefined, something goes wrong before it is read. -/
def Shielded (rs : List Read) : Prop := Preceded (·.undefined) (·.wrong) rs

theorem shielded_iff {α : Type} {x : Except Error α} {rs : List Read}
    (h : errorOf x = rs.findSome? Read.error) :
    Shielded rs ↔ ∀ e, x = .error e → ¬e.IsUndefined := by
  simp only [← errorOf_eq_some_iff, h, findSome?_avoids_iff, Shielded,
    Read.error_isUndefined_iff, Read.error_not_isUndefined_iff]

theorem decodes_iff {α : Type} {x : Except Error α} {rs : List Read}
    (h : errorOf x = rs.findSome? Read.error) : Decodes x ↔ Shielded rs := by
  rw [shielded_iff h]
  -- an error here is undefined, or it is an exception of the library
  constructor
  · intro hdecodes e he
    rcases hdecodes e he with rfl | rfl <;> exact id
  · intro hdefined e he
    have hread := errorOf_eq_some_iff.mpr he
    rw [h] at hread
    obtain ⟨r, -, hr⟩ := List.exists_of_findSome?_eq_some hread
    exact Read.isJsonException_of_error hr (hdefined e he)

/-- **Decoding a body stays within what can be caught exactly when no member that is read without
asking is missing and no number that is read is too large**, or something goes wrong before that: at
the top level and, for courses, inside the modules. -/
theorem deserializeEntities_decodes_iff (junk : List ℕ → Int32) (data : Json) :
    (Decodes (deserializeEntities Model.User junk data true) ↔
        Shielded ((documents data).flatMap (reads Model.User))) ∧
      (Decodes (deserializeEntities Model.Course junk data true) ↔
        Shielded ((documents data).flatMap courseReads)) ∧
      (Decodes (deserializeEntities Model.Module junk data true) ↔
        Shielded ((documents data).flatMap (reads Model.Module))) :=
  ⟨decodes_iff (errorOf_leaves (fun _ _ _ ↦ rfl) junk true data),
    decodes_iff (errorOf_courses junk data),
    decodes_iff (errorOf_leaves (fun _ _ _ ↦ rfl) junk true data)⟩

/-- A floating-point number that no `std::int32_t` holds. -/
example : deserializeEntities Model.Module (fun _ ↦ 0) (.object [("title", .string "Groups"),
    ("course_id", .numberFloat 4294967297)]) true = .error .unrepresentable := by decide

/-- The empty object, as a user. -/
theorem deserializeEntities_undefined :
    ¬∀ (junk : List ℕ → Int32) (data : Json),
      Decodes (deserializeEntities Model.User junk data true) := by
  intro h
  have hmissing : deserializeEntities Model.User (fun _ ↦ 0) (.object []) true
      = .error .missingKey := by decide
  exact absurd (h _ _ _ hmissing) (by simp [Error.IsJsonException])

end Sphinx.Backend
