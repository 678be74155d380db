import SphinxBackend.Backend.Outcomes

/-!
# Null members of a request body

A column that may be left out may as well be null: the decoder asks for both. For the link of a
course it asks only whether the member is there. So a body decodes alike with and without any of its
null members, except for `modules`. A course whose modules are null is taken for one with a single
module, which is null and has no title.
-/

namespace Sphinx.Backend

open Db Nlohmann Collections

/-! ## Leaving out null members -/

variable (E : Type) [Struct E] in
/-- A column that may be left out has this name. -/
def MayBeLeftOut (name : String) : Prop :=
  ∃ a ∈ Struct.accessors (E := E), a.name = name ∧
    (a.column.isOptional || a.column.isForeignkey) = true

variable (E : Type) [Struct E] in
/-- The member is the same, or it was null and has been left out. -/
def LeftOut (members members' : List (String × Json)) (name : String) : Prop :=
  members'.lookup name = members.lookup name ∨
    MayBeLeftOut E name ∧ members.lookup name = some .null ∧ members'.lookup name = none

variable (E : Type) [Struct E] in
/-- Null members of the entity have been left out. -/
def LeavesOut (members members' : List (String × Json)) : Prop :=
  ∀ name, LeftOut E members members' name

/-- Null members of the course have been left out, its link among them, and of its modules. -/
structure CourseLeavesOut (members members' : List (String × Json)) : Prop where
  columns : ∀ name, name ≠ "modules" → LeftOut Model.Course members members' name
  modules : members.lookup "modules" = some .null ∧ members'.lookup "modules" = none ∨
    Option.Rel (SameBody (Alike (LeavesOut Model.Module))) (members.lookup "modules")
      (members'.lookup "modules")

/-- The link has not been left out. -/
def KeepsLink (d d' : Json) : Prop := d'.member "modules" = none → d.member "modules" = none

/-! ## Documents -/

section Columns

variable {E : Type} [Struct E] {members members' : List (String × Json)}

theorem columnFromJson_of_leftOut {a : Accessor E} (ha : a ∈ Struct.accessors (E := E))
    (h : LeftOut E members members' a.name) :
    Json.columnFromJson (.object members') a = Json.columnFromJson (.object members) a := by
  rcases h with hsame | ⟨⟨b, hb, hname, hmayMiss⟩, hnull, hnone⟩
  · exact Json.columnFromJson_congr rfl hsame
  · -- a name is that of one column only
    obtain rfl : b = a := List.inj_on_of_nodup_map Struct.names_nodup hb ha hname
    exact Json.columnFromJson_of_null hmayMiss hnull hnone

theorem fromJson_of_leftOut (h : ∀ a ∈ Struct.accessors (E := E), LeftOut E members members' a.name)
    (junk : Int32) : (Json.fromJson junk (.object members') : Except Error E)
      = Json.fromJson junk (.object members) :=
  load_congr fun a ha ↦ columnFromJson_of_leftOut ha (h a ha)

end Columns

theorem fromJson_of_alike {E : Type} [Struct E] {d d' : Json} (h : Alike (LeavesOut E) d d')
    (junk : Int32) : (Json.fromJson junk d' : Except Error E) = Json.fromJson junk d := by
  rcases h with rfl | ⟨members, members', rfl, rfl, hP⟩
  · rfl
  · exact fromJson_of_leftOut (fun a _ ↦ hP a.name) junk

theorem fromJson_course_of_alike {d d' : Json} (h : Alike CourseLeavesOut d d') (junk : Int32) :
    (Json.fromJson junk d' : Except Error Model.Course) = Json.fromJson junk d := by
  rcases h with rfl | ⟨members, members', rfl, rfl, hP⟩
  · rfl
  · refine fromJson_of_leftOut (fun a ha ↦ hP.columns a.name ?_) junk
    exact (show ∀ a ∈ Struct.accessors (E := Model.Course), a.name ≠ "modules" by decide) a ha

section Lists

variable {E : Type} [Creatable E] {junk : List ℕ → Int32} {sub : Bool}

/-- Bodies with equal documents are equal. -/
theorem deserializeEntities_congr {S : Json → Json → Prop}
    (h : ∀ i d d', S d d' →
      deserializeEntity E junk sub i d' = deserializeEntity E junk sub i d)
    {data data' : Json} (hdata : List.Forall₂ S (documents data) (documents data')) :
    deserializeEntities E junk data' sub = deserializeEntities E junk data sub := by
  rw [deserializeEntities_eq, deserializeEntities_eq]
  refine (mapM_congr_of_forall₂ (fun p _ q hpq ↦ ?_) (forall₂_zipIdx hdata 0)).symm
  rw [← hpq.2]
  exact (h p.2 p.1 q.1 hpq.1).symm

/-- An entity without links is decoded alike. -/
theorem deserializeEntity_of_alike
    (hleaf : ∀ junk data (e : E), Creatable.deserializeSubentities junk data e = .ok e) {i : ℕ}
    {d d' : Json} (h : Alike (LeavesOut E) d d') :
    deserializeEntity E junk sub i d' = deserializeEntity E junk sub i d := by
  rw [deserializeEntity, deserializeEntity, fromJson_of_alike h]
  simp only [hleaf]

end Lists

/-! ## Courses -/

section Course

variable {junk : List ℕ → Int32}

theorem deserializeModules_of_alike {data data' : Json}
    (h : SameBody (Alike (LeavesOut Model.Module)) data data') :
    deserializeEntities Model.Module junk data' = deserializeEntities Model.Module junk data :=
  deserializeEntities_congr (fun _ _ _ ↦ deserializeEntity_of_alike fun _ _ _ ↦ rfl) h.documents

/-- A course that keeps its link is decoded alike. -/
theorem deserializeEntity_course_of_keepsLink {i : ℕ} {d d' : Json}
    (h : Alike CourseLeavesOut d d') (hkeeps : KeepsLink d d') :
    deserializeEntity Model.Course junk true i d'
      = deserializeEntity Model.Course junk true i d := by
  rw [deserializeEntity, deserializeEntity, if_pos rfl, if_pos rfl, fromJson_course_of_alike h]
  refine congrArg _ (funext fun c ↦ ?_)
  change Model.Course.modulesLink.deserializeSubentities _ d' c
    = Model.Course.modulesLink.deserializeSubentities _ d c
  rw [deserializeSubentities_course, deserializeSubentities_course]
  rcases h with rfl | ⟨members, members', rfl, rfl, hP⟩
  · rfl
  · rcases hP.modules with ⟨hnull, hnone⟩ | hmodules
    · exact absurd ((hkeeps hnone).symm.trans hnull) (by simp)
    · change Option.Rel _ ((Json.object members).member "modules")
        ((Json.object members').member "modules") at hmodules
      generalize (Json.object members).member "modules" = o,
        (Json.object members').member "modules" = o' at hmodules
      cases hmodules with
      | none => rfl
      | some hbody =>
        change (deserializeEntities _ _ _).map _ = (deserializeEntities _ _ _).map _
        rw [deserializeModules_of_alike hbody]

/-- A link that has been left out was null. -/
theorem member_of_not_keepsLink {d d' : Json} (h : Alike CourseLeavesOut d d')
    (hkeeps : ¬KeepsLink d d') :
    d.member "modules" = some .null ∧ d'.member "modules" = none := by
  rw [KeepsLink, Classical.not_imp] at hkeeps
  rcases h with rfl | ⟨members, members', rfl, rfl, hP⟩
  · exact absurd hkeeps.1 hkeeps.2
  · rcases hP.modules with hnull | hmodules
    · exact hnull
    · have hnone : members'.lookup "modules" = none := hkeeps.1
      rw [hnone] at hmodules
      generalize hlookup : members.lookup "modules" = o at hmodules
      cases hmodules with
      | none => exact absurd hlookup hkeeps.2

theorem findSome?_courseReads_of_keepsLink {d d' : Json} (h : Alike CourseLeavesOut d d')
    (hkeeps : KeepsLink d d') :
    (courseReads d').findSome? Read.error = (courseReads d).findSome? Read.error := by
  rw [← errorOf_course (fun _ ↦ 0) 0, ← errorOf_course (fun _ ↦ 0) 0,
    deserializeEntity_course_of_keepsLink h hkeeps]

/-- A course that loses its link was refused, if for nothing else then for its null modules. -/
theorem findSome?_courseReads_of_not_keepsLink {d d' : Json} (h : Alike CourseLeavesOut d d')
    (hkeeps : ¬KeepsLink d d') : (courseReads d).findSome? Read.error
      = ((courseReads d').findSome? Read.error).or (some .typeError) := by
  obtain ⟨hnull, hnone⟩ := member_of_not_keepsLink h hkeeps
  have htitle : ((documents .null).flatMap (reads Model.Module)).findSome? Read.error
      = some .typeError := by decide
  have hcolumns : (reads Model.Course d').findSome? Read.error
      = (reads Model.Course d).findSome? Read.error := by
    rw [← errorOf_fromJson 0, ← errorOf_fromJson 0, fromJson_course_of_alike h]
  rw [courseReads, courseReads, hnull, hnone, List.append_nil, List.findSome?_append, hcolumns]
  exact congrArg _ htitle

end Course

/-! ## Bodies of courses -/

/-- No course of the body has lost its link. -/
def KeepsLinks (data data' : Json) : Prop :=
  List.Forall₂ KeepsLink (documents data) (documents data')

section Body

variable {junk : List ℕ → Int32} {data data' : Json}

/-- The error is the same, or it is that of null modules that have been left out. -/
theorem errorOf_courses_cases (h : SameBody (Alike CourseLeavesOut) data data') :
    errorOf (deserializeEntities Model.Course junk data true)
        = errorOf (deserializeEntities Model.Course junk data' true) ∨
      errorOf (deserializeEntities Model.Course junk data true) = some .typeError := by
  rw [errorOf_deserializeEntities (errorOf_course junk),
    errorOf_deserializeEntities (errorOf_course junk)]
  have hdocuments := h.documents
  generalize documents data = l, documents data' = l' at hdocuments
  induction hdocuments with
  | nil => exact .inl rfl
  | @cons d d' l l' hd _ ih =>
    rw [List.findSome?_cons, List.findSome?_cons]
    by_cases hkeeps : KeepsLink d d'
    · rw [findSome?_courseReads_of_keepsLink hd hkeeps]
      cases (courseReads d).findSome? Read.error with
      | some e => exact .inl rfl
      | none => exact ih
    · rw [findSome?_courseReads_of_not_keepsLink hd hkeeps]
      cases (courseReads d').findSome? Read.error with
      | some e => exact .inl rfl
      | none => exact .inr rfl

/-- A body that is decoded has no null modules to lose. -/
theorem keepsLinks_of_ok (h : SameBody (Alike CourseLeavesOut) data data') {cs : List Model.Course}
    (hok : deserializeEntities Model.Course junk data true = .ok cs) : KeepsLinks data data' := by
  have hnone := errorOf_eq_none_iff.mpr ⟨cs, hok⟩
  rw [errorOf_deserializeEntities (errorOf_course junk), List.findSome?_eq_none_iff] at hnone
  refine ((List.forall₂_and_left _ _).mpr ⟨hnone, h.documents⟩).imp fun d d' hd ↦ ?_
  by_contra hkeeps
  have herror := hd.1
  rw [findSome?_courseReads_of_not_keepsLink hd.2 hkeeps] at herror
  exact absurd herror (by simp)

/-- Bodies that keep their links are decoded alike. -/
theorem deserializeCourses_of_keepsLinks (h : SameBody (Alike CourseLeavesOut) data data')
    (hkeeps : KeepsLinks data data') :
    deserializeEntities Model.Course junk data' true
      = deserializeEntities Model.Course junk data true := by
  have hdocuments : List.Forall₂ (fun d d' ↦ Alike CourseLeavesOut d d' ∧ KeepsLink d d')
      (documents data) (documents data') := by
    rw [List.forall₂_iff_zip]
    exact ⟨hkeeps.length_eq, fun hmem ↦
      ⟨(List.forall₂_iff_zip.mp h.documents).2 hmem, (List.forall₂_iff_zip.mp hkeeps).2 hmem⟩⟩
  exact deserializeEntities_congr
    (fun i d d' hd ↦ deserializeEntity_course_of_keepsLink hd.1 hd.2) hdocuments

theorem sameOutcome_courses_iff (h : SameBody (Alike CourseLeavesOut) data data') :
    SameOutcome Eq (deserializeEntities Model.Course junk data true)
        (deserializeEntities Model.Course junk data' true) ↔
      Shielded ((documents data').flatMap courseReads) ∧
        (KeepsLinks data data' ∨ ∃ r ∈ (documents data').flatMap courseReads, r.wrong) := by
  have herror := errorOf_courses junk data'
  constructor
  · rintro (⟨cs, cs', hcs, hcs', -⟩ | ⟨e, e', he, he', -, hcaught⟩)
    · exact ⟨shielded_of_ok herror hcs', .inl (keepsLinks_of_ok h hcs)⟩
    · have hshielded := shielded_of_caught herror he' hcaught
      exact ⟨hshielded, .inr (exists_wrong_of_error herror hshielded he')⟩
  · rintro ⟨hshielded, hkeeps | hwrong⟩
    · rw [← deserializeCourses_of_keepsLinks h hkeeps]
      exact (sameOutcome_self_iff herror).mpr hshielded
    · cases hbody' : deserializeEntities Model.Course junk data' true with
      | ok cs' => exact absurd hwrong (not_wrong_of_ok herror hbody')
      | error e' =>
        have hcaught := (decodes_iff herror).mpr hshielded e' hbody'
        rcases errorOf_courses_cases h with hsame | htype
        · rw [hbody'] at hsame
          exact .inr ⟨e', e', errorOf_eq_some_iff.mp hsame, rfl, hcaught, hcaught⟩
        · exact .inr ⟨.typeError, e', errorOf_eq_some_iff.mp htype, rfl, .inr rfl, hcaught⟩

theorem sameOutcome_leaves_iff {E : Type} [Creatable E]
    (hleaf : ∀ junk data (e : E), Creatable.deserializeSubentities junk data e = .ok e)
    (h : SameBody (Alike (LeavesOut E)) data data') :
    SameOutcome Eq (deserializeEntities E junk data true) (deserializeEntities E junk data' true) ↔
      Shielded ((documents data').flatMap (reads E)) := by
  rw [← deserializeEntities_congr (fun _ _ _ ↦ deserializeEntity_of_alike hleaf) h.documents]
  exact sameOutcome_self_iff (errorOf_leaves hleaf junk true data')

end Body

/-- **Leaving out null members does not change the outcome**, unless something undefined is reached
or null modules are left out of a body in which nothing else is wrong. -/
theorem sameOutcome_iff_of_leavesOut (junk : List ℕ → Int32) (data data' : Json) :
    (SameBody (Alike (LeavesOut Model.User)) data data' →
        (SameOutcome Eq (deserializeEntities Model.User junk data true)
            (deserializeEntities Model.User junk data' true) ↔
          Shielded ((documents data').flatMap (reads Model.User)))) ∧
      (SameBody (Alike CourseLeavesOut) data data' →
        (SameOutcome Eq (deserializeEntities Model.Course junk data true)
            (deserializeEntities Model.Course junk data' true) ↔
          Shielded ((documents data').flatMap courseReads) ∧
            (KeepsLinks data data' ∨ ∃ r ∈ (documents data').flatMap courseReads, r.wrong))) ∧
      (SameBody (Alike (LeavesOut Model.Module)) data data' →
        (SameOutcome Eq (deserializeEntities Model.Module junk data true)
            (deserializeEntities Model.Module junk data' true) ↔
          Shielded ((documents data').flatMap (reads Model.Module)))) :=
  ⟨sameOutcome_leaves_iff fun _ _ _ ↦ rfl, sameOutcome_courses_iff,
    sameOutcome_leaves_iff fun _ _ _ ↦ rfl⟩

/-! ## Some bodies -/

/-- A null member at the end has been left out. -/
theorem leftOut_snoc (E : Type) [Struct E] {members : List (String × Json)} {key : String}
    (hkey : MayBeLeftOut E key) (hnew : members.lookup key = none) (name : String) :
    LeftOut E (members ++ [(key, .null)]) members name := by
  by_cases hname : name = key
  · subst hname
    refine .inr ⟨hkey, ?_, hnew⟩
    rw [List.lookup_append, hnew, List.lookup_cons, beq_self_eq_true]
    rfl
  · exact .inl (lookup_append_singleton_of_ne members .null hname).symm

/-- Null modules of a course are taken for a module. -/
theorem deserializeCourses_null_modules :
    ¬∀ data data', SameBody (Alike CourseLeavesOut) data data' →
      SameOutcome Eq (deserializeEntities Model.Course (fun _ ↦ 0) data true)
        (deserializeEntities Model.Course (fun _ ↦ 0) data' true) := by
  intro h
  have hbody : SameBody (Alike CourseLeavesOut)
      (.object [("title", .string "Algebra"), ("owner_id", .numberUnsigned 1), ("modules", .null)])
      (.object [("title", .string "Algebra"), ("owner_id", .numberUnsigned 1)]) := by
    refine .single (.inr ⟨_, _, rfl, rfl, fun name hname ↦ .inl ?_, .inl ⟨rfl, rfl⟩⟩)
    exact (lookup_append_singleton_of_ne [("title", Json.string "Algebra"),
      ("owner_id", .numberUnsigned 1)] Json.null hname).symm
  rcases h _ _ hbody with ⟨cs, cs', hcs, -⟩ | ⟨e, e', -, he', -⟩
  · have hthrows : deserializeEntities Model.Course (fun _ ↦ 0) (.object [("title",
        .string "Algebra"), ("owner_id", .numberUnsigned 1), ("modules", .null)]) true
        = .error .typeError := by decide
    exact absurd (hthrows.symm.trans hcs) (by simp)
  · have hreturns : deserializeEntities Model.Course (fun _ ↦ 0) (.object [("title",
        .string "Algebra"), ("owner_id", .numberUnsigned 1)]) true
        = .ok [⟨0, "Algebra", none, 1, none⟩] := by decide
    exact absurd (hreturns.symm.trans he') (by simp)

/-- The same user without a student id and with a null one. -/
theorem sameBody_user (members : List (String × Json)) (h : members.lookup "student_id" = none) :
    SameBody (Alike (LeavesOut Model.User)) (.object (members ++ [("student_id", .null)]))
      (.object members) :=
  .single (.inr ⟨_, _, rfl, rfl, leftOut_snoc Model.User (by unfold MayBeLeftOut; decide) h⟩)

theorem alike_module (members : List (String × Json)) (h : members.lookup "description" = none) :
    Alike (LeavesOut Model.Module) (.object (members ++ [("description", .null)]))
      (.object members) :=
  .inr ⟨_, _, rfl, rfl, leftOut_snoc Model.Module (by unfold MayBeLeftOut; decide) h⟩

/-- A course with a module, and null descriptions of both or none. -/
def algebraBody (description moduleDescription : List (String × Json)) : Json :=
  .array [.object ([("title", .string "Algebra"), ("owner_id", .numberUnsigned 1),
    ("modules", .array [.object ([("title", .string "Groups")] ++ moduleDescription)])]
    ++ description)]

theorem sameBody_algebraBody : SameBody (Alike CourseLeavesOut)
    (algebraBody [("description", .null)] [("description", .null)]) (algebraBody [] []) := by
  refine .array (.cons (.inr ⟨_, _, rfl, rfl, fun name hname ↦ ?_, .inr ?_⟩) .nil)
  · by_cases hdescription : name = "description"
    · subst hdescription
      exact .inr ⟨by unfold MayBeLeftOut; decide, rfl, rfl⟩
    · refine .inl ?_
      simp only [List.append_nil, List.cons_append, List.nil_append, List.lookup_cons,
        beq_eq_false_iff_ne.mpr hname, beq_eq_false_iff_ne.mpr hdescription]
  · exact .some (.array (.cons (alike_module [("title", .string "Groups")] rfl) .nil))

theorem sameOutcome_of_leavesOut_each :
    SameOutcome Eq
        (deserializeEntities Model.User (fun _ ↦ 0) (.object ([("firstname", .string "Ada"),
          ("lastname", .string "Byron"), ("username", .string "ada"), ("email", .string "a@b"),
          ("role", .string "teacher")] ++ [("student_id", .null)])) true)
        (deserializeEntities Model.User (fun _ ↦ 0) (.object [("firstname", .string "Ada"),
          ("lastname", .string "Byron"), ("username", .string "ada"), ("email", .string "a@b"),
          ("role", .string "teacher")]) true) ∧
      SameOutcome Eq
        (deserializeEntities Model.Course (fun _ ↦ 0)
          (algebraBody [("description", .null)] [("description", .null)]) true)
        (deserializeEntities Model.Course (fun _ ↦ 0) (algebraBody [] []) true) ∧
      SameOutcome Eq
        (deserializeEntities Model.Module (fun _ ↦ 0)
          (.object ([("title", .string "Groups")] ++ [("description", .null)])) true)
        (deserializeEntities Model.Module (fun _ ↦ 0)
          (.object [("title", .string "Groups")]) true) := by
  have hlink : KeepsLinks (algebraBody [("description", .null)] [("description", .null)])
      (algebraBody [] []) := .cons (fun h ↦ absurd h (by simp [Json.member])) .nil
  exact ⟨((sameOutcome_iff_of_leavesOut _ _ _).1 (sameBody_user _ rfl)).mpr
      (shielded_of_not_undefined (by decide)),
    ((sameOutcome_iff_of_leavesOut _ _ _).2.1 sameBody_algebraBody).mpr
      ⟨shielded_of_not_undefined (by decide), .inl hlink⟩,
    ((sameOutcome_iff_of_leavesOut _ _ _).2.2 (.single (alike_module _ rfl))).mpr
      (shielded_of_not_undefined (by decide))⟩

end Sphinx.Backend
