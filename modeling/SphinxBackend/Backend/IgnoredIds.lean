import SphinxBackend.Backend.Outcomes

/-!
# Ids in a request body

A primary key in a document is skipped, with a warning that it will not be deserialized. The warning
shows the value, and so the value is read as an integer after all: a document whose `id` is of
another type is refused because of it. Two bodies that differ in nothing but ids are decoded to the
same entities unless one has such an id and the other has none, and nothing else is wrong with
either.
-/

namespace Sphinx.Backend

open Db Nlohmann Collections

/-! ## Bodies that differ in ids -/

/-- The same members, but for the one named `id`. -/
def IdsApart (members members' : List (String × Json)) : Prop :=
  ∀ name, name ≠ "id" → members'.lookup name = members.lookup name

/-- The same members, but for the one named `id` and for those of the modules. -/
structure CourseIdsApart (members members' : List (String × Json)) : Prop where
  columns : ∀ name, name ≠ "id" → name ≠ "modules" → members'.lookup name = members.lookup name
  modules : Option.Rel (SameBody (Alike IdsApart)) (members.lookup "modules")
    (members'.lookup "modules")

/-- Something is wrong with an id. -/
def IdWrong (rs : List Read) : Prop := ∃ r ∈ rs, r.name = "id" ∧ r.wrong

/-- Something is wrong with another member. -/
def OtherWrong (rs : List Read) : Prop := ∃ r ∈ rs, r.name ≠ "id" ∧ r.wrong

/-- Nothing undefined is reached, and ids decide nothing: something else is wrong, or there is a
wrong id in both or in neither. -/
structure IdsIgnored (rs rs' : List Read) : Prop where
  shielded : Shielded rs
  shielded' : Shielded rs'
  agree : OtherWrong rs ∨ (IdWrong rs ↔ IdWrong rs')

/-! ## Their reads -/

/-- The reads are of the same name, and equally wrong unless they are of an id. -/
def SameRead (r r' : Read) : Prop := r'.name = r.name ∧ (r.name ≠ "id" → r'.wrong = r.wrong)

theorem otherWrong_iff {rs rs' : List Read} (h : List.Forall₂ SameRead rs rs') :
    OtherWrong rs ↔ OtherWrong rs' := by
  refine exists_mem_iff_of_forall₂ (fun r r' hr ↦ ?_) h
  rw [hr.1]
  refine and_congr_right fun hname ↦ ?_
  rw [hr.2 hname]

theorem exists_wrong_iff (rs : List Read) :
    (∃ r ∈ rs, r.wrong) ↔ OtherWrong rs ∨ IdWrong rs := by
  constructor
  · rintro ⟨r, hr, hwrong⟩
    by_cases hname : r.name = "id"
    · exact .inr ⟨r, hr, hname, hwrong⟩
    · exact .inl ⟨r, hr, hname, hwrong⟩
  · rintro (⟨r, hr, -, hwrong⟩ | ⟨r, hr, -, hwrong⟩) <;> exact ⟨r, hr, hwrong⟩

theorem sameOutcome_iff_idsIgnored {α β : Type} {R : α → β → Prop} {x : Except Error α}
    {y : Except Error β} {rs rs' : List Read} (hx : errorOf x = rs.findSome? Read.error)
    (hy : errorOf y = rs'.findSome? Read.error) (hR : ∀ a b, x = .ok a → y = .ok b → R a b)
    (hreads : List.Forall₂ SameRead rs rs') : SameOutcome R x y ↔ IdsIgnored rs rs' := by
  have hagree : ((∃ r ∈ rs, r.wrong) ↔ ∃ r ∈ rs', r.wrong) ↔
      OtherWrong rs ∨ (IdWrong rs ↔ IdWrong rs') := by
    rw [exists_wrong_iff, exists_wrong_iff, ← otherWrong_iff hreads]
    tauto
  rw [sameOutcome_iff hx hy hR, hagree]
  exact ⟨fun h ↦ ⟨h.1, h.2.1, h.2.2⟩, fun h ↦ ⟨h.shielded, h.shielded', h.agree⟩⟩

section Document

variable {d d' : Json}

theorem Alike.member_of_idsApart (h : Alike IdsApart d d') {name : String} (hname : name ≠ "id") :
    d'.member name = d.member name := by
  rcases h with rfl | ⟨members, members', rfl, rfl, hP⟩
  · rfl
  · exact hP name hname

theorem Alike.member_of_courseIdsApart (h : Alike CourseIdsApart d d') {name : String}
    (hname : name ≠ "id") (hmodules : name ≠ "modules") : d'.member name = d.member name := by
  rcases h with rfl | ⟨members, members', rfl, rfl, hP⟩
  · rfl
  · exact hP.columns name hname hmodules

theorem Alike.modules_of_courseIdsApart (h : Alike CourseIdsApart d d') :
    Option.Rel (SameBody (Alike IdsApart)) (d.member "modules") (d'.member "modules") := by
  rcases h with rfl | ⟨members, members', rfl, rfl, hP⟩
  · cases d'.member "modules" with
    | none => exact .none
    | some v => exact .some (.single (.inl rfl))
  · exact hP.modules

/-- Documents with the same members but for `id` have the same reads but for that of the id. -/
theorem forall₂_reads {E : Type} [Struct E] (hobject : d'.isObject = d.isObject)
    (hmember : ∀ a ∈ Struct.accessors (E := E), a.name ≠ "id" →
      d'.member a.name = d.member a.name) :
    List.Forall₂ SameRead (reads E d) (reads E d') := by
  rw [reads, reads, List.forall₂_map_left_iff, List.forall₂_map_right_iff, List.forall₂_same]
  refine fun a ha ↦ ⟨rfl, fun hname ↦ ?_⟩
  rw [Read.wrong, Read.wrong]
  simp only [hmember a ha hname, hobject]

theorem readAlike_of_members {E : Type} [Entity E] (hobject : d'.isObject = d.isObject)
    (hmember : ∀ a ∈ Struct.accessors (E := E), a.name ≠ "id" →
      d'.member a.name = d.member a.name) : ReadAlike E d d' := fun a ha ↦
  Json.columnFromJson_congr hobject
    (hmember a (mem_accessors_of_mem_insertColumns ha) (name_ne_id ha))

theorem forall₂_reads_of_alike {E : Type} [Struct E] (h : Alike IdsApart d d') :
    List.Forall₂ SameRead (reads E d) (reads E d') :=
  forall₂_reads h.isObject fun _ _ hname ↦ h.member_of_idsApart hname

theorem readAlike_of_alike {E : Type} [Entity E] (h : Alike IdsApart d d') : ReadAlike E d d' :=
  readAlike_of_members h.isObject fun _ _ hname ↦ h.member_of_idsApart hname

/-- The link is no column. -/
theorem Alike.column_of_courseIdsApart (h : Alike CourseIdsApart d d') {a : Accessor Model.Course}
    (ha : a ∈ Struct.accessors) (hname : a.name ≠ "id") : d'.member a.name = d.member a.name :=
  h.member_of_courseIdsApart hname
    ((show ∀ a ∈ Struct.accessors (E := Model.Course), a.name ≠ "modules" by decide) a ha)

theorem forall₂_courseReads (h : Alike CourseIdsApart d d') :
    List.Forall₂ SameRead (courseReads d) (courseReads d') := by
  refine List.rel_append (forall₂_reads h.isObject fun _ ha hname ↦
    h.column_of_courseIdsApart ha hname) ?_
  have hmodules := h.modules_of_courseIdsApart
  generalize d.member "modules" = o, d'.member "modules" = o' at hmodules
  cases hmodules with
  | none => exact .nil
  | some hbody => exact List.rel_flatMap hbody.documents fun _ _ ↦ forall₂_reads_of_alike

theorem course_readAlike_of_alike (h : Alike CourseIdsApart d d') :
    Model.Course.ReadAlike d d' := by
  refine ⟨readAlike_of_members h.isObject fun _ ha hname ↦ h.column_of_courseIdsApart ha hname, ?_⟩
  have hmodules := h.modules_of_courseIdsApart
  generalize d.member "modules" = o, d'.member "modules" = o' at hmodules
  cases hmodules with
  | none => exact .none
  | some hbody => exact .some (hbody.documents.imp fun _ _ ↦ readAlike_of_alike)

end Document

/-- **The ids of a request body are ignored**, unless something undefined is reached or a wrong id
is the only thing that is wrong. -/
theorem sameOutcome_iff_of_idsApart {E : Type} [Entity E] {d d' data data' : Json}
    (hd : Alike IdsApart d d') (hdata : SameBody (Alike CourseIdsApart) data data')
    (junk junk' : List ℕ → Int32) :
    (SameOutcome SameColumns (Json.fromJson (junk []) d : Except Error E)
        (Json.fromJson (junk' []) d') ↔ IdsIgnored (reads E d) (reads E d')) ∧
      (SameOutcome (List.Forall₂ Model.Course.SameButIds)
          (deserializeEntities Model.Course junk data true)
          (deserializeEntities Model.Course junk' data' true) ↔
        IdsIgnored ((documents data).flatMap courseReads)
          ((documents data').flatMap courseReads)) := by
  constructor
  · exact sameOutcome_iff_idsIgnored (errorOf_fromJson _ d) (errorOf_fromJson _ d')
      (fun e e' ↦ sameColumns_of_readAlike (readAlike_of_alike hd)) (forall₂_reads_of_alike hd)
  · refine sameOutcome_iff_idsIgnored (errorOf_courses junk data) (errorOf_courses junk' data')
      (fun cs cs' ↦ ?_) (List.rel_flatMap hdata.documents fun _ _ ↦ forall₂_courseReads)
    refine forall₂_of_two_deserializeEntities (fun i d d' hd c c' ↦ ?_) hdata.documents
    exact Model.sameButIds_of_readAlike (course_readAlike_of_alike hd)

/-! ## Two bodies -/

/-- An id put behind the other members. -/
theorem idsApart_append (members : List (String × Json)) (id : Json) :
    IdsApart members (members ++ [("id", id)]) := fun _ hname ↦
  lookup_append_singleton_of_ne members id hname

theorem alike_append (members : List (String × Json)) (id : Json) :
    Alike IdsApart (.object members) (.object (members ++ [("id", id)])) :=
  .inr ⟨_, _, rfl, rfl, idsApart_append members id⟩

/-- A module with an id that is a text is refused. -/
theorem fromJson_reads_id :
    ¬∀ d d', Alike IdsApart d d' → SameOutcome SameColumns
      (Json.fromJson 0 d : Except Error Model.Module) (Json.fromJson 0 d') := by
  intro h
  have hreturns : (Json.fromJson 0 (.object [("title", .string "Groups")]) : Except Error _)
      = .ok (⟨0, 0, "Groups", none⟩ : Model.Module) := by decide
  have hthrows : (Json.fromJson 0 (.object [("title", .string "Groups"), ("id", .string "x")])
      : Except Error Model.Module) = .error .typeError := by decide
  rcases h _ _ (alike_append [("title", .string "Groups")] (.string "x")) with
    ⟨m, m', -, hm', -⟩ | ⟨e, e', he, -⟩
  · exact absurd (hthrows.symm.trans hm') (by simp)
  · exact absurd (hreturns.symm.trans he) (by simp)

/-- A course with an id, or none, for itself and its module. -/
def courseBody (id moduleId : List (String × Json)) : Json :=
  .array [.object ([("title", .string "Algebra"), ("owner_id", .numberUnsigned 1),
    ("modules", .array [.object ([("title", .string "Groups")] ++ moduleId)])] ++ id)]

theorem sameBody_courseBody (id moduleId : Json) : SameBody (Alike CourseIdsApart)
    (courseBody [] []) (courseBody [("id", id)] [("id", moduleId)]) := by
  refine .array (.cons (.inr ⟨_, _, rfl, rfl, fun name hid hmodules ↦ ?_, ?_⟩) .nil)
  · simp only [List.append_nil, List.cons_append, List.nil_append, List.lookup_cons,
      beq_eq_false_iff_ne.mpr hid, beq_eq_false_iff_ne.mpr hmodules]
  · exact .some (.array (.cons (alike_append [("title", .string "Groups")] moduleId) .nil))

theorem sameOutcome_of_idsApart_algebra :
    SameOutcome SameColumns
        (Json.fromJson 0 (.object [("title", .string "Groups")]) : Except Error Model.Module)
        (Json.fromJson 3 (.object [("title", .string "Groups"), ("id", .numberInteger 5)])) ∧
      SameOutcome (List.Forall₂ Model.Course.SameButIds)
        (deserializeEntities Model.Course (fun _ ↦ 0) (courseBody [] []) true)
        (deserializeEntities Model.Course (fun _ ↦ 3)
          (courseBody [("id", .null)] [("id", .numberUnsigned 9)]) true) := by
  have h := sameOutcome_iff_of_idsApart (E := Model.Module)
    (alike_append [("title", .string "Groups")] (.numberInteger 5))
    (sameBody_courseBody .null (.numberUnsigned 9)) (fun _ ↦ 0) fun _ ↦ 3
  refine ⟨h.1.mpr
      ⟨shielded_of_not_undefined (by decide), shielded_of_not_undefined (by decide), ?_⟩,
    h.2.mpr ⟨shielded_of_not_undefined (by decide), shielded_of_not_undefined (by decide), ?_⟩⟩
  · unfold IdWrong
    exact .inr (by decide)
  · unfold IdWrong
    exact .inr (by decide)

end Sphinx.Backend
