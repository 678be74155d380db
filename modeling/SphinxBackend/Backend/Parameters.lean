import SphinxBackend.Backend.App
import SphinxBackend.Db.Insertion

/-!
# The parameters of a statement

`exec` goes through its list of values twice: once to collect the pointers for the server, and once
to render the values for the log. The first traversal asks whether a value is there. The second
does not, so it is defined exactly for lists without absent values.

The pointers come without lengths. What the server reads at a pointer is the value's text as long as
the text has no NUL, and integers never have one.
-/

namespace Sphinx.Backend

open Db Interaction Program

/-- The program never renders an absent value. -/
def NoStrayRead {α : Type} (p : DbProgram α) : Prop := Sends (fun c ↦ c.argsStr.isSome) p

/-- The fold stops at the first absent value. -/
theorem argsStr_isSome_iff (args : ValueList) :
    (argsStr args).isSome ↔ ∀ v ∈ args, v.isSome := by
  rw [argsStr]
  generalize "" = a
  induction args generalizing a with
  | nil => exact iff_of_true rfl fun v hv ↦ absurd hv List.not_mem_nil
  | cons v args ih =>
    rw [List.foldlM_cons, List.forall_mem_cons]
    cases v with
    | none => exact iff_of_false (by simp) fun h ↦ absurd h.1 (by simp)
    | some s => exact (ih _).trans (and_iff_right rfl).symm

theorem noStrayRead_exec_iff (text : String) (args : ValueList) :
    NoStrayRead (exec text args) ↔ ∀ v ∈ args, v.isSome := by
  rw [← argsStr_isSome_iff]
  constructor
  · rintro ⟨⟩
    assumption
  · intro h
    exact .call h fun r ↦ .pure r

theorem noStrayRead_insert_iff {E : Type} [Entity E] (e : E) :
    NoStrayRead (insert e) ↔ ∀ a ∈ getInsertColumns E, (a.get e).toPlain.isSome := by
  have hvalues : (∀ v ∈ makeValueList (getValuesToInsert e), v.isSome) ↔
      ∀ a ∈ getInsertColumns E, (a.get e).toPlain.isSome := by
    rw [makeValueList_getValuesToInsert, List.forall_mem_map]
    refine forall₂_congr fun a _ ↦ ?_
    rw [ValueOf.toOptionalString_eq, Option.isSome_map]
  rw [← hvalues, ← argsStr_isSome_iff]
  constructor
  · rintro ⟨⟩
    assumption
  · intro h
    exact .call h fun r ↦ .ofExcept _

/-- **Rendering the parameters is defined exactly when none of them is absent**: for any list of
values, and so for the entities, whose only absent values are those of their optional columns. -/
theorem noStrayRead_iff (text : String) (args : ValueList) (user : Model.User)
    (course : Model.Course) (module : Model.Module) :
    (NoStrayRead (exec text args) ↔ ∀ v ∈ args, v.isSome) ∧
      (NoStrayRead (insert user) ↔ user.studentId.isSome) ∧
      (NoStrayRead (insert course) ↔ course.description.isSome) ∧
      (NoStrayRead (insert module) ↔ module.description.isSome) := by
  refine ⟨noStrayRead_exec_iff text args, ?_, ?_, ?_⟩
  · have hcolumns : getInsertColumns Model.User = Model.User.accessors.tail := rfl
    rw [noStrayRead_insert_iff, hcolumns]
    simp only [Model.User.accessors, List.tail_cons, List.forall_mem_cons]
    exact ⟨fun h ↦ h.2.2.2.1, fun h ↦ ⟨rfl, rfl, rfl, h, rfl, rfl, List.forall_mem_nil _⟩⟩
  · have hcolumns : getInsertColumns Model.Course = Model.Course.accessors.tail := rfl
    rw [noStrayRead_insert_iff, hcolumns]
    simp only [Model.Course.accessors, List.tail_cons, List.forall_mem_cons]
    exact ⟨fun h ↦ h.2.1, fun h ↦ ⟨rfl, h, rfl, List.forall_mem_nil _⟩⟩
  · have hcolumns : getInsertColumns Model.Module = Model.Module.accessors.tail := rfl
    rw [noStrayRead_insert_iff, hcolumns]
    simp only [Model.Module.accessors, List.tail_cons, List.forall_mem_cons]
    exact ⟨fun h ↦ h.2.2.1, fun h ↦ ⟨rfl, rfl, h, List.forall_mem_nil _⟩⟩

/-- A teacher has no student id, and inserting one reads it all the same. -/
theorem insert_strayRead :
    ¬NoStrayRead (insert
      (⟨0, "Ada", "Byron", "ada", none, "byron@example", "teacher"⟩ : Model.User)) := by
  intro h
  cases h with
  | call hargs _ => exact absurd hargs (by decide)

/-! ## What the server reads -/

/-- The text of a value has a NUL. -/
def hasNul : (t : ColumnType) → t.Denote → Bool
  | .int32, _ => false
  | .string, s => s.toList.contains '\x00'

/-- For every value there is one pointer at its position: a null pointer for an absent one, and
otherwise one at which its text is read. -/
def Lossless (args : List Member) : Prop :=
  List.Forall₂ (fun m p ↦ p.map CharPtr.read = m.value.toPlain.map m.column.type.format) args
    (makePqArgs (makeValueList args))

theorem cString_format_iff (t : ColumnType) (v : t.Denote) :
    Text.cString (t.format v) = t.format v ↔ hasNul t v = false := by
  cases t with
  | int32 => exact iff_of_true (Text.cString_toString v.toInt) rfl
  | string => rw [ColumnType.format, Text.cString_eq_self_iff, hasNul]; simp

/-- **Parameters are passed without loss exactly when no text has a NUL.** -/
theorem lossless_iff (args : List Member) :
    Lossless args ↔ ∀ m ∈ args, ∀ v, m.value.toPlain = some v → hasNul m.column.type v = false := by
  rw [Lossless, makePqArgs, makeValueList, List.map_map, List.forall₂_map_right_iff,
    List.forall₂_same]
  refine forall₂_congr fun m _ ↦ ?_
  rw [Function.comp_apply, ValueOf.toOptionalString_eq]
  cases m.value.toPlain with
  | none => simp
  | some v =>
    simp only [Option.map_some, Option.some_inj, forall_eq']
    exact cString_format_iff m.column.type v

/-- Of the title `a\x00b` the server reads `a`. -/
theorem not_lossless : ¬∀ args : List Member, Lossless args := by
  intro h
  cases h [⟨⟨1, .string, []⟩, "a\x00b"⟩] with
  | cons htitle _ =>
    have heq : some "a" = some "a\x00b" := htitle
    exact absurd heq (by decide)

end Sphinx.Backend
