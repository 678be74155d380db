import SphinxBackend.Backend.Creation
import SphinxBackend.Backend.Decoding

/-!
# Two decodings

Two request bodies, or one body twice, are decoded to the same outcome if both are, with related
values, or if both end in an exception of the JSON library. What is undefined is no outcome. Since
the error of a body is that of the first of its reads that fails, the outcomes are compared by
comparing the reads (`sameOutcome_iff`), once it is known that the values are related.
-/

namespace Sphinx.Backend

open Db Nlohmann Collections

/-! ## The same outcome -/

/-- Both return, and what they return is related, or both throw. -/
def SameOutcome {α β : Type} (R : α → β → Prop) (x : Except Error α) (y : Except Error β) : Prop :=
  (∃ a b, x = .ok a ∧ y = .ok b ∧ R a b) ∨
    ∃ e e', x = .error e ∧ y = .error e' ∧ e.IsJsonException ∧ e'.IsJsonException

section SameOutcome

variable {α β : Type} {x : Except Error α} {y : Except Error β} {rs rs' : List Read}

theorem Read.error_eq_none_iff {r : Read} : r.error = none ↔ ¬r.undefined ∧ ¬r.wrong := by
  rw [error, undefined]
  cases r.missing <;> cases r.overflows <;> cases r.wrong <;> simp

theorem shielded_of_not_undefined (h : ∀ r ∈ rs, ¬r.undefined) : Shielded rs :=
  preceded_of_forall_not h

/-- A body that is decoded has nothing wrong in it, and the other way round if what is undefined is
shielded. -/
theorem exists_ok_iff_of_shielded (hx : errorOf x = rs.findSome? Read.error) (hs : Shielded rs) :
    (∃ a, x = .ok a) ↔ ¬∃ r ∈ rs, r.wrong := by
  rw [← errorOf_eq_none_iff, hx, List.findSome?_eq_none_iff]
  simp only [Read.error_eq_none_iff]
  constructor
  · rintro h ⟨r, hr, hwrong⟩
    exact (h r hr).2 hwrong
  · intro h r hr
    refine ⟨fun hundefined ↦ ?_, fun hwrong ↦ h ⟨r, hr, hwrong⟩⟩
    obtain ⟨before, after, rfl⟩ := List.append_of_mem hr
    obtain ⟨r', hr', hwrong⟩ := hs before r after rfl hundefined
    exact h ⟨r', List.mem_append_left _ hr', hwrong⟩

theorem shielded_of_ok (hx : errorOf x = rs.findSome? Read.error) {a : α} (h : x = .ok a) :
    Shielded rs := by
  rw [shielded_iff hx, h]
  exact fun e he ↦ absurd he (by simp)

theorem shielded_of_caught (hx : errorOf x = rs.findSome? Read.error) {e : Error}
    (h : x = .error e) (he : e.IsJsonException) : Shielded rs :=
  (decodes_iff hx).mp fun _ hd ↦ Except.error.inj (h.symm.trans hd) ▸ he

theorem not_wrong_of_ok (hx : errorOf x = rs.findSome? Read.error) {a : α} (h : x = .ok a) :
    ¬∃ r ∈ rs, r.wrong :=
  (exists_ok_iff_of_shielded hx (shielded_of_ok hx h)).mp ⟨a, h⟩

theorem exists_wrong_of_error (hx : errorOf x = rs.findSome? Read.error) (hs : Shielded rs)
    {e : Error} (h : x = .error e) : ∃ r ∈ rs, r.wrong := by
  by_contra hright
  obtain ⟨a, ha⟩ := (exists_ok_iff_of_shielded hx hs).mpr hright
  exact absurd (h.symm.trans ha) (by simp)

/-- **Two bodies have the same outcome exactly when what is undefined is shielded in both, and
something is wrong in both or in neither.** -/
theorem sameOutcome_iff {R : α → β → Prop} (hx : errorOf x = rs.findSome? Read.error)
    (hy : errorOf y = rs'.findSome? Read.error) (hR : ∀ a b, x = .ok a → y = .ok b → R a b) :
    SameOutcome R x y ↔
      Shielded rs ∧ Shielded rs' ∧ ((∃ r ∈ rs, r.wrong) ↔ ∃ r ∈ rs', r.wrong) := by
  constructor
  · rintro (⟨a, b, hxa, hyb, -⟩ | ⟨e, e', hxe, hye, he, he'⟩)
    · exact ⟨shielded_of_ok hx hxa, shielded_of_ok hy hyb,
        iff_of_false (not_wrong_of_ok hx hxa) (not_wrong_of_ok hy hyb)⟩
    · have hs := shielded_of_caught hx hxe he
      have hs' := shielded_of_caught hy hye he'
      exact ⟨hs, hs',
        iff_of_true (exists_wrong_of_error hx hs hxe) (exists_wrong_of_error hy hs' hye)⟩
  · rintro ⟨hs, hs', hwrong⟩
    cases hxr : x with
    | ok a =>
      have hright := hwrong.not.mp (not_wrong_of_ok hx hxr)
      obtain ⟨b, hyb⟩ := (exists_ok_iff_of_shielded hy hs').mpr hright
      exact .inl ⟨a, b, rfl, hyb, hR a b hxr hyb⟩
    | error e =>
      cases hyr : y with
      | ok b =>
        have hright := hwrong.not.mpr (not_wrong_of_ok hy hyr)
        exact absurd (exists_wrong_of_error hx hs hxr) hright
      | error e' =>
        exact .inr ⟨e, e', rfl, rfl, (decodes_iff hx).mpr hs e hxr, (decodes_iff hy).mpr hs' e' hyr⟩

/-- One body decoded twice has the same outcome as long as it has an outcome. -/
theorem sameOutcome_self_iff (hx : errorOf x = rs.findSome? Read.error) :
    SameOutcome Eq x x ↔ Shielded rs := by
  rw [sameOutcome_iff hx hx fun a b ha hb ↦ Except.ok.inj (ha.symm.trans hb)]
  exact ⟨fun h ↦ h.1, fun h ↦ ⟨h, h, Iff.rfl⟩⟩

end SameOutcome

/-! ## Related bodies -/

/-- The same document, or two objects with related members. -/
def Alike (P : List (String × Json) → List (String × Json) → Prop) (d d' : Json) : Prop :=
  d' = d ∨ ∃ members members', d = .object members ∧ d' = .object members' ∧ P members members'

/-- Two arrays of related documents, or two related documents. -/
inductive SameBody (R : Json → Json → Prop) : Json → Json → Prop
  | array {elements elements' : List Json} (h : List.Forall₂ R elements elements') :
    SameBody R (.array elements) (.array elements')
  | single {d d' : Json} (h : R d d') : SameBody R d d'

/-- The documents of related bodies are related one by one. -/
theorem SameBody.documents {P : List (String × Json) → List (String × Json) → Prop}
    {data data' : Json} (h : SameBody (Alike P) data data') :
    List.Forall₂ (Alike P) (documents data) (documents data') := by
  cases h with
  | array h => exact h
  | single h =>
    rcases h with rfl | ⟨members, members', rfl, rfl, hP⟩
    · exact List.forall₂_same.mpr fun d _ ↦ .inl rfl
    · exact .cons (.inr ⟨members, members', rfl, rfl, hP⟩) .nil

/-- Documents of which one is an object if the other is. -/
theorem Alike.isObject {P : List (String × Json) → List (String × Json) → Prop} {d d' : Json}
    (h : Alike P d d') : d'.isObject = d.isObject := by
  rcases h with rfl | ⟨members, members', rfl, rfl, -⟩ <;> rfl

/-! ## The entities of two documents -/

section Columns

variable {E : Type} [Entity E]

omit [Entity E] in
/-- Something is assigned to every column but the primary keys. -/
theorem isSome_of_columnFromJson {document : Json} {a : Accessor E} {v : Option a.column.Value}
    (h : Json.columnFromJson document a = .ok v) (hpk : a.column.isPrimarykey = false) :
    v.isSome := by
  rw [Json.columnFromJson, hpk] at h
  have hmap {x : Except Error a.column.type.Denote}
      (hx : (x.map fun v ↦ some (ValueOf.ofPlain v : a.column.Value)) = .ok v) : v.isSome := by
    obtain ⟨p, -, rfl⟩ := map_eq_ok_iff.mp hx
    rfl
  by_cases hmayMiss : (a.column.isOptional || a.column.isForeignkey) = true
  · rw [if_neg (by simp), if_pos hmayMiss] at h
    obtain ⟨absent, -, h⟩ := bind_eq_ok_iff.mp h
    by_cases habsent : absent = true
    · rw [if_pos habsent] at h
      rw [← Except.ok.inj h, Option.isSome_some]
    · rw [if_neg habsent] at h
      exact hmap h
  · rw [if_neg (by simp), if_neg hmayMiss] at h
    exact hmap h

variable (E) in
/-- The documents are read alike but for the primary key. -/
def ReadAlike (d d' : Json) : Prop :=
  ∀ a ∈ getInsertColumns E, Json.columnFromJson d' a = Json.columnFromJson d a

/-- Documents that are read alike but for the primary key give entities with the same columns,
whatever was in memory. -/
theorem sameColumns_of_readAlike {junk junk' : Int32} {d d' : Json} {e e' : E}
    (hd : ReadAlike E d d') (h : Json.fromJson junk d = .ok e)
    (h' : Json.fromJson junk' d' = .ok e') : SameColumns e e' := by
  intro a ha
  have hmem := mem_accessors_of_mem_insertColumns ha
  have hpk : a.column.isPrimarykey = false := by simpa using (List.mem_filter.mp ha).2
  obtain ⟨v, hv, hget⟩ := exists_of_load h hmem
  obtain ⟨v', hv', hget'⟩ := exists_of_load h' hmem
  rw [hd a ha, hv] at hv'
  obtain rfl := Except.ok.inj hv'
  obtain ⟨p, rfl⟩ := Option.isSome_iff_exists.mp (isSome_of_columnFromJson hv hpk)
  rw [hget, hget']
  rfl

end Columns

theorem forall₂_of_two_deserializeEntities {E : Type} [Creatable E] {junk junk' : List ℕ → Int32}
    {sub : Bool} {S : Json → Json → Prop} {R : E → E → Prop}
    (h : ∀ i d d', S d d' → ∀ e e', deserializeEntity E junk sub i d = .ok e →
      deserializeEntity E junk' sub i d' = .ok e' → R e e')
    {data data' : Json} (hdata : List.Forall₂ S (documents data) (documents data'))
    {es es' : List E} (hes : deserializeEntities E junk data sub = .ok es)
    (hes' : deserializeEntities E junk' data' sub = .ok es') : List.Forall₂ R es es' := by
  rw [deserializeEntities_eq] at hes hes'
  refine forall₂_of_mapM (fun p q hpq e e' he he' ↦ ?_) (forall₂_zipIdx hdata 0) hes hes'
  rw [← hpq.2] at he'
  exact h p.2 p.1 q.1 hpq.1 e e' he he'

namespace Model

/-- Equal in every column that is not a primary key, the modules included. -/
structure Course.SameButIds (c c' : Course) : Prop where
  columns : SameColumns c c'
  modules : Option.Rel (List.Forall₂ SameColumns) c.modules c'.modules

/-- A decoded course has the columns of its document, and the modules of its `modules` member. -/
theorem exists_of_deserializeCourse {junk : List ℕ → Int32} {i : ℕ} {d : Json} {c : Course}
    (h : deserializeEntity Course junk true i d = .ok c) :
    ∃ (e : Course) (l : Option (List Module)), Json.fromJson (junk [i]) d = .ok e ∧
      c = { e with modules := l } ∧
      match d.member "modules" with
      | none => l = none
      | some data => ∃ ms,
          deserializeEntities Module (fun path ↦ junk (i :: path)) data = .ok ms ∧ l = some ms := by
  rw [deserializeEntity, if_pos rfl] at h
  obtain ⟨e, he, h⟩ := bind_eq_ok_iff.mp h
  change Course.modulesLink.deserializeSubentities (fun path ↦ junk (i :: path)) d e = .ok c at h
  rw [deserializeSubentities_course] at h
  cases hmember : d.member "modules" with
  | none =>
    rw [hmember] at h
    exact ⟨e, none, he, (Except.ok.inj h).symm, rfl⟩
  | some data =>
    rw [hmember] at h
    obtain ⟨ms, hms, rfl⟩ := map_eq_ok_iff.mp h
    exact ⟨e, some ms, he, rfl, ms, hms, rfl⟩

/-- Courses that are read alike but for their ids and those of their modules. -/
structure Course.ReadAlike (d d' : Json) : Prop where
  columns : Backend.ReadAlike Course d d'
  modules : Option.Rel
    (fun v v' ↦ List.Forall₂ (Backend.ReadAlike Module) (documents v) (documents v'))
    (d.member "modules") (d'.member "modules")

theorem sameButIds_of_readAlike {junk junk' : List ℕ → Int32} {i : ℕ} {d d' : Json}
    (hd : Course.ReadAlike d d') {c c' : Course}
    (h : deserializeEntity Course junk true i d = .ok c)
    (h' : deserializeEntity Course junk' true i d' = .ok c') : c.SameButIds c' := by
  obtain ⟨e, l, he, rfl, hl⟩ := exists_of_deserializeCourse h
  obtain ⟨e', l', he', rfl, hl'⟩ := exists_of_deserializeCourse h'
  have hsame := sameColumns_of_readAlike hd.columns he he'
  refine ⟨fun a ha ↦ ?_, ?_⟩
  · -- the link is no column
    have hc : a.get { e with modules := l } = a.get e := e.sameColumns e.id l a ha
    have hc' : a.get { e' with modules := l' } = a.get e' := e'.sameColumns e'.id l' a ha
    rw [hc, hc', hsame a ha]
  · have hmodules := hd.modules
    generalize d.member "modules" = o, d'.member "modules" = o' at hmodules hl hl'
    cases hmodules with
    | none =>
      obtain rfl := hl
      obtain rfl := hl'
      exact .none
    | some hdocuments =>
      obtain ⟨ms, hms, rfl⟩ := hl
      obtain ⟨ms', hms', rfl⟩ := hl'
      refine .some (forall₂_of_two_deserializeEntities ?_ hdocuments hms hms')
      exact fun j m m' hm _ _ ↦ sameColumns_of_readAlike hm

end Model

end Sphinx.Backend
