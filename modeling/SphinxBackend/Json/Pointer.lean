import SphinxBackend.Collections.AssocList
import SphinxBackend.Collections.Fallible
import SphinxBackend.Json.Value

/-!
# Looking into a value that can change

The `operator[]` of a value that is not const gives a reference, and where a member is not there it
puts one. So whoever looks along a path finds a value and leaves another value behind, in which each
member that was missed is null, or an object with one member that was missed.

What is found does not depend on this (`fst_lookUp`). Nor does what is read later, at any path, by
anyone who treats an object like null (`SameScalars`), as whoever expects a text or a number does:
neither is one. A program of such readings is the same as one that only reads (`Reads`).
-/

namespace Nlohmann.Json

open Sphinx Collections

/-- The value at a path, and the whole value afterwards. -/
def lookUp : Json → List String → Except Error (Json × Json)
  | data, [] => .ok (data, data)
  | object members, token :: path => (((members.lookup token).getD null).lookUp path).map fun r ↦
      (r.1, object (put token r.2 members))
  | null, token :: path => (null.lookUp path).map fun r ↦ (r.1, object [(token, r.2)])
  | _, _ :: _ => .error .typeError

/-- A member of an object or of null, null if it is not there. -/
def child (data : Json) (token : String) : Json := (data.member token).getD null

/-- Members can be put into the value. -/
def isOpen : Json → Bool
  | null | object _ => true
  | _ => false

theorem atPointer_cons (data : Json) (token : String) (path : List String) :
    data.atPointer (token :: path)
      = if data.isOpen then (data.child token).atPointer path else .error .typeError := by
  cases data <;> rfl

/-- Looking along a path is looking along the rest of it in the first member. -/
theorem lookUp_cons_eq_ok {data v data' : Json} {token : String} {path : List String}
    (h : data.lookUp (token :: path) = .ok (v, data')) :
    ∃ rest, (data.child token).lookUp path = .ok (v, rest) ∧ data.isOpen ∧ data'.isOpen ∧
      data'.child token = rest ∧ ∀ k, k ≠ token → data'.child k = data.child k := by
  cases data with
  | object members =>
    obtain ⟨⟨w, rest⟩, hrest, hr⟩ := map_eq_ok_iff.mp h
    obtain ⟨rfl, rfl⟩ := Prod.mk.inj hr
    refine ⟨rest, hrest, rfl, rfl, ?_, fun k hk ↦ ?_⟩
    · rw [child, member, lookup_put_self, Option.getD_some]
    · rw [child, member, lookup_put_of_ne _ _ hk, child, member]
  | null =>
    obtain ⟨⟨w, rest⟩, hrest, hr⟩ := map_eq_ok_iff.mp h
    obtain ⟨rfl, rfl⟩ := Prod.mk.inj hr
    refine ⟨rest, hrest, rfl, rfl, ?_, fun k hk ↦ ?_⟩
    · simp [child, member]
    · simp [child, member, List.lookup_cons, beq_eq_false_iff_ne.mpr hk]
  | _ => exact absurd h (by simp [lookUp])

theorem fst_lookUp (data : Json) (path : List String) :
    (data.lookUp path).map Prod.fst = data.atPointer path := by
  induction path generalizing data with
  | nil => cases data <;> rfl
  | cons token path ih =>
    have hmap (f : Json → Json) (x : Except Error (Json × Json)) :
        (x.map fun r ↦ (r.1, f r.2)).map Prod.fst = x.map Prod.fst := by cases x <;> rfl
    rw [atPointer_cons]
    cases data with
    | object members => exact (hmap (fun d ↦ object (put token d members)) _).trans (ih _)
    | null => exact (hmap (fun d ↦ object [(token, d)]) _).trans (ih _)
    | _ => rfl

/-! ## What is read later -/

/-- No object is told from null. -/
def TakesForNull {α : Type} (get : Json → Except Error α) : Prop :=
  ∀ members, get (object members) = get null

/-- Whoever takes objects for null reads the same at every path. -/
def SameScalars (data data' : Json) : Prop :=
  ∀ (α : Type) (get : Json → Except Error α), TakesForNull get → ∀ path,
    data'.atPointer path >>= get = data.atPointer path >>= get

namespace SameScalars

theorem refl (data : Json) : SameScalars data data := fun _ _ _ _ ↦ rfl

theorem trans {data data' data'' : Json} (h : SameScalars data data')
    (h' : SameScalars data' data'') : SameScalars data data'' :=
  fun α get hget path ↦ (h' α get hget path).trans (h α get hget path)

end SameScalars

/-- **A look leaves every scalar as it was.** -/
theorem sameScalars_of_lookUp {data v data' : Json} {path : List String}
    (h : data.lookUp path = .ok (v, data')) : SameScalars data data' := by
  induction path generalizing data data' with
  | nil =>
    have hdata : data = data' := by
      cases data <;> exact (Prod.mk.inj (Except.ok.inj h)).2
    exact hdata ▸ .refl data
  | cons token path ih =>
    obtain ⟨rest, hrest, hopen, hopen', hsame, hother⟩ := lookUp_cons_eq_ok h
    intro α get hget q
    cases q with
    | nil =>
      have hnull {d : Json} (hd : d.isOpen) : get d = get null := by
        cases d with
        | null => rfl
        | object members => exact hget members
        | _ => exact absurd hd (by simp [isOpen])
      have hnil (d : Json) : d.atPointer [] = .ok d := by cases d <;> rfl
      rw [hnil, hnil]
      exact (hnull hopen').trans (hnull hopen).symm
    -- below the first member on the path the rest of the path was looked along
    | cons k q =>
      rw [atPointer_cons, if_pos hopen', atPointer_cons, if_pos hopen]
      by_cases hk : k = token
      · rw [hk, hsame]
        exact ih hrest α get hget q
      · rw [hother k hk]

/-! ## Programs that read -/

/-- What a program over a changing value does first is to read `x` off it. -/
structure ReadsFirst {α : Type} (m : StateT Json (Except Error) α) (x : Json → Except Error α) :
    Prop where
  reads : ∀ data, (m.run data).map Prod.fst = x data
  keeps : ∀ {data a data'}, m.run data = .ok (a, data') → SameScalars data data'

/-- It reads the same after any other such program. -/
structure Reads {α : Type} (m : StateT Json (Except Error) α) (x : Json → Except Error α) : Prop
    extends ReadsFirst m x where
  same : ∀ {data data'}, SameScalars data data' → x data' = x data

section Reads

variable {α β : Type}

/-- Looking along a path for any value. -/
theorem readsFirst_lookUp (get : Json → Except Error α) (path : List String) :
    ReadsFirst (do get (← fun data ↦ data.lookUp path))
      fun data ↦ data.atPointer path >>= get where
  reads data := by
    have hfound := fst_lookUp data path
    rw [← hfound]
    change (data.lookUp path >>= fun r ↦ (get r.1).map (·, r.2)).map Prod.fst = _
    cases data.lookUp path with
    | error e => rfl
    | ok r =>
      change ((get r.1).map (·, r.2)).map Prod.fst = get r.1
      cases get r.1 <;> rfl
  keeps {data a data'} h := by
    change (data.lookUp path >>= fun r ↦ (get r.1).map (·, r.2)) = .ok (a, data') at h
    obtain ⟨⟨v, data₁⟩, hlook, hread⟩ := bind_eq_ok_iff.mp h
    obtain ⟨b, -, hr⟩ := map_eq_ok_iff.mp hread
    obtain ⟨-, rfl⟩ := Prod.mk.inj hr
    exact sameScalars_of_lookUp hlook

/-- Looking along a path for a scalar. -/
theorem reads_lookUp {get : Json → Except Error α} (hget : TakesForNull get)
    (path : List String) :
    Reads (do get (← fun data ↦ data.lookUp path)) fun data ↦ data.atPointer path >>= get where
  toReadsFirst := readsFirst_lookUp get path
  same h := h α get hget path

/-- What does not look at the value. -/
theorem reads_lift (x : Except Error α) :
    Reads (liftM x : StateT Json (Except Error) α) fun _ ↦ x where
  reads _ := by cases x <;> rfl
  keeps {data a data'} h := by
    cases x with
    | error e =>
      have hthrown : (.error e : Except Error (α × Json)) = .ok (a, data') := h
      exact absurd hthrown (by simp)
    | ok b =>
      obtain ⟨-, rfl⟩ := Prod.mk.inj (Except.ok.inj h)
      exact .refl _
  same _ := rfl

variable {m : StateT Json (Except Error) α} {x : Json → Except Error α}
  {f : α → StateT Json (Except Error) β} {g : α → Json → Except Error β}

theorem ReadsFirst.bind (hm : ReadsFirst m x) (hf : ∀ a, Reads (f a) (g a)) :
    ReadsFirst (m >>= f) fun data ↦ x data >>= fun a ↦ g a data where
  reads data := by
    rw [StateT.run_bind, ← hm.reads]
    cases h : m.run data with
    | error e => rfl
    | ok r =>
      obtain ⟨a, data'⟩ := r
      exact ((hf a).reads data').trans ((hf a).same (hm.keeps h))
  keeps {data b data'} h := by
    rw [StateT.run_bind, bind_eq_ok_iff] at h
    obtain ⟨⟨a, data₁⟩, ha, hb⟩ := h
    exact (hm.keeps ha).trans ((hf a).keeps hb)

theorem Reads.bind (hm : Reads m x) (hf : ∀ a, Reads (f a) (g a)) :
    Reads (m >>= f) fun data ↦ x data >>= fun a ↦ g a data where
  toReadsFirst := hm.toReadsFirst.bind hf
  same h := by
    rw [hm.same h]
    exact congrArg _ (funext fun a ↦ (hf a).same h)

end Reads

end Nlohmann.Json
