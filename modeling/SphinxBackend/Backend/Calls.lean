import SphinxBackend.Backend.Definedness
import SphinxBackend.Interaction.Cost

/-!
# How many calls a request makes

A question is one call, and a creation one for each entity of its body, at both levels of nesting. A
request that was told of success has made all of them, and one that has failed no more than that:
nothing is tried a second time.

So the requests that have come make a known number of calls together, and any run of them ends. It
ends with a response or an exception for each, since a call to a server that is not there fails as
well. Only where nothing undefined happens is an exception an answer to its request.
-/

namespace Sphinx.Backend

open Db Nlohmann Interaction Program Collections Model

/-! ## Creation -/

section Creation

variable {E : Type} [Creatable E]

theorem costs_insert (e : E) : Costs 1 (insert e) := by
  rw [insert_eq]
  exact .call fun res ↦ .ofExcept _

/-- An entity without links. -/
theorem costs_leaf (h : ∀ e : E, createOne e = insert e >>= fun i ↦ .pure (Entity.setId e i))
    (e : E) : Costs 1 (createOne e) := by
  rw [h]
  exact (costs_insert e).bind fun i ↦ .pure _

theorem costs_leaves (h : ∀ e : E, createOne e = insert e >>= fun i ↦ .pure (Entity.setId e i))
    (es : List E) : Costs es.length (createEntities es) := by
  have hsum : (es.map fun _ ↦ 1).sum = es.length := by simp
  exact hsum ▸ Costs.many createEntities_nil createEntities_cons (costs_leaf h) es

/-- The size of a body, if it can be decoded. -/
def sizeIfDecoded (size : List E → ℕ) : Except Error (List E) → ℕ
  | .ok es => size es
  | .error _ => 0

theorem costs_createThen {size : List E → ℕ} (hsize : ∀ es, Costs (size es) (createEntities es))
    (entities : Except Error (List E)) (respond : List E → Response) :
    Costs (sizeIfDecoded size entities) (createThen entities respond) := by
  cases entities with
  | ok es => exact (hsize es).bind fun es ↦ .pure (respond es)
  | error e => exact .throw 0 e

end Creation

/-- The course and its modules. -/
def Model.Course.size (c : Course) : ℕ := c.nested.length + 1

theorem costs_course (c : Course) : Costs c.size (createOne c) := by
  rw [createOne_course, Course.size, Nat.add_comm]
  refine (costs_insert c).bind fun i ↦ ?_
  rw [Course.nested]
  cases c.modules with
  | none => exact .pure _
  | some ms =>
    have hmodules := costs_leaves (E := Module) (fun _ ↦ rfl)
      (ms.map fun m ↦ { m with courseId := i })
    rw [List.length_map] at hmodules
    exact hmodules.bind fun ms' ↦ .pure _

/-! ## Requests -/

section Request

variable (notImplementedYet : Error) (parse : String → Except Error Json) (junk : List ℕ → Int32)

/-- The entities of the body, at both levels. -/
def PostHandler.size (body : String) : PostHandler → ℕ
  | users =>
    sizeIfDecoded List.length (deserializeEntitiesFromText User parse junk body true)
  | courses => sizeIfDecoded (fun cs ↦ (cs.map Course.size).sum)
      (deserializeEntitiesFromText Course parse junk body true)
  | modules _ =>
    sizeIfDecoded List.length (deserializeEntitiesFromText Module parse junk body true)

theorem PostHandler.costs_run (handler : PostHandler) (body : String) :
    Costs (handler.size parse junk body) (handler.run parse junk body) := by
  cases handler with
  | users =>
    rw [PostHandler.run, usersRoute_post]
    exact costs_createThen (costs_leaves fun _ ↦ rfl) _ _
  | courses =>
    rw [run_courses]
    exact costs_createThen (Costs.many createEntities_nil createEntities_cons costs_course) _ _
  | modules courseId =>
    rw [PostHandler.run, modulesRoute_post]
    exact costs_createThen (costs_leaves fun _ ↦ rfl) _ _

/-- The calls that the request makes if nothing fails. -/
def callCount (route : Route) (req : Request) : ℕ :=
  match postHandler route req with
  | some handler => handler.size parse junk req.body
  | none => if req.method = .GET ∧ route ≠ .test then 1 else 0

theorem costs_serve (route : Route) (req : Request) :
    Costs (callCount parse junk route req) (serve notImplementedYet parse junk route req) := by
  cases hpost : postHandler route req with
  | some handler =>
    rw [callCount, hpost, serve_of_postHandler notImplementedYet parse junk hpost]
    exact handler.costs_run parse junk req.body
  | none =>
    rw [callCount, hpost]
    rcases serve_of_not_post notImplementedYet parse junk hpost with
      ⟨q, f, hask, hserve⟩ | ⟨x, hask, hserve⟩
    · rw [hserve, if_pos hask]
      exact .call fun res ↦ .ofExcept _
    · rw [hserve, if_neg hask]
      exact .ofExcept x

end Request

/-! ## Runs -/

section Served

variable {ι : Type} [DecidableEq ι] [Fintype ι] {notImplementedYet : Error}
  {parse : String → Except Error Json} {junk : ι → List ℕ → Int32} {route : ι → Route}
  {req : ι → Request} {db : Sql.Db} {c : Pool ι Sql.Db Call PGresult Error Response}

/-- **Every run ends, with an answer to every request.** A request that was told of success has made
one call for its question or one for each entity of its body, and it never makes more. So a run is
no longer than these calls together, and where it can go no further all requests are answered, with
a response or with an exception that the language defines. -/
theorem ends_of_served (hdb : Stored db)
    (hdefined : ∀ i, Defined notImplementedYet parse (junk i) (route i) (req i))
    (h : Served notImplementedYet parse junk db route req c) :
    (∀ i, (c.history i).length ≤ callCount parse (junk i) (route i) (req i) ∧
      ∀ r, c.clients i = .pure r →
        (c.history i).length = callCount parse (junk i) (route i) (req i)) ∧
      c.log.length ≤ ∑ i, callCount parse (junk i) (route i) (req i) ∧
      ((∀ c', ¬Pool.Step (Unreliable postgres Lost) c c') ↔
        ∀ i, (∃ r, c.clients i = .pure r) ∨ ∃ e, c.clients i = .throw e ∧ ¬e.IsUndefined) := by
  have hcosts (i : ι) := costs_serve notImplementedYet parse (junk i) (route i) (req i)
  have hlost : Lost (.failed "") := rfl
  have hfinished (i : ι) : (∃ x, c.clients i = ofExcept x) ↔
      (∃ r, c.clients i = .pure r) ∨ ∃ e, c.clients i = .throw e ∧ ¬e.IsUndefined := by
    constructor
    · rintro ⟨r | e, hi⟩
      · exact .inr ⟨r, hi, h.not_isUndefined hdb hdefined hi⟩
      · exact .inl ⟨e, hi⟩
    · rintro (⟨r, hi⟩ | ⟨e, hi, -⟩)
      · exact ⟨.ok r, hi⟩
      · exact ⟨.error e, hi⟩
  refine ⟨fun i ↦ ⟨(hcosts i).length_le (Pool.Reachable.follows h i), fun r hr ↦ ?_⟩,
    Pool.Reachable.length_log_le h hcosts, ?_⟩
  · exact (hcosts i).length_eq (hr ▸ Pool.Reachable.follows h i)
  · rw [Pool.stopped_iff fun db op ↦ ⟨db, _, .unsent hlost⟩]
    exact forall_congr' hfinished

end Served

theorem ends_lostAnswer :
    (∀ i, (lostAnswer.history i).length
        ≤ callCount parseStudents (fun _ ↦ 0) .users (registerAndList i) ∧
      ∀ r, lostAnswer.clients i = .pure r → (lostAnswer.history i).length
        = callCount parseStudents (fun _ ↦ 0) .users (registerAndList i)) ∧
      lostAnswer.log.length
        ≤ ∑ i, callCount parseStudents (fun _ ↦ 0) .users (registerAndList i) ∧
      ((∀ c', ¬Pool.Step (Unreliable postgres Lost) lostAnswer c') ↔
        ∀ i, (∃ r, lostAnswer.clients i = .pure r) ∨
          ∃ e, lostAnswer.clients i = .throw e ∧ ¬e.IsUndefined) :=
  ends_of_served stored_campus defined_registerAndList lostAnswer_served

end Sphinx.Backend
