import SphinxBackend.Backend.Accounting
import SphinxBackend.Backend.CourseModules
import SphinxBackend.Backend.Noninterference

/-!
# Modules without a course

The program never looks whether what a row refers to is there. A course that is created with its
modules is inserted before them, and they are given the id that the server has chosen, so they have
their course from the moment they are in the table, even if the creation is cut short. Modules that
are posted on their own refer to the course that their document names, and courses to such an owner.
Only these can refer to something that is not there.

The tables only grow, so a reference that holds once will always hold.
-/

namespace Sphinx.Backend

open Db Nlohmann Interaction Program Collections Model

/-! ## The order of a creation -/

section Lists

variable {β γ : Type}

end Lists

section Planned

variable {parse : String → Except Error Json} {junk : List ℕ → Int32} {body : String}
  {planned own : List Insertion} {x : Insertion}

end Planned

/-! ## The tables of a run -/

section Served

variable {ι : Type} [DecidableEq ι] {notImplementedYet : Error}
  {parse : String → Except Error Json} {junk : ι → List ℕ → Int32} {route : ι → Route}
  {req : ι → Request} {db : Sql.Db} {c : Pool ι Sql.Db Call PGresult Error Response}
  {added : List (ι × Insertion)}

end Served

/-! ## A course and a module -/

end Sphinx.Backend
