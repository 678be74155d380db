import SphinxBackend.Db.Utils
import SphinxBackend.Interaction.Program

/-!
# The database connection

`db_connection.h` and `model_expr.h`. Every operation renders a statement, makes one call of
`PQexecParams` and turns the result into values or an exception, so an operation is a program whose
requests are such calls.

A `Call` keeps the arguments as they are handed over: the query, the array of pointers, and what
`exec` rendered for its log line on the way. A pointer gives access to a buffer whose length is
not passed on, so what the server gets is the text up to the first NUL (`CharPtr.read`). The log
line evaluates `*b` for every parameter, also for an absent one; the rendering is then undefined,
and `argsStr` is `none`.

Nothing opens a transaction, and each statement commits on its own.
-/

namespace Sphinx.Db

open Interaction

/-! ## Configuration -/

structure ConnectionConfig where
  host : String
  port : UInt16
  user : String
  password : String
  dbName : String
  deriving DecidableEq, Repr

def ConnectionConfig.getConnectionString (c : ConnectionConfig) : String :=
  "postgresql://" ++ c.user ++ ":" ++ c.password ++ "@" ++ c.host ++ ":" ++ toString c.port.toNat
    ++ "/" ++ c.dbName

/-! ## Calls -/

/-- `const char *`: the address of a text. -/
structure CharPtr where
  buffer : String
  deriving DecidableEq, Repr

/-- The text at an address, of which only the end is marked. -/
def CharPtr.read (p : CharPtr) : String := Text.cString p.buffer

/-- The null pointer stands for NULL. -/
def makePqArgs (arguments : ValueList) : List (Option CharPtr) :=
  arguments.map fun val ↦ val.map CharPtr.mk

/-- The parameters as the log line shows them. `*b` on an absent `b` is undefined. -/
def argsStr (args : ValueList) : Option String :=
  args.foldlM (fun a b ↦ b.map fun b ↦ a ++ ", \"" ++ b ++ "\"") ""

/-- One call of `PQexecParams`, with the log line before it. -/
structure Call where
  query : String
  argsStr : Option String
  paramValues : List (Option CharPtr)
  deriving DecidableEq, Repr

/-- What reaches the server. -/
def Call.request (c : Call) : Sql.Request := ⟨c.query, c.paramValues.map fun p ↦ p.map (·.read)⟩

/-- A program over the database. -/
abbrev DbProgram (α : Type) : Type := Program Call PGresult Error α

/-- The database server as a service of calls. -/
def postgres (db : Sql.Db) (c : Call) (db' : Sql.Db) (res : PGresult) : Prop :=
  Sql.Step db c.request db' res

def callOf (query : String) (args : ValueList) : Call := ⟨query, argsStr args, makePqArgs args⟩

def exec (query : String) (args : ValueList) : DbProgram PGresult :=
  .call (callOf query args) .pure

/-- Send a statement and look at its result. -/
def query {α : Type} (text : String) (args : ValueList) (read : PGresult → Except Error α) :
    DbProgram α := do
  let res ← exec text args
  .ofExcept (read res)

theorem query_eq {α : Type} (text : String) (args : ValueList)
    (read : PGresult → Except Error α) :
    query text args read = .call (callOf text args) fun res ↦ .ofExcept (read res) := rfl

/-! ## Results -/

section Read

variable (E : Type) [Struct E]

/-- `DbConnection::get_row`. -/
def getRowResult (res : PGresult) : Except Error (Option E) :=
  match res.status with
  | .tuplesOk =>
    if pqNtuples res = 0 then .ok none
    else if pqNtuples res = 1 then (getRow E res (getColumnsId E res) 0).map some
    else .error (.assertion "Returned none or more than one record")
  | _ => .error (.runtimeError res.message)

/-- `DbConnection::get_rows`. -/
def getRows (res : PGresult) : Except Error (List E) :=
  match res.status with
  | .commandOk => .ok []
  | .tuplesOk => (List.range (pqNtuples res)).mapM (getRow E res (getColumnsId E res))
  | .fatalError => .error (.runtimeError res.message)

/-- `DbConnection::get_scalar<bool>`. -/
def getScalar (res : PGresult) : Except Error Bool :=
  match res.status with
  | .tuplesOk =>
    if pqNtuples res = 1 then .ok (convertToBool (pqGetvalue res 0 0))
    else .error (.assertion "Number of rows have to be 1")
  | _ => .error (.runtimeError res.message)

/-- The id that `insert` reads off its result. -/
def insertResult (E : Type) [Entity E] (res : PGresult) : Except Error Int32 :=
  match res.status with
  | .commandOk => .ok 0
  | .tuplesOk =>
    if pqNtuples res = 1 then getField .int32 res 0 (pqFnumber res (getIdColumnName E))
    else .error (.assertion "INSERT query returned more than one row")
  | .fatalError => .error (.runtimeError res.message)

end Read

/-! ## Conditions -/

/-- `condition<Column, Operator>`, for the column with number `n`. -/
structure Condition (E : Type) where
  n : ℕ
  operator : Sql.Operator
  type : ColumnType
  value : type.Denote

/-- `condition::str`. An empty placeholder puts the value in its place, between quotes. -/
def Condition.str {E : Type} [Struct E] (c : Condition E) (placeholder : String := "") : String :=
  if placeholder = "" then
    getNthColumnName E c.n ++ " " ++ c.operator.text ++ " '" ++ c.type.format c.value ++ "'"
  else getNthColumnName E c.n ++ " " ++ c.operator.text ++ " " ++ placeholder

/-! ## Operations -/

/-- `std::string::pop_back`. -/
def popBack (s : String) : String := String.ofList s.toList.dropLast

def prepareInsertQuery (E : Type) [Struct E] : String :=
  let fieldList := popBack ((getInsertColumns E).foldl (fun a b ↦ a ++ b.name ++ ",") "")
  -- The counter is captured by value in a mutable lambda, which the fold calls over and over.
  let fieldIds := popBack
    ((getInsertColumns E).foldl (fun (a, n) _ ↦ (a ++ "$" ++ toString (n + 1) ++ ",", n + 1))
      ("", 0)).1
  "INSERT INTO " ++ Entity.entityName E ++ " (" ++ fieldList ++ ") VALUES (" ++ fieldIds
    ++ ") RETURNING " ++ getIdColumnName E

section Operations

variable (E : Type) [Entity E]

def getAll : DbProgram (List E) :=
  query ("SELECT * FROM " ++ Entity.entityName E) [] (getRows E)

variable {E} in
def getAllWhere (condition : Condition E) : DbProgram (List E) :=
  query ("SELECT * FROM " ++ Entity.entityName E ++ " WHERE " ++ condition.str "$1")
    [some (condition.type.format condition.value)] (getRows E)

/-- The text of `find_by_id`: the id is spliced in. -/
def findByIdQuery (id : Int32) : String :=
  "SELECT * FROM " ++ Entity.entityName E ++ " WHERE " ++ getIdColumnName E ++ " = "
    ++ toString id.toInt

def findById (id : Int32) : DbProgram (Option E) := query (findByIdQuery E id) [] (getRowResult E)

def getById (id : Int32) : DbProgram E := do
  match ← findById E id with
  | some entity => pure entity
  | none => .throw .badOptionalAccess

def existsQuery (id : Int32) : String :=
  "SELECT EXISTS(SELECT 1 FROM " ++ Entity.entityName E ++ " WHERE " ++ getIdColumnName E ++ " = "
    ++ toString id.toInt ++ ")"

def exists_ (id : Int32) : DbProgram Bool := query (existsQuery E id) [] getScalar

variable {E} in
def insert (data : E) : DbProgram Int32 :=
  query (prepareInsertQuery E) (makeValueList (getValuesToInsert data)) (insertResult E)

end Operations

/-! ## The text of an insertion

The names come from one fold and the placeholders from another, each leaving a comma to cut off.
Together they are the rendering of an insertion statement, which the server reads back. -/

theorem popBack_comma (s : String) : popBack (s ++ ",") = s := by
  rw [popBack, String.toList_append, show ",".toList = [','] from rfl, List.dropLast_concat,
    String.ofList_toList]

private theorem foldl_comma {α : Type} (f : α → String) {l : List α} (hne : l ≠ []) (s : String) :
    l.foldl (fun a b ↦ a ++ f b ++ ",") s = s ++ ",".intercalate (l.map f) ++ "," := by
  induction l generalizing s with
  | nil => exact absurd rfl hne
  | cons b l ih =>
    cases l with
    | nil => simp
    | cons c l =>
      rw [List.foldl_cons, ih (by simp)]
      simp only [List.map_cons, String.intercalate_cons_cons, String.append_assoc]

/-- The counter of the second fold runs through `1, 2, …`. -/
private theorem foldl_counter {α : Type} (l : List α) (s : String) (n : ℕ) :
    (l.foldl (fun (a, n) _ ↦ (a ++ "$" ++ toString (n + 1) ++ ",", n + 1)) (s, n)).1
      = (List.range' (n + 1) l.length).foldl (fun a i ↦ a ++ Sql.placeholder i ++ ",") s := by
  induction l generalizing s n with
  | nil => rfl
  | cons b l ih =>
    rw [List.foldl_cons, ih, List.length_cons, List.range'_succ, List.foldl_cons, Sql.placeholder]
    simp only [String.append_assoc]

section InsertText

section Struct

variable (E : Type) [Struct E]

/-- The statement `prepareInsertQuery` is the text of. -/
def insertStatement : Sql.Statement :=
  .insert (Entity.entityName E) ((getInsertColumns E).map (·.name))
    (List.range' 1 (getInsertColumns E).length) (getIdColumnName E)

theorem prepareInsertQuery_eq_of_ne_nil (hne : getInsertColumns E ≠ []) :
    prepareInsertQuery E = (insertStatement E).render := by
  have hids : List.range' 1 (getInsertColumns E).length ≠ [] := by simpa using hne
  have hfields : popBack ((getInsertColumns E).foldl (fun a b ↦ a ++ b.name ++ ",") "")
      = ",".intercalate ((getInsertColumns E).map (·.name)) := by
    rw [foldl_comma _ hne, popBack_comma, String.empty_append]
  have hplaceholders : popBack ((getInsertColumns E).foldl
      (fun (a, n) _ ↦ (a ++ "$" ++ toString (n + 1) ++ ",", n + 1)) ("", 0)).1
      = ",".intercalate ((List.range' 1 (getInsertColumns E).length).map Sql.placeholder) := by
    rw [foldl_counter, foldl_comma _ hids, popBack_comma, String.empty_append]
  have hquery : prepareInsertQuery E = "INSERT INTO " ++ Entity.entityName E ++ " ("
      ++ popBack ((getInsertColumns E).foldl (fun a b ↦ a ++ b.name ++ ",") "") ++ ") VALUES ("
      ++ popBack ((getInsertColumns E).foldl
        (fun (a, n) _ ↦ (a ++ "$" ++ toString (n + 1) ++ ",", n + 1)) ("", 0)).1
      ++ ") RETURNING " ++ getIdColumnName E := rfl
  rw [hquery, hfields, hplaceholders, insertStatement, Sql.Statement.render_insert]

end Struct

variable (E : Type) [Entity E]

theorem insertColumns_ne_nil : getInsertColumns E ≠ [] := Entity.insertColumns_ne_nil

theorem prepareInsertQuery_eq : prepareInsertQuery E = (insertStatement E).render :=
  prepareInsertQuery_eq_of_ne_nil E (insertColumns_ne_nil E)

theorem identifier_idColumnName : Sql.IsIdentifier (getIdColumnName E) := by
  rw [getIdColumnName_eq]
  decide

theorem insertStatement_wellFormed : (insertStatement E).WellFormed := by
  rw [insertStatement, Sql.Statement.wellFormed_insert_iff]
  refine ⟨Entity.entityName_identifier, fun c hc ↦ ?_, identifier_idColumnName E, ?_, ?_⟩
  · obtain ⟨a, ha, rfl⟩ := List.mem_map.mp hc
    exact Entity.identifiers a (mem_accessors_of_mem_insertColumns ha)
  · simpa using insertColumns_ne_nil E
  · simpa using insertColumns_ne_nil E

end InsertText

end Sphinx.Db
