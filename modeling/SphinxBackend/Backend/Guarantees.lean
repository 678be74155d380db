import SphinxBackend.Backend.Accounting

/-!
# What a client can rely on

Whoever has been answered can find what it was told in the log and in the tables. A success says
that the calls of the request are the insertions of what its body holds, and that all of these are
entries of the catalogue. A reply to a question is the one that the catalogue gives at the place of
the call (`Told`).

The catalogue only grows along the log, so what a client has been told stays true. Its states are in
the order of the calls (`reads_linearizable`), and a question that is put after others were answered
is answered from a state that has everything in it that the others were told of (`answered_after`).

An exception is one of the requests that it ends. That is not so where the language gives no meaning
to what has happened, so it is assumed here that no request comes to such a point (`Defined`).
-/

namespace Sphinx.Backend

open Db Nlohmann Interaction Program Collections Model

/-! ## Entries of the catalogue -/

namespace Catalogue

variable {k k' : Catalogue}

def HasUsers (k : Catalogue) (us : List User) : Prop := ∀ u ∈ us, k.Has (.user (u.recorded u.id))

def HasModules (k : Catalogue) (ms : List Module) : Prop :=
  ∀ m ∈ ms, k.Has (.module (m.recorded m.id))

/-- The courses are entries, and so are their modules. -/
def HasCourses (k : Catalogue) (cs : List Course) : Prop :=
  ∀ c ∈ cs, k.Has (.course (c.recorded c.id)) ∧ k.HasModules c.nested

theorem HasUsers.mono {us : List User} (h : k.HasUsers us) (hle : k ≤ k') : k'.HasUsers us :=
  fun u hu ↦ (h u hu).of_le hle

theorem HasModules.mono {ms : List Module} (h : k.HasModules ms) (hle : k ≤ k') :
    k'.HasModules ms := fun m hm ↦ (h m hm).of_le hle

theorem HasCourses.mono {cs : List Course} (h : k.HasCourses cs) (hle : k ≤ k') :
    k'.HasCourses cs := fun c hc ↦ ⟨(h c hc).1.of_le hle, (h c hc).2.mono hle⟩

end Catalogue

section Represents

variable {k : Catalogue} {db : Sql.Db}

theorem Represents.has_user (hk : Represents k db) {u : User}
    (hrow : (inserted u).row ∈ (db "users").rows) : k.Has (.user (u.recorded u.id)) :=
  hk.users.recorded_mem User.recordedAs hrow

theorem Represents.has_course (hk : Represents k db) {c : Course}
    (hrow : (inserted c).row ∈ (db "courses").rows) : k.Has (.course (c.recorded c.id)) :=
  hk.courses.recorded_mem Course.recordedAs hrow

theorem Represents.has_module (hk : Represents k db) {m : Module}
    (hrow : (inserted m).row ∈ (db "modules").rows) : k.Has (.module (m.recorded m.id)) :=
  hk.modules.recorded_mem Module.recordedAs hrow

end Represents

/-! ## What is told -/

section Told

/-- What is told of a creation. It was made in full, as `es'`, which is stored now; or the body
could not be decoded, and nothing was sent; or the last call has failed. -/
def Posted {E : Type} (calls : List (Call × PGresult)) (entities : Except Error (List E))
    (R : List E → List E → Prop) (walk : List E → List Insertion) (stored : List E → Prop)
    (respond : List E → Response) : Except Error Response → Prop
  | .ok r => ∃ es es', entities = .ok es ∧ R es es' ∧ calls = (walk es').map Insertion.event ∧
      stored es' ∧ r = respond es'
  | .error e => (entities = .error e ∧ ¬e.IsUndefined ∧ calls = []) ∨
      ∃ call res, calls.getLast? = some (call, res) ∧ Lost res ∧ e = .runtimeError res.message

theorem Posted.imp {E : Type} {calls : List (Call × PGresult)} {entities : Except Error (List E)}
    {R : List E → List E → Prop} {walk : List E → List Insertion} {stored stored' : List E → Prop}
    {respond : List E → Response} {x : Except Error Response}
    (h : Posted calls entities R walk stored respond x) (himp : ∀ es, stored es → stored' es) :
    Posted calls entities R walk stored' respond x := by
  cases x with
  | ok r =>
    obtain ⟨es, es', hes, hR, hcalls, hstored, hr⟩ := h
    exact ⟨es, es', hes, hR, hcalls, himp es' hstored, hr⟩
  | error e => exact h

variable {ι : Type}

/-- The client's question is the `n`-th call, and its reply is what the catalogue says at that
place, or the call has failed. -/
def AnsweredAt (log : List (ι × Call × PGresult)) (states : ℕ → Catalogue) (i : ι) (route : Route)
    (x : Except Error Response) (n : ℕ) : Prop :=
  ∃ q res, log[n]? = some (i, Catalogue.send (.ask q), res) ∧
    (x = (states n).reply route ∨ Lost res ∧ x = .error (.runtimeError res.message))

theorem AnsweredAt.exists_entry {log : List (ι × Call × PGresult)} {states : ℕ → Catalogue} {i : ι}
    {route : Route} {x : Except Error Response} {n : ℕ} (h : AnsweredAt log states i route x n) :
    ∃ y, log[n]? = some (i, y) := by
  obtain ⟨q, res, hn, -⟩ := h
  exact ⟨_, hn⟩

variable [DecidableEq ι]

/-- What a client has been told along the log, with what it was told of in the catalogue `now`. -/
def Told (notImplementedYet : Error) (parse : String → Except Error Json) (junk : List ℕ → Int32)
    (log : List (ι × Call × PGresult)) (states : ℕ → Catalogue) (now : Catalogue) (i : ι)
    (route : Route) (req : Request) (x : Except Error Response) : Prop :=
  match route, req.method with
  | .users, .POST => Posted (Pool.part log i)
      (deserializeEntitiesFromText User parse junk req.body true) (List.Forall₂ Renumbered)
      (List.map inserted) now.HasUsers (fun _ ↦ response 201) x
  | .courses, .POST => Posted (Pool.part log i)
      (deserializeEntitiesFromText Course parse junk req.body true)
      (List.Forall₂ Course.Relinked) (List.flatMap Course.walk) now.HasCourses
      (fun cs ↦ ⟨201, some (Catalogue.page cs)⟩) x
  | .modules _, .POST => Posted (Pool.part log i)
      (deserializeEntitiesFromText Module parse junk req.body true) (List.Forall₂ Renumbered)
      (List.map inserted) now.HasModules (fun _ ↦ response 201) x
  | .user _, .PUT => x = .error notImplementedYet
  | .test, .GET | .test, .POST => x = .ok (response 501)
  | route, .GET => ∃ n, AnsweredAt log states i route x n
  | _, _ => x = .ok (response 404)

/-- What was told once stays true. -/
theorem Told.mono {notImplementedYet : Error} {parse : String → Except Error Json}
    {junk : List ℕ → Int32} {log : List (ι × Call × PGresult)} {states : ℕ → Catalogue}
    {now later : Catalogue} {i : ι} {route : Route} {req : Request} {x : Except Error Response}
    (h : Told notImplementedYet parse junk log states now i route req x) (hle : now ≤ later) :
    Told notImplementedYet parse junk log states later i route req x := by
  obtain ⟨method, body⟩ := req
  cases route with
  | users =>
    cases method with
    | POST => exact Posted.imp h fun us hus ↦ hus.mono hle
    | _ => exact h
  | courses =>
    cases method with
    | POST => exact Posted.imp h fun cs hcs ↦ hcs.mono hle
    | _ => exact h
  | modules =>
    cases method with
    | POST => exact Posted.imp h fun ms hms ↦ hms.mono hle
    | _ => exact h
  | _ => cases method <;> exact h

end Told

/-! ## The clients of the service -/

section Served

variable {ι : Type} [DecidableEq ι] {notImplementedYet : Error}
  {parse : String → Except Error Json} {junk : ι → List ℕ → Int32} {route : ι → Route}
  {req : ι → Request} {db : Sql.Db} {c c₁ c₂ : Pool ι Sql.Db Call PGresult Error Response}
  {states : ℕ → Catalogue} {tables : ℕ → Sql.Db}

/-- The calls and the end of a creation. -/
theorem posted_of_follows {E : Type} [Creatable E] {walk : List E → List Insertion}
    {R : List E → List E → Prop} (hcreates : Creates createEntities walk R)
    {entities : Except Error (List E)} {respond : List E → Response} {stored : List E → Prop}
    {t : List (Call × PGresult)} {own : List Insertion} {x : Except Error Response}
    (hf : Follows (createThen entities respond) t (ofExcept x))
    (hown : (∀ y ∈ t, refusal y.2 = none) → t = own.map Insertion.event)
    (hdefined : ∀ e, entities = .error e → ¬e.IsUndefined)
    (hstored : ∀ es, walk es = own → stored es) :
    Posted t entities R walk stored respond x := by
  rcases (failFast_createAndRespond hcreates entities _).trace_cases hf with
    hall | ⟨u, op, res, e, rfl, -, he, hthrow⟩
  · obtain rfl := hown hall
    rcases exists_walk_of_follows hcreates hf with
      ⟨e, hes, rfl, hthrow⟩ | ⟨es, es', rest, hes, hR, hwalk, hne, hdone⟩
    · obtain rfl : x = .error e := ofExcept_injective hthrow
      exact .inl ⟨hes, hdefined e hes, rfl⟩
    · cases x with
      | error e => exact absurd rfl (hne e)
      | ok r =>
        obtain ⟨rfl, hr⟩ := hdone r rfl
        rw [List.append_nil] at hwalk
        exact ⟨es, es', hes, hR, by rw [hwalk], hstored es' hwalk, hr⟩
  -- the last call has failed, and the program has ended with it
  · obtain rfl : x = .error e := ofExcept_injective hthrow
    exact .inr ⟨op, res, List.getLast?_concat, lost_of_refusal he, eq_runtimeError_of_refusal he⟩

/-- A question is answered from the state at the place of its call. -/
theorem Served.exists_answeredAt (h : Served notImplementedYet parse junk db route req c)
    (hc : Chronicle db c states tables) {i : ι} {x : Except Error Response}
    (hget : (req i).method = .GET) (hroute : route i ≠ .test) (hi : c.clients i = ofExcept x) :
    ∃ n, AnsweredAt c.log states i (route i) x n := by
  have hreq : req i = ⟨.GET, (req i).body⟩ := by rw [← hget]
  obtain ⟨q, f, hclient, hreply, herror⟩ :=
    exists_question notImplementedYet parse (junk i) (req i).body hroute
  rw [← hreq] at hclient
  obtain ⟨n, res, hn, rfl⟩ := Pool.Reachable.exists_entry h hclient hi
  refine ⟨n, q, res, hn, ?_⟩
  have hlt : n < c.log.length := (List.getElem?_eq_some_iff.mp hn).1
  have hk := hc.represents n (Nat.le_of_lt hlt)
  rcases read_ask hk (hc.timeline.step_of_entry hn) with hread | ⟨hlost, hread⟩
  · exact .inl (by rw [hread, hreply])
  · exact .inr ⟨hlost, by rw [hread, herror]⟩

/-- A request without calls ends as it was to end. -/
theorem Served.eq_of_ofExcept (h : Served notImplementedYet parse junk db route req c) {i : ι}
    {x y : Except Error Response} (hi : c.clients i = ofExcept x)
    (hserve : serve notImplementedYet parse (junk i) (route i) (req i) = ofExcept y) : x = y := by
  have hfollows := Pool.Reachable.follows h i
  rw [hserve, hi, follows_ofExcept_iff] at hfollows
  exact ofExcept_injective hfollows.2

/-- What a client that has ended was told. -/
theorem Served.told (h : Served notImplementedYet parse junk db route req c)
    (hc : Chronicle db c states tables) {i : ι}
    (hdefined : Defined notImplementedYet parse (junk i) (route i) (req i))
    {x : Except Error Response} (hi : c.clients i = ofExcept x) :
    Told notImplementedYet parse (junk i) c.log states (states c.log.length) i (route i) (req i)
      x := by
  obtain ⟨added, hadded⟩ := h.exists_additions
  have hk := hc.represents_shared
  have hrow {y : Insertion} (hy : y ∈ ownOf added i) : y.row ∈ (c.shared y.table).rows :=
    hadded.row_mem (mem_of_mem_ownOf hy)
  have hfollows := Pool.Reachable.follows h i
  have hget := h.exists_answeredAt hc (i := i) (x := x)
  have hends {y : Except Error Response} := h.eq_of_ofExcept (y := y) hi
  rw [hi] at hfollows
  have hown {handler : PostHandler} (hpost : postHandler (route i) (req i) = some handler) :
      Follows (handler.run parse (junk i) (req i).body) (c.history i) (ofExcept x) ∧
        ((∀ y ∈ c.history i, refusal y.2 = none) →
          c.history i = (ownOf added i).map Insertion.event) ∧
        handler.DecodesDefined parse (junk i) (req i).body := by
    refine ⟨?_, h.history_eq hadded hpost, hdefined.decodes handler hpost⟩
    rwa [serve_of_postHandler notImplementedYet parse (junk i) hpost] at hfollows
  clear hfollows
  revert hown hget hends
  generalize route i = route, req i = req
  obtain ⟨method, body⟩ := req
  intro hget hends hown
  cases route with
  | users =>
    cases method with
    | GET => exact hget rfl (by simp) hi
    | POST =>
      obtain ⟨hf, hevents, hdecodes⟩ := @hown .users rfl
      rw [PostHandler.run, usersRoute_post] at hf
      refine posted_of_follows creates_users hf hevents hdecodes fun us hus u hu ↦ ?_
      exact hk.has_user (hrow (hus ▸ List.mem_map_of_mem hu))
    | PUT => exact hends rfl
  | courses =>
    cases method with
    | GET => exact hget rfl (by simp) hi
    | POST =>
      obtain ⟨hf, hevents, hdecodes⟩ := @hown .courses rfl
      rw [run_courses] at hf
      refine posted_of_follows creates_courses hf hevents hdecodes fun cs hcs c' hc' ↦ ?_
      have hwalk {y : Insertion} (hy : y ∈ c'.walk) : y.row ∈ (c.shared y.table).rows :=
        hrow (hcs ▸ List.mem_flatMap.mpr ⟨c', hc', hy⟩)
      refine ⟨hk.has_course (hwalk List.mem_cons_self), fun m hm ↦ hk.has_module (hwalk ?_)⟩
      exact List.mem_cons_of_mem _ (List.mem_map_of_mem hm)
    | PUT => exact hends rfl
  | modules courseId =>
    cases method with
    | GET => exact hget rfl (by simp) hi
    | POST =>
      obtain ⟨hf, hevents, hdecodes⟩ := @hown (.modules courseId) rfl
      rw [PostHandler.run, modulesRoute_post] at hf
      refine posted_of_follows creates_modules hf hevents hdecodes fun ms hms m hm ↦ ?_
      exact hk.has_module (hrow (hms ▸ List.mem_map_of_mem hm))
    | PUT => exact hends rfl
  | test => cases method <;> exact hends rfl
  | _ =>
    cases method with
    | GET => exact hget rfl (by simp) hi
    | _ => exact hends rfl

/-- **Every request ends as its route is meant to end**, whatever the others do and whatever is
lost, or with the failure of a call of its own. -/
theorem told_of_served (hdb : Stored db)
    (hdefined : ∀ i, Defined notImplementedYet parse (junk i) (route i) (req i))
    (h : Served notImplementedYet parse junk db route req c) :
    ∃ (states : ℕ → Catalogue) (tables : ℕ → Sql.Db), Chronicle db c states tables ∧
      ∀ i x, c.clients i = ofExcept x → Told notImplementedYet parse (junk i) c.log states
        (states c.log.length) i (route i) (req i) x := by
  obtain ⟨states, tables, hc⟩ := h.exists_chronicle hdb
  exact ⟨states, tables, hc, fun i x hi ↦ h.told hc (hdefined i) hi⟩

/-- Two students are registered and users are listed, so no document lacks anything. -/
theorem defined_registerAndList (i : Bool) :
    Defined notYet parseStudents (fun _ ↦ 0) .users (registerAndList i) where
  decodes handler hpost := by
    cases i with
    | true =>
      obtain rfl := Option.some.inj hpost
      exact fun e he ↦ absurd (decode_students.symm.trans he) (by simp)
    | false => exact absurd hpost (by simp [postHandler, registerAndList])
  unimplemented userId hroute := absurd hroute (by simp)

theorem told_lostAnswer :
    ∃ (states : ℕ → Catalogue) (tables : ℕ → Sql.Db), Chronicle campus lostAnswer states tables ∧
      ∀ i x, lostAnswer.clients i = ofExcept x → Told notYet parseStudents (fun _ ↦ 0)
        lostAnswer.log states (states lostAnswer.log.length) i .users (registerAndList i) x :=
  told_of_served stored_campus defined_registerAndList lostAnswer_served

/-- **The replies are those of one history.** Along the log the catalogue goes through one sequence
of states, those that the tables hold, and each question is answered from the state at the place of
its call, which is within the time of the request. -/
theorem reads_linearizable (hdb : Stored db)
    (h : Served notImplementedYet parse junk db route req c) :
    ∃ (states : ℕ → Catalogue) (tables : ℕ → Sql.Db), Chronicle db c states tables ∧
      ∀ i x, (req i).method = .GET → route i ≠ .test → c.clients i = ofExcept x →
        ∃ n, Pool.Within (Unreliable postgres Lost) c i n ∧
          AnsweredAt c.log states i (route i) x n := by
  obtain ⟨states, tables, hc⟩ := h.exists_chronicle hdb
  refine ⟨states, tables, hc, fun i x hget hroute hi ↦ ?_⟩
  obtain ⟨n, hn⟩ := h.exists_answeredAt hc hget hroute hi
  obtain ⟨y, hentry⟩ := hn.exists_entry
  exact ⟨n, Pool.within_of_entry hentry, hn⟩

theorem reads_lostAnswer :
    ∃ (states : ℕ → Catalogue) (tables : ℕ → Sql.Db), Chronicle campus lostAnswer states tables ∧
      ∀ i x, (registerAndList i).method = .GET → Route.users ≠ .test →
        lostAnswer.clients i = ofExcept x →
        ∃ n, Pool.Within (Unreliable postgres Lost) lostAnswer i n ∧
          AnsweredAt lostAnswer.log states i .users x n :=
  reads_linearizable stored_campus lostAnswer_served

/-- **Who asks later is told as much.** A question that is put when others have been answered is
answered from a state of the run, at the place of its call, that has everything in it that those
were told of. -/
theorem answered_after (hdb : Stored db)
    (hdefined : ∀ i, Defined notImplementedYet parse (junk i) (route i) (req i))
    (h : Served notImplementedYet parse junk db route req c₁)
    (hsteps : Relation.ReflTransGen (Pool.Step (Unreliable postgres Lost)) c₁ c₂) {j : ι}
    (hbegin : c₁.history j = []) (hget : (req j).method = .GET) (hroute : route j ≠ .test)
    {y : Except Error Response} (hend : c₂.clients j = ofExcept y) :
    ∃ (states : ℕ → Catalogue) (tables : ℕ → Sql.Db) (n : ℕ), Chronicle db c₁ states tables ∧
      Chronicle db c₂ states tables ∧ c₁.log.length ≤ n ∧
      AnsweredAt c₂.log states j (route j) y n ∧
      ∀ i x, c₁.clients i = ofExcept x → Told notImplementedYet parse (junk i) c₁.log states
        (states n) i (route i) (req i) x := by
  obtain ⟨k, hk⟩ := exists_represents hdb
  obtain ⟨c₀, states₁, tables₁, -, hstep₁⟩ := h.exists_inStep hk
  obtain ⟨c₀', states, tables, -, hstep, hsame⟩ := hstep₁.exists_run simulates_remote hsteps
  have hc₁ := (InStep.chronicle hstep₁).congr hsame
  have hc₂ := InStep.chronicle hstep
  obtain ⟨n, hn⟩ := Served.exists_answeredAt (h.trans hsteps) hc₂ hget hroute hend
  obtain ⟨y, hentry⟩ := hn.exists_entry
  have hle : c₁.log.length ≤ n :=
    Pool.length_le_of_history_eq_nil hbegin (Pool.log_prefix_of_steps hsteps) hentry
  refine ⟨states, tables, n, hc₁, hc₂, hle, hn, fun i x hi ↦ ?_⟩
  exact (h.told hc₁ (hdefined i) hi).mono
    (hc₂.grows _ _ hle (Nat.le_of_lt (List.getElem?_eq_some_iff.mp hentry).1))

end Served

/-- The two students are registered, and nobody has asked for them yet. -/
def bothRegistered : Pool Bool Sql.Db Call PGresult Error Response where
  shared := (registered.map inserted).foldl (fun db x ↦ x.apply db) campus
  clients i := if i then .pure (response 201)
    else serve notYet parseStudents (fun _ ↦ 0) .users (registerAndList false)
  log := (registered.map inserted).map fun x ↦ (true, x.event)

theorem bothRegistered_served :
    Served notYet parseStudents (fun _ _ ↦ 0) campus (fun _ ↦ .users) registerAndList
      bothRegistered := by
  refine Pool.steps_unreliable (Pool.reachable_of_log ?_ fun i ↦ ?_)
  · exact chain_of_admits (show Admits campus (registered.map inserted) by decide)
  · cases i with
    | true => exact follows_register
    | false => exact .nil _

/-- Then somebody does. -/
def bothListed : Pool Bool Sql.Db Call PGresult Error Response where
  shared := bothRegistered.shared
  clients := Function.update bothRegistered.clients false
    (.pure ⟨200, some (Catalogue.page (residents ++ registered))⟩)
  log := bothRegistered.log ++ [(false, callOf "SELECT * FROM users" [],
    .ofRows (bothRegistered.shared "users").columns (bothRegistered.shared "users").rows)]

theorem bothListed_step : Pool.Step (Unreliable postgres Lost) bothRegistered bothListed := by
  have hlist : postgres bothRegistered.shared (callOf "SELECT * FROM users" [])
      bothRegistered.shared (.ofRows (bothRegistered.shared "users").columns
        (bothRegistered.shared "users").rows) :=
    (postgres_getAll_iff (E := User)).mpr ⟨rfl, rfl⟩
  have hclient : bothRegistered.clients false = .call (callOf "SELECT * FROM users" []) fun res ↦
      ofExcept (getRows User res) >>= fun us ↦ jsonResponse 200 (Json.toJsonVector us) := rfl
  exact .send hclient (Unreliable.answered hlist)

theorem answered_after_bothRegistered :
    ∃ (states : ℕ → Catalogue) (tables : ℕ → Sql.Db) (n : ℕ),
      Chronicle campus bothRegistered states tables ∧ Chronicle campus bothListed states tables ∧
      bothRegistered.log.length ≤ n ∧
      AnsweredAt bothListed.log states false .users
        (.ok ⟨200, some (Catalogue.page (residents ++ registered))⟩) n ∧
      ∀ i x, bothRegistered.clients i = ofExcept x → Told notYet parseStudents (fun _ ↦ 0)
        bothRegistered.log states (states n) i .users (registerAndList i) x :=
  answered_after stored_campus defined_registerAndList bothRegistered_served
    (.single bothListed_step) rfl rfl (by simp)
    (show bothListed.clients false = ofExcept (.ok _) from rfl)

end Sphinx.Backend
