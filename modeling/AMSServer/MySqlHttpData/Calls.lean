import AMSServer.Foundations.Protocol
import AMSServer.HttpData.Logged
import AMSServer.MySqlHttpData.Basic

/-!
# The calls of the client library

What `MySqlHttpData` calls of the MySQL client library, from `mysql_init` in the constructor to
`mysql_close` in the destructor (`lifetime`). The library asks for an order: a connection is made
once, a query that was sent must have its result stored before the next call of the connection, a
result is read only while it is stored, and the lengths of a row only after a row was fetched
(`Conn.step`).

Whatever the server answers, the calls keep to that order; every stored result is freed once, before
the next query, and the connection is closed at the end (`calls_follow`). The methods are those of
the code with the calls recorded, so the answer is the one of the code (`result_lifetime`).
-/

namespace AMSServer

open CRuntime Logged Transition

namespace MySqlHttpData

/-! ## The library -/

/-- A `MYSQL`, and the `MYSQL_RES` that is stored. -/
inductive Conn
  /-- The memory of a `MYSQL` -/
  | new
  /-- After `mysql_init` -/
  | ready
  /-- Connected, with a schema in use -/
  | idle (schema : Text)
  /-- A query was sent. -/
  | asked (schema : Text)
  /-- A result is stored, with the rows and fields that are left to fetch; a row is there or not. -/
  | stored (schema : Text) (rows fields : ℕ) (row : Bool)
  | closed
  deriving DecidableEq

/-- The order of calls that the library asks for. -/
def Conn.step : Conn → Call → Option Conn
  | new, .mysqlInit => some ready
  | ready, .realConnect db ok => some (if ok then idle db else ready)
  | idle schema, .realQuery schema' _ ok =>
    if schema' = schema then some (if ok then asked schema else idle schema) else none
  | asked schema, .storeResult none => some (idle schema)
  | asked schema, .storeResult (some result) =>
    some (stored schema result.numRows result.numFields false)
  | stored schema rows fields row, .numRows => some (stored schema rows fields row)
  | stored schema rows fields row, .numFields => some (stored schema rows fields row)
  | stored schema 0 fields _, .fetchRow => some (stored schema 0 fields false)
  | stored schema (rows + 1) fields _, .fetchRow => some (stored schema rows fields true)
  | stored schema rows fields true, .fetchLengths => some (stored schema rows fields true)
  | stored schema rows (fields + 1) row, .fetchField => some (stored schema rows fields row)
  | stored schema _ _ _, .freeResult => some (idle schema)
  | idle schema, .selectDb db ok => some (idle (if ok then db else schema))
  | ready, .mysqlClose => some closed
  | idle _, .mysqlClose => some closed
  | _, _ => none

/-! ## The methods with their calls -/

/-- An event with the calls recorded. -/
def Event.record : Event → Logged Call Fault Unit
  | base e => liftM e.write
  | calls l => logs l
  | columns filednum => liftM (columns filednum).write

/-- The output where the calls are recorded. -/
def Event.recorded : Effects Event Fault (Logged Call Fault) := .recording Event.record

/-- A `MySqlHttpData` from its constructor to its destructor, with the calls it makes -/
def lifetime (server : MySql) (comedata : Text) :
    Logged Call Fault (Bool × CBuf payloadBufferLength) :=
  lifetimeWith Event.recorded itoaS server comedata

/-! ## The methods under a map -/

section

variable {m n : Type → Type} [Monad m] [Monad n] {E : Effects Event Fault m}
  {F : Effects Event Fault n} (φ : Effects.Hom E F)

theorem map_storedResult (server : MySql) (schema query : Text) :
    φ.map (storedResult E server schema query) = storedResult F server schema query := by
  rw [storedResult, storedResult]
  split
  · exact φ.emit_bind _ (φ.map_pure _)
  · exact φ.emit_bind _ (φ.emit_bind _ (φ.map_pure _))

theorem map_showQueryDetailsWith (result : MysqlRes) :
    φ.map (showQueryDetailsWith E result) = showQueryDetailsWith F result := by
  rw [showQueryDetailsWith, showQueryDetailsWith]
  refine φ.emit_bind _ ?_
  split
  · exact φ.map_pure _
  · exact φ.emit_bind _ (φ.emit_bind _ (φ.emit_bind _ (φ.map_emit _)))

theorem map_lookFor (server : MySql) (schema query : Text) :
    φ.map (lookFor E server schema query) = lookFor F server schema query := by
  rw [lookFor, lookFor]
  refine φ.bind_eq (map_storedResult φ server schema query) ?_
  rintro (_ | result)
  · exact φ.map_pure _
  refine φ.emit_bind _ ?_
  split
  · exact φ.emit_bind _ (φ.map_pure _)
  · exact φ.bind_eq (map_showQueryDetailsWith φ result) fun _ => φ.emit_bind _ (φ.map_pure _)

theorem map_connectDatabaseWith (server : MySql) (h : MySqlHttpData) :
    φ.map (connectDatabaseWith E server h) = connectDatabaseWith F server h := by
  rw [connectDatabaseWith, connectDatabaseWith]
  refine φ.emit_bind _ ?_
  split
  · exact φ.map_pure _
  refine φ.lift_bind _ fun databasename => φ.lift_bind _ fun query => ?_
  refine φ.bind_eq (map_lookFor φ server _ _) ?_
  rintro (_ | found)
  · exact φ.map_pure _
  dsimp only
  split
  · exact φ.map_pure _
  refine φ.lift_bind _ fun _ => φ.emit_bind _ ?_
  split
  · exact φ.map_pure _
  refine φ.lift_bind _ fun tablename => φ.lift_bind _ fun query => ?_
  refine φ.bind_eq (map_lookFor φ server _ _) ?_
  rintro (_ | found)
  · exact φ.map_pure _
  dsimp only
  split
  · exact φ.map_pure _
  · exact φ.map_pure _

theorem map_countRows (server : MySql) (schema query : Text) :
    φ.map (countRows E server schema query) = countRows F server schema query := by
  rw [countRows, countRows]
  refine φ.bind_eq (map_storedResult φ server schema query) ?_
  rintro (_ | result)
  · exact φ.map_pure _
  refine φ.bind_eq (map_showQueryDetailsWith φ result) fun _ => ?_
  exact φ.emit_bind _ (φ.emit_bind _ (φ.map_pure _))

variable (itoa : Int → Except Fault (CBuf sumLength)) (server : MySql)

theorem map_buildQueryAuthSumPayLoadWith (databasename tablename : CBuf nameLength)
    (h : HttpData) :
    φ.map (buildQueryAuthSumPayLoadWith E itoa server databasename tablename h) =
      buildQueryAuthSumPayLoadWith F itoa server databasename tablename h := by
  rw [buildQueryAuthSumPayLoadWith, buildQueryAuthSumPayLoadWith]
  refine φ.lift_bind _ fun query => φ.bind_eq (map_countRows φ server _ _) ?_
  rintro (_ | result)
  · exact φ.map_pure _
  refine φ.lift_bind _ fun h => φ.lift_bind _ fun tempauthsum => ?_
  exact φ.lift_bind _ fun h => φ.map_pure _

theorem map_appendAuthStateWith (authstate : Int) (h : HttpData) :
    φ.map (appendAuthStateWith E itoa authstate h) = appendAuthStateWith F itoa authstate h := by
  rw [appendAuthStateWith, appendAuthStateWith]
  split
  · exact φ.map_pure _
  refine φ.lift_bind _ fun h => φ.lift_bind _ fun tempauthstate => ?_
  exact φ.lift_bind _ fun h => φ.map_pure _

theorem map_buildQueryAuthPayLoadByStbIdWith (databasename tablename : CBuf nameLength)
    (h : HttpData) :
    φ.map (buildQueryAuthPayLoadByStbIdWith E itoa server databasename tablename h) =
      buildQueryAuthPayLoadByStbIdWith F itoa server databasename tablename h := by
  rw [buildQueryAuthPayLoadByStbIdWith, buildQueryAuthPayLoadByStbIdWith]
  refine φ.lift_bind _ fun query => φ.bind_eq (map_countRows φ server _ _) ?_
  rintro (_ | result)
  · exact φ.map_pure _
  · exact map_appendAuthStateWith φ itoa _ h

theorem maps_buildersWith (h : MySqlHttpData) :
    HttpData.Builders.Maps (φ.comap .base) (buildersWith E itoa server h)
      (buildersWith F itoa server h) :=
  { HttpData.maps_builders (φ.comap .base) with
    authSum := map_buildQueryAuthSumPayLoadWith φ itoa server _ _
    authStbid := map_buildQueryAuthPayLoadByStbIdWith φ itoa server _ _ }

theorem map_handleHttpDataWith (h : MySqlHttpData) :
    φ.map (handleHttpDataWith E itoa server h) = handleHttpDataWith F itoa server h := by
  rw [handleHttpDataWith, handleHttpDataWith]
  refine φ.bind_eq (HttpData.map_parseRecvBufWith (φ.comap .base) h.toHttpData) fun base => ?_
  refine φ.bind_eq (map_connectDatabaseWith φ server _) ?_
  rintro ⟨ok, h⟩
  dsimp only
  split
  · exact φ.map_pure _
  · exact (maps_buildersWith φ itoa server h).buildPayLoad h.toHttpData

/-- **A life of the object, by what becomes of its output.** -/
theorem map_lifetimeWith (comedata : Text) :
    φ.map (lifetimeWith E itoa server comedata) = lifetimeWith F itoa server comedata := by
  rw [lifetimeWith, lifetimeWith]
  refine φ.lift_bind _ fun h => φ.emit_bind _ ?_
  refine φ.bind_eq (map_handleHttpDataWith φ itoa server h) ?_
  rintro ⟨ok, h⟩
  exact φ.emit_bind _ (φ.map_pure _)

end

/-- The calls are forgotten. -/
def Event.forgotten : Effects.Hom Event.recorded Event.code :=
  Effects.forget Event.record fun e => by cases e <;> rfl

/-- **The calls make no difference to the answer.** -/
theorem result_lifetime (server : MySql) (comedata : Text) :
    (lifetime server comedata).result = answer server comedata :=
  map_lifetimeWith Event.forgotten itoaS server comedata

/-! ## The order of the calls -/

/-- A result of the connection is stored. -/
def Stored (schema : Text) (t : Conn) : Prop :=
  ∃ rows fields row, t = .stored schema rows fields row

theorem exec_fetchFields (schema : Text) (rows n k : ℕ) (row : Bool) :
    exec Conn.step (.stored schema rows (n + k) row) (List.replicate n .fetchField) =
      some (.stored schema rows k row) := by
  induction n with
  | zero => rw [Nat.zero_add, List.replicate_zero, exec]
  | succ n ih =>
    rw [List.replicate_succ, exec, Nat.succ_add]
    exact ih

/-- The rows are fetched to the end. -/
theorem exec_fetchRows (schema : Text) (rows fields : ℕ) (row : Bool) :
    exec Conn.step (.stored schema rows fields row) (fetchRows rows) =
      some (.stored schema 0 fields false) := by
  induction rows generalizing row with
  | zero => rfl
  | succ rows ih =>
    rw [fetchRows, List.replicate_succ, List.flatten_cons, List.append_assoc, exec_append]
    exact ih true

/-- A call before the rest. -/
theorem follows_call_bind {α : Type} {s t : Conn} {c : Call} {g : Unit → Logged Call Fault α}
    {r : α → Conn → Prop} (hstep : Conn.step s c = some t) (hg : Follows Conn.step t (g ()) r) :
    Follows Conn.step s (call Event.recorded c >>= g) r :=
  Follows.log_bind hstep hg

theorem follows_storedResult (server : MySql) (schema query : Text) :
    Follows Conn.step (.idle schema) (storedResult Event.recorded server schema query) fun r t =>
      match r with
      | none => t = .idle schema
      | some result => t = .stored schema result.numRows result.numFields false := by
  rw [storedResult]
  cases server.realQuery schema query with
  | none =>
    refine follows_call_bind (t := .idle schema) ?_ (Follows.pure rfl)
    simp [Conn.step]
  | some result =>
    refine follows_call_bind (t := .asked schema) (by simp [Conn.step]) ?_
    cases result with
    | none => exact follows_call_bind rfl (Follows.pure rfl)
    | some result => exact follows_call_bind rfl (Follows.pure rfl)

/-- **The result is only read**, and a row before its lengths. -/
theorem follows_showQueryDetails (schema : Text) (result : MysqlRes) :
    Follows Conn.step (.stored schema result.numRows result.numFields false)
      (showQueryDetailsWith Event.recorded result) fun _ t => Stored schema t := by
  rw [showQueryDetailsWith]
  obtain ⟨rows, fields⟩ := result
  cases rows with
  | zero => exact follows_call_bind rfl (Follows.pure ⟨_, _, _, rfl⟩)
  | succ rows =>
    refine follows_call_bind rfl ?_
    rw [if_neg (Nat.succ_ne_zero rows)]
    refine Follows.bind (q := fun _ t => t = .stored schema rows fields true)
      (Follows.logs rfl rfl) ?_
    rintro _ _ rfl
    -- no more fields are fetched than there are
    obtain ⟨k, hk⟩ : ∃ k, fields = min (fields % 256) 21 + k :=
      ⟨fields - min (fields % 256) 21, by have := Nat.mod_le fields 256; omega⟩
    have hfields := exec_fetchFields schema rows (min (fields % 256) 21) k true
    rw [← hk] at hfields
    refine Follows.bind (q := fun _ t => t = .stored schema rows k true)
      (Follows.logs hfields rfl) ?_
    rintro _ _ rfl
    refine Follows.lift_bind fun _ _ => ?_
    exact Follows.logs (exec_fetchRows schema rows k true) ⟨_, _, _, rfl⟩

/-- A call that a stored result allows and that leaves it as it is. -/
theorem Stored.numRows {schema : Text} {s : Conn} (hs : Stored schema s) :
    Conn.step s .numRows = some s := by
  obtain ⟨rows, fields, row, rfl⟩ := hs
  rfl

theorem Stored.freeResult {schema : Text} {s : Conn} (hs : Stored schema s) :
    Conn.step s .freeResult = some (.idle schema) := by
  obtain ⟨rows, fields, row, rfl⟩ := hs
  rfl

theorem follows_lookFor (server : MySql) (schema query : Text) :
    Follows Conn.step (.idle schema) (lookFor Event.recorded server schema query)
      fun _ t => t = .idle schema := by
  rw [lookFor]
  refine Follows.bind (follows_storedResult server schema query) ?_
  rintro (_ | result) _ rfl
  · exact Follows.pure rfl
  refine follows_call_bind rfl ?_
  split
  · exact follows_call_bind rfl (Follows.pure rfl)
  · refine Follows.bind (follows_showQueryDetails schema result) fun _ t ht => ?_
    exact follows_call_bind ht.freeResult (Follows.pure rfl)

theorem follows_countRows (server : MySql) (schema query : Text) :
    Follows Conn.step (.idle schema) (countRows Event.recorded server schema query)
      fun _ t => t = .idle schema := by
  rw [countRows]
  refine Follows.bind (follows_storedResult server schema query) ?_
  rintro (_ | result) _ rfl
  · exact Follows.pure rfl
  refine Follows.bind (follows_showQueryDetails schema result) fun _ t ht => ?_
  refine follows_call_bind ht.numRows ?_
  exact follows_call_bind ht.freeResult (Follows.pure rfl)

/-- The connection may be closed. -/
def Quiet (t : Conn) : Prop := t = .ready ∨ ∃ schema, t = .idle schema

/-- The connection may be asked for what the object needs: after an error nothing, and else in the
schema of the project. -/
def Ready (h : MySqlHttpData) (t : Conn) : Prop :=
  ∃ schema, t = .idle schema ∧ (h.sendflag ≠ .kErrorFlag → schema = h.databasename.text)

theorem follows_connectDatabase (server : MySql) (h : MySqlHttpData) :
    Follows Conn.step .ready (connectDatabaseWith Event.recorded server h) fun x t =>
      Quiet t ∧ (x.1 = true → Ready x.2 t) := by
  rw [connectDatabaseWith]
  cases server.realConnect with
  | false => exact follows_call_bind rfl (Follows.pure ⟨Or.inl rfl, fun h => Bool.noConfusion h⟩)
  | true =>
    refine follows_call_bind (t := .idle defaultDatabaseName.toList) rfl ?_
    rw [if_neg Bool.noConfusion]
    refine Follows.lift_bind fun databasename _ => Follows.lift_bind fun query _ => ?_
    refine Follows.bind (follows_lookFor server _ _) ?_
    rintro (_ | found) _ rfl
    · exact Follows.pure ⟨Or.inr ⟨_, rfl⟩, fun h => Bool.noConfusion h⟩
    dsimp only
    split
    · exact Follows.pure ⟨Or.inr ⟨_, rfl⟩, fun _ => ⟨_, rfl, fun hne => absurd rfl hne⟩⟩
    refine Follows.lift_bind fun _ _ => ?_
    cases server.selectDb databasename.text with
    | false =>
      exact follows_call_bind rfl (Follows.pure ⟨Or.inr ⟨_, rfl⟩, fun h => Bool.noConfusion h⟩)
    | true =>
      refine follows_call_bind (t := .idle databasename.text) rfl ?_
      rw [if_neg Bool.noConfusion]
      refine Follows.lift_bind fun tablename _ => Follows.lift_bind fun query _ => ?_
      refine Follows.bind (follows_lookFor server _ _) ?_
      rintro (_ | found) _ rfl
      · exact Follows.pure ⟨Or.inr ⟨_, rfl⟩, fun h => Bool.noConfusion h⟩
      dsimp only
      split
      · exact Follows.pure ⟨Or.inr ⟨_, rfl⟩, fun _ => ⟨_, rfl, fun hne => absurd rfl hne⟩⟩
      · exact Follows.pure ⟨Or.inr ⟨_, rfl⟩, fun _ => ⟨_, rfl, fun _ => rfl⟩⟩

theorem follows_buildQueryAuthSumPayLoad (server : MySql)
    (databasename tablename : CBuf nameLength) (h : HttpData) :
    Follows Conn.step (.idle databasename.text)
      (buildQueryAuthSumPayLoadWith Event.recorded itoaS server databasename tablename h)
      fun _ t => Quiet t := by
  rw [buildQueryAuthSumPayLoadWith]
  refine Follows.lift_bind fun query _ => ?_
  refine Follows.bind (follows_countRows server _ _) ?_
  rintro (_ | result) _ rfl
  · exact Follows.pure (Or.inr ⟨_, rfl⟩)
  refine Follows.lift_bind fun h _ => Follows.lift_bind fun tempauthsum _ => ?_
  exact Follows.lift_bind fun h _ => Follows.pure (Or.inr ⟨_, rfl⟩)

theorem follows_buildQueryAuthPayLoadByStbId (server : MySql)
    (databasename tablename : CBuf nameLength) (h : HttpData) :
    Follows Conn.step (.idle databasename.text)
      (buildQueryAuthPayLoadByStbIdWith Event.recorded itoaS server databasename tablename h)
      fun _ t => Quiet t := by
  rw [buildQueryAuthPayLoadByStbIdWith]
  refine Follows.lift_bind fun query _ => ?_
  refine Follows.bind (follows_countRows server _ _) ?_
  rintro (_ | result) _ rfl
  · exact Follows.pure (Or.inr ⟨_, rfl⟩)
  dsimp only
  rw [appendAuthStateWith]
  split
  · exact Follows.pure (Or.inr ⟨_, rfl⟩)
  refine Follows.lift_bind fun h _ => Follows.lift_bind fun tempauthstate _ => ?_
  exact Follows.lift_bind fun h _ => Follows.pure (Or.inr ⟨_, rfl⟩)

/-! ### The methods of the base class -/

/-- What a method of the base class puts out is no call. -/
def Event.embedded : Effects.Hom HttpData.Event.code (Event.recorded.comap .base) :=
  Effects.embed HttpData.Event.write

theorem follows_embedded {α : Type} {x : Except Fault α} {y : Logged Call Fault α} {s : Conn}
    (hxy : Event.embedded.map x = y) (hs : Quiet s) :
    Follows Conn.step s y fun _ t => Quiet t := by
  subst hxy
  exact Follows.lift fun _ _ => hs

/-- The line for `FALSE` is no call. -/
theorem follows_orFailed {s : Conn} {build : Logged Call Fault (Bool × HttpData)}
    (h : Follows Conn.step s build fun _ t => Quiet t) (failure : String) :
    Follows Conn.step s (HttpData.orFailed (Event.recorded.comap .base) build failure)
      fun _ t => Quiet t := by
  refine Follows.bind h fun r t ht => ?_
  obtain ⟨ok, h'⟩ := r
  dsimp only
  split
  · exact Follows.lift_bind fun _ _ => Follows.pure ht
  · exact Follows.pure ht

theorem follows_buildSent {s : Conn} {build : Logged Call Fault (Bool × HttpData)}
    (h : Follows Conn.step s build fun _ t => Quiet t) (sent failure : String) :
    Follows Conn.step s (HttpData.buildSent (Event.recorded.comap .base) sent build failure)
      fun _ t => Quiet t :=
  Follows.lift_bind fun _ _ => follows_orFailed h failure

theorem follows_appendBuilder {s : Conn} (hs : Quiet s) (t : String) (h : HttpData) :
    Follows Conn.step s (HttpData.appendBuilder (Event.recorded.comap .base) t h)
      fun _ t => Quiet t :=
  follows_embedded (HttpData.map_appendBuilder Event.embedded t h) hs

theorem follows_buildPayLoad (server : MySql) {h : MySqlHttpData} {s : Conn} (hs : Ready h s) :
    Follows Conn.step s (HttpData.buildPayLoadWith (Event.recorded.comap .base)
      (buildersWith Event.recorded itoaS server h) h.toHttpData) fun _ t => Quiet t := by
  obtain ⟨schema, rfl, hschema⟩ := hs
  have hquiet : Quiet (.idle schema) := Or.inr ⟨_, rfl⟩
  unfold HttpData.buildPayLoadWith
  cases hflag : h.sendflag with
  | kErrorFlag =>
    exact follows_orFailed (follows_embedded (HttpData.map_buildErrorPayLoadWith _ _) hquiet) _
  | kQueryAuthState =>
    refine follows_orFailed ?_ _
    obtain rfl := hschema (by rw [hflag]; exact SendFlag.noConfusion)
    rw [HttpData.buildQueryAuthStatePayLoadWith]
    split
    · exact follows_buildSent (follows_buildQueryAuthPayLoadByStbId server _ _ _) _ _
    split
    · exact follows_buildSent (follows_appendBuilder hquiet _ _) _ _
    split
    · exact follows_buildSent (follows_appendBuilder hquiet _ _) _ _
    · exact Follows.lift_bind fun _ _ => Follows.pure hquiet
  | kQueryAuthSum =>
    obtain rfl := hschema (by rw [hflag]; exact SendFlag.noConfusion)
    exact follows_orFailed (follows_buildQueryAuthSumPayLoad server _ _ _) _
  | kQueryActivateState =>
    -- the builders for activation are not overridden
    exact follows_orFailed (follows_embedded
      ((HttpData.maps_builders Event.embedded).buildQueryActivateStatePayLoad _) hquiet) _
  | kQueryActivateSum => exact follows_orFailed (follows_appendBuilder hquiet _ _) _
  | kActivateSucceed => exact Follows.pure hquiet
  | kActivateFailed => exact Follows.pure hquiet
  | kNullFlag => exact Follows.lift_bind fun _ _ => Follows.pure hquiet

theorem follows_handleHttpData (server : MySql) (h : MySqlHttpData) :
    Follows Conn.step .ready (handleHttpDataWith Event.recorded itoaS server h)
      fun _ t => Quiet t := by
  rw [handleHttpDataWith, ← HttpData.map_parseRecvBufWith Event.embedded]
  refine Follows.lift_bind fun base _ => ?_
  refine Follows.bind (follows_connectDatabase server _) ?_
  rintro ⟨ok, h⟩ t ⟨hquiet, hready⟩
  cases ok with
  | false => exact Follows.pure hquiet
  | true => exact follows_buildPayLoad server (hready rfl)

/-- A life from the constructor to the destructor is in order. -/
theorem follows_lifetime (server : MySql) (comedata : Text) :
    Follows Conn.step .new (lifetime server comedata) fun _ t => t = .closed := by
  rw [lifetime, lifetimeWith]
  refine Follows.lift_bind fun h _ => ?_
  refine follows_call_bind (t := .ready) rfl ?_
  refine Follows.bind (follows_handleHttpData server h) ?_
  rintro ⟨ok, h⟩ t hquiet
  have hclose : Conn.step t .mysqlClose = some .closed := by
    rcases hquiet with rfl | ⟨schema, rfl⟩
    · rfl
    · rfl
  exact follows_call_bind hclose (Follows.pure rfl)

/-! ## Every result is freed -/

/-- The results of the connection that are not freed. -/
def Conn.results : Conn → ℕ
  | stored _ _ _ _ => 1
  | _ => 0

/-- The call stores a result. -/
def Call.stores : Call → Bool
  | storeResult (some _) => true
  | _ => false

theorem results_step {s t : Conn} {c : Call} (h : Conn.step s c = some t) :
    s.results + (if c.stores = true then 1 else 0) =
      t.results + if c = .freeResult then 1 else 0 := by
  unfold Conn.step at h
  split at h
  case h_2 ok => cases h; cases ok <;> rfl
  case h_3 ok =>
    obtain ⟨-, h⟩ := Option.ite_none_right_eq_some.mp h
    cases h
    cases ok <;> rfl
  case h_16 => cases h
  all_goals
    cases h
    rfl

theorem results_exec {s t : Conn} {calls : List Call} (h : exec Conn.step s calls = some t) :
    s.results + calls.countP Call.stores = t.results + calls.count .freeResult := by
  induction calls generalizing s with
  | nil =>
    cases h
    rfl
  | cons c calls ih =>
    obtain ⟨u, hu, hrest⟩ := exec_cons h
    have hstep := results_step hu
    have hrun := ih hrest
    rw [List.countP_cons, List.count_cons]
    simp only [beq_iff_eq]
    omega

/-- **The order of the calls.** Whatever the server answers to whatever query, every call of the
library is one that it allows then. When the object comes to its destructor, the connection is
closed and every stored result was freed once. -/
theorem calls_follow (server : MySql) (comedata : Text) :
    (∃ t, exec Conn.step .new (lifetime server comedata).lines = some t) ∧
      ∀ x, answer server comedata = .ok x →
        exec Conn.step .new (lifetime server comedata).lines = some .closed ∧
          (lifetime server comedata).lines.countP Call.stores =
            (lifetime server comedata).lines.count .freeResult := by
  obtain ⟨t, hrun, hclosed⟩ := follows_lifetime server comedata
  refine ⟨⟨t, hrun⟩, fun x hx => ?_⟩
  obtain rfl := hclosed x (by rw [result_lifetime, hx])
  have hresults := results_exec hrun
  refine ⟨hrun, ?_⟩
  simpa [Conn.results] using hresults

end MySqlHttpData

end AMSServer
