import AMSServer.Foundations.Sql
import AMSServer.HttpData.Answer
import Mathlib.Algebra.Group.Int.Defs
import Mathlib.Algebra.Group.Nat.Defs

/-!
# `MySqlHttpData`

The class `MySqlHttpData` (`MySqlHttpData.h`, `MySqlHttpData.cpp`), which answers a query from a
MySQL server. It looks for the schema of the project and the table of the vendor
(`connectDatabase`), and overrides two of the builders of `HttpData`. The server is a parameter
(`MySql`): what it says to a connection, to a change of schema and to a query.

The methods are written once, for what becomes of what they put out on their way (`Event`): what the
base class puts out, the calls of the client library, and the columns of a result that is printed.
The methods of the code are those where the calls are made and the rest is written (`Event.code`).
The lines that this class logs itself all fit the log buffer and are left out.

The names are kept in arrays of 32 characters, but `strcat_s` is told 256. The details of a result
are printed from arrays of 20 columns.
-/

namespace AMSServer

open CRuntime

def queryStringLen : ℕ := 256
def nameLength : ℕ := 32
def sumLength : ℕ := 8

instance : NeZero queryStringLen := ⟨by decide⟩
instance : NeZero nameLength := ⟨by decide⟩

def defaultDatabaseName : String := "information_schema"
def databaseNameHeader : String := "ProjectID_"
def tableNameHeader : String := "VendorID_"

/-! ## The server -/

/-- A `MYSQL_RES`, by `mysql_num_rows` and `mysql_num_fields`. -/
structure MysqlRes where
  numRows : ℕ
  numFields : ℕ
  deriving DecidableEq

/-- The server behind the client library. -/
structure MySql where
  /-- `mysql_real_connect` -/
  realConnect : Bool
  /-- `mysql_select_db` -/
  selectDb : Text → Bool
  /-- `mysql_real_query` in a schema and `mysql_store_result`: `none` when the query fails, and
  `some none` when there is no result to store. -/
  realQuery : Text → Text → Option (Option MysqlRes)

/-- The result of a query, if there is one. -/
def MySql.result (server : MySql) (schema query : Text) : Option MysqlRes :=
  (server.realQuery schema query).join

/-! ## The object -/

/-- The members that `MySqlHttpData` adds. -/
structure MySqlHttpData extends HttpData where
  databasename : CBuf nameLength
  tablename : CBuf nameLength

namespace MySqlHttpData

/-- `MySqlHttpData::MySqlHttpData` -/
def new (comedata : Text) : Except Fault MySqlHttpData := do
  let base ← HttpData.new comedata
  return { base with databasename := CBuf.empty, tablename := CBuf.empty }

/-! ## The statements -/

/-- `strcat_s(query, QUERY_STRING_LEN, t)` -/
def appendQuery (query : CBuf queryStringLen) (t : Text) : Except Fault (CBuf queryStringLen) :=
  query.strcatS queryStringLen t

/-- A member for a name: its header and the value of the client. -/
def setName (name : CBuf nameLength) (header : String) (value : Text) :
    Except Fault (CBuf nameLength) := do
  let name ← name.strcatS queryStringLen header.toList
  name.strcatS queryStringLen value

/-- A query of `ConnectDatabase`, which ends in a name between quotes. -/
def nameQuery (head : String) (name : CBuf nameLength) : Except Fault (CBuf queryStringLen) := do
  let query ← appendQuery CBuf.empty head.toList
  let temp ← CBuf.sprintfS (nameLength + 3) (nameLength + 3) ('"' :: name.text ++ ['"'])
  appendQuery query temp.text

/-- The query for the schema of the project -/
def schemaQuery : CBuf nameLength → Except Fault (CBuf queryStringLen) :=
  nameQuery "SELECT schema_name FROM SCHEMATA WHERE schema_name="

/-- The query for the table of the vendor, which is looked for in every schema -/
def tableQuery : CBuf nameLength → Except Fault (CBuf queryStringLen) :=
  nameQuery "SELECT table_name FROM information_schema.TABLES WHERE table_name="

/-- The query of `BuildQueryAuthSumPayLoad` -/
def sumQuery (tablename : CBuf nameLength) : Except Fault (CBuf queryStringLen) := do
  let query ← appendQuery CBuf.empty "SELECT * FROM ".toList
  appendQuery query tablename.text

/-- The query of `BuildQueryAuthPayLoadByStbId` -/
def stbidQuery (tablename : CBuf nameLength) (stbid : CBuf (stbidLength + 1)) :
    Except Fault (CBuf queryStringLen) := do
  let query ← appendQuery CBuf.empty "SELECT * FROM ".toList
  let query ← appendQuery query tablename.text
  let query ← appendQuery query " WHERE stbid=".toList
  let tempstbid ← CBuf.sprintfS (stbidLength + 3) (stbidLength + 3) ('"' :: stbid.text ++ ['"'])
  appendQuery query tempstbid.text

/-- The statement for the schema to use -/
def useQuery : CBuf nameLength → Except Fault (CBuf queryStringLen) := nameQuery "USE "

/-- `(int)mysql_num_rows(result)` -/
def rowsAsInt (result : MysqlRes) : Int := (result.numRows : Int).bmod (2 ^ 32)

/-- The decimal digits of an `int`, after its sign. -/
def intText (n : Int) : Text :=
  if n < 0 then '-' :: Nat.toDigits 10 n.natAbs else Nat.toDigits 10 n.natAbs

/-- `_itoa_s(n, b, 10)` into an array of `SUM_LENGTH` -/
def itoaS (n : Int) : Except Fault (CBuf sumLength) := CBuf.sprintfS sumLength sumLength (intText n)

/-! ## Output -/

/-- A call, with what comes back from it. -/
inductive Call
  | mysqlInit
  | realConnect (db : Text) (ok : Bool)
  | realQuery (schema query : Text) (ok : Bool)
  | storeResult (result : Option MysqlRes)
  | numRows
  | numFields
  | fetchRow
  | fetchLengths
  | fetchField
  | freeResult
  | selectDb (db : Text) (ok : Bool)
  | mysqlClose
  deriving DecidableEq

/-- What a method puts out on its way. -/
inductive Event
  /-- What a method of `HttpData` puts out. -/
  | base (e : HttpData.Event)
  /-- Calls of the client library -/
  | calls (l : List Call)
  /-- `ShowQueryDetails` fills its arrays for so many fields, and prints them. -/
  | columns (filednum : ℕ)

/-- An event in the code: the arrays of `ShowQueryDetails` have 20 elements. -/
def Event.write : Event → Except Fault Unit
  | base e => e.write
  | calls _ => .ok ()
  | columns filednum => if filednum ≤ 20 then .ok () else .error .overrun

/-- The output of the code. -/
abbrev Event.code : Effects Event Fault (Except Fault) := .writing Event.write

/-- The loop of `ShowQueryDetails` over the fields, which stops at the end of the array. -/
def fetchFields (filednum : ℕ) : List Call := List.replicate (min filednum 21) .fetchField

/-- The loop of `ShowQueryDetails` over the rows after the first one. -/
def fetchRows (rows : ℕ) : List Call :=
  (List.replicate rows [Call.fetchRow, Call.fetchLengths]).flatten ++ [.fetchRow]

/-! ## The methods -/

section

variable {m : Type → Type} [Monad m] (E : Effects Event Fault m)

/-- A call of the client library. -/
def call (c : Call) : m Unit := E.emit (.calls [c])

/-- `mysql_real_query` in a schema, then `mysql_store_result` -/
def storedResult (server : MySql) (schema query : Text) : m (Option MysqlRes) :=
  match server.realQuery schema query with
  | none => do
    call E (.realQuery schema query false)
    return none
  | some result => do
    call E (.realQuery schema query true)
    call E (.storeResult result)
    return result

/-- `MySqlHttpData::ShowQueryDetails`. The number of fields is kept in a byte. -/
def showQueryDetailsWith (result : MysqlRes) : m Unit := do
  call E .fetchRow
  if result.numRows = 0 then
    return ()
  E.emit (.calls [.fetchLengths, .numFields])
  E.emit (.calls (fetchFields (result.numFields % 256)))
  E.emit (.columns (result.numFields % 256))
  E.emit (.calls (fetchRows (result.numRows - 1)))

/-- The part of `ConnectDatabase` that looks for a name, and whether it is there. -/
def lookFor (server : MySql) (schema query : Text) : m (Option Bool) := do
  let some result ← storedResult E server schema query
    | return none
  call E .numRows
  if result.numRows = 0 then
    call E .freeResult
    return some false
  showQueryDetailsWith E result
  call E .freeResult
  return some true

/-- `MySqlHttpData::ConnectDatabase`. The `USE` statement it writes is not sent. -/
def connectDatabaseWith (server : MySql) (h : MySqlHttpData) : m (Bool × MySqlHttpData) := do
  call E (.realConnect defaultDatabaseName.toList server.realConnect)
  if server.realConnect = false then
    return (false, h)
  let databasename ← E.lift (setName h.databasename databaseNameHeader h.projectid.text)
  let h := { h with databasename }
  let query ← E.lift (schemaQuery databasename)
  let some found ← lookFor E server defaultDatabaseName.toList query.text
    | return (false, h)
  if found = false then
    return (true, { h with toHttpData := h.setError .kProjectIDIsWrong })
  let _query ← E.lift (useQuery databasename)
  call E (.selectDb databasename.text (server.selectDb databasename.text))
  if server.selectDb databasename.text = false then
    return (false, h)
  let tablename ← E.lift (setName h.tablename tableNameHeader h.vendorid.text)
  let h := { h with tablename }
  let query ← E.lift (tableQuery tablename)
  let some found ← lookFor E server databasename.text query.text
    | return (false, h)
  if found = false then
    return (true, { h with toHttpData := h.setError .kVendorIDIsWrong })
  return (true, h)

/-- A query whose rows are shown and counted. -/
def countRows (server : MySql) (schema query : Text) : m (Option MysqlRes) := do
  let some result ← storedResult E server schema query
    | return none
  showQueryDetailsWith E result
  call E .numRows
  call E .freeResult
  return some result

variable (itoa : Int → Except Fault (CBuf sumLength)) (server : MySql)

/-- `MySqlHttpData::BuildQueryAuthSumPayLoad`, given `_itoa_s` -/
def buildQueryAuthSumPayLoadWith (databasename tablename : CBuf nameLength) (h : HttpData) :
    m (Bool × HttpData) := do
  let query ← E.lift (sumQuery tablename)
  let some result ← countRows E server databasename.text query.text
    | return (false, h)
  let h ← E.lift (h.append "AuthSum=".toList)
  let tempauthsum ← E.lift (itoa (rowsAsInt result))
  return (true, ← E.lift (h.append tempauthsum.text))

/-- The end of `BuildQueryAuthPayLoadByStbId`, for the number of rows. -/
def appendAuthStateWith (authstate : Int) (h : HttpData) : m (Bool × HttpData) := do
  if authstate < 1 then
    return (false, h)
  let h ← E.lift (h.append "AuthState=".toList)
  let tempauthstate ← E.lift (itoa authstate)
  return (true, ← E.lift (h.append tempauthstate.text))

/-- `MySqlHttpData::BuildQueryAuthPayLoadByStbId`, given `_itoa_s` -/
def buildQueryAuthPayLoadByStbIdWith (databasename tablename : CBuf nameLength) (h : HttpData) :
    m (Bool × HttpData) := do
  let query ← E.lift (stbidQuery tablename h.stbid)
  let some result ← countRows E server databasename.text query.text
    | return (false, h)
  appendAuthStateWith E itoa (rowsAsInt result) h

/-- The builders, with the two that are overridden. The schema in use is the one of the project. -/
def buildersWith (h : MySqlHttpData) : HttpData.Builders m :=
  { HttpData.builders (E.comap .base) with
    buildQueryAuthSumPayLoad :=
      buildQueryAuthSumPayLoadWith E itoa server h.databasename h.tablename
    buildQueryAuthPayLoadByStbId :=
      buildQueryAuthPayLoadByStbIdWith E itoa server h.databasename h.tablename }

/-- `MySqlHttpData::HandleHttpData` -/
def handleHttpDataWith (h : MySqlHttpData) : m (Bool × HttpData) := do
  let base ← h.toHttpData.parseRecvBufWith (E.comap .base)
  let h := { h with toHttpData := base }
  let (ok, h) ← connectDatabaseWith E server h
  if ok = false then
    return (false, h.toHttpData)
  HttpData.buildPayLoadWith (E.comap .base) (buildersWith E itoa server h) h.toHttpData

/-- A `MySqlHttpData` from its constructor to its destructor, with `HandleHttpData` and
`GetPayLoadBuf` in between -/
def lifetimeWith (comedata : Text) : m (Bool × CBuf payloadBufferLength) := do
  let h ← E.lift (new comedata)
  call E .mysqlInit
  let (ok, h) ← handleHttpDataWith E itoa server h
  call E .mysqlClose
  return (ok, h.payloadbuf)

end

/-! ## The code -/

/-- `ShowQueryDetails` of the code -/
def showQueryDetails (result : MysqlRes) : Except Fault Unit :=
  showQueryDetailsWith Event.code result

/-- `ConnectDatabase` of the code -/
def connectDatabase (server : MySql) (h : MySqlHttpData) : Except Fault (Bool × MySqlHttpData) :=
  connectDatabaseWith Event.code server h

/-- `BuildQueryAuthSumPayLoad` of the code -/
def buildQueryAuthSumPayLoad (server : MySql) (databasename tablename : CBuf nameLength)
    (h : HttpData) : Except Fault (Bool × HttpData) :=
  buildQueryAuthSumPayLoadWith Event.code itoaS server databasename tablename h

/-- The end of `BuildQueryAuthPayLoadByStbId` of the code -/
def appendAuthState (authstate : Int) (h : HttpData) : Except Fault (Bool × HttpData) :=
  appendAuthStateWith Event.code itoaS authstate h

/-- `BuildQueryAuthPayLoadByStbId` of the code -/
def buildQueryAuthPayLoadByStbId (server : MySql) (databasename tablename : CBuf nameLength)
    (h : HttpData) : Except Fault (Bool × HttpData) :=
  buildQueryAuthPayLoadByStbIdWith Event.code itoaS server databasename tablename h

/-- The builders of the code -/
def builders (server : MySql) (h : MySqlHttpData) : HttpData.Builders (Except Fault) :=
  buildersWith Event.code itoaS server h

/-- `HandleHttpData` of the code -/
def handleHttpData (server : MySql) (h : MySqlHttpData) : Except Fault (Bool × HttpData) :=
  handleHttpDataWith Event.code itoaS server h

/-- `new MySqlHttpData(comedata)`, then `HandleHttpData` and `GetPayLoadBuf` -/
def answer (server : MySql) (comedata : Text) : Except Fault (Bool × CBuf payloadBufferLength) :=
  lifetimeWith Event.code itoaS server comedata

/-- The parser is the one of the base class. -/
theorem parseRecvBufWith_code (h : HttpData) :
    h.parseRecvBufWith (Event.code.comap .base) = h.parseRecvBuf := rfl

theorem buildPayLoadWith_code (b : HttpData.Builders (Except Fault)) (h : HttpData) :
    HttpData.buildPayLoadWith (Event.code.comap .base) b h = HttpData.buildPayLoad b h := rfl

/-! ## Calls that are made -/

/-- Calls do not fail to be made. -/
def MakesCalls (write : Event → Except Fault Unit) : Prop := ∀ l, write (.calls l) = .ok ()

theorem makesCalls_write : MakesCalls Event.write := fun _ => rfl

namespace MakesCalls

variable {write : Event → Except Fault Unit} (hw : MakesCalls write)

include hw

theorem calls_bind {α : Type} (l : List Call) (f : Unit → Except Fault α) :
    ((Effects.writing write).emit (.calls l) >>= f) = f () := by
  rw [Effects.writing_emit, hw, ok_bind]

theorem call_bind {α : Type} (c : Call) (f : Unit → Except Fault α) :
    (call (.writing write) c >>= f) = f () :=
  hw.calls_bind [c] f

theorem storedResult_eq (server : MySql) (schema query : Text) :
    storedResult (.writing write) server schema query = .ok (server.result schema query) := by
  rw [storedResult, MySql.result]
  cases server.realQuery schema query with
  | none => exact hw.call_bind _ _
  | some result => exact (hw.call_bind _ _).trans (hw.call_bind _ _)

/-- The arrays of a result with a row are filled. -/
theorem showQueryDetails_eq (result : MysqlRes) :
    showQueryDetailsWith (.writing write) result =
      if result.numRows = 0 then .ok () else write (.columns (result.numFields % 256)) := by
  rw [showQueryDetailsWith, hw.call_bind]
  split
  · rfl
  · rw [hw.calls_bind, hw.calls_bind, Effects.writing_emit, Effects.writing_emit, hw]
    cases write (.columns (result.numFields % 256)) with
    | error e => rfl
    | ok u => rfl

/-- What is done with a name that is looked for. -/
theorem lookFor_bind {α : Type} (server : MySql) (schema query : Text)
    (f : Option Bool → Except Fault α) :
    (lookFor (.writing write) server schema query >>= f) =
      match server.result schema query with
      | none => f none
      | some result =>
        if result.numRows = 0 then f (some false)
        else showQueryDetailsWith (.writing write) result >>= fun _ => f (some true) := by
  rw [lookFor, hw.storedResult_eq, ok_bind]
  cases server.result schema query with
  | none => rfl
  | some result =>
    dsimp only
    rw [hw.call_bind]
    split
    · rw [hw.call_bind]
      rfl
    · rw [bind_assoc]
      refine bind_congr fun _ => ?_
      rw [hw.call_bind]
      rfl

/-- What is done with the rows of a query. -/
theorem countRows_bind {α : Type} (server : MySql) (schema query : Text)
    (f : Option MysqlRes → Except Fault α) :
    (countRows (.writing write) server schema query >>= f) =
      match server.result schema query with
      | none => f none
      | some result =>
        showQueryDetailsWith (.writing write) result >>= fun _ => f (some result) := by
  rw [countRows, hw.storedResult_eq, ok_bind]
  cases server.result schema query with
  | none => rfl
  | some result =>
    dsimp only
    rw [bind_assoc]
    refine bind_congr fun _ => ?_
    rw [hw.call_bind, hw.call_bind]
    rfl

end MakesCalls

/-- `ShowQueryDetails` fails when a result with a row has too many columns. -/
theorem showQueryDetails_eq (result : MysqlRes) :
    showQueryDetails result =
      if result.numRows = 0 then .ok ()
      else if result.numFields % 256 ≤ 20 then .ok ()
      else .error .overrun :=
  makesCalls_write.showQueryDetails_eq result

/-- What is answered is what `HandleHttpData` returns. -/
theorem answer_result {server : MySql} {comedata : Text} {h : MySqlHttpData}
    (hnew : new comedata = .ok h) :
    (answer server comedata).map (fun r => (r.1, r.2.text)) =
      (h.handleHttpData server).map HttpData.result := by
  rw [answer, lifetimeWith, Effects.writing_lift, hnew, ok_bind, makesCalls_write.call_bind]
  change (h.handleHttpData server >>= _).map _ = _
  cases h.handleHttpData server with
  | error e => rfl
  | ok r =>
    rw [ok_bind]
    dsimp only
    rw [makesCalls_write.call_bind]
    rfl

end MySqlHttpData

end AMSServer
