import AMSServer.MySqlHttpData.Refusals

/-!
# The service behind `MySqlHttpData`

What `MySqlHttpData` answers to any text at all (`answer_eq`): the parser decides, `ConnectDatabase`
asks for the two names that the parser has accepted by then (`askedNames`), and the builders ask for
the rows of one table of one schema.

Over a database (`Holdings`) this is a function of what one project and one vendor own, and of
whether any project has a table of that vendor (`answer_eq_service`). So two clients do not see each
other's boxes: whatever else changes in the database, the answer stays the same (`service_congr`,
`tenant_isolated`).
-/

namespace AMSServer

open CRuntime Sql

namespace MySqlHttpData

/-! ## Any text -/

/-- The names that `ConnectDatabase` asks for: what the parser has accepted. -/
def askedNames (query : Text) : Text × Text :=
  match parseOutcome query with
  | .nothing => ([], [])
  | .error e => (keptProjectid query e, keptVendorid query e)
  | .auth f => (f.projectid, f.vendorid)
  | .overrun => ([], [])

/-- What the builder answers when the names are found, with `none` for `FALSE`. -/
def builtText (server : MySql) : ParseOutcome → Except Fault (Option Text)
  | .nothing => .ok none
  | .error e => .ok (some ("ErrorCode=".toList ++ e.name.toList))
  | .auth f =>
    if authFlag f = .kQueryAuthSum then
      sumText (server.result (databaseNameOf f.projectid) (sumSelect f.vendorid).text)
    else stateText server f
  | .overrun => .error .overrun

/-- What is answered after the checks. -/
def CheckOutcome.text (rest : Except Fault (Option Text)) :
    CheckOutcome → Except Fault (Option Text)
  | .refused => .ok none
  | .wrong e => .ok (some ("ErrorCode=".toList ++ e.name.toList))
  | .found => rest
  | .overrun => .error .overrun

/-- What is answered to a text, with `none` for `FALSE`. -/
def serverText (server : MySql) (query : Text) : Except Fault (Option Text) :=
  if parseOutcome query = .overrun then .error .overrun
  else
    (checkOutcome server (askedNames query).1 (askedNames query).2).text
      (builtText server (parseOutcome query))

theorem CheckOutcome.answer_map (rest : Except Fault (Option Text)) (o : CheckOutcome) :
    o.answer (rest.map fun t => (t.isSome, t.getD [])) =
      (o.text rest).map fun t => (t.isSome, t.getD []) := by
  cases o <;> rfl

/-- The object that is made of a text that fits. -/
def ofRecv (recvdatabuf : CBuf recvBufferLength) : MySqlHttpData :=
  { HttpData.ofRecv recvdatabuf with databasename := CBuf.empty, tablename := CBuf.empty }

theorem new_eq {comedata : Text} (hnul : nul ∉ comedata)
    (hfit : comedata.length < recvBufferLength) :
    new comedata = .ok (ofRecv ⟨comedata, hfit, hnul⟩) := by
  rw [new, HttpData.new_of_lt hnul hfit]
  rfl

/-- The checks come between the parser and the builder. -/
theorem handleHttpData_text (server : MySql) {b : CBuf recvBufferLength} {base : HttpData}
    {rest : Except Fault (Option Text)} (hparse : (HttpData.ofRecv b).parseRecvBuf = .ok base)
    (hempty : base.payloadbuf.text = [])
    (hbuild : ∀ h' : MySqlHttpData, h'.databasename.text = databaseNameOf base.projectid.text →
      h'.tablename.text = tableNameOf base.vendorid.text →
        (HttpData.buildPayLoad (builders server h') base).map HttpData.result =
          rest.map fun t => (t.isSome, t.getD [])) :
    ((ofRecv b).handleHttpData server).map HttpData.result =
      ((checkOutcome server base.projectid.text base.vendorid.text).text rest).map
        fun t => (t.isSome, t.getD []) := by
  rw [← CheckOutcome.answer_map]
  exact handleHttpData_eq server (h := ofRecv b) CBuf.text_empty CBuf.text_empty hparse hempty
    hbuild

/-- A builder that is not reached. -/
theorem buildPayLoad_null (b : HttpData.Builders (Except Fault)) {h : HttpData}
    (hflag : h.sendflag = .kNullFlag)
    (hempty : h.payloadbuf.text = []) :
    (HttpData.buildPayLoad b h).map HttpData.result = .ok (false, []) := by
  rw [HttpData.buildPayLoad_null b hflag]
  simp only [Except.map, HttpData.result, hempty]

/-- The builder for what the parser has accepted. -/
theorem buildPayLoad_auth (server : MySql) {h' : MySqlHttpData} {base : HttpData} {f : AuthFields}
    (hdatabase : h'.databasename.text = databaseNameOf f.projectid)
    (htable : h'.tablename.text = tableNameOf f.vendorid) (hempty : base.payloadbuf.text = [])
    (hflag : base.sendflag = authFlag f) (hs : base.stbid.text = f.stbid)
    (hc : base.chipid.text = f.chipid) (hm : base.macaddr.text = f.macaddr) :
    (HttpData.buildPayLoad (builders server h') base).map HttpData.result =
      (builtText server (.auth f)).map fun t => (t.isSome, t.getD []) := by
  rw [builtText]
  by_cases hsum : authFlag f = .kQueryAuthSum
  · rw [HttpData.buildPayLoad_sum _ (hflag.trans hsum), if_pos hsum, ← hdatabase]
    exact buildQueryAuthSumPayLoad_eq server htable hempty
  · have hstate : authFlag f = .kQueryAuthState := by
      rw [authFlag] at hsum ⊢
      split_ifs at hsum ⊢ with hbox
      · exact absurd rfl hsum
      · rfl
    rw [HttpData.buildPayLoad_state _ (hflag.trans hstate), if_neg hsum]
    exact buildQueryAuthStatePayLoad_eq server hdatabase htable hempty hs hc hm hstate

/-- **What `HandleHttpData` returns**, whatever the text and the server. -/
theorem handleHttpData_ofRecv (server : MySql) (b : CBuf recvBufferLength) :
    ((ofRecv b).handleHttpData server).map HttpData.result =
      (serverText server b.text).map fun t => (t.isSome, t.getD []) := by
  have hspec := HttpData.parseRecvBuf_spec (HttpData.ofRecv b)
  change HttpData.Parsed _ (parseOutcome b.text) _ at hspec
  have hnull := parseOutcome_ne_kNullError b.text
  rw [serverText, askedNames]
  generalize hbase : (HttpData.ofRecv b).parseRecvBuf = x at hspec
  generalize ho : parseOutcome b.text = o at hspec hnull ⊢
  cases hspec with
  | nothing =>
    have hnone := @handleHttpData_text server b _ (.ok none) hbase CBuf.text_empty fun h' _ _ =>
      buildPayLoad_null _ rfl CBuf.text_empty
    have hp : (HttpData.ofRecv b).projectid.text = [] := CBuf.text_empty
    have hv : (HttpData.ofRecv b).vendorid.text = [] := CBuf.text_empty
    rw [hp, hv] at hnone
    rw [if_neg ParseOutcome.noConfusion]
    exact hnone
  | @error e base hrecv hpay hflag he =>
    have hrefused := HttpData.parseRecvBuf_refused rfl rfl rfl hbase hflag
    change HttpData.Refused b.text base at hrefused
    have hempty : base.payloadbuf.text = [] := by
      rw [hpay]
      exact CBuf.text_empty
    have hne : base.errorcode ≠ .kNullError := by
      intro h0
      exact hnull (congrArg _ (he.symm.trans h0))
    rw [if_neg ParseOutcome.noConfusion]
    dsimp only
    rw [← he, ← hrefused.projectid, ← hrefused.vendorid]
    exact handleHttpData_text server hbase hempty fun h' _ _ =>
      HttpData.buildPayLoad_error_eq _ hflag hempty hne
  | @auth f base hrecv hpay hflag hp hv hs hc hm =>
    have hempty : base.payloadbuf.text = [] := by
      rw [hpay]
      exact CBuf.text_empty
    rw [if_neg ParseOutcome.noConfusion]
    dsimp only
    rw [← hp, ← hv]
    refine handleHttpData_text server hbase hempty fun h' hdatabase htable => ?_
    rw [hp] at hdatabase
    rw [hv] at htable
    exact buildPayLoad_auth server hdatabase htable hempty hflag hs hc hm
  | overrun =>
    rw [if_pos rfl, handleHttpData, handleHttpDataWith, parseRecvBufWith_code]
    change ((HttpData.ofRecv b).parseRecvBuf >>= _ : Except Fault (Bool × HttpData)).map _ = _
    rw [hbase]
    rfl

/-- **What the object answers to a text that fits its buffer.** -/
theorem answer_eq (server : MySql) {query : Text} (hnul : nul ∉ query)
    (hfit : query.length < recvBufferLength) :
    (answer server query).map (fun r => (r.1, r.2.text)) =
      (serverText server query).map fun t => (t.isSome, t.getD []) := by
  rw [answer_result (new_eq hnul hfit)]
  exact handleHttpData_ofRecv server ⟨query, hfit, hnul⟩

/-! ## A database -/

end MySqlHttpData

/-- A table: its rows, and its number of columns. -/
structure Stored (Row : Type) where
  rows : List Row
  numFields : ℕ
  deriving DecidableEq

/-- The tables of all projects. -/
abbrev Holdings (Row : Type) := Catalogue (Stored Row)

section

variable {Row : Type} (equals : Row → Text → Text → Bool)

/-- The result of selecting rows of a table. -/
def Stored.select (t : Stored Row) : Option (Text × Text) → MysqlRes
  | none => ⟨t.rows.length, t.numFields⟩
  | some (column, value) =>
    ⟨(t.rows.filter fun row => equals row column value).length, t.numFields⟩

/-- A server of a database answers the statements that it can read literally, and refuses to select
from a table that the schema in use does not have. -/
structure MySql.Hosts (server : MySql) (d : Holdings Row) : Prop where
  selects : ∀ schema, server.selectDb schema = true ↔ schema ∈ d
  schemata : ∀ query name,
    readSelect query = some ⟨some "schema_name".toList, none, "SCHEMATA".toList,
      some ("schema_name".toList, name)⟩ →
    server.realQuery "information_schema".toList query = some (some ⟨d.schemaCount name, 1⟩)
  tables : ∀ schema query name,
    readSelect query = some ⟨some "table_name".toList, some "information_schema".toList,
      "TABLES".toList, some ("table_name".toList, name)⟩ →
    server.realQuery schema query = some (some ⟨d.tableCount name, 1⟩)
  rows : ∀ schema query name condition, readSelect query = some ⟨none, none, name, condition⟩ →
    schema ∈ d →
    server.realQuery schema query =
      (d.table? schema name).map fun t => some (t.select equals condition)

end

namespace MySqlHttpData

/-- The values of a query that end in a statement are read as they stand. -/
structure PlainNames (query : Text) : Prop where
  projectid : Plain (askedNames query).1
  vendorid : ∀ c ∈ (askedNames query).2, nameChar c = true
  stbid : ∀ f, parseOutcome query = .auth f → Plain f.stbid

theorem plain_of_nameChar {t : Text} (h : ∀ c ∈ t, nameChar c = true) : Plain t := by
  have hplain := (plain_append (a := t) (v := []) fun c hc => ⟨?_, ?_⟩).mpr trivial
  · rwa [List.append_nil] at hplain
  · rintro rfl
    exact absurd (h _ hc) (by decide)
  · rintro rfl
    exact absurd (h _ hc) (by decide)

section

variable {Row : Type} (equals : Row → Text → Text → Bool) (d : Holdings Row)

/-- What is answered from the vendor's table in the schema of the project. -/
def ownText : ParseOutcome → Except Fault (Option Text)
  | .nothing => .ok none
  | .error e => .ok (some ("ErrorCode=".toList ++ e.name.toList))
  | .auth f =>
    let own := d.table? (databaseNameOf f.projectid) (tableNameOf f.vendorid)
    if authFlag f = .kQueryAuthSum then sumText (own.map fun t => t.select equals none)
    else if f.stbid.length ≠ 0 then
      lookupText (own.map fun t => t.select equals (some ("stbid".toList, f.stbid)))
    else if f.chipid.length ≠ 0 then .ok (some "AuthState=ChipId".toList)
    else .ok (some "AuthState=Mac".toList)
  | .overrun => .error .overrun

/-- **The service**: what is answered to a text over a database, with `none` for `FALSE`. -/
def service (connects : Bool) (query : Text) : Except Fault (Option Text) :=
  if parseOutcome query = .overrun then .error .overrun
  else if connects = false then .ok none
  else if d.schemaCount (databaseNameOf (askedNames query).1) = 0 then
    .ok (some "ErrorCode=ProjectIDIsWrong".toList)
  else if d.tableCount (tableNameOf (askedNames query).2) = 0 then
    .ok (some "ErrorCode=VendorIDIsWrong".toList)
  else ownText equals d (parseOutcome query)

variable {equals d} {server : MySql} (hserver : server.Hosts equals d)

include hserver

/-- The rows of a table of the schema in use. -/
theorem result_of_hosts {schema : Text} (hschema : schema ∈ d) {s : Select}
    (hread : readSelect s.text = some s) (hcolumns : s.columns = none) (hnone : s.schema = none) :
    server.result schema s.text =
      (d.table? schema s.table).map fun t => t.select equals s.condition := by
  obtain ⟨columns, schema', table, condition⟩ := s
  obtain rfl : columns = none := hcolumns
  obtain rfl : schema' = none := hnone
  rw [MySql.result, hserver.rows _ _ _ _ hread hschema]
  cases d.table? schema table <;> rfl

/-- The checks count names. -/
theorem checkOutcome_of_hosts {projectid vendorid : Text} (hproject : Plain projectid)
    (hvendor : ∀ c ∈ vendorid, nameChar c = true) :
    checkOutcome server projectid vendorid =
      if server.realConnect = false then .refused
      else if d.schemaCount (databaseNameOf projectid) = 0 then .wrong .kProjectIDIsWrong
      else if d.tableCount (tableNameOf vendorid) = 0 then .wrong .kVendorIDIsWrong
      else .found := by
  by_cases hconnect : server.realConnect = false
  · rw [checkOutcome, if_pos hconnect, if_pos hconnect]
  rw [if_neg hconnect]
  have hschemas : schemasFound server projectid =
      some ⟨d.schemaCount (databaseNameOf projectid), 1⟩ :=
    congrArg Option.join (hserver.schemata _ _ (readSelect_schemaSelect hproject))
  have htables : tablesFound server projectid vendorid =
      some ⟨d.tableCount (tableNameOf vendorid), 1⟩ :=
    congrArg Option.join
      (hserver.tables _ _ _ (readSelect_tableSelect (plain_of_nameChar hvendor)))
  refine checkOutcome_eq (by simpa using hconnect) hschemas (fun hne => ?_)
    fun _ => htables
  rw [hserver.selects]
  exact not_not.mp (mt d.schemaCount_eq_zero.mpr hne)

/-- The builders read the vendor's own table. -/
theorem builtText_of_hosts {o : ParseOutcome}
    (hschema : ∀ f, o = .auth f → databaseNameOf f.projectid ∈ d)
    (hvendor : ∀ f, o = .auth f → ∀ c ∈ f.vendorid, nameChar c = true)
    (hstbid : ∀ f, o = .auth f → Plain f.stbid) : builtText server o = ownText equals d o := by
  cases o with
  | auth f =>
    have hname := hvendor f rfl
    have hlookup : readSelect (stbidSelect f.vendorid f.stbid).text =
        some (stbidSelect f.vendorid f.stbid) := by
      rw [readSelect_text_iff, named_stbidSelect_iff]
      refine ⟨hname, fun x hx => ?_⟩
      cases hx
      exact hstbid f rfl
    have hsum := result_of_hosts hserver (hschema f rfl) (readSelect_sumSelect hname) rfl rfl
    have hbox := result_of_hosts hserver (hschema f rfl) hlookup rfl rfl
    rw [builtText, stateText, hsum, hbox]
    rfl
  | _ => rfl

/-- **Over a database the object is the service.** -/
theorem serverText_eq_service {query : Text} (hplain : PlainNames query) :
    serverText server query = service equals d server.realConnect query := by
  rw [serverText, service, checkOutcome_of_hosts hserver hplain.projectid hplain.vendorid]
  split_ifs with hover hconnect hschema htable
  · rfl
  · rfl
  · rfl
  · rfl
  · have hmem : databaseNameOf (askedNames query).1 ∈ d :=
      not_not.mp (mt d.schemaCount_eq_zero.mpr hschema)
    have hvendor := hplain.vendorid
    refine builtText_of_hosts hserver ?_ ?_ hplain.stbid
    · intro f ho
      rw [askedNames, ho] at hmem
      exact hmem
    · intro f ho
      rw [askedNames, ho] at hvendor
      exact hvendor

end

/-- **What a client is answered**, for any text that fits the buffer and whose names are plain. -/
theorem answer_eq_service {Row : Type} {equals : Row → Text → Text → Bool} {d : Holdings Row}
    {server : MySql} (hserver : server.Hosts equals d) {query : Text} (hnul : nul ∉ query)
    (hfit : query.length < recvBufferLength) (hplain : PlainNames query) :
    (answer server query).map (fun r => (r.1, r.2.text)) =
      (service equals d server.realConnect query).map fun t => (t.isSome, t.getD []) := by
  rw [answer_eq server hnul hfit, serverText_eq_service hserver hplain]

/-- A server of a database, which refuses all other statements. -/
def hostOf {Row : Type} (equals : Row → Text → Text → Bool) (d : Holdings Row) : MySql where
  realConnect := true
  selectDb schema := decide (schema ∈ d)
  realQuery schema query :=
    match readSelect query with
    | some ⟨none, none, name, condition⟩ =>
      if schema ∈ d then (d.table? schema name).map fun t => some (t.select equals condition)
      else none
    | some ⟨some _, none, _, some (_, name)⟩ => some (some ⟨d.schemaCount name, 1⟩)
    | some ⟨some _, some _, _, some (_, name)⟩ => some (some ⟨d.tableCount name, 1⟩)
    | _ => none

theorem hosts_hostOf {Row : Type} (equals : Row → Text → Text → Bool) (d : Holdings Row) :
    (hostOf equals d).Hosts equals d where
  selects schema := by simp [hostOf]
  schemata query name hread := by simp [hostOf, hread]
  tables schema query name hread := by simp [hostOf, hread]
  rows schema query name condition hread hschema := by simp [hostOf, hread, hschema]

/-- A row by its columns. -/
def columnEquals (row : List (Text × Text)) (column value : Text) : Bool :=
  row.lookup column = some value

/-- One box of vendor `2` in project `1`. -/
def oneBox : Holdings (List (Text × Text)) :=
  AList.singleton "ProjectID_1".toList
    (AList.singleton "VendorID_2".toList ⟨[[("stbid".toList, "A9".toList)]], 4⟩)

/-- The same, and another project. -/
def moreBoxes : Holdings (List (Text × Text)) :=
  oneBox.insert "ProjectID_4".toList
    (AList.singleton "VendorID_2".toList ⟨[[("stbid".toList, "A9".toList)], []], 4⟩)

/-- The box asks for itself. -/
def boxQuery : Text := "Query=0&ProjectID=1&VendorID=2&STBID=A9".toList

theorem parseOutcome_boxQuery :
    parseOutcome boxQuery = .auth ⟨"1".toList, "2".toList, "A9".toList, [], []⟩ := by
  decide +kernel

theorem plainNames_boxQuery : PlainNames boxQuery where
  projectid := by
    rw [askedNames, parseOutcome_boxQuery]
    decide
  vendorid := by
    rw [askedNames, parseOutcome_boxQuery]
    exact List.all_eq_true.mp (by decide)
  stbid f hf := by
    rw [parseOutcome_boxQuery] at hf
    cases hf
    decide

theorem answer_eq_service_oneBox :
    (answer (hostOf columnEquals oneBox) boxQuery).map (fun r => (r.1, r.2.text)) =
      .ok (true, "AuthState=1".toList) := by
  have hservice : service columnEquals oneBox true boxQuery =
      .ok (some "AuthState=1".toList) := by decide +kernel
  rw [answer_eq_service (hosts_hostOf columnEquals oneBox) (by decide) (by decide)
    plainNames_boxQuery]
  change (service columnEquals oneBox true boxQuery).map _ = _
  rw [hservice]
  rfl

/-! ## Tenants -/

/-- Two databases are the same for one project and vendor: both have the project or not, both have
a table of the vendor somewhere or not, and the vendor's table of the project is the same. -/
structure SameTenant {Row : Type} (d d' : Holdings Row) (projectid vendorid : Text) : Prop where
  project : databaseNameOf projectid ∈ d ↔ databaseNameOf projectid ∈ d'
  vendor : (∀ schema, d.table? schema (tableNameOf vendorid) = none) ↔
    ∀ schema, d'.table? schema (tableNameOf vendorid) = none
  table : d.table? (databaseNameOf projectid) (tableNameOf vendorid) =
    d'.table? (databaseNameOf projectid) (tableNameOf vendorid)

/-- **What the rest of the database holds makes no difference to the service.** -/
theorem service_congr {Row : Type} (equals : Row → Text → Text → Bool) {d d' : Holdings Row}
    (connects : Bool) {query : Text}
    (hsame : SameTenant d d' (askedNames query).1 (askedNames query).2) :
    service equals d connects query = service equals d' connects query := by
  have hschema : d.schemaCount (databaseNameOf (askedNames query).1) = 0 ↔
      d'.schemaCount (databaseNameOf (askedNames query).1) = 0 := by
    rw [d.schemaCount_eq_zero, d'.schemaCount_eq_zero, hsame.project]
  have hvendor : d.tableCount (tableNameOf (askedNames query).2) = 0 ↔
      d'.tableCount (tableNameOf (askedNames query).2) = 0 := by
    rw [d.tableCount_eq_zero, d'.tableCount_eq_zero, hsame.vendor]
  have hown : ownText equals d (parseOutcome query) = ownText equals d' (parseOutcome query) := by
    cases ho : parseOutcome query with
    | auth f =>
      have htable := hsame.table
      rw [askedNames, ho] at htable
      dsimp only at htable
      rw [ownText, ownText, htable]
    | _ => rfl
  rw [service, service, if_congr hschema rfl rfl, if_congr hvendor rfl rfl, hown]

/-- **Tenants do not see each other.** Two servers whose databases are the same for the project and
the vendor of a request give the same answer to it, whatever else they hold. -/
theorem tenant_isolated {Row : Type} {equals : Row → Text → Text → Bool} {d d' : Holdings Row}
    {server server' : MySql} (hserver : server.Hosts equals d) (hserver' : server'.Hosts equals d')
    (hconnect : server.realConnect = server'.realConnect) {query : Text} (hnul : nul ∉ query)
    (hfit : query.length < recvBufferLength) (hplain : PlainNames query)
    (hsame : SameTenant d d' (askedNames query).1 (askedNames query).2) :
    (answer server query).map (fun r => (r.1, r.2.text)) =
      (answer server' query).map (fun r => (r.1, r.2.text)) := by
  rw [answer_eq server hnul hfit, answer_eq server' hnul hfit,
    serverText_eq_service hserver hplain, serverText_eq_service hserver' hplain, hconnect,
    service_congr equals _ hsame]

/-- The other project makes no difference to this one. -/
theorem sameTenant_moreBoxes : SameTenant oneBox moreBoxes "1".toList "2".toList := by
  have hown : oneBox.table? (databaseNameOf "1".toList) (tableNameOf "2".toList) =
      moreBoxes.table? (databaseNameOf "1".toList) (tableNameOf "2".toList) := by
    decide +kernel
  have hsome : oneBox.table? (databaseNameOf "1".toList) (tableNameOf "2".toList) ≠ none := by
    decide +kernel
  exact ⟨by decide, iff_of_false (fun h => hsome (h _)) fun h => hsome (hown.trans (h _)), hown⟩

theorem tenant_isolated_moreBoxes :
    (answer (hostOf columnEquals oneBox) boxQuery).map (fun r => (r.1, r.2.text)) =
      (answer (hostOf columnEquals moreBoxes) boxQuery).map (fun r => (r.1, r.2.text)) := by
  have hconnect : ∀ d : Holdings (List (Text × Text)),
      (hostOf columnEquals d).realConnect = true := fun _ => rfl
  refine tenant_isolated (hosts_hostOf columnEquals oneBox) (hosts_hostOf columnEquals moreBoxes)
    ((hconnect oneBox).trans (hconnect moreBoxes).symm) (by decide) (by decide)
    plainNames_boxQuery ?_
  rw [askedNames, parseOutcome_boxQuery]
  exact sameTenant_moreBoxes

end MySqlHttpData

end AMSServer
