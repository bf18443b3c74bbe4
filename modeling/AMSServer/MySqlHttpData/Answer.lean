import AMSServer.MySqlHttpData.Statements

/-!
# What `MySqlHttpData` answers

`ConnectDatabase` decides from what the server says about two statements (`checkOutcome`), and
leaves the names it has found or an error for the payload (`connectDatabase_spec`). The payload for
one box is then the number of rows that the lookup gives when the client has sent an STBID, and a
fixed text for the other identifiers, whose builders are those of `HttpData`
(`handleHttpData_auth`); the total is the number of rows of the table (`handleHttpData_sum`).
-/

namespace AMSServer

open CRuntime Sql

namespace MySqlHttpData

/-! ## The checks -/

/-- What `ConnectDatabase` decides. -/
inductive CheckOutcome
  /-- `FALSE`: no connection, no result or no schema to use. -/
  | refused
  | wrong (e : Errorcode)
  | found
  /-- A result has too many columns to be printed. -/
  | overrun
  deriving DecidableEq

/-- What the result about one name decides: it is missing, or printed and left to the rest. -/
def nameOutcome (result : Option MysqlRes) (e : Errorcode) (rest : CheckOutcome) : CheckOutcome :=
  match result with
  | none => .refused
  | some result =>
    if result.numRows = 0 then .wrong e
    else if result.numFields % 256 ≤ 20 then rest
    else .overrun

/-- What the server says about a project and a vendor. -/
def checkOutcome (server : MySql) (projectid vendorid : Text) : CheckOutcome :=
  if server.realConnect = false then .refused else
  nameOutcome (server.result defaultDatabaseName.toList (schemaSelect projectid).text)
    .kProjectIDIsWrong <|
  if server.selectDb (databaseNameOf projectid) = false then .refused else
  nameOutcome (server.result (databaseNameOf projectid) (tableSelect vendorid).text)
    .kVendorIDIsWrong .found

/-- What `ConnectDatabase` leaves of an object, by what it decides. -/
inductive Checked (h : MySqlHttpData) : CheckOutcome → Except Fault (Bool × MySqlHttpData) → Prop
  | refused {h' : MySqlHttpData} (base : h'.toHttpData = h.toHttpData) :
      Checked h .refused (.ok (false, h'))
  | wrong {e : Errorcode} {h' : MySqlHttpData} (base : h'.toHttpData = h.setError e) :
      Checked h (.wrong e) (.ok (true, h'))
  | found {h' : MySqlHttpData} (base : h'.toHttpData = h.toHttpData)
      (databasename : h'.databasename.text = databaseNameOf h.projectid.text)
      (tablename : h'.tablename.text = tableNameOf h.vendorid.text) :
      Checked h .found (.ok (true, h'))
  | overrun : Checked h .overrun (.error .overrun)

/-- **A result in `ConnectDatabase`.** -/
theorem Checked.result {h h' : MySqlHttpData} {result : MysqlRes} {e : Errorcode}
    {rest : CheckOutcome} {next : Unit → Except Fault (Bool × MySqlHttpData)}
    (hbase : h'.toHttpData = h.setError e) (hnext : Checked h rest (next ())) :
    Checked h (nameOutcome (some result) e rest)
      (if result.numRows = 0 then .ok (true, h') else showQueryDetails result >>= next) := by
  simp only [nameOutcome, showQueryDetails_eq]
  split
  · exact .wrong hbase
  · split
    · exact hnext
    · exact .overrun

/-- The name of the schema of a project, and the query for it. -/
theorem exists_schemaName (projectid : CBuf (projectidLength + 1)) {name : CBuf nameLength}
    (hname : name.text = []) :
    ∃ databasename query, setName name databaseNameHeader projectid.text = .ok databasename ∧
      databasename.text = databaseNameOf projectid.text ∧ schemaQuery databasename = .ok query ∧
      query.text = (schemaSelect projectid.text).text := by
  obtain ⟨databasename, hset, htext⟩ :=
    setName_eq databaseNameHeader projectid (by decide) hname (by decide) (by decide)
  obtain ⟨query, hquery, hqueryText⟩ :=
    nameQuery_eq "SELECT schema_name FROM SCHEMATA WHERE schema_name=" databasename
      (by decide) (by decide)
  refine ⟨databasename, query, hset, htext, hquery, ?_⟩
  rw [hqueryText, htext, schemaSelect_text]
  rfl

/-- The name of the table of a vendor, and the query for it. -/
theorem exists_tableName (vendorid : CBuf (vendoridLength + 1)) {name : CBuf nameLength}
    (hname : name.text = []) :
    ∃ tablename query, setName name tableNameHeader vendorid.text = .ok tablename ∧
      tablename.text = tableNameOf vendorid.text ∧ tableQuery tablename = .ok query ∧
      query.text = (tableSelect vendorid.text).text := by
  obtain ⟨tablename, hset, htext⟩ :=
    setName_eq tableNameHeader vendorid (by decide) hname (by decide) (by decide)
  obtain ⟨query, hquery, hqueryText⟩ :=
    nameQuery_eq "SELECT table_name FROM information_schema.TABLES WHERE table_name=" tablename
      (by decide) (by decide)
  refine ⟨tablename, query, hset, htext, hquery, ?_⟩
  rw [hqueryText, htext, tableSelect_text]
  rfl

theorem exists_useQuery (name : CBuf nameLength) : ∃ query, useQuery name = .ok query := by
  obtain ⟨query, hquery, -⟩ := nameQuery_eq "USE " name (by decide) (by decide)
  exact ⟨query, hquery⟩

/-- **`ConnectDatabase` leaves what the server decides.** -/
theorem connectDatabase_spec (server : MySql) {h : MySqlHttpData}
    (hdatabase : h.databasename.text = []) (htable : h.tablename.text = []) :
    Checked h (checkOutcome server h.projectid.text h.vendorid.text)
      (connectDatabase server h) := by
  obtain ⟨databasename, query, hdatabasename, hdatabaseText, hquery, hschema⟩ :=
    exists_schemaName h.projectid hdatabase
  obtain ⟨tablename, query', htablename, htableText, hquery', htables⟩ :=
    exists_tableName h.vendorid htable
  obtain ⟨use, huse⟩ := exists_useQuery databasename
  rw [connectDatabase, connectDatabaseWith, makesCalls_write.call_bind, checkOutcome]
  split
  · exact .refused rfl
  rw [Effects.writing_lift, hdatabasename, ok_bind]
  dsimp only
  rw [Effects.writing_lift, hquery, ok_bind, makesCalls_write.lookFor_bind, hschema]
  cases server.result defaultDatabaseName.toList (schemaSelect h.projectid.text).text with
  | none => exact .refused rfl
  | some result =>
  refine .result rfl ?_
  simp only [Bool.true_eq_false, if_false]
  rw [Effects.writing_lift, huse, ok_bind, makesCalls_write.call_bind, hdatabaseText]
  split
  · exact .refused rfl
  rw [Effects.writing_lift, htablename, ok_bind, Effects.writing_lift, hquery', ok_bind,
    makesCalls_write.lookFor_bind, htables]
  cases server.result (databaseNameOf h.projectid.text) (tableSelect h.vendorid.text).text with
  | none => exact .refused rfl
  | some result => exact .result rfl (.found rfl hdatabaseText htableText)

/-! ## The lookup -/

/-- What a number of rows is answered with. -/
def countText (authstate : Int) : Except Fault (Option Text) :=
  if authstate < 1 then .ok none
  else if (intText authstate).length < sumLength then
    .ok (some ("AuthState=".toList ++ intText authstate))
  else .error .invalidParameter

/-- What the lookup answers, with `none` for `FALSE`. -/
def lookupText : Option MysqlRes → Except Fault (Option Text)
  | none => .ok none
  | some result => showQueryDetails result >>= fun _ => countText (rowsAsInt result)

/-- The digits of an `int` have no terminator. -/
theorem nul_notMem_intText (n : Int) : nul ∉ intText n := by
  have hdigits : nul ∉ Nat.toDigits 10 n.natAbs := fun hn =>
    absurd (Nat.isDigit_of_mem_toDigits (by decide) (by decide) hn) (by decide)
  unfold intText
  split
  · simp [hdigits, nul]
  · exact hdigits

/-- A header and a number are appended to a payload when the number fits its array. -/
theorem appendNumber_append {h : HttpData} {header : Text} (n : Int)
    (hroom : h.payloadbuf.text.length + 18 ≤ payloadBufferLength) (hnul : nul ∉ header)
    (hlen : header.length ≤ 10) :
    (do
      let h ← h.append header
      let temp ← itoaS n
      return (true, ← h.append temp.text)).map HttpData.result =
      if (intText n).length < sumLength then .ok (true, h.payloadbuf.text ++ (header ++ intText n))
      else .error .invalidParameter := by
  change h.payloadbuf.text.length + 18 ≤ 1024 at hroom
  obtain ⟨b, hb, happend⟩ := HttpData.append_eq (h := h) hnul
    (by change _ < 1024; omega)
  rw [happend, ok_bind, itoaS]
  split
  next hfit =>
    obtain ⟨temp, htemp, htempText⟩ :=
      CBuf.exists_sprintfS (n := sumLength) (nul_notMem_intText n) hfit
    have htempLen : temp.text.length < 8 := temp.text_lt
    obtain ⟨b', hb', happend'⟩ := HttpData.append_eq (h := { h with payloadbuf := b }) temp.nul_free
      (by
        change b.text.length + temp.text.length < 1024
        rw [hb, List.length_append]
        omega)
    rw [htemp, ok_bind, happend']
    simp [Except.map, pure, Except.pure, HttpData.result, hb', hb, htempText]
  next hfit =>
    have hrefused : CBuf.sprintfS sumLength sumLength (intText n) = .error .invalidParameter := by
      rw [CBuf.sprintfS, if_neg (by rwa [cstr_of_notMem (nul_notMem_intText _)])]
    rw [hrefused]
    rfl

/-- A header and a number are appended to an empty payload when the number fits its array. -/
theorem appendNumber_eq {h : HttpData} {header : Text} (n : Int) (hpay : h.payloadbuf.text = [])
    (hnul : nul ∉ header) (hlen : header.length ≤ 10) :
    (do
      let h ← h.append header
      let temp ← itoaS n
      return (true, ← h.append temp.text)).map HttpData.result =
      if (intText n).length < sumLength then .ok (true, header ++ intText n)
      else .error .invalidParameter := by
  rw [appendNumber_append n (by rw [hpay]; decide) hnul hlen, hpay, List.nil_append]

/-- `TRUE` with a payload is what a builder gives that has one. -/
theorem map_eq_true_iff {x : Except Fault (Option Text)} {t : Text} :
    x.map (fun t => (t.isSome, t.getD [])) = .ok (true, t) ↔ x = .ok (some t) := by
  cases x with
  | error e => simp [Except.map]
  | ok o => cases o <;> simp [Except.map]

/-- The number of rows is appended when there are rows and it fits its array. -/
theorem appendAuthState_eq {h : HttpData} (authstate : Int) (hpay : h.payloadbuf.text = []) :
    (appendAuthState authstate h).map HttpData.result =
      (countText authstate).map fun t => (t.isSome, t.getD []) := by
  rw [appendAuthState, appendAuthStateWith, countText]
  split
  · simp [Except.map, pure, Except.pure, HttpData.result, hpay]
  refine (appendNumber_eq authstate hpay (by decide) (by decide)).trans ?_
  split <;> rfl

/-- **`BuildQueryAuthPayLoadByStbId` answers the lookup.** -/
theorem buildQueryAuthPayLoadByStbId_eq (server : MySql) {databasename tablename : CBuf nameLength}
    {h : HttpData} {vendorid : Text} (htable : tablename.text = tableNameOf vendorid)
    (hpay : h.payloadbuf.text = []) :
    (buildQueryAuthPayLoadByStbId server databasename tablename h).map HttpData.result =
      (lookupText (server.result databasename.text (stbidSelect vendorid h.stbid.text).text)).map
        fun t => (t.isSome, t.getD []) := by
  obtain ⟨query, hquery, htext⟩ := stbidQuery_eq tablename h.stbid
  rw [htable, ← stbidSelect_text] at htext
  rw [buildQueryAuthPayLoadByStbId, buildQueryAuthPayLoadByStbIdWith, Effects.writing_lift, hquery,
    ok_bind, makesCalls_write.countRows_bind, htext]
  cases server.result databasename.text (stbidSelect vendorid h.stbid.text).text with
  | none => simp [Except.map, pure, Except.pure, lookupText, HttpData.result, hpay]
  | some result =>
    rw [lookupText]
    dsimp only
    change (showQueryDetails result >>= _).map _ = _
    cases showQueryDetails result with
    | error e =>
      rw [error_bind, error_bind]
      rfl
    | ok u =>
      rw [ok_bind, ok_bind]
      exact appendAuthState_eq (rowsAsInt result) hpay

/-- What the total answers, with `none` for `FALSE`. -/
def sumText : Option MysqlRes → Except Fault (Option Text)
  | none => .ok none
  | some result => showQueryDetails result >>= fun _ =>
    if (intText (rowsAsInt result)).length < sumLength then
      .ok (some ("AuthSum=".toList ++ intText (rowsAsInt result)))
    else .error .invalidParameter

/-- **`BuildQueryAuthSumPayLoad` answers the total.** -/
theorem buildQueryAuthSumPayLoad_eq (server : MySql) {databasename tablename : CBuf nameLength}
    {h : HttpData} {vendorid : Text} (htable : tablename.text = tableNameOf vendorid)
    (hpay : h.payloadbuf.text = []) :
    (buildQueryAuthSumPayLoad server databasename tablename h).map HttpData.result =
      (sumText (server.result databasename.text (sumSelect vendorid).text)).map
        fun t => (t.isSome, t.getD []) := by
  obtain ⟨query, hquery, htext⟩ := sumQuery_eq tablename
  rw [htable, ← sumSelect_text] at htext
  rw [buildQueryAuthSumPayLoad, buildQueryAuthSumPayLoadWith, Effects.writing_lift, hquery, ok_bind,
    makesCalls_write.countRows_bind, htext]
  cases server.result databasename.text (sumSelect vendorid).text with
  | none => simp [Except.map, pure, Except.pure, sumText, HttpData.result, hpay]
  | some result =>
    rw [sumText]
    dsimp only
    change (showQueryDetails result >>= _).map _ = _
    cases showQueryDetails result with
    | error e =>
      rw [error_bind, error_bind]
      rfl
    | ok u =>
      rw [ok_bind, ok_bind]
      dsimp only [Effects.writing_lift]
      refine (appendNumber_eq (rowsAsInt result) hpay (by decide) (by decide)).trans ?_
      split <;> rfl

/-! ## The answer -/

/-- The payload for one box. -/
def stateText (server : MySql) (f : AuthFields) : Except Fault (Option Text) :=
  if f.stbid.length ≠ 0 then
    lookupText (server.result (databaseNameOf f.projectid) (stbidSelect f.vendorid f.stbid).text)
  else if f.chipid.length ≠ 0 then .ok (some "AuthState=ChipId".toList)
  else .ok (some "AuthState=Mac".toList)

/-- What is answered to a query for one box. -/
def authText (server : MySql) (f : AuthFields) : Except Fault (Option Text) :=
  match checkOutcome server f.projectid f.vendorid with
  | .refused => .ok none
  | .wrong e => .ok (some ("ErrorCode=".toList ++ e.name.toList))
  | .found => stateText server f
  | .overrun => .error .overrun

theorem checkOutcome_ne_kNullError (server : MySql) (projectid vendorid : Text) :
    checkOutcome server projectid vendorid ≠ .wrong .kNullError := by
  have hname : ∀ {result : Option MysqlRes} {e : Errorcode} {rest : CheckOutcome}, e ≠ .kNullError →
      rest ≠ .wrong .kNullError → nameOutcome result e rest ≠ .wrong .kNullError := by
    intro result e rest he hrest
    cases result with
    | none => nofun
    | some result =>
      simp only [nameOutcome]
      split
      · simpa using he
      · split
        · exact hrest
        · nofun
  unfold checkOutcome
  split
  · nofun
  refine hname nofun ?_
  split
  · nofun
  · exact hname nofun nofun

/-- What is answered when the builder of a request that passes the checks answers `rest`. -/
def CheckOutcome.answer (rest : Except Fault (Bool × Text)) :
    CheckOutcome → Except Fault (Bool × Text)
  | .refused => .ok (false, [])
  | .wrong e => .ok (true, "ErrorCode=".toList ++ e.name.toList)
  | .found => rest
  | .overrun => .error .overrun

/-- **The checks come before the builders.** -/
theorem handleHttpData_eq (server : MySql) {h : MySqlHttpData} {base : HttpData}
    {rest : Except Fault (Bool × Text)} (hdatabase : h.databasename.text = [])
    (htable : h.tablename.text = []) (hparse : h.toHttpData.parseRecvBuf = .ok base)
    (hempty : base.payloadbuf.text = [])
    (hrest : ∀ h' : MySqlHttpData, h'.databasename.text = databaseNameOf base.projectid.text →
      h'.tablename.text = tableNameOf base.vendorid.text →
        (HttpData.buildPayLoad (builders server h') base).map HttpData.result = rest) :
    (h.handleHttpData server).map HttpData.result =
      (checkOutcome server base.projectid.text base.vendorid.text).answer rest := by
  have hchecked :=
    connectDatabase_spec server (h := { h with toHttpData := base }) hdatabase htable
  have hnull := checkOutcome_ne_kNullError server base.projectid.text base.vendorid.text
  dsimp only at hchecked
  rw [handleHttpData, handleHttpDataWith, parseRecvBufWith_code, hparse, ok_bind]
  change (connectDatabase server { h with toHttpData := base } >>= _).map _ = _
  simp only [buildPayLoadWith_code]
  generalize checkOutcome server base.projectid.text base.vendorid.text = o at hchecked hnull ⊢
  generalize connectDatabase server { h with toHttpData := base } = x at hchecked ⊢
  cases hchecked with
  | @refused h' hbase =>
    simp [Except.map, pure, Except.pure, HttpData.result, hbase, hempty, CheckOutcome.answer]
  | @wrong e h' hbase =>
    have he : e ≠ .kNullError := by
      rintro rfl
      exact hnull rfl
    rw [ok_bind]
    dsimp only
    rw [if_neg (by decide), hbase]
    exact HttpData.buildPayLoad_error_eq (h := base.setError e) _ rfl hempty he
  | @found h' hbase hdatabase' htable' =>
    rw [ok_bind]
    dsimp only
    rw [if_neg (by decide), hbase]
    exact hrest h' hdatabase' htable'
  | overrun => rfl

/-- The builder for one box, where the names have been found. -/
theorem buildQueryAuthStatePayLoad_eq (server : MySql) {h : MySqlHttpData} {base : HttpData}
    {f : AuthFields} (hdatabase : h.databasename.text = databaseNameOf f.projectid)
    (htable : h.tablename.text = tableNameOf f.vendorid) (hempty : base.payloadbuf.text = [])
    (hs : base.stbid.text = f.stbid) (hc : base.chipid.text = f.chipid)
    (hm : base.macaddr.text = f.macaddr) (hstate : authFlag f = .kQueryAuthState) :
    (HttpData.buildQueryAuthStatePayLoadWith HttpData.Event.code (builders server h) base).map
        HttpData.result =
      (stateText server f).map fun t => (t.isSome, t.getD []) := by
  rw [HttpData.buildQueryAuthStatePayLoad_eq, stateText, hs, hc, hm]
  by_cases hs0 : f.stbid.length = 0
  · rw [if_neg (not_not.mpr hs0), if_neg (not_not.mpr hs0)]
    by_cases hc0 : f.chipid.length = 0
    · have hm0 : f.macaddr.length ≠ 0 := by
        intro hm0
        rw [authFlag, if_pos ⟨hs0, hc0, hm0⟩] at hstate
        cases hstate
      rw [if_neg (not_not.mpr hc0), if_neg (not_not.mpr hc0), if_pos hm0]
      exact HttpData.appendBuilder_eq hempty (by decide) (by decide)
    · rw [if_pos hc0, if_pos hc0]
      exact HttpData.appendBuilder_eq hempty (by decide) (by decide)
  · rw [if_pos hs0, if_pos hs0, ← hs, ← hdatabase]
    exact buildQueryAuthPayLoadByStbId_eq server htable hempty

/-- **What the object answers to a query for one box.** -/
theorem handleHttpData_auth (server : MySql) {h : MySqlHttpData} {f : AuthFields}
    (hdatabase : h.databasename.text = []) (htable : h.tablename.text = [])
    (hpay : h.payloadbuf.text = []) (hparse : parseOutcome h.recvdatabuf.text = .auth f)
    (hstate : authFlag f = .kQueryAuthState) :
    (h.handleHttpData server).map HttpData.result =
      (authText server f).map fun t => (t.isSome, t.getD []) := by
  have hspec := HttpData.parseRecvBuf_spec h.toHttpData
  rw [hparse] at hspec
  generalize hbase : h.toHttpData.parseRecvBuf = x at hspec
  cases hspec with
  | @auth _ base hrecv hpay' hf hp hv hs hc hm =>
    have hempty : base.payloadbuf.text = [] := by rw [hpay', hpay]
    rw [handleHttpData_eq server hdatabase htable hbase hempty ?_, authText, hp, hv]
    · cases checkOutcome server f.projectid f.vendorid <;> rfl
    · intro h' hdatabase' htable'
      rw [hp] at hdatabase'
      rw [hv] at htable'
      rw [HttpData.buildPayLoad_state _ (hf.trans hstate)]
      exact buildQueryAuthStatePayLoad_eq server hdatabase' htable' hempty hs hc hm hstate

/-- **What the object answers to a query for the total.** -/
theorem handleHttpData_sum (server : MySql) {h : MySqlHttpData} {f : AuthFields}
    (hdatabase : h.databasename.text = []) (htable : h.tablename.text = [])
    (hpay : h.payloadbuf.text = []) (hparse : parseOutcome h.recvdatabuf.text = .auth f)
    (hsum : authFlag f = .kQueryAuthSum) :
    (h.handleHttpData server).map HttpData.result =
      (checkOutcome server f.projectid f.vendorid).answer
        ((sumText (server.result (databaseNameOf f.projectid) (sumSelect f.vendorid).text)).map
          fun t => (t.isSome, t.getD [])) := by
  have hspec := HttpData.parseRecvBuf_spec h.toHttpData
  rw [hparse] at hspec
  generalize hbase : h.toHttpData.parseRecvBuf = x at hspec
  cases hspec with
  | @auth _ base hrecv hpay' hf hp hv hs hc hm =>
    have hempty : base.payloadbuf.text = [] := by rw [hpay', hpay]
    rw [← hp, ← hv]
    refine handleHttpData_eq server hdatabase htable hbase hempty ?_
    intro h' hdatabase' htable'
    rw [HttpData.buildPayLoad_sum _ (hf.trans hsum), ← hdatabase']
    exact buildQueryAuthSumPayLoad_eq server htable' hempty

/-- **An error of the parser is never answered with a state.** -/
theorem handleHttpData_error {server : MySql} {h : MySqlHttpData} {e : Errorcode}
    (hdatabase : h.databasename.text = []) (htable : h.tablename.text = [])
    (hpay : h.payloadbuf.text = []) (hparse : parseOutcome h.recvdatabuf.text = .error e)
    {payload : Text} (hok : (h.handleHttpData server).map HttpData.result = .ok (true, payload)) :
    "ErrorCode=".toList <+: payload := by
  have hnull := parseOutcome_ne_kNullError h.recvdatabuf.text
  have hspec := HttpData.parseRecvBuf_spec h.toHttpData
  rw [hparse] at hspec hnull
  generalize hbase : h.toHttpData.parseRecvBuf = x at hspec
  cases hspec with
  | @error _ base hrecv hpay' hf he =>
    have hempty : base.payloadbuf.text = [] := by rw [hpay', hpay]
    have hne : base.errorcode ≠ .kNullError := by
      intro h0
      exact hnull (congrArg _ (he.symm.trans h0))
    rw [handleHttpData_eq server hdatabase htable hbase hempty fun h' _ _ =>
      HttpData.buildPayLoad_error_eq _ hf hempty hne] at hok
    cases hcheck : checkOutcome server base.projectid.text base.vendorid.text with
    | refused =>
      rw [hcheck] at hok
      cases hok
    | wrong e' =>
      rw [hcheck] at hok
      cases hok
      exact List.prefix_append _ _
    | found =>
      rw [hcheck] at hok
      cases hok
      exact List.prefix_append _ _
    | overrun =>
      rw [hcheck] at hok
      cases hok

/-- The object for a text that fits. -/
theorem new_of_lt {comedata : Text} (hnul : nul ∉ comedata)
    (hfit : comedata.length < recvBufferLength) :
    ∃ h : MySqlHttpData, new comedata = .ok h ∧ h.databasename.text = [] ∧ h.tablename.text = [] ∧
      h.payloadbuf.text = [] ∧ h.recvdatabuf.text = comedata := by
  refine ⟨{ HttpData.ofRecv ⟨comedata, hfit, hnul⟩ with
    databasename := CBuf.empty, tablename := CBuf.empty },
    ?_, rfl, rfl, rfl, rfl⟩
  rw [new, HttpData.new_of_lt hnul hfit]
  rfl

end MySqlHttpData

end AMSServer
