import AMSServer.MySqlHttpData.Soundness

/-!
# Refused queries

`HttpData` answers a query that the parser refuses with the parser's error. `MySqlHttpData` goes on
to `ConnectDatabase` first, with the names that the parser had accepted by then (`keptProjectid`,
`keptVendorid`), and these leave an error of their own when the catalogue does not have them. So the
two classes give the same answer exactly when the catalogue has the schema and the table of those
names (`keepsError_iff`). After the earliest errors both names are empty.
-/

namespace AMSServer

open CRuntime Sql

namespace MySqlHttpData

/-! ## The catalogue -/

/-- The server's schemas for a project. -/
def schemasFound (server : MySql) (projectid : Text) : Option MysqlRes :=
  server.result defaultDatabaseName.toList (schemaSelect projectid).text

/-- The server's tables for a vendor, asked for in the schema of the project. -/
def tablesFound (server : MySql) (projectid vendorid : Text) : Option MysqlRes :=
  server.result (databaseNameOf projectid) (tableSelect vendorid).text

/-- A result has rows. -/
def HasRows (result : Option MysqlRes) : Prop := ∃ r ∈ result, r.numRows ≠ 0

/-- The connection and the queries about the catalogue succeed. Their results have one column. -/
structure CatalogueSucceeds (server : MySql) (projectid vendorid : Text) : Prop where
  connects : server.realConnect = true
  schemas : ∃ rows, schemasFound server projectid = some ⟨rows, 1⟩
  selects : HasRows (schemasFound server projectid) →
    server.selectDb (databaseNameOf projectid) = true
  tables : HasRows (schemasFound server projectid) →
    ∃ rows, tablesFound server projectid vendorid = some ⟨rows, 1⟩

theorem hasRows_some {rows : ℕ} : HasRows (some ⟨rows, 1⟩) ↔ rows ≠ 0 := by
  simp [HasRows]

/-- What one result of the catalogue decides. -/
theorem nameOutcome_some (rows : ℕ) (e : Errorcode) (rest : CheckOutcome) :
    nameOutcome (some ⟨rows, 1⟩) e rest = if rows = 0 then .wrong e else rest := by
  simp [nameOutcome]

/-- **What the catalogue decides**, by the numbers of rows it gives. -/
theorem checkOutcome_eq {server : MySql} {projectid vendorid : Text} {schemas tables : ℕ}
    (hconnect : server.realConnect = true)
    (hschemas : schemasFound server projectid = some ⟨schemas, 1⟩)
    (hselect : schemas ≠ 0 → server.selectDb (databaseNameOf projectid) = true)
    (htables : schemas ≠ 0 → tablesFound server projectid vendorid = some ⟨tables, 1⟩) :
    checkOutcome server projectid vendorid =
      if schemas = 0 then .wrong .kProjectIDIsWrong
      else if tables = 0 then .wrong .kVendorIDIsWrong
      else .found := by
  rw [checkOutcome, if_neg (by simp [hconnect])]
  change nameOutcome (schemasFound server projectid) _ _ = _
  rw [hschemas, nameOutcome_some]
  split
  · rfl
  next hne =>
    rw [if_neg (by simp [hselect hne])]
    change nameOutcome (tablesFound server projectid vendorid) _ _ = _
    rw [htables hne, nameOutcome_some]

/-- **The checks find the names that the catalogue has.** -/
theorem checkOutcome_eq_found_iff {server : MySql} {projectid vendorid : Text}
    (h : CatalogueSucceeds server projectid vendorid) :
    checkOutcome server projectid vendorid = .found ↔
      HasRows (schemasFound server projectid) ∧
        HasRows (tablesFound server projectid vendorid) := by
  have hselects := h.selects
  have htables := h.tables
  obtain ⟨schemas, hschemas⟩ := h.schemas
  rw [hschemas, hasRows_some] at hselects htables ⊢
  by_cases hne : schemas ≠ 0
  · obtain ⟨tables, htables⟩ := htables hne
    rw [checkOutcome_eq h.connects hschemas hselects fun _ => htables, if_neg hne, htables,
      hasRows_some, and_iff_right hne]
    split
    next hzero => exact iff_of_false CheckOutcome.noConfusion fun hrows => hrows hzero
    next hrows => exact iff_of_true rfl hrows
  · have hcheck := @checkOutcome_eq server projectid vendorid schemas 0 h.connects hschemas hselects
      fun h => absurd h hne
    rw [hcheck, if_pos (not_not.mp hne)]
    exact iff_of_false CheckOutcome.noConfusion fun hfound => hne hfound.1

/-- An error of the checks is not one of the parser. -/
theorem eq_of_checkOutcome_eq_wrong {server : MySql} {projectid vendorid : Text} {e : Errorcode}
    (h : checkOutcome server projectid vendorid = .wrong e) :
    e = .kProjectIDIsWrong ∨ e = .kVendorIDIsWrong := by
  have hname : ∀ {result : Option MysqlRes} {e' : Errorcode} {rest : CheckOutcome},
      nameOutcome result e' rest = .wrong e → e = e' ∨ rest = .wrong e := by
    intro result e' rest hwrong
    cases result with
    | none => cases hwrong
    | some result =>
      simp only [nameOutcome] at hwrong
      split at hwrong
      · exact Or.inl (CheckOutcome.wrong.inj hwrong).symm
      · split at hwrong
        · exact Or.inr hwrong
        · cases hwrong
  unfold checkOutcome at h
  split at h
  · cases h
  rcases hname h with he | h
  · exact Or.inl he
  split at h
  · cases h
  rcases hname h with he | h
  · exact Or.inr he
  · cases h

/-! ## The two answers -/

/-- Both classes answer a query with the name of an error. -/
def KeepsError (server : MySql) (query : Text) (e : Errorcode) : Prop :=
  (answer server query).map (fun r => (r.1, r.2.text)) =
      .ok (true, "ErrorCode=".toList ++ e.name.toList) ∧
    (answer server query).map (fun r => (r.1, r.2.text)) =
      (HttpData.answer query).map fun r => (r.1, r.2.text)

/-- Errors have different names. -/
theorem name_injective {e e' : Errorcode} (h : e.name = e'.name) : e = e' := by
  cases e <;> cases e' <;> first | rfl | exact absurd h (by decide)

/-- What `MySqlHttpData` answers to a refused query. -/
theorem answer_of_refused {server : MySql} {query : Text} {h base : HttpData}
    (hnew : HttpData.new query = .ok h) (hparse : h.parseRecvBuf = .ok base)
    (hflag : base.sendflag = .kErrorFlag) (hempty : base.payloadbuf.text = [])
    (hnull : base.errorcode ≠ .kNullError) :
    (answer server query).map (fun r => (r.1, r.2.text)) =
      (checkOutcome server base.projectid.text base.vendorid.text).answer
        (.ok (true, "ErrorCode=".toList ++ base.errorcode.name.toList)) := by
  let object : MySqlHttpData := { h with databasename := CBuf.empty, tablename := CBuf.empty }
  have hobject : new query = .ok object := by
    rw [new, hnew]
    rfl
  have hanswer := handleHttpData_eq server (h := object) rfl rfl hparse hempty fun h' _ _ =>
    HttpData.buildPayLoad_error_eq _ hflag hempty hnull
  rw [← hanswer, answer_result hobject]

/-- The parser's error is answered when the checks find the names that the parser had accepted. -/
theorem keepsError_iff_found {server : MySql} {query : Text} {h base : HttpData}
    (hnul : nul ∉ query) (hnew : HttpData.new query = .ok h) (hparse : h.parseRecvBuf = .ok base)
    (hflag : base.sendflag = .kErrorFlag) :
    KeepsError server query base.errorcode ↔
      checkOutcome server (keptProjectid query base.errorcode)
        (keptVendorid query base.errorcode) = .found := by
  obtain ⟨hfit, -⟩ := HttpData.new_eq_ok hnul hnew
  obtain rfl : HttpData.ofRecv ⟨query, hfit, hnul⟩ = h := by
    rw [HttpData.new_of_lt hnul hfit] at hnew
    exact Except.ok.inj hnew
  have hrefused := HttpData.parseRecvBuf_refused rfl rfl rfl hparse hflag
  obtain ⟨herror, hpay⟩ := HttpData.parseOutcome_of_refused rfl hparse hflag
  change HttpData.Refused query base at hrefused
  change parseOutcome query = _ at herror
  have hnull : base.errorcode ≠ .kNullError := by
    intro h
    rw [h] at herror
    exact parseOutcome_ne_kNullError query herror
  have hsame : (HttpData.answer query).map (fun r => (r.1, r.2.text)) =
      .ok (true, "ErrorCode=".toList ++ base.errorcode.name.toList) := by
    rw [HttpData.answer_eq hnul hfit, herror]
    rfl
  rw [KeepsError, hsame, and_self, answer_of_refused hnew hparse hflag (by rw [hpay]; rfl) hnull,
    hrefused.projectid, hrefused.vendorid]
  cases hcheck : checkOutcome server (keptProjectid query base.errorcode)
    (keptVendorid query base.errorcode) with
  | refused => exact iff_of_false (by simp [CheckOutcome.answer]) CheckOutcome.noConfusion
  | found => exact iff_of_true rfl rfl
  | overrun => exact iff_of_false (by simp [CheckOutcome.answer]) CheckOutcome.noConfusion
  | wrong e =>
    refine iff_of_false ?_ CheckOutcome.noConfusion
    intro hok
    obtain ⟨-, htext⟩ := Prod.mk.inj (Except.ok.inj hok)
    have heq := name_injective (String.toList_inj.mp (List.append_cancel_left htext))
    rcases eq_of_checkOutcome_eq_wrong hcheck with rfl | rfl
    · exact hrefused.ne_project heq.symm
    · exact hrefused.ne_vendor heq.symm

/-- **Both classes answer the parser's error exactly when the catalogue has the names that the
parser had accepted.** -/
theorem keepsError_iff {server : MySql} {query : Text} {h base : HttpData} (hnul : nul ∉ query)
    (hnew : HttpData.new query = .ok h) (hparse : h.parseRecvBuf = .ok base)
    (hflag : base.sendflag = .kErrorFlag)
    (hserver : CatalogueSucceeds server (keptProjectid query base.errorcode)
      (keptVendorid query base.errorcode)) :
    KeepsError server query base.errorcode ↔
      HasRows (schemasFound server (keptProjectid query base.errorcode)) ∧
        HasRows (tablesFound server (keptProjectid query base.errorcode)
          (keptVendorid query base.errorcode)) :=
  (keepsError_iff_found hnul hnew hparse hflag).trans (checkOutcome_eq_found_iff hserver)

/-! ## A database with one project -/

/-- What the parser leaves of a query that it refuses. -/
theorem exists_refused {query : Text} {e : Errorcode} (hnul : nul ∉ query)
    (hfit : query.length < recvBufferLength) (herror : parseOutcome query = .error e) :
    ∃ h base, HttpData.new query = .ok h ∧ h.parseRecvBuf = .ok base ∧
      base.sendflag = .kErrorFlag ∧ base.errorcode = e := by
  have hspec := HttpData.parseRecvBuf_spec (HttpData.ofRecv ⟨query, hfit, hnul⟩)
  change HttpData.Parsed _ (parseOutcome query) _ at hspec
  rw [herror] at hspec
  generalize hbase : (HttpData.ofRecv ⟨query, hfit, hnul⟩).parseRecvBuf = x at hspec
  cases hspec with
  | error recvdatabuf payloadbuf sendflag errorcode =>
    exact ⟨_, _, HttpData.new_of_lt hnul hfit, hbase, sendflag, errorcode⟩

/-- A query that is refused for its STBID, with names that the database has. -/
def longStbidQuery : Text :=
  "Query=0&ProjectID=1&VendorID=2&STBID=".toList ++ List.replicate 33 'a'

theorem keepsError_longStbid :
    ∃ h base, HttpData.new longStbidQuery = .ok h ∧ h.parseRecvBuf = .ok base ∧
      base.errorcode = .kSTBIDTooLong ∧
      KeepsError (serverOf boxes) longStbidQuery base.errorcode := by
  obtain ⟨h, base, hnew, hparse, hflag, herror⟩ :=
    @exists_refused longStbidQuery .kSTBIDTooLong (by decide) (by decide) (by decide +kernel)
  have hproject : keptProjectid longStbidQuery base.errorcode = "1".toList := by
    rw [herror]
    decide +kernel
  have hvendor : keptVendorid longStbidQuery base.errorcode = "2".toList := by
    rw [herror]
    decide +kernel
  have hschemas : schemasFound (serverOf boxes) "1".toList = some ⟨1, 1⟩ := by decide +kernel
  have htables : tablesFound (serverOf boxes) "1".toList "2".toList = some ⟨1, 1⟩ := by
    decide +kernel
  refine ⟨h, base, hnew, hparse, herror, (keepsError_iff (by decide) hnew hparse hflag ?_).mpr ?_⟩
  · rw [hproject, hvendor]
    exact ⟨rfl, ⟨1, hschemas⟩, fun _ => rfl, fun _ => ⟨1, htables⟩⟩
  · rw [hproject, hvendor, hschemas, htables]
    exact ⟨hasRows_some.mpr Nat.one_ne_zero, hasRows_some.mpr Nat.one_ne_zero⟩

/-- A query without a project is refused, and the server says that the project is wrong. -/
theorem not_keepsError_noProject :
    ¬ ∀ (server : MySql) (query : Text) (h base : HttpData), nul ∉ query →
      HttpData.new query = .ok h → h.parseRecvBuf = .ok base → base.sendflag = .kErrorFlag →
      CatalogueSucceeds server (keptProjectid query base.errorcode)
        (keptVendorid query base.errorcode) → KeepsError server query base.errorcode := by
  intro hall
  obtain ⟨h, base, hnew, hparse, hflag, herror⟩ :=
    @exists_refused "Query=0".toList .kNoProjectID (by decide) (by decide) (by decide +kernel)
  have hschemas : schemasFound (serverOf boxes) [] = some ⟨0, 1⟩ := by decide +kernel
  have hnone : ¬ HasRows (schemasFound (serverOf boxes) []) := by
    rw [hschemas, hasRows_some]
    exact not_not.mpr rfl
  have hserver : CatalogueSucceeds (serverOf boxes) [] [] :=
    ⟨rfl, ⟨0, hschemas⟩, fun hrows => absurd hrows hnone, fun hrows => absurd hrows hnone⟩
  have hkeeps := hall (serverOf boxes) "Query=0".toList h base (by decide) hnew hparse hflag
    (by rw [herror]; exact hserver)
  rw [keepsError_iff_found (by decide) hnew hparse hflag, herror] at hkeeps
  exact hnone ((checkOutcome_eq_found_iff hserver).mp hkeeps).1

end MySqlHttpData

end AMSServer
