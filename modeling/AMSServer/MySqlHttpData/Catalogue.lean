import AMSServer.MySqlHttpData.Refusals

/-!
# The total over a catalogue

A server with a catalogue (`MySql.ServesCatalogue`) answers the statements about it literally, and
refuses a `SELECT` from a table that the schema in use does not have. A query for the total should
be answered with the number of rows of the vendor's table in the schema of the project, and with an
error when the schema, or that table in it, is missing (`sumAnswer`).

`ConnectDatabase` asks for the table by its name alone. So a table that only another schema has
passes the check, and the `SELECT` fails (`answersSum_iff`).
-/

namespace AMSServer

open CRuntime Sql

/-! ## The server -/

/-- A server with a catalogue, whose tables are known by what `SELECT *` gives. -/
structure MySql.ServesCatalogue (server : MySql) (c : Catalogue MysqlRes) : Prop where
  connects : server.realConnect = true
  selects : ∀ schema, server.selectDb schema = true ↔ schema ∈ c
  schemata : ∀ query name,
    readSelect query = some ⟨some "schema_name".toList, none, "SCHEMATA".toList,
      some ("schema_name".toList, name)⟩ →
    server.realQuery "information_schema".toList query = some (some ⟨c.schemaCount name, 1⟩)
  tables : ∀ schema query name,
    readSelect query = some ⟨some "table_name".toList, some "information_schema".toList,
      "TABLES".toList, some ("table_name".toList, name)⟩ →
    server.realQuery schema query = some (some ⟨c.tableCount name, 1⟩)
  rows : ∀ schema query name, readSelect query = some ⟨none, none, name, none⟩ → schema ∈ c →
    server.realQuery schema query = (c.table? schema name).map some

namespace MySqlHttpData

/-! ## What is meant -/

/-- The answer to a query for the total of a vendor in a project. -/
def sumAnswer (c : Catalogue MysqlRes) (projectid vendorid : Text) : Text :=
  if databaseNameOf projectid ∉ c then "ErrorCode=ProjectIDIsWrong".toList
  else
    match c.table? (databaseNameOf projectid) (tableNameOf vendorid) with
    | none => "ErrorCode=VendorIDIsWrong".toList
    | some table => "AuthSum=".toList ++ Nat.toDigits 10 table.numRows

/-- The object answers `TRUE` with what is meant. -/
def AnswersSum (server : MySql) (c : Catalogue MysqlRes) (query projectid vendorid : Text) : Prop :=
  (answer server query).map (fun r => (r.1, r.2.text)) = .ok (true, sumAnswer c projectid vendorid)

/-- The table can be printed and counted: its columns fit the arrays of `ShowQueryDetails`, and its
number of rows fits the array of the total. -/
def Countable (table : MysqlRes) : Prop :=
  (table.numRows = 0 ∨ table.numFields % 256 ≤ 20) ∧ table.numRows < 10 ^ 7

/-- The vendor's table can be counted if the project has it, and no schema has it otherwise. -/
def OwnTable (c : Catalogue MysqlRes) (projectid vendorid : Text) : Prop :=
  match c.table? (databaseNameOf projectid) (tableNameOf vendorid) with
  | none => ∀ schema, c.table? schema (tableNameOf vendorid) = none
  | some table => Countable table

/-! ## What the server says -/

section

variable {server : MySql} {c : Catalogue MysqlRes} (hserver : server.ServesCatalogue c)
  {projectid vendorid : Text}

include hserver

theorem schemasFound_eq (hproject : ∀ c ∈ projectid, c.isAlphanum = true) :
    schemasFound server projectid = some ⟨c.schemaCount (databaseNameOf projectid), 1⟩ := by
  have hread := readSelect_schemaSelect (plain_of_isAlphanum hproject)
  exact congrArg Option.join (hserver.schemata _ _ hread)

theorem tablesFound_eq (hvendor : ∀ c ∈ vendorid, c.isAlphanum = true) :
    tablesFound server projectid vendorid = some ⟨c.tableCount (tableNameOf vendorid), 1⟩ := by
  have hread := readSelect_tableSelect (plain_of_isAlphanum hvendor)
  exact congrArg Option.join (hserver.tables (databaseNameOf projectid) _ _ hread)

theorem result_sumSelect (hvendor : ∀ c ∈ vendorid, c.isAlphanum = true)
    (hschema : databaseNameOf projectid ∈ c) :
    server.result (databaseNameOf projectid) (sumSelect vendorid).text =
      c.table? (databaseNameOf projectid) (tableNameOf vendorid) := by
  have hname : ∀ d ∈ vendorid, nameChar d = true := by
    intro d hd
    simp [nameChar, hvendor d hd]
  have hread := readSelect_sumSelect hname
  rw [MySql.result, hserver.rows _ _ _ hread hschema]
  change ((c.table? (databaseNameOf projectid) (tableNameOf vendorid)).map some).join = _
  cases c.table? (databaseNameOf projectid) (tableNameOf vendorid) <;> rfl

/-- **The checks count names.** -/
theorem checkOutcome_eq_of_serves (hproject : ∀ c ∈ projectid, c.isAlphanum = true)
    (hvendor : ∀ c ∈ vendorid, c.isAlphanum = true) :
    checkOutcome server projectid vendorid =
      if c.schemaCount (databaseNameOf projectid) = 0 then .wrong .kProjectIDIsWrong
      else if c.tableCount (tableNameOf vendorid) = 0 then .wrong .kVendorIDIsWrong
      else .found := by
  apply checkOutcome_eq hserver.connects (schemasFound_eq hserver hproject)
  · intro hne
    rw [hserver.selects]
    exact not_not.mp (mt c.schemaCount_eq_zero.mpr hne)
  · exact fun _ => tablesFound_eq hserver hvendor

end

/-! ## The total -/

theorem bmod_of_lt {n : ℕ} (h : n < 2 ^ 31) : (n : Int).bmod (2 ^ 32) = n := by
  apply Int.bmod_eq_of_le <;> omega

theorem rowsAsInt_of_lt {result : MysqlRes} (h : result.numRows < 2 ^ 31) :
    rowsAsInt result = result.numRows :=
  bmod_of_lt h

/-- **The number of rows is answered exactly for a table that can be counted.** -/
theorem sumText_eq_iff {table : MysqlRes} :
    sumText (some table) = .ok (some ("AuthSum=".toList ++ Nat.toDigits 10 table.numRows)) ↔
      Countable table := by
  have hlen : (Nat.toDigits 10 table.numRows).length < sumLength ↔ table.numRows < 10 ^ 7 := by
    rw [sumLength, Nat.lt_succ_iff, Nat.length_toDigits_le_iff (by decide) (by decide)]
  have hsum : (if (intText (rowsAsInt table)).length < sumLength then
        Except.ok (some ("AuthSum=".toList ++ intText (rowsAsInt table)))
      else Except.error Fault.invalidParameter) =
        .ok (some ("AuthSum=".toList ++ Nat.toDigits 10 table.numRows)) ↔
      table.numRows < 10 ^ 7 := by
    constructor
    · intro h
      split at h
      next hfit =>
        rw [List.append_cancel_left (Option.some.inj (Except.ok.inj h))] at hfit
        exact hlen.mp hfit
      · cases h
    · intro hlt
      have hdigits : intText (rowsAsInt table) = Nat.toDigits 10 table.numRows := by
        rw [rowsAsInt_of_lt (by omega), intText, if_neg (by omega), Int.natAbs_natCast]
      rw [hdigits, if_pos (hlen.mpr hlt)]
  rw [sumText, showQueryDetails_eq, Countable]
  by_cases hzero : table.numRows = 0
  · rw [if_pos hzero, ok_bind, hsum, and_iff_right (Or.inl hzero)]
  rw [if_neg hzero]
  by_cases hfields : table.numFields % 256 ≤ 20
  · rw [if_pos hfields, ok_bind, hsum, and_iff_right (Or.inr hfields)]
  · rw [if_neg hfields, error_bind]
    exact iff_of_false (by simp) fun h => h.1.elim hzero hfields

/-- The names of a query for the total, and its answer. -/
theorem answer_of_sum (server : MySql) {query projectid vendorid : Text} (hnul : nul ∉ query)
    (hfit : query.length < recvBufferLength)
    (hparse : parseOutcome query = .auth ⟨projectid, vendorid, [], [], []⟩) :
    (answer server query).map (fun r => (r.1, r.2.text)) =
      (checkOutcome server projectid vendorid).answer
        ((sumText (server.result (databaseNameOf projectid) (sumSelect vendorid).text)).map
          fun t => (t.isSome, t.getD [])) := by
  obtain ⟨object, hnew, hdatabase, htable, hpay, hrecv⟩ := new_of_lt hnul hfit
  rw [← hrecv] at hparse
  rw [← handleHttpData_sum server hdatabase htable hpay hparse rfl, answer_result hnew]

/-- **The total is answered exactly when the vendor's table is looked for where it is**: the project
does not exist, or it has the table and it can be counted, or no schema has it. -/
theorem answersSum_iff {server : MySql} {c : Catalogue MysqlRes}
    (hserver : server.ServesCatalogue c) {query projectid vendorid : Text} (hnul : nul ∉ query)
    (hfit : query.length < recvBufferLength)
    (hparse : parseOutcome query = .auth ⟨projectid, vendorid, [], [], []⟩)
    (hproject : ∀ c ∈ projectid, c.isAlphanum = true)
    (hvendor : ∀ c ∈ vendorid, c.isAlphanum = true) :
    AnswersSum server c query projectid vendorid ↔
      (databaseNameOf projectid ∈ c → OwnTable c projectid vendorid) := by
  rw [AnswersSum, answer_of_sum server hnul hfit hparse,
    checkOutcome_eq_of_serves hserver hproject hvendor, sumAnswer]
  by_cases hschema : databaseNameOf projectid ∈ c
  · rw [if_neg (mt c.schemaCount_eq_zero.mp (not_not.mpr hschema)), if_neg (not_not.mpr hschema),
      imp_iff_right hschema, OwnTable, result_sumSelect hserver hvendor hschema]
    cases htable : c.table? (databaseNameOf projectid) (tableNameOf vendorid) with
    | none =>
      dsimp only
      rw [← c.tableCount_eq_zero]
      split
      next hzero => exact iff_of_true rfl hzero
      next hne => exact iff_of_false (by simp [CheckOutcome.answer, sumText, Except.map]) hne
    | some table =>
      have hne : c.tableCount (tableNameOf vendorid) ≠ 0 := by
        rw [Ne, c.tableCount_eq_zero]
        intro hnone
        rw [hnone] at htable
        cases htable
      dsimp only
      rw [if_neg hne, ← sumText_eq_iff]
      exact map_eq_true_iff
  · rw [if_pos (c.schemaCount_eq_zero.mpr hschema), if_pos hschema]
    exact iff_of_true rfl fun h => absurd h hschema

/-! ## A vendor with two projects -/

/-- The tables of project `1`. -/
def tablesOfOne : AList fun _ : Text => MysqlRes :=
  (AList.singleton "VendorID_2".toList ⟨5, 4⟩).insert "VendorID_3".toList ⟨7, 4⟩

/-- Vendor `2` works for project `1` alone, and vendor `3` for project `4` too. -/
def twoProjects : Catalogue MysqlRes :=
  (AList.singleton "ProjectID_1".toList tablesOfOne).insert "ProjectID_4".toList
    (AList.singleton "VendorID_3".toList ⟨9, 4⟩)

/-- A server with a catalogue, which refuses all other statements. -/
def serverOfCatalogue (c : Catalogue MysqlRes) : MySql where
  realConnect := true
  selectDb schema := decide (schema ∈ c)
  realQuery schema query :=
    match readSelect query with
    | some ⟨none, none, name, none⟩ => if schema ∈ c then (c.table? schema name).map some else none
    | some ⟨some _, none, _, some (_, name)⟩ => some (some ⟨c.schemaCount name, 1⟩)
    | some ⟨some _, some _, _, some (_, name)⟩ => some (some ⟨c.tableCount name, 1⟩)
    | _ => none

theorem serves_serverOfCatalogue (c : Catalogue MysqlRes) :
    (serverOfCatalogue c).ServesCatalogue c where
  connects := rfl
  selects schema := by simp [serverOfCatalogue]
  schemata query name hread := by simp [serverOfCatalogue, hread]
  tables schema query name hread := by simp [serverOfCatalogue, hread]
  rows schema query name hread hschema := by simp [serverOfCatalogue, hread, hschema]

/-- A query for the total of one vendor in one project. -/
def sumQueryText (projectid vendorid : Text) : Text :=
  "Query=0&ProjectID=".toList ++ projectid ++ "&VendorID=".toList ++ vendorid

theorem answersSum_ownTable :
    AnswersSum (serverOfCatalogue twoProjects) twoProjects
      (sumQueryText "4".toList "3".toList) "4".toList "3".toList := by
  have htable : twoProjects.table? (databaseNameOf "4".toList) (tableNameOf "3".toList) =
      some ⟨9, 4⟩ := by decide +kernel
  refine (answersSum_iff (serves_serverOfCatalogue twoProjects) (by decide) (by decide)
    (by decide +kernel) (by simp) (by simp)).mpr fun _ => ?_
  rw [OwnTable, htable]
  exact ⟨Or.inr (by decide), by decide⟩

/-- A vendor of another project passes the check, and no total is answered. -/
theorem not_answersSum_otherProject :
    ¬ ∀ (server : MySql) (c : Catalogue MysqlRes) (query projectid vendorid : Text),
      server.ServesCatalogue c → nul ∉ query → query.length < recvBufferLength →
      parseOutcome query = .auth ⟨projectid, vendorid, [], [], []⟩ →
      (∀ c ∈ projectid, c.isAlphanum = true) → (∀ c ∈ vendorid, c.isAlphanum = true) →
        AnswersSum server c query projectid vendorid := by
  intro hall
  have hparse : parseOutcome (sumQueryText "4".toList "2".toList) =
      .auth ⟨"4".toList, "2".toList, [], [], []⟩ := by decide +kernel
  have hanswers := hall (serverOfCatalogue twoProjects) twoProjects _ _ _
    (serves_serverOfCatalogue twoProjects) (by decide) (by decide) hparse (by simp) (by simp)
  rw [AnswersSum, answer_of_sum _ (by decide) (by decide) hparse] at hanswers
  have hrefused : (checkOutcome (serverOfCatalogue twoProjects) "4".toList "2".toList).answer
      ((sumText ((serverOfCatalogue twoProjects).result (databaseNameOf "4".toList)
        (sumSelect "2".toList).text)).map fun t => (t.isSome, t.getD [])) = .ok (false, []) := by
    decide +kernel
  rw [hrefused] at hanswers
  cases hanswers

end MySqlHttpData

end AMSServer
