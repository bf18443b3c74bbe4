import AMSServer.MySqlHttpData.Catalogue

/-!
# The number of rows in an answer

Both builders that are overridden answer with the number of rows of a result. The number is kept in
an `int`, and its digits in an array of eight, terminator included. So the digits of the number are
appended to the payload exactly when it has at most seven of them, and the columns of the result fit
the arrays that print it (`appendsCount_iff`).
-/

namespace AMSServer

open CRuntime

namespace MySqlHttpData

/-! ## What the builders append -/

/-- The query for the total, as it is sent. -/
def selectAllText (tablename : CBuf nameLength) : Text := "SELECT * FROM ".toList ++ tablename.text

/-- The query for one box, as it is sent. -/
def selectBoxText (tablename : CBuf nameLength) (stbid : CBuf (stbidLength + 1)) : Text :=
  "SELECT * FROM ".toList ++ tablename.text ++ " WHERE stbid=".toList ++
    ('"' :: stbid.text ++ ['"'])

/-- What is appended to a payload, with `none` for `FALSE`. -/
def appended (payload : Text) (t : Option Text) : Bool × Text := (t.isSome, payload ++ t.getD [])

theorem map_appended_eq_ok {x : Except Fault (Option Text)} {payload t : Text} :
    x.map (appended payload) = .ok (true, payload ++ t) ↔ x = .ok (some t) := by
  cases x with
  | error e => simp [Except.map]
  | ok o => cases o <;> simp [Except.map, appended]

/-- **`BuildQueryAuthSumPayLoad` on a result.** -/
theorem buildQueryAuthSumPayLoad_of_result {server : MySql}
    {databasename tablename : CBuf nameLength} {h : HttpData} {result : MysqlRes}
    (hroom : h.payloadbuf.text.length + 18 ≤ payloadBufferLength)
    (hresult : server.result databasename.text (selectAllText tablename) = some result) :
    (buildQueryAuthSumPayLoad server databasename tablename h).map HttpData.result =
      (sumText (some result)).map (appended h.payloadbuf.text) := by
  obtain ⟨query, hquery, htext⟩ := sumQuery_eq tablename
  change query.text = selectAllText tablename at htext
  rw [buildQueryAuthSumPayLoad, buildQueryAuthSumPayLoadWith, Effects.writing_lift, hquery, ok_bind,
    makesCalls_write.countRows_bind, htext, hresult, sumText]
  change (showQueryDetails result >>= _).map _ = (showQueryDetails result >>= _).map _
  cases showQueryDetails result with
  | error e =>
    rw [error_bind, error_bind]
    rfl
  | ok u =>
    rw [ok_bind, ok_bind]
    dsimp only [Effects.writing_lift]
    refine (appendNumber_append (rowsAsInt result) hroom (by decide) (by decide)).trans ?_
    split <;> rfl

/-- **`BuildQueryAuthPayLoadByStbId` on a result.** -/
theorem buildQueryAuthPayLoadByStbId_of_result {server : MySql}
    {databasename tablename : CBuf nameLength} {h : HttpData} {result : MysqlRes}
    (hroom : h.payloadbuf.text.length + 18 ≤ payloadBufferLength)
    (hresult : server.result databasename.text (selectBoxText tablename h.stbid) = some result) :
    (buildQueryAuthPayLoadByStbId server databasename tablename h).map HttpData.result =
      (lookupText (some result)).map (appended h.payloadbuf.text) := by
  obtain ⟨query, hquery, htext⟩ := stbidQuery_eq tablename h.stbid
  change query.text = selectBoxText tablename h.stbid at htext
  rw [buildQueryAuthPayLoadByStbId, buildQueryAuthPayLoadByStbIdWith, Effects.writing_lift, hquery,
    ok_bind, makesCalls_write.countRows_bind, htext, hresult, lookupText]
  change (showQueryDetails result >>= _).map _ = (showQueryDetails result >>= _).map _
  cases showQueryDetails result with
  | error e =>
    rw [error_bind, error_bind]
    rfl
  | ok u =>
    rw [ok_bind, ok_bind]
    dsimp only
    rw [appendAuthStateWith, countText]
    split
    · simp [Except.map, pure, Except.pure, HttpData.result, appended]
    · dsimp only [Effects.writing_lift]
      refine (appendNumber_append (rowsAsInt result) hroom (by decide) (by decide)).trans ?_
      split <;> rfl

/-! ## The digits of the number -/

/-- The builder of the total returns `TRUE` and appends the digits of a number. -/
def AppendsSum (server : MySql) (databasename tablename : CBuf nameLength) (h : HttpData) (n : ℕ) :
    Prop :=
  (buildQueryAuthSumPayLoad server databasename tablename h).map HttpData.result =
    .ok (true, h.payloadbuf.text ++ ("AuthSum=".toList ++ Nat.toDigits 10 n))

/-- The builder for one box returns `TRUE` and appends the digits of a number. -/
def AppendsState (server : MySql) (databasename tablename : CBuf nameLength) (h : HttpData)
    (n : ℕ) : Prop :=
  (buildQueryAuthPayLoadByStbId server databasename tablename h).map HttpData.result =
    .ok (true, h.payloadbuf.text ++ ("AuthState=".toList ++ Nat.toDigits 10 n))

/-- The number of rows of a lookup is answered exactly for a result that can be counted. -/
theorem lookupText_eq_iff {result : MysqlRes} (hrows : 1 ≤ result.numRows) :
    lookupText (some result) =
      .ok (some ("AuthState=".toList ++ Nat.toDigits 10 result.numRows)) ↔ Countable result := by
  rw [lookupText_eq_some_iff, Countable, Sent]
  constructor
  · rintro ⟨⟨hfields, hpos, hlt⟩, hdigits⟩
    have heq := toDigits_injective (List.append_cancel_left hdigits)
    exact ⟨Or.inr hfields, by omega⟩
  · rintro ⟨hfields, hlt⟩
    have hint : rowsAsInt result = result.numRows := rowsAsInt_of_lt (by omega)
    rw [hint]
    exact ⟨⟨hfields.resolve_left (by omega), by omega, by omega⟩, rfl⟩

theorem appendsSum_iff {server : MySql} {databasename tablename : CBuf nameLength} {h : HttpData}
    {result : MysqlRes} (hroom : h.payloadbuf.text.length + 18 ≤ payloadBufferLength)
    (hresult : server.result databasename.text (selectAllText tablename) = some result) :
    AppendsSum server databasename tablename h result.numRows ↔ Countable result := by
  rw [AppendsSum, buildQueryAuthSumPayLoad_of_result hroom hresult, map_appended_eq_ok,
    sumText_eq_iff]

theorem appendsState_iff {server : MySql} {databasename tablename : CBuf nameLength} {h : HttpData}
    {result : MysqlRes} (hroom : h.payloadbuf.text.length + 18 ≤ payloadBufferLength)
    (hresult : server.result databasename.text (selectBoxText tablename h.stbid) = some result)
    (hrows : 1 ≤ result.numRows) :
    AppendsState server databasename tablename h result.numRows ↔ Countable result := by
  rw [AppendsState, buildQueryAuthPayLoadByStbId_of_result hroom hresult, map_appended_eq_ok,
    lookupText_eq_iff hrows]

/-- **The number of rows is appended exactly when it has at most seven digits** and the columns fit
the arrays that print a row, for any number of rows and any payload with room for the answer. -/
theorem appendsCount_iff (server : MySql) (databasename tablename : CBuf nameLength) {h : HttpData}
    (result : MysqlRes) (hroom : h.payloadbuf.text.length + 18 ≤ payloadBufferLength) :
    (server.result databasename.text (selectAllText tablename) = some result →
      (AppendsSum server databasename tablename h result.numRows ↔
        result.numRows < 10 ^ 7 ∧ (result.numRows = 0 ∨ result.numFields % 256 ≤ 20))) ∧
    (server.result databasename.text (selectBoxText tablename h.stbid) = some result →
      1 ≤ result.numRows →
      (AppendsState server databasename tablename h result.numRows ↔
        result.numRows < 10 ^ 7 ∧ (result.numRows = 0 ∨ result.numFields % 256 ≤ 20))) :=
  ⟨fun hresult => (appendsSum_iff hroom hresult).trans and_comm,
    fun hresult hrows => (appendsState_iff hroom hresult hrows).trans and_comm⟩

/-- A server that answers every query with one result. -/
def constantServer (result : MysqlRes) : MySql :=
  ⟨true, fun _ => true, fun _ _ => some (some result)⟩

/-- An object for an empty text. -/
def emptyData : HttpData := HttpData.ofRecv CBuf.empty

theorem appendsCount_three :
    AppendsSum (constantServer ⟨3, 2⟩) CBuf.empty CBuf.empty emptyData 3 ∧
      AppendsState (constantServer ⟨3, 2⟩) CBuf.empty CBuf.empty emptyData 3 := by
  have h := appendsCount_iff (constantServer ⟨3, 2⟩) CBuf.empty CBuf.empty (h := emptyData) ⟨3, 2⟩
    (by decide)
  exact ⟨(h.1 rfl).mpr (by decide), (h.2 rfl (by decide)).mpr (by decide)⟩

/-- Ten million rows are too many for the array of the digits. -/
theorem not_appendsCount_tenMillion :
    ¬ ∀ n < 2 ^ 64, AppendsSum (constantServer ⟨n, 1⟩) CBuf.empty CBuf.empty emptyData n := by
  intro hall
  have hsum := hall (10 ^ 7) (by decide)
  rw [@appendsSum_iff _ _ _ _ ⟨10 ^ 7, 1⟩ (by decide) rfl] at hsum
  exact absurd hsum.2 (by decide)

end MySqlHttpData

end AMSServer
