import AMSServer.HttpData.State
import AMSServer.HttpServer.Response
import AMSServer.MySqlHttpData.Answer

/-!
# Every write is within its buffer

Three operations put out what has no bound of its own: the log, the details of a result, and the
digits of a number of rows. Here the first two put out nothing (`Event.silent`), and the array of
the digits holds any text. Whatever else is written, by the constructor, the parser,
`ConnectDatabase`, the builders and `BuildSend`, fits the buffer it is written to, for every text of
a client and every server (`buildSend_inBounds`): the parser bounds the values, a name has room for
its header and a value, a query for the names between quotes, and the buffer that is sent for the
fixed lines and any payload.

What `strcat_s` writes is the text and its terminator. The sizes it is told for the names are larger
than their arrays, so a run-time library that fills the rest of the size it is told would not stay
within them.
-/

namespace AMSServer

open CRuntime

namespace MySqlHttpData

/-! ## Without output -/

/-- Nothing is put out. -/
abbrev Event.silent : Effects Event Fault (Except Fault) := .writing fun _ => .ok ()

theorem makesCalls_silent : MakesCalls fun _ => .ok () := fun _ => rfl

theorem showQueryDetails_silent (result : MysqlRes) :
    showQueryDetailsWith Event.silent result = .ok () := by
  rw [makesCalls_silent.showQueryDetails_eq, ite_self]

variable (server : MySql) (itoa : Int → CBuf sumLength)

/-- An array of digits with any text. -/
def digits (n : Int) : Except Fault (CBuf sumLength) := .ok (itoa n)

/-- A header and an array of digits fit an empty payload. -/
theorem exists_append_digits {h : HttpData} (header : Text) (digits : CBuf sumLength)
    (hpay : h.payloadbuf.text = []) (hnul : nul ∉ header) (hlen : header.length ≤ 10) :
    ∃ h₁ h₂, h.append header = .ok h₁ ∧ h₁.append digits.text = .ok h₂ := by
  have hdigits : digits.text.length < 8 := digits.text_lt
  obtain ⟨b, hb, happend⟩ := HttpData.append_eq (h := h) hnul
    (by rw [hpay, payloadBufferLength, List.length_nil]; omega)
  obtain ⟨b', -, happend'⟩ := HttpData.append_eq (h := { h with payloadbuf := b }) digits.nul_free
    (by
      change b.text.length + digits.text.length < 1024
      rw [hb, hpay, List.nil_append]
      omega)
  exact ⟨_, _, happend, happend'⟩

theorem exists_appendAuthState (authstate : Int) {h : HttpData} (hpay : h.payloadbuf.text = []) :
    ∃ r, appendAuthStateWith Event.silent (digits itoa) authstate h = .ok r := by
  obtain ⟨h₁, h₂, happend, happend'⟩ :=
    exists_append_digits "AuthState=".toList (itoa authstate) hpay (by decide) (by decide)
  rw [appendAuthStateWith]
  split
  · exact ⟨_, rfl⟩
  · rw [Effects.writing_lift, happend, ok_bind, digits, Effects.writing_lift, ok_bind,
      Effects.writing_lift, happend']
    exact ⟨_, rfl⟩

theorem exists_buildQueryAuthPayLoadByStbId (databasename tablename : CBuf nameLength)
    {h : HttpData} (hpay : h.payloadbuf.text = []) :
    ∃ r, buildQueryAuthPayLoadByStbIdWith Event.silent (digits itoa) server databasename tablename
      h = .ok r := by
  obtain ⟨query, hquery, -⟩ := stbidQuery_eq tablename h.stbid
  rw [buildQueryAuthPayLoadByStbIdWith, Effects.writing_lift, hquery, ok_bind,
    makesCalls_silent.countRows_bind]
  cases server.result databasename.text query.text with
  | none => exact ⟨_, rfl⟩
  | some result =>
    dsimp only
    rw [showQueryDetails_silent, ok_bind]
    exact exists_appendAuthState itoa (rowsAsInt result) hpay

theorem exists_buildQueryAuthSumPayLoad (databasename tablename : CBuf nameLength)
    {h : HttpData} (hpay : h.payloadbuf.text = []) :
    ∃ r, buildQueryAuthSumPayLoadWith Event.silent (digits itoa) server databasename tablename h =
      .ok r := by
  obtain ⟨query, hquery, -⟩ := sumQuery_eq tablename
  rw [buildQueryAuthSumPayLoadWith, Effects.writing_lift, hquery, ok_bind,
    makesCalls_silent.countRows_bind]
  cases server.result databasename.text query.text with
  | none => exact ⟨_, rfl⟩
  | some result =>
    obtain ⟨h₁, h₂, happend, happend'⟩ :=
      exists_append_digits "AuthSum=".toList (itoa (rowsAsInt result)) hpay (by decide) (by decide)
    dsimp only
    rw [showQueryDetails_silent, ok_bind, Effects.writing_lift, happend, ok_bind, digits,
      Effects.writing_lift, ok_bind, Effects.writing_lift, happend']
    exact ⟨_, rfl⟩

/-- The builders do not fail on an empty payload. -/
theorem buildersWith_total (h : MySqlHttpData) {base : HttpData}
    (hpay : base.payloadbuf.text = []) :
    (buildersWith Event.silent (digits itoa) server h).Total base where
  sum := exists_buildQueryAuthSumPayLoad server itoa _ _ hpay
  stbid := exists_buildQueryAuthPayLoadByStbId server itoa _ _ hpay
  chipid := exists_of_map_eq_ok
    (HttpData.appendBuilder_eq (t := "AuthState=ChipId") hpay (by decide) (by decide))
  mac := exists_of_map_eq_ok
    (HttpData.appendBuilder_eq (t := "AuthState=Mac") hpay (by decide) (by decide))

/-- **`ConnectDatabase` does not fail with empty names**, and leaves the object as it was or an
error. -/
theorem exists_connectDatabase {h : MySqlHttpData} (hdatabase : h.databasename.text = [])
    (htable : h.tablename.text = []) :
    ∃ ok h', connectDatabaseWith Event.silent server h = .ok (ok, h') ∧
      (h'.toHttpData = h.toHttpData ∨
        ∃ e, e ≠ Errorcode.kNullError ∧ h'.toHttpData = h.setError e) := by
  obtain ⟨databasename, query, hdatabasename, -, hquery, -⟩ :=
    exists_schemaName h.projectid hdatabase
  obtain ⟨tablename, query', htablename, -, hquery', -⟩ := exists_tableName h.vendorid htable
  obtain ⟨use, huse⟩ := exists_useQuery databasename
  rw [connectDatabaseWith, makesCalls_silent.call_bind]
  split
  · exact ⟨_, _, rfl, Or.inl rfl⟩
  rw [Effects.writing_lift, hdatabasename, ok_bind]
  dsimp only
  rw [Effects.writing_lift, hquery, ok_bind, makesCalls_silent.lookFor_bind]
  cases server.result defaultDatabaseName.toList query.text with
  | none => exact ⟨_, _, rfl, Or.inl rfl⟩
  | some result =>
  dsimp only
  split
  · exact ⟨_, _, rfl, Or.inr ⟨_, by decide, rfl⟩⟩
  rw [showQueryDetails_silent, ok_bind, if_neg (by decide), Effects.writing_lift, huse, ok_bind,
    makesCalls_silent.call_bind]
  split
  · exact ⟨_, _, rfl, Or.inl rfl⟩
  rw [Effects.writing_lift, htablename, ok_bind, Effects.writing_lift, hquery', ok_bind,
    makesCalls_silent.lookFor_bind]
  cases server.result databasename.text query'.text with
  | none => exact ⟨_, _, rfl, Or.inl rfl⟩
  | some result =>
  dsimp only
  split
  · exact ⟨_, _, rfl, Or.inr ⟨_, by decide, rfl⟩⟩
  · rw [showQueryDetails_silent, ok_bind]
    exact ⟨_, _, rfl, Or.inl rfl⟩

/-- **`HandleHttpData` does not fail for a new object**, whatever the server answers. -/
theorem exists_handleHttpData {h : MySqlHttpData} (hflag : h.sendflag = .kNullFlag)
    (hpay : h.payloadbuf.text = []) (hdatabase : h.databasename.text = [])
    (htable : h.tablename.text = []) :
    ∃ r, handleHttpDataWith Event.silent (digits itoa) server h = .ok r := by
  obtain ⟨s, hs, hleft⟩ := HttpData.parseRecvBufLogged_returns hflag
  have hparse : h.toHttpData.parseRecvBufWith (Event.silent.comap .base) = .ok s :=
    (HttpData.map_parseRecvBufWith HttpData.Event.forgotten h.toHttpData).symm.trans hs
  have hempty : s.payloadbuf.text = [] := by rw [hleft.payloadbuf, hpay]
  obtain ⟨ok, h', hconnect, hbase⟩ := exists_connectDatabase server
    (h := { h with toHttpData := s }) hdatabase htable
  rw [handleHttpDataWith, hparse, ok_bind]
  dsimp only
  rw [hconnect, ok_bind]
  dsimp only
  split
  · exact ⟨_, rfl⟩
  rcases hbase with hbase | ⟨e, he, hbase⟩
  · rw [hbase]
    exact HttpData.accepts_silent.exists_buildPayLoad (buildersWith_total server itoa h' hempty)
      hleft.consistent hempty
  · rw [hbase]
    exact HttpData.accepts_silent.exists_buildPayLoad (buildersWith_total server itoa h' hempty)
      (HttpData.flagged_setError (h := s) rfl he).consistent hempty

/-- **`BuildSend` does not fail when `HandleHttpData` does not.** -/
theorem exists_buildSend {handle : Except Fault (Bool × HttpData)} (io : PerIOData)
    (h : ∃ r, handle = .ok r) :
    ∃ r, HttpServer.buildSendWith HttpData.Event.silent io.resetIOBuf handle = .ok r := by
  obtain ⟨r, rfl⟩ := h
  exact ⟨_, HttpServer.buildSendWith_eq HttpData.accepts_silent rfl rfl _⟩

/-- **No write is past its buffer and no size that a function is told is exceeded**, for every text
that fits, whatever the database answers: the two classes and `BuildSend` come to their end. -/
theorem buildSend_inBounds {comedata : Text} (hnul : nul ∉ comedata)
    (hfit : comedata.length < recvBufferLength) (io : PerIOData) :
    (∃ h r, HttpData.new comedata = .ok h ∧
      HttpServer.buildSendWith HttpData.Event.silent io.resetIOBuf
        (h.handleHttpDataWith HttpData.Event.silent) = .ok r) ∧
    ∀ (server : MySql) (itoa : Int → CBuf sumLength), ∃ h r, new comedata = .ok h ∧
      HttpServer.buildSendWith HttpData.Event.silent io.resetIOBuf
        (handleHttpDataWith Event.silent (digits itoa) server h) = .ok r := by
  have hbase := HttpData.new_of_lt hnul hfit
  obtain ⟨h, hnew, hdatabase, htable, hpay, -⟩ := new_of_lt hnul hfit
  have hflag : h.sendflag = .kNullFlag := by
    rw [new, hbase] at hnew
    cases hnew
    rfl
  constructor
  · obtain ⟨s, hs, hleft⟩ :=
      HttpData.parseRecvBufLogged_returns (h := HttpData.ofRecv ⟨comedata, hfit, hnul⟩) rfl
    have hempty : s.payloadbuf.text = [] := by rw [hleft.payloadbuf]; rfl
    obtain ⟨r', hr', -⟩ := HttpData.handleHttpDataLogged_returns hs hleft.consistent hempty
    have hmap := HttpData.map_handleHttpDataWith HttpData.Event.forgotten
      (HttpData.ofRecv ⟨comedata, hfit, hnul⟩)
    obtain ⟨r, hr⟩ := exists_buildSend io ⟨r', hmap.symm.trans hr'⟩
    exact ⟨_, r, hbase, hr⟩
  · intro server itoa
    obtain ⟨r, hr⟩ := exists_buildSend io
      (exists_handleHttpData server itoa hflag hpay hdatabase htable)
    exact ⟨h, r, hnew, hr⟩

theorem buildSend_inBounds_oneRow :
    ∃ h r, new "Query=0&ProjectID=1&VendorID=2&STBID=3".toList = .ok h ∧
      HttpServer.buildSendWith HttpData.Event.silent PerIOData.new.resetIOBuf
        (handleHttpDataWith Event.silent (digits fun _ => ⟨['1'], by decide, by decide⟩)
          ⟨true, fun _ => true, fun _ _ => some (some ⟨1, 1⟩)⟩ h) = .ok r :=
  (buildSend_inBounds (by decide) (by decide) .new).2 _ _

end MySqlHttpData

end AMSServer
