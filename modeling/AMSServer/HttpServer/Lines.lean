import AMSServer.HttpServer.RecvEnd

/-!
# The log lines of a message

`DoRecv` and what it calls, with every line that they hand to `AMS_DBUG` recorded (`doRecvLogged`).
With `amsDbugLog` for the log this is `DoRecv` of the code (`run_doRecvLogged`).

`AMS_DBUG_LOG` tells `vsprintf_s` the length of the line that it is about to write, not that of its
buffer. Of the lines that `DoRecv` logs for a message, those for the query, its values and the
response are short. The line that repeats the whole message is not: it fits exactly when the
message, the address and the port leave it 26 characters, and a message without a terminator never
does (`logsFit_iff`).
-/

namespace AMSServer

open CRuntime Fields Logged

namespace HttpServer

/-- `DoRecv` with its lines -/
def doRecvLogged (sys : SysCalls) (peer : SockAddrIn) (io : PerIOData) : Dbug (Bool × List Call) :=
  doRecvWith HttpData.Event.logged sys peer io

/-! ## The methods under a map -/

section

variable {m n : Type → Type} [Monad m] [Monad n] {E : Effects HttpData.Event Fault m}
  {F : Effects HttpData.Event Fault n} (φ : Effects.Hom E F)

theorem map_checkRecvBufEndWith (k : ℕ) (b : IOBuf) :
    φ.map (checkRecvBufEndWith E k b) = checkRecvBufEndWith F k b := by
  rw [checkRecvBufEndWith, checkRecvBufEndWith]
  refine φ.emit_bind _ ?_
  split
  · exact φ.map_lift _
  · exact φ.lift_bind _ fun tempbuf => φ.emit_bind _ (φ.map_pure _)

theorem map_postRecvWith (sys : SysCalls) (io : PerIOData) :
    φ.map (postRecvWith E sys io) = postRecvWith F sys io := by
  rw [postRecvWith, postRecvWith]
  dsimp only
  split
  · cases sys.recvError with
    | none => exact φ.map_pure _
    | some error => exact φ.emit_bind _ (φ.map_pure _)
  · exact φ.map_lift _

theorem map_buildSendWith (io : PerIOData) {handle : m (Bool × HttpData)}
    {handle' : n (Bool × HttpData)} (h : φ.map handle = handle') :
    φ.map (buildSendWith E io handle) = buildSendWith F io handle' := by
  rw [buildSendWith, buildSendWith]
  refine φ.lift_bind _ fun io => φ.lift_bind _ fun io => φ.lift_bind _ fun io =>
    φ.lift_bind _ fun io => φ.bind_eq h fun r => ?_
  obtain ⟨ok, h⟩ := r
  dsimp only
  split
  · exact φ.emit_bind _ (φ.map_pure _)
  · exact φ.lift_bind _ fun tmpBuf => φ.lift_bind _ fun io => φ.lift_bind _ fun io =>
      φ.lift_bind _ fun io => φ.emit_bind _ (φ.map_pure _)

theorem map_postSendWith (sys : SysCalls) (peer : SockAddrIn) (io : PerIOData) (h : HttpData) :
    φ.map (postSendWith E sys peer io h) = postSendWith F sys peer io h := by
  rw [postSendWith, postSendWith]
  refine φ.bind_eq (map_buildSendWith φ _ (HttpData.map_handleHttpDataWith φ h)) fun r => ?_
  obtain ⟨ok, io⟩ := r
  dsimp only
  split
  · exact φ.emit_bind _ (φ.emit_bind _ (φ.map_pure _))
  refine φ.lift_bind _ fun _ => φ.emit_bind _ ?_
  cases sys.sendError with
  | some error => exact φ.emit_bind _ (φ.map_pure _)
  | none => exact φ.emit_bind _ (φ.emit_bind _ (φ.map_pure _))

theorem map_doRecvCompleteWith (sys : SysCalls) (peer : SockAddrIn) (io : PerIOData) :
    φ.map (doRecvCompleteWith E sys peer io) = doRecvCompleteWith F sys peer io := by
  rw [doRecvCompleteWith, doRecvCompleteWith]
  refine φ.emit_bind _ ?_
  split
  · exact φ.emit_bind _ (φ.map_pure _)
  refine φ.lift_bind _ fun getbuf => φ.emit_bind _ (φ.lift_bind _ fun httpdata =>
    φ.bind_eq (map_postSendWith φ sys peer _ httpdata) fun r => ?_)
  obtain ⟨sent, calls⟩ := r
  dsimp only
  split
  · exact φ.emit_bind _ (φ.map_pure _)
  · exact φ.map_pure _

theorem map_postNewRecvWith (sys : SysCalls) (r : Bool × List Call) :
    φ.map (postNewRecvWith E sys r) = postNewRecvWith F sys r := by
  obtain ⟨goOn, calls⟩ := r
  rw [postNewRecvWith, postNewRecvWith]
  split
  · exact φ.map_pure _
  · exact φ.bind_eq (map_postRecvWith φ sys .new) fun newCalls => φ.map_pure _

/-- **`DoRecv`, by what becomes of its output.** -/
theorem map_doRecvWith (sys : SysCalls) (peer : SockAddrIn) (io : PerIOData) :
    φ.map (doRecvWith E sys peer io) = doRecvWith F sys peer io := by
  rw [doRecvWith, doRecvWith]
  refine φ.lift_bind _ fun k => φ.emit_bind _ (φ.bind_eq (map_checkRecvBufEndWith φ k _) ?_)
  intro complete
  split
  · exact φ.bind_eq (map_doRecvCompleteWith φ sys peer _) (map_postNewRecvWith φ sys)
  · exact φ.emit_bind _ (φ.bind_eq (map_postRecvWith φ sys _) fun calls =>
      map_postNewRecvWith φ sys (true, calls))

end

/-- **With the log of the code the lines are those of `DoRecv`.** -/
theorem run_doRecvLogged (sys : SysCalls) (peer : SockAddrIn) (io : PerIOData) :
    (doRecvLogged sys peer io).run amsDbugLog = doRecv sys peer io :=
  map_doRecvWith HttpData.Event.written sys peer io

/-! ## Every line -/

theorem checkRecvBufEnd_writes (k : ℕ) (b : IOBuf) :
    Writes LineFits (checkRecvBufEndWith HttpData.Event.logged k b) := by
  refine (Writes.log (by decide)).bind fun _ _ => ?_
  split
  · exact Writes.lift (.error Fault.overrun)
  · refine (Writes.lift _).bind fun tempbuf _ => ?_
    have htemp := tempbuf.text_lt
    exact (Writes.log (lineFits_append (by omega) (by decide) (by decide))).bind
      fun _ _ => Writes.pure _

theorem postRecv_writes (sys : SysCalls) (io : PerIOData) :
    Writes LineFits (postRecvWith HttpData.Event.logged sys io) := by
  rw [postRecvWith]
  dsimp only
  split
  · cases sys.recvError with
    | none => exact Writes.pure _
    | some error =>
      exact (Writes.log (failedLine_fits "WSARecv() failed: " error (by decide))).bind
        fun _ _ => Writes.pure _
  · exact Writes.lift (.error Fault.overrun)

theorem postNewRecv_writes (sys : SysCalls) (r : Bool × List Call) :
    Writes LineFits (postNewRecvWith HttpData.Event.logged sys r) := by
  obtain ⟨goOn, calls⟩ := r
  rw [postNewRecvWith]
  split
  · exact Writes.pure _
  · exact (postRecv_writes sys _).bind fun _ _ => Writes.pure _

theorem buildSend_writes (io : PerIOData) {handle : Dbug (Bool × HttpData)}
    (h : Writes LineFits handle) :
    Writes LineFits (buildSendWith HttpData.Event.logged io handle) := by
  refine (Writes.lift _).bind fun io _ => (Writes.lift _).bind fun io _ =>
    (Writes.lift _).bind fun io _ => (Writes.lift _).bind fun io _ => h.bind fun r _ => ?_
  obtain ⟨ok, h⟩ := r
  dsimp only
  split
  · exact (Writes.log (by decide)).bind fun _ _ => Writes.pure _
  · refine (Writes.lift _).bind fun tmpBuf _ => (Writes.lift _).bind fun io _ =>
      (Writes.lift _).bind fun io _ => (Writes.lift _).bind fun io _ => ?_
    exact (Writes.log (by decide)).bind fun _ _ => Writes.pure _

theorem length_payload_le {h : HttpData} {r : Bool × HttpData} (hflag : h.sendflag = .kNullFlag)
    (hpay : h.payloadbuf.text = []) (hok : h.handleHttpData = .ok r) :
    r.2.payloadbuf.text.length ≤ 29 := by
  cases ha : answerText (parseOutcome h.recvdatabuf.text) with
  | error e => cases hok.symm.trans (HttpData.handleHttpData_of_error hflag hpay ha)
  | ok t =>
    obtain ⟨h', hhandle, htext⟩ := HttpData.handleHttpData_of_ok hflag hpay ha
    cases hok.symm.trans hhandle
    rw [htext]
    cases t with
    | none => exact Nat.zero_le _
    | some t => exact length_answerText_le ha

/-- What `BuildSend` leaves in a cleared buffer is short. -/
theorem length_buildSend_le {io : PerIOData} {h : HttpData} {r : Bool × PerIOData}
    (hbuf : io.buf = .zero) (hlen : io.len = bufferSize) (hflag : h.sendflag = .kNullFlag)
    (hpay : h.payloadbuf.text = []) (hok : buildSend io h = .ok r) :
    r.2.buf.text.length ≤ 95 := by
  rw [buildSend_eq hbuf hlen] at hok
  cases hhandle : h.handleHttpData with
  | error e =>
    rw [hhandle] at hok
    cases hok
  | ok r' =>
    rw [hhandle] at hok
    cases hok
    obtain ⟨ok, h'⟩ := r'
    have hshort : h'.payloadbuf.text.length ≤ 29 := length_payload_le hflag hpay hhandle
    change (IOBuf.ofText _).text.length ≤ 95
    cases ok with
    | false =>
      dsimp only
      rw [if_neg (by decide), text_ofText_eq_cstr (by decide)]
      exact (length_cstr_le _).trans (by decide)
    | true =>
      dsimp only
      rw [if_pos rfl, text_ofText_eq_cstr (length_responseText_lt h'.payloadbuf.text_lt)]
      exact (length_cstr_le _).trans (length_responseText_le hshort)

/-- A new object has no flag and an empty payload. -/
theorem new_cleared {comedata : Text} {h : HttpData} (hnew : HttpData.new comedata = .ok h) :
    h.sendflag = .kNullFlag ∧ h.payloadbuf.text = [] := by
  rw [HttpData.new, bind_eq_ok] at hnew
  obtain ⟨recvdatabuf, -, hok⟩ := hnew
  cases hok
  exact ⟨rfl, rfl⟩

/-- What is built for a short query is short. -/
theorem length_buildSendLogged_le {io : PerIOData} {h : HttpData} {r : Bool × PerIOData}
    (hlen : h.recvdatabuf.text.length ≤ 900) (hflag : h.sendflag = .kNullFlag)
    (hpay : h.payloadbuf.text = [])
    (hr : (buildSendWith HttpData.Event.logged { io.resetIOBuf with operationtype := .sendPosted }
      h.handleHttpDataLogged).result = .ok r) : r.2.buf.text.length ≤ 95 := by
  have hrun := map_buildSendWith HttpData.Event.written
    { io.resetIOBuf with operationtype := .sendPosted } h.run_handleHttpDataLogged
  rw [← run_eq_result fun line hline => (buildSend_writes _
    (HttpData.handleHttpDataLogged_writes hlen) line hline).amsDbugLog] at hr
  exact length_buildSend_le rfl rfl hflag hpay (hrun.symm.trans hr)

theorem postSend_writes (sys : SysCalls) (peer : SockAddrIn) (io : PerIOData) {h : HttpData}
    (hlen : h.recvdatabuf.text.length ≤ 900) (hflag : h.sendflag = .kNullFlag)
    (hpay : h.payloadbuf.text = []) :
    Writes LineFits (postSendWith HttpData.Event.logged sys peer io.resetIOBuf h) := by
  refine (buildSend_writes _ (HttpData.handleHttpDataLogged_writes hlen)).bind fun r hr => ?_
  obtain ⟨ok, sent⟩ := r
  have hsent : sent.buf.text.length ≤ 95 := length_buildSendLogged_le hlen hflag hpay hr
  dsimp only
  split
  · exact (Writes.log (by decide)).bind fun _ _ => (Writes.log (by decide)).bind
      fun _ _ => Writes.pure _
  refine (Writes.lift _).bind fun _ _ => (Writes.log (by decide)).bind fun _ _ => ?_
  cases sys.sendError with
  | some error =>
    exact (Writes.log (failedLine_fits "WSASend() failed: " error (by decide))).bind
      fun _ _ => Writes.pure _
  | none =>
    exact (Writes.log (sendLine_fits peer (by omega))).bind fun _ _ =>
      (Writes.log (by decide)).bind fun _ _ => Writes.pure _

/-- Only the line of the whole message may not fit. -/
theorem writes_doRecvCompleteWith (sys : SysCalls) (peer : SockAddrIn) (io : PerIOData) :
    Writes LineFits (doRecvCompleteWith HttpData.Event.logged sys peer io) ↔
      LineFits (receiveLine peer io.buf.text) := by
  constructor
  · intro h
    exact h _ (List.mem_append_left _ List.mem_cons_self)
  intro h
  refine (Writes.log h).bind fun _ _ => ?_
  split
  · exact (Writes.log (by decide)).bind fun _ _ => Writes.pure _
  refine (Writes.lift _).bind fun getbuf _ => ?_
  have hget : getbuf.text.length < 256 := getbuf.text_lt
  refine (Writes.log (lineFits_append (by omega) (by decide) (by decide))).bind fun _ _ => ?_
  refine (Writes.lift _).bind fun httpdata hnew => ?_
  obtain ⟨hflag, hpay⟩ := new_cleared hnew
  have htext := (HttpData.new_eq_ok getbuf.nul_free hnew).2
  refine (postSend_writes sys peer io (by rw [htext]; omega) hflag hpay).bind fun r _ => ?_
  obtain ⟨sent, calls⟩ := r
  dsimp only
  split
  · refine (Writes.log (lineFits_append ?_ (by decide) (by decide))).bind fun _ _ => Writes.pure _
    exact (length_peerText_le peer).trans (by decide)
  · exact Writes.pure _

/-- The end of a message is found as without the log. -/
theorem result_checkRecvBufEnd {b : IOBuf} (hnul : nul ∈ b.chars) :
    (checkRecvBufEndWith HttpData.Event.logged b.text.length b).result =
      if b.text.length < 4 then .error .overrun else .ok (Http.blank <:+ b.text) :=
  (map_checkRecvBufEndWith HttpData.Event.forgotten b.text.length b).trans
    (checkRecvBufEndWith_text HttpData.accepts_silent hnul)

/-- **Only the line of a complete message may not fit.** -/
theorem writes_doRecvLogged (sys : SysCalls) (peer : SockAddrIn) (io : PerIOData) :
    Writes LineFits (doRecvLogged sys peer io) ↔
      (nul ∈ io.buf.chars → Http.blank <:+ io.buf.text →
        LineFits (receiveLine peer io.buf.text)) := by
  rw [← writes_doRecvCompleteWith sys peer { io with bytestransfer := io.buf.text.length },
    doRecvLogged, doRecvWith]
  by_cases hnul : nul ∈ io.buf.chars
  swap
  · have hstr : io.buf.strlen = .error .overrun := if_neg hnul
    rw [hstr]
    exact iff_of_true (Writes.lift _) fun h => absurd h hnul
  have hstr : io.buf.strlen = .ok io.buf.text.length := if_pos hnul
  have hdigits := length_toDigits_le (k := 4) (by decide)
    ((length_text_lt hnul).trans (by decide))
  have hcheck := checkRecvBufEnd_writes io.buf.text.length io.buf
  have hresult := result_checkRecvBufEnd hnul
  have hlift : (HttpData.Event.logged.lift io.buf.strlen).result = .ok io.buf.text.length := hstr
  have hline : LineFits ("receive message len is ".toList ++
      Nat.toDigits 10 io.buf.text.length ++ ".\n".toList) :=
    lineFits_append (by omega) (by decide) (by decide)
  refine (writes_bind_ok (Writes.lift io.buf.strlen) hlift).trans ?_
  refine (writes_amsDbug_bind hline).trans ?_
  by_cases hlen : io.buf.text.length < 4
  · rw [if_pos hlen] at hresult
    refine iff_of_true ?_ fun _ hblank => absurd hblank.length_le (not_le.mpr hlen)
    exact hcheck.bind fun complete h => by
      rw [hresult] at h
      cases h
  rw [if_neg hlen] at hresult
  rw [writes_bind_ok hcheck hresult]
  by_cases hblank : Http.blank <:+ io.buf.text
  · rw [if_pos (decide_eq_true hblank)]
    exact (writes_bind_iff (postNewRecv_writes sys)).trans
      ⟨fun h _ _ => h, fun h => h hnul hblank⟩
  · rw [if_neg (by simp [hblank])]
    refine iff_of_true ?_ fun _ h => absurd h hblank
    exact (Writes.log (by decide)).bind fun _ _ => (postRecv_writes sys _).bind
      fun calls _ => postNewRecv_writes sys (true, calls)

/-- What `DoRecv` logs fits. A message without a terminator in its buffer does not: `strlen` reads
on, and so would the line that prints it. -/
structure LogsFit (sys : SysCalls) (peer : SockAddrIn) (io : PerIOData) : Prop where
  ends : ∃ n, io.buf.strlen = .ok n
  lines : Writes LineFits (doRecvLogged sys peer io)

/-- **What `DoRecv` logs fits exactly when the message ends in its buffer and is not complete, or
short** together with the address it comes from. -/
theorem logsFit_iff (sys : SysCalls) (peer : SockAddrIn) (io : PerIOData) :
    LogsFit sys peer io ↔ nul ∈ io.buf.chars ∧ (Http.blank <:+ io.buf.text →
      io.buf.text.length + (inetNtoa peer.sinAddr).length +
        (Nat.toDigits 10 peer.sinPort.val).length + 26 < oneLogLen) := by
  have hline : LineFits (receiveLine peer io.buf.text) ↔ io.buf.text.length +
      (inetNtoa peer.sinAddr).length + (Nat.toDigits 10 peer.sinPort.val).length + 26 <
        oneLogLen := by
    rw [LineFits, length_receiveLine]
    omega
  rw [← hline]
  constructor
  · rintro ⟨⟨n, hn⟩, hlines⟩
    have hnul := (strlen_eq hn).1
    exact ⟨hnul, (writes_doRecvLogged sys peer io).mp hlines hnul⟩
  · rintro ⟨hnul, hfits⟩
    exact ⟨⟨_, if_pos hnul⟩, (writes_doRecvLogged sys peer io).mpr fun _ => hfits⟩

/-- A complete `GET` with a header line of a thousand characters. -/
def longMessage : Text :=
  "GET / HTTP/1.1\r\nX: ".toList ++ List.replicate 1000 'a' ++ Http.blank

theorem length_longMessage : longMessage.length = 1023 := by
  have hsum : ∀ a b : Text, (a ++ List.replicate 1000 'a' ++ b).length =
      a.length + 1000 + b.length := by
    intro a b
    rw [List.length_append, List.length_append, List.length_replicate]
  exact hsum "GET / HTTP/1.1\r\nX: ".toList Http.blank

theorem nul_notMem_longMessage : nul ∉ longMessage := by
  have h1 : nul ∉ "GET / HTTP/1.1\r\nX: ".toList := by decide
  have h2 : nul ∉ Http.blank := by decide
  intro h
  rcases List.mem_append.mp h with h | h
  · rcases List.mem_append.mp h with h | h
    · exact h1 h
    · exact absurd (List.eq_of_mem_replicate h) (by decide)
  · exact h2 h

/-- The line of a long message is written past the log buffer. -/
theorem not_logsFit_longMessage :
    ¬ ∀ (sys : SysCalls) (peer : SockAddrIn) (m : Text), nul ∉ m → m.length < bufferSize →
      LogsFit sys peer (received m) := by
  intro hall
  have hlt : longMessage.length < bufferSize := by
    rw [length_longMessage]
    decide
  have hwrites := (hall ⟨none, none⟩ localhost longMessage nul_notMem_longMessage hlt).lines
  have htext := text_received nul_notMem_longMessage hlt
  rw [writes_doRecvLogged, htext] at hwrites
  have hfits := hwrites (strlen_eq (strlen_received nul_notMem_longMessage hlt)).1
    (List.suffix_append _ _)
  rw [LineFits, length_receiveLine, length_longMessage, oneLogLen] at hfits
  omega

end HttpServer

end AMSServer
