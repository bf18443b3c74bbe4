import AMSServer.HttpData.Lines
import AMSServer.HttpServer.Response

/-!
# What `DoRecv` makes of a message

The message is the text at the start of the buffer. `verdict` says what `DoRecv` decides about it,
and `doRecv_eq` that the calls it makes are those of the verdict: a complete `GET` message is
answered by one send and one new receive, unless the payload could not be built, and then the client
hears nothing.
-/

namespace AMSServer

open CRuntime Fields

namespace HttpServer

/-! ## The verdict -/

/-- What `DoRecv` decides about a message. -/
inductive Verdict
  /-- It is complete, without `GET`. -/
  | noGet
  /-- It does not end in an empty line. -/
  | incomplete
  /-- No payload could be built. -/
  | unanswered
  | answered (payload : Text)
  deriving DecidableEq

/-- The text scanned after the first `?` of a message. -/
def scanToken (message : Text) : Text := (sscanf (wordAfter '?') message).headD []

/-- The verdict for what `HttpData` answers. -/
def Verdict.ofAnswer : Option Text → Verdict
  | none => .unanswered
  | some payload => .answered payload

/-- The verdict about a complete message, after the line that logs it. -/
def completeVerdict (message : Text) : Except Fault Verdict :=
  if ¬ "GET".toList <:+: message then .ok .noGet
  else if ¬ (scanToken message).length < httpGetLength then .error .overrun
  else (answerText (parseOutcome (scanToken message))).map Verdict.ofAnswer

/-- The verdict about a message from `peer`. -/
def verdict (peer : SockAddrIn) (message : Text) : Except Fault Verdict :=
  if message.length < 4 then .error .overrun
  else if ¬ Http.blank <:+ message then .ok .incomplete
  else if ¬ (receiveLine peer message).length < oneLogLen then .error .overrun
  else completeVerdict message

/-- The io of a new receive. -/
def recvIoData : PerIOData := { PerIOData.new with operationtype := .recvPosted }

/-- The io of a send with a payload. -/
def sentIoData (payload : Text) : PerIOData where
  buf := IOBuf.ofText (responseText payload)
  len := bufferSize
  bytestransfer := 0
  operationtype := .sendPosted

/-- The calls for a verdict. An incomplete message is received on through a descriptor that is not
the io's. -/
def Verdict.calls (sends : Bool) : Verdict → Except Fault (Bool × List Call)
  | .noGet => .ok (false, [])
  | .incomplete => .error .overrun
  | .unanswered => .ok (true, [.wsaRecv recvIoData])
  | .answered payload => .ok (true,
      .wsaSend (sentIoData payload) ::
        (if sends then [.removeIOData (sentIoData payload), .wsaRecv recvIoData]
          else [.wsaRecv recvIoData]))

/-- A payload is short. -/
theorem length_answerText_le {o : ParseOutcome} {t : Text} (h : answerText o = .ok (some t)) :
    t.length ≤ 29 := by
  cases o with
  | nothing => cases h
  | error e =>
    cases h
    cases e <;> decide
  | auth f =>
    cases h
    unfold authText
    split
    · decide
    split
    · decide
    split
    · decide
    · decide
  | overrun => cases h

/-- What `PostSend` returns for what was built. -/
def sendCalls (sends : Bool) : Option Text → Bool × List Call
  | none => (false, [])
  | some payload => (sends, .wsaSend (sentIoData payload) ::
      if sends then [.removeIOData (sentIoData payload)] else [])

theorem calls_ofAnswer (sends : Bool) (answer : Option Text) :
    (Verdict.ofAnswer answer).calls sends =
      .ok (true, (sendCalls sends answer).2 ++ [.wsaRecv recvIoData]) := by
  cases answer with
  | none => rfl
  | some payload => cases sends <;> rfl

/-! ## The message -/

theorem strlen_eq {b : IOBuf} {n : ℕ} (h : b.strlen = .ok n) :
    nul ∈ b.chars ∧ b.text.length = n := by
  unfold IOBuf.strlen at h
  split at h
  · next hmem => exact ⟨hmem, Except.ok.inj h⟩
  · cases h

/-- A text with a terminator behind it is shorter than the buffer. -/
theorem length_text_lt {b : IOBuf} (h : nul ∈ b.chars) : b.text.length < bufferSize := by
  obtain ⟨t, ht⟩ := exists_eq_cstr_append h
  have hlen := congrArg List.length ht
  rw [b.length_eq, List.length_append, List.length_cons] at hlen
  change (cstr b.chars).length < bufferSize
  omega

/-- What `CheckRecvBufEnd` copies: the end of the message. -/
theorem strncpyS_end {b : IOBuf} (hnul : nul ∈ b.chars) (hlen : ¬ b.text.length < 4) :
    (CBuf.strncpyS 5 5 (b.chars.drop (b.text.length - 4)) 4).map (fun tempbuf =>
      decide (tempbuf.text = "\r\n\r\n".toList)) = .ok (Http.blank <:+ b.text) := by
  obtain ⟨t, ht⟩ := exists_eq_cstr_append hnul
  have hfree := nul_notMem_cstr b.chars
  obtain ⟨m, hm⟩ : ∃ m, b.text = m := ⟨_, rfl⟩
  have hchars : b.chars = m ++ nul :: t := by rw [← hm]; exact ht
  have hmnul : nul ∉ m := hm ▸ hfree
  rw [hm] at hlen ⊢
  have hlast : (cstr (b.chars.drop (m.length - 4))).take 4 = m.drop (m.length - 4) := by
    rw [hchars, List.drop_append_of_le_length (by omega),
      cstr_append_nul fun h => hmnul (List.mem_of_mem_drop h)]
    exact List.take_of_length_le (by rw [List.length_drop]; omega)
  have hlt : (m.drop (m.length - 4)).length < 5 := by rw [List.length_drop]; omega
  have hcopy : CBuf.strncpyS 5 5 (b.chars.drop (m.length - 4)) 4 =
      .ok ⟨m.drop (m.length - 4), hlt, fun h => hmnul (List.mem_of_mem_drop h)⟩ := by
    rw [CBuf.strncpyS_eq_ok, hlast]
    exact ⟨hlt, rfl⟩
  have hsuffix : Http.blank <:+ m ↔ m.drop (m.length - 4) = "\r\n\r\n".toList := by
    rw [List.suffix_iff_eq_drop, eq_comm]
    rfl
  rw [hcopy]
  simp only [Except.map, hsuffix]

section

variable {write : HttpData.Event → Except Fault Unit} (hw : HttpData.Accepts write)

include hw

/-- **`CheckRecvBufEnd` looks for the empty line at the end.** -/
theorem checkRecvBufEndWith_text {b : IOBuf} (hnul : nul ∈ b.chars) :
    checkRecvBufEndWith (.writing write) b.text.length b =
      if b.text.length < 4 then .error .overrun else .ok (Http.blank <:+ b.text) := by
  rw [checkRecvBufEndWith_eq hw]
  split
  · rfl
  · next hlen => exact strncpyS_end hnul hlen

/-! ## The answer -/

/-- **`PostSend` sends the payload that `HttpData` builds, if it builds one.** -/
theorem postSendWith_eq (sys : SysCalls) (peer : SockAddrIn) (io : PerIOData)
    (getbuf : CBuf httpGetLength) :
    ∃ h, HttpData.new getbuf.text = .ok h ∧
      postSendWith (.writing write) sys peer io.resetIOBuf h =
        (answerText (parseOutcome getbuf.text)).map (sendCalls sys.sendError.isNone) := by
  have hlt : getbuf.text.length < recvBufferLength := getbuf.text_lt.trans (by decide)
  refine ⟨_, HttpData.new_of_lt getbuf.nul_free hlt, ?_⟩
  have hget : getbuf.text.length < 256 := getbuf.text_lt
  rw [postSendWith, buildSendWith_eq hw rfl rfl,
    hw.handleHttpData_code (by change getbuf.text.length ≤ 900; omega)]
  cases ha : answerText (parseOutcome getbuf.text) with
  | error e =>
    rw [HttpData.handleHttpData_of_error rfl rfl ha]
    rfl
  | ok answer =>
    obtain ⟨h, hhandle, htext⟩ := HttpData.handleHttpData_of_ok
      (h := HttpData.ofRecv ⟨getbuf.text, hlt, getbuf.nul_free⟩) rfl rfl ha
    rw [hhandle, Except.map, ok_bind]
    cases answer with
    | none => exact (hw.dbug_bind (by decide) _).trans (hw.dbug_bind (by decide) _)
    | some payload =>
      obtain rfl : h.payloadbuf.text = payload := htext
      have hfree := nul_notMem_responseText h.payloadbuf.nul_free
      have hfit := length_responseText_lt h.payloadbuf.text_lt
      have hshort := length_responseText_le (length_answerText_le ha)
      dsimp only [Option.isSome_some]
      rw [if_neg (by decide), if_pos rfl, Effects.writing_lift, IOBuf.strlen_ofText hfree hfit,
        ok_bind, hw.dbug_bind (by decide)]
      cases sys.sendError with
      | some error =>
        exact hw.dbug_bind (failedLine_fits "WSASend() failed: " error (by decide)) _
      | none =>
        dsimp only
        rw [IOBuf.text_ofText hfree hfit, hw.dbug_bind (sendLine_fits peer (by omega)),
          hw.dbug_bind (by decide)]
        rfl

/-! ## `DoRecv` -/

/-- The new receive at the end of `DoRecv`. -/
theorem postNewRecvWith_eq (sys : SysCalls) (r : Bool × List Call) :
    postNewRecvWith (.writing write) sys r =
      .ok (if r.1 = false then (false, r.2) else (true, r.2 ++ [.wsaRecv recvIoData])) := by
  obtain ⟨goOn, calls⟩ := r
  rw [postNewRecvWith, postRecvWith_eq hw]
  cases goOn <;> rfl

/-- **What `DoRecv` does with a complete message**, after the line that logs it. -/
theorem doRecvCompleteWith_eq (sys : SysCalls) (peer : SockAddrIn) (io : PerIOData) :
    (doRecvCompleteWith (.writing write) sys peer io >>= postNewRecvWith (.writing write) sys) =
      write (.dbug (receiveLine peer io.buf.text)) >>= fun _ =>
        completeVerdict io.buf.text >>= Verdict.calls sys.sendError.isNone := by
  have hnul : nul ∉ io.buf.text := nul_notMem_cstr _
  rw [doRecvCompleteWith, HttpData.dbug, Effects.writing_emit, bind_assoc]
  refine bind_congr fun _ => ?_
  rw [completeVerdict]
  by_cases hget : "GET".toList <:+: io.buf.text
  swap
  · rw [if_pos (strstr_eq_none.mpr hget), if_pos hget, hw.dbug_bind (by decide), pure_bind,
      postNewRecvWith_eq hw]
    rfl
  rw [if_neg (strstr_eq_none.not.mpr (not_not.mpr hget)), if_neg (not_not.mpr hget)]
  dsimp only
  rw [Effects.writing_lift]
  rcases CBuf.scanInto_empty httpGetLength (wordAfter '?') hnul with
    ⟨getbuf, hscan, htext, hfit⟩ | ⟨hscan, hover⟩
  · obtain ⟨h, hnew, hpost⟩ := postSendWith_eq hw sys peer io getbuf
    change getbuf.text = scanToken io.buf.text at htext
    change (scanToken io.buf.text).length < httpGetLength at hfit
    have hget : getbuf.text.length < 256 := getbuf.text_lt
    rw [hscan, ok_bind, hw.dbug_bind (lineFits_append (by omega) (by decide) (by decide)),
      Effects.writing_lift, hnew, ok_bind, hpost, if_neg (not_not.mpr hfit), ← htext]
    cases answerText (parseOutcome getbuf.text) with
    | error e => rfl
    | ok answer =>
      have hpeer := length_peerText_le peer
      have hfailed : LineFits ("PostSend failed to ".toList ++ peerText peer ++ "\n".toList) :=
        lineFits_append (by omega) (by decide) (by decide)
      rw [Except.map, Except.map, ok_bind, ok_bind, calls_ofAnswer]
      obtain ⟨sent, calls⟩ := sendCalls sys.sendError.isNone answer
      dsimp only
      split
      · rw [hw.dbug_bind hfailed, pure_bind, postNewRecvWith_eq hw]
        rfl
      · rw [pure_bind, postNewRecvWith_eq hw]
        rfl
  · change httpGetLength ≤ (scanToken io.buf.text).length at hover
    rw [hscan, if_pos (not_lt.mpr hover)]
    rfl

/-- **`DoRecv`, for a log that takes the lines that fit.** -/
theorem doRecvWith_eq (sys : SysCalls) (peer : SockAddrIn) {io : PerIOData}
    (hnul : nul ∈ io.buf.chars) :
    doRecvWith (.writing write) sys peer io =
      if Http.blank <:+ io.buf.text then
        write (.dbug (receiveLine peer io.buf.text)) >>= fun _ =>
          completeVerdict io.buf.text >>= Verdict.calls sys.sendError.isNone
      else .error .overrun := by
  have hstr : io.buf.strlen = .ok io.buf.text.length := if_pos hnul
  have hdigits := length_toDigits_le (k := 4) (by decide)
    ((length_text_lt hnul).trans (by decide))
  rw [doRecvWith, Effects.writing_lift, hstr, ok_bind]
  dsimp only
  rw [hw.dbug_bind (lineFits_append (by omega) (by decide) (by decide)),
    checkRecvBufEndWith_text hw hnul]
  by_cases hlen : io.buf.text.length < 4
  · rw [if_pos hlen, if_neg fun hblank => absurd hblank.length_le (not_le.mpr hlen)]
    rfl
  rw [if_neg hlen, ok_bind]
  by_cases hblank : Http.blank <:+ io.buf.text
  · rw [if_pos hblank, if_pos (decide_eq_true hblank)]
    exact doRecvCompleteWith_eq hw sys peer { io with bytestransfer := io.buf.text.length }
  · rw [if_neg hblank, if_neg (by simpa using hblank), hw.dbug_bind (by decide),
      postRecvWith_eq hw, if_neg fun h0 : io.buf.text.length = 0 => hlen (by omega)]
    rfl

end

/-- `CheckRecvBufEnd` of the code -/
theorem checkRecvBufEnd_eq {b : IOBuf} (hnul : nul ∈ b.chars) :
    checkRecvBufEnd b.text.length b =
      if b.text.length < 4 then .error .overrun else .ok (Http.blank <:+ b.text) :=
  checkRecvBufEndWith_text HttpData.accepts_write hnul

theorem nul_notMem_receiveLine (peer : SockAddrIn) {message : Text} (h : nul ∉ message) :
    nul ∉ receiveLine peer message := by
  have hdigits : ∀ n, nul ∉ Nat.toDigits 10 n := fun n hn =>
    absurd (Http.isDigit_of_mem_toDigits hn) (by decide)
  intro hmem
  unfold receiveLine inetNtoa at hmem
  simp only [List.mem_append, List.mem_cons, hdigits, h, or_false, false_or] at hmem
  revert hmem
  decide

/-- **`DoRecv` makes the calls of its verdict.** -/
theorem doRecv_eq {io : PerIOData} (sys : SysCalls) (peer : SockAddrIn)
    (hnul : nul ∈ io.buf.chars) :
    doRecv sys peer io =
      verdict peer io.buf.text >>= Verdict.calls sys.sendError.isNone := by
  refine (doRecvWith_eq HttpData.accepts_write sys peer hnul).trans ?_
  rw [verdict]
  by_cases hblank : Http.blank <:+ io.buf.text
  swap
  · rw [if_neg hblank, if_pos hblank]
    split <;> rfl
  have hlen : ¬ io.buf.text.length < 4 := not_lt.mpr hblank.length_le
  rw [if_pos hblank, if_neg hlen, if_neg (not_not.mpr hblank)]
  have hfree : nul ∉ io.buf.text := nul_notMem_cstr _
  change amsDbugLog (receiveLine peer io.buf.text) >>= _ = _
  by_cases hlog : (receiveLine peer io.buf.text).length < oneLogLen
  · rw [amsDbugLog_of_lt hlog, ok_bind, if_neg (not_not.mpr hlog)]
  · rw [amsDbugLog_of_le (nul_notMem_receiveLine peer hfree) (not_lt.mp hlog), if_pos hlog]
    rfl

/-! ## A message in a new io -/

/-- A new io after the receive of a message. -/
def received (m : Text) : PerIOData := recvIoData.receive m

theorem strlen_received {m : Text} (hnul : nul ∉ m) (hlt : m.length < bufferSize) :
    (received m).buf.strlen = .ok m.length :=
  IOBuf.strlen_ofText hnul hlt

theorem text_received {m : Text} (hnul : nul ∉ m) (hlt : m.length < bufferSize) :
    (received m).buf.text = m :=
  IOBuf.text_ofText hnul hlt

theorem checkRecvBufEnd_received {m : Text} (hnul : nul ∉ m) (hlt : m.length < bufferSize)
    (hblank : Http.blank <:+ m) : checkRecvBufEnd m.length (received m).buf = .ok true := by
  have hcheck := checkRecvBufEnd_eq (strlen_eq (strlen_received hnul hlt)).1
  have hlen : 4 ≤ m.length := hblank.length_le
  rw [text_received hnul hlt] at hcheck
  rw [hcheck, if_neg (by omega), decide_eq_true hblank]

/-! ## One answer for each complete request -/

/-- The ios sent by some calls. -/
def sentOf (calls : List Call) : List PerIOData :=
  calls.filterMap fun
    | .wsaSend io => some io
    | _ => none

/-- `DoRecv` issues exactly one send, with a payload. -/
def AnswersOnce (peer : SockAddrIn) (io : PerIOData) : Prop :=
  ∃ result calls payload, doRecv .succeed peer io = .ok (result, calls) ∧ payload ≠ [] ∧
    sentOf calls = [sentIoData payload]

theorem sentOf_calls {sends : Bool} {v : Verdict} {r : Bool × List Call}
    (h : v.calls sends = .ok r) :
    (∃ payload, v = .answered payload ∧ sentOf r.2 = [sentIoData payload]) ∨
      ((∀ payload, v ≠ .answered payload) ∧ sentOf r.2 = []) := by
  cases v with
  | noGet => cases h; exact Or.inr ⟨nofun, rfl⟩
  | incomplete => cases h
  | unanswered => cases h; exact Or.inr ⟨nofun, rfl⟩
  | answered payload => cases h; exact Or.inl ⟨payload, rfl, by cases sends <;> rfl⟩

/-- The verdict on a complete `GET` message. -/
theorem verdict_of_get {peer : SockAddrIn} {m : Text} (hlen : ¬ m.length < 4)
    (hblank : Http.blank <:+ m) (hget : "GET".toList <:+: m) :
    verdict peer m =
      if (receiveLine peer m).length < oneLogLen ∧ (scanToken m).length < httpGetLength then
        (answerText (parseOutcome (scanToken m))).map Verdict.ofAnswer
      else .error .overrun := by
  rw [verdict, if_neg hlen, if_neg (not_not.mpr hblank)]
  by_cases hlog : (receiveLine peer m).length < oneLogLen
  · rw [if_neg (not_not.mpr hlog), completeVerdict, if_neg (not_not.mpr hget)]
    by_cases htoken : (scanToken m).length < httpGetLength
    · rw [if_neg (not_not.mpr htoken), if_pos ⟨hlog, htoken⟩]
    · rw [if_pos htoken, if_neg fun h => htoken h.2]
  · rw [if_pos hlog, if_neg fun h => hlog h.1]

/-- An answer is the payload that was built for the token of the message. -/
theorem answerText_of_answered {peer : SockAddrIn} {m payload : Text}
    (h : verdict peer m = .ok (.answered payload)) :
    answerText (parseOutcome (scanToken m)) = .ok (some payload) := by
  unfold verdict completeVerdict at h
  split_ifs at h
  · cases ha : answerText (parseOutcome (scanToken m)) with
    | error e =>
      rw [ha] at h
      cases h
    | ok a =>
      rw [ha] at h
      cases a with
      | none => cases h
      | some p =>
        cases h
        rfl
  · cases h
  · cases h

/-- A short query is answered unless nothing was decided. -/
theorem exists_answerText {query : Text} (h : query.length < 256) :
    ∃ a, answerText (parseOutcome query) = .ok a ∧
      (a = none ↔ parseOutcome query = .nothing) := by
  have hover := parseOutcome_ne_overrun h
  cases ho : parseOutcome query with
  | nothing => exact ⟨none, rfl, iff_of_true rfl rfl⟩
  | error e => exact ⟨_, rfl, iff_of_false nofun nofun⟩
  | auth f => exact ⟨_, rfl, iff_of_false nofun nofun⟩
  | overrun => exact absurd ho hover

/-- **A complete `GET` request is answered by exactly one send when the lines and the token fit
their buffers and the token asks for no activation.** -/
theorem answersOnce_iff {peer : SockAddrIn} {io : PerIOData} {n : ℕ}
    (hstrlen : io.buf.strlen = .ok n) (hcomplete : checkRecvBufEnd n io.buf = .ok true)
    (hget : "GET".toList <:+: io.buf.text) :
    AnswersOnce peer io ↔
      (receiveLine peer io.buf.text).length < oneLogLen ∧
      (scanToken io.buf.text).length < httpGetLength ∧
      ¬ (strnicmpEq (scanToken io.buf.text) "Activate=".toList "Activate=".length = true ∨
        (strnicmpEq (scanToken io.buf.text) "Query=".toList "Query=".length = true ∧
          queryType (scanToken io.buf.text) = "1".toList)) := by
  obtain ⟨hnul, rfl⟩ := strlen_eq hstrlen
  obtain ⟨hlen, hblank⟩ : ¬ io.buf.text.length < 4 ∧ Http.blank <:+ io.buf.text := by
    rw [checkRecvBufEnd_eq hnul] at hcomplete
    split at hcomplete
    · cases hcomplete
    · next hlen => exact ⟨hlen, of_decide_eq_true (Except.ok.inj hcomplete)⟩
  rw [AnswersOnce, doRecv_eq .succeed peer hnul, verdict_of_get hlen hblank hget]
  by_cases hfit : (receiveLine peer io.buf.text).length < oneLogLen ∧
      (scanToken io.buf.text).length < httpGetLength
  · obtain ⟨a, ha, hnone⟩ := exists_answerText hfit.2
    rw [if_pos hfit, ha, ← parseOutcome_eq_nothing_iff hfit.2, ← hnone]
    constructor
    · rintro ⟨result, calls, payload, hcalls, -, hsent⟩
      refine ⟨hfit.1, hfit.2, ?_⟩
      rintro rfl
      cases hcalls
      cases hsent
    · rintro ⟨-, -, ha'⟩
      obtain ⟨payload, rfl⟩ := Option.ne_none_iff_exists'.mp ha'
      exact ⟨true, _, payload, rfl, answerText_ne_nil ha, rfl⟩
  · rw [if_neg hfit]
    refine iff_of_false ?_ fun h => hfit ⟨h.1, h.2.1⟩
    rintro ⟨result, calls, payload, hcalls, -, -⟩
    cases hcalls

/-- A client on the same machine. -/
def localhost : SockAddrIn := ⟨(127, 0, 0, 1), 49152⟩

theorem answersOnce_get : AnswersOnce localhost (received "GET / HTTP/1.1\r\n\r\n".toList) := by
  have hnul : nul ∉ "GET / HTTP/1.1\r\n\r\n".toList := by decide
  have hlt : ("GET / HTTP/1.1\r\n\r\n".toList).length < bufferSize := by decide
  have htext := text_received hnul hlt
  refine (answersOnce_iff (strlen_received hnul hlt)
    (checkRecvBufEnd_received hnul hlt (by decide)) (by rw [htext]; decide)).mpr ?_
  rw [htext]
  decide

/-- A request for activation is complete, and no send answers it. -/
theorem not_answersOnce_activate :
    let m := "GET /?Activate=1 HTTP/1.1\r\n\r\n".toList
    checkRecvBufEnd m.length (received m).buf = .ok true ∧ "GET".toList <+: m ∧
      ¬ AnswersOnce localhost (received m) := by
  intro m
  have hnul : nul ∉ m := by decide
  have hlt : m.length < bufferSize := by decide
  have htext := text_received hnul hlt
  refine ⟨checkRecvBufEnd_received hnul hlt (by decide), by decide, ?_⟩
  rintro ⟨result, calls, payload, hcalls, -, hsent⟩
  have hverdict : verdict localhost m = .ok .unanswered := by decide
  rw [doRecv_eq .succeed localhost (strlen_eq (strlen_received hnul hlt)).1, htext,
    hverdict] at hcalls
  cases hcalls
  cases hsent

end HttpServer

end AMSServer
