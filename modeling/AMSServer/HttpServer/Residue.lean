import AMSServer.HttpServer.Framing

/-!
# No residue of the request

The io that received a request sends the response, and all of its buffer is sent. `ResetIOBuf`
clears the buffer before anything is built in it, so the bytes sent are the text that `BuildSend`
built and zeros (`sent_built`). They depend on the query token alone: two requests with the same
token get the same bytes, whatever else they contained and whatever their buffers held before
(`sent_residue_free`).
-/

namespace AMSServer

open CRuntime Fields

namespace HttpServer

/-- The io as `PostSend` hands it to `BuildSend`. -/
def postedIoData (io : PerIOData) : PerIOData :=
  { io.resetIOBuf with operationtype := .sendPosted }

/-- A token that is answered fits the buffer it is scanned into. -/
theorem length_scanToken_of_answered {peer : SockAddrIn} {m payload : Text}
    (h : verdict peer m = .ok (.answered payload)) : (scanToken m).length < httpGetLength := by
  unfold verdict completeVerdict at h
  split_ifs at h
  · assumption
  · cases h
  · cases h

theorem nul_notMem_scanToken {m : Text} (h : nul ∉ m) : nul ∉ scanToken m := by
  rw [scanToken]
  cases hs : sscanf (wordAfter '?') m with
  | nil => exact List.not_mem_nil
  | cons v vs =>
    have hin : v <:+: m := infix_of_mem_sscanf (by rw [hs]; exact List.mem_cons_self)
    exact fun hv => h (hin.subset hv)

/-- **What is sent is the text that `BuildSend` built, and zeros.** -/
theorem sent_built {token payload : Text} (io : PerIOData) (hnul : nul ∉ token)
    (hlt : token.length < httpGetLength)
    (hanswer : answerText (parseOutcome token) = .ok (some payload)) :
    ∃ httpdata built, HttpData.new token = .ok httpdata ∧
      buildSend (postedIoData io) httpdata = .ok (true, built) ∧
      (sentIoData payload).sent =
        built.buf.text ++ List.replicate (bufferSize - built.buf.text.length) nul := by
  have hfit : token.length < recvBufferLength := hlt.trans (by decide)
  obtain ⟨hfree, hshort⟩ := answerText_fits hanswer
  obtain ⟨h, hhandle, hpayload⟩ :=
    HttpData.handleHttpData_of_ok (h := HttpData.ofRecv ⟨token, hfit, hnul⟩) rfl rfl hanswer
  obtain rfl : h.payloadbuf.text = payload := hpayload
  have hbuild := @buildSend_eq (postedIoData io) rfl rfl (HttpData.ofRecv ⟨token, hfit, hnul⟩)
  rw [hhandle] at hbuild
  refine ⟨_, { postedIoData io with buf := IOBuf.ofText (responseText h.payloadbuf.text) },
    HttpData.new_of_lt hnul hfit, hbuild, ?_⟩
  have htext : (IOBuf.ofText (responseText h.payloadbuf.text)).text =
      responseText h.payloadbuf.text :=
    IOBuf.text_ofText (nul_notMem_responseText hfree) (length_responseText_lt hshort)
  dsimp only
  rw [htext]
  exact sent_sentIoData hshort

/-- **No residue of the request is sent.** The io is any one that holds the message at its start:
the bytes of a send are the text that `BuildSend` built for the query token, followed by zeros only.
So any two requests with the same token get the same bytes. -/
theorem sent_residue_free {sys : SysCalls} {result : Bool} {peer : SockAddrIn}
    {io s : PerIOData} {calls : List Call} (h : doRecv sys peer io = .ok (result, calls))
    (hs : s ∈ sentOf calls) :
    (∃ httpdata built, HttpData.new (scanToken io.buf.text) = .ok httpdata ∧
      buildSend (postedIoData io) httpdata = .ok (true, built) ∧
      s.sent = built.buf.text ++ List.replicate (s.len - built.buf.text.length) nul) ∧
    ∀ {sys' : SysCalls} {result' : Bool} {peer' : SockAddrIn} {io' s' : PerIOData}
      {calls' : List Call},
      doRecv sys' peer' io' = .ok (result', calls') → s' ∈ sentOf calls' →
      scanToken io'.buf.text = scanToken io.buf.text → s'.sent = s.sent := by
  obtain ⟨payload, hverdict, rfl⟩ := verdict_of_sent h hs
  have hanswer := answerText_of_answered hverdict
  refine ⟨sent_built io (nul_notMem_scanToken (nul_notMem_cstr _))
    (length_scanToken_of_answered hverdict) hanswer, ?_⟩
  intro sys' result' peer' io' s' calls' h' hs' htoken
  obtain ⟨payload', hanswer', rfl⟩ := exists_payload_of_sent h' hs'
  rw [htoken, hanswer] at hanswer'
  cases hanswer'
  rfl

/-- A request, and the same one with a header line. -/
def plainRequest : Text := "GET /?Query=9 HTTP/1.1\r\n\r\n".toList
def cookieRequest : Text := "GET /?Query=9 HTTP/1.1\r\nCookie: id=7\r\n\r\n".toList

/-- The calls for a message that is answered. -/
theorem doRecv_received {m payload : Text} (hnul : nul ∉ m) (hlt : m.length < bufferSize)
    (h : verdict localhost m = .ok (.answered payload)) :
    doRecv .succeed localhost (received m) = .ok (true, [.wsaSend (sentIoData payload),
      .removeIOData (sentIoData payload), .wsaRecv recvIoData]) := by
  rw [doRecv_eq .succeed localhost (strlen_eq (strlen_received hnul hlt)).1,
    text_received hnul hlt, h]
  rfl

/-- The cookie has no part in what is sent. -/
theorem sent_residue_free_cookie :
    ∃ s s' calls calls', doRecv .succeed localhost (received plainRequest) = .ok (true, calls) ∧
      doRecv .succeed localhost (received cookieRequest) = .ok (true, calls') ∧
      s ∈ sentOf calls ∧ s' ∈ sentOf calls' ∧ s'.sent = s.sent := by
  have hnul : nul ∉ plainRequest := by decide
  have hnul' : nul ∉ cookieRequest := by decide
  have hlt : plainRequest.length < bufferSize := by decide
  have hlt' : cookieRequest.length < bufferSize := by decide
  have hplain := @doRecv_received _ "ErrorCode=QueryNumberUndefine".toList hnul hlt (by decide)
  have hcookie := @doRecv_received _ "ErrorCode=QueryNumberUndefine".toList hnul' hlt' (by decide)
  refine ⟨_, _, _, _, hplain, hcookie, List.mem_cons_self, List.mem_cons_self, ?_⟩
  refine (sent_residue_free hplain List.mem_cons_self).2 hcookie List.mem_cons_self ?_
  rw [text_received hnul hlt, text_received hnul' hlt']
  decide

end HttpServer

end AMSServer
