import AMSServer.HttpServer.Answer

/-!
# Responses on the wire

A send transmits `databuf.len` bytes, and `ResetIOBuf` leaves `databuf.len` at the size of the whole
buffer. So every response is followed by the rest of its buffer (`decode_sentIoData`): a client that
reads `Content-Length` bytes gets the payload, and finds the zeros where the next response should
start.
-/

namespace AMSServer

open CRuntime Fields

namespace HttpServer

/-- The bytes are one response with this body, and nothing else. -/
def ExactResponse (bytes payload : Text) : Prop := Http.decode bytes = some (payload, [])

/-- The bytes of a send: the response, and zeros up to the size of the buffer. -/
theorem sent_sentIoData {payload : Text} (hlt : payload.length < payloadBufferLength) :
    (sentIoData payload).sent = responseText payload ++
      List.replicate (bufferSize - (responseText payload).length) nul := by
  have hchars := IOBuf.chars_ofText (length_responseText_lt hlt).le
  have hlen : (sentIoData payload).buf.chars.length ≤ (sentIoData payload).len :=
    (sentIoData payload).buf.length_eq.le
  rw [PerIOData.sent, List.take_of_length_le hlen]
  exact hchars

/-- **The bytes of a send decode to the payload, with zeros left over.** -/
theorem decode_sentIoData {payload : Text} (hlt : payload.length < payloadBufferLength) :
    Http.decode (sentIoData payload).sent =
      some (payload, List.replicate (bufferSize - (responseText payload).length) nul) := by
  rw [sent_sentIoData hlt]
  refine Http.decode_render (by decide) ?_ _ _
  simp only [List.mem_cons, List.not_mem_nil, or_false, forall_eq_or_imp, forall_eq]
  exact ⟨by decide, by decide⟩

/-- `DoRecv` sends the io of its verdict. -/
theorem verdict_of_sent {sys : SysCalls} {result : Bool} {peer : SockAddrIn}
    {io s : PerIOData} {calls : List Call} (h : doRecv sys peer io = .ok (result, calls))
    (hs : s ∈ sentOf calls) :
    ∃ payload, verdict peer io.buf.text = .ok (.answered payload) ∧ s = sentIoData payload := by
  have hnul : nul ∈ io.buf.chars := by
    rw [doRecv, doRecvWith, bind_eq_ok] at h
    obtain ⟨n, hn, -⟩ := h
    exact (strlen_eq hn).1
  rw [doRecv_eq sys peer hnul, bind_eq_ok] at h
  obtain ⟨v, hv, hcalls⟩ := h
  rcases sentOf_calls hcalls with ⟨payload, rfl, hsent⟩ | ⟨-, hsent⟩
  · rw [hsent, List.mem_singleton] at hs
    exact ⟨payload, hv, hs⟩
  · rw [hsent] at hs
    cases hs

/-- What `DoRecv` sends has a payload that `HttpData` built for the token of the message. -/
theorem exists_payload_of_sent {sys : SysCalls} {result : Bool} {peer : SockAddrIn}
    {io s : PerIOData} {calls : List Call} (h : doRecv sys peer io = .ok (result, calls))
    (hs : s ∈ sentOf calls) :
    ∃ payload, answerText (parseOutcome (scanToken io.buf.text)) = .ok (some payload) ∧
      s = sentIoData payload := by
  obtain ⟨payload, hverdict, hsent⟩ := verdict_of_sent h hs
  exact ⟨payload, answerText_of_answered hverdict, hsent⟩

/-- **No send of `DoRecv` is exactly one response**: the payload decodes, and bytes are left over.
-/
theorem not_exactResponse_of_sent {sys : SysCalls} {result : Bool} {peer : SockAddrIn}
    {io s : PerIOData} {calls : List Call} (h : doRecv sys peer io = .ok (result, calls))
    (hs : s ∈ sentOf calls) :
    (∃ payload surplus, answerText (parseOutcome (scanToken io.buf.text)) = .ok (some payload) ∧
      surplus ≠ [] ∧ Http.decode s.sent = some (payload, surplus)) ∧
      ∀ payload, ¬ ExactResponse s.sent payload := by
  obtain ⟨payload, hanswer, rfl⟩ := exists_payload_of_sent h hs
  have hlt := (answerText_fits hanswer).2
  have hdecode := decode_sentIoData hlt
  have hsurplus : List.replicate (bufferSize - (responseText payload).length) nul ≠ [] := by
    have hfit := length_responseText_lt hlt
    rw [Ne, List.replicate_eq_nil_iff]
    omega
  refine ⟨⟨payload, _, hanswer, hsurplus, hdecode⟩, fun p hexact => hsurplus ?_⟩
  rw [ExactResponse, hdecode] at hexact
  exact (Prod.mk.inj (Option.some.inj hexact)).2

/-- The calls of the shortest request. -/
theorem doRecv_get : doRecv .succeed localhost (received "GET / HTTP/1.1\r\n\r\n".toList) =
    .ok (true, [.wsaSend (sentIoData "ErrorCode=NoField".toList),
      .removeIOData (sentIoData "ErrorCode=NoField".toList), .wsaRecv recvIoData]) := by
  have hnul : nul ∉ "GET / HTTP/1.1\r\n\r\n".toList := by decide
  have hlt : ("GET / HTTP/1.1\r\n\r\n".toList).length < bufferSize := by decide
  have hverdict : verdict localhost "GET / HTTP/1.1\r\n\r\n".toList =
      .ok (.answered "ErrorCode=NoField".toList) := by decide
  rw [doRecv_eq .succeed localhost (strlen_eq (strlen_received hnul hlt)).1, text_received hnul hlt,
    hverdict]
  rfl

theorem decode_get_surplus : ∃ payload surplus, surplus ≠ [] ∧
    Http.decode (sentIoData "ErrorCode=NoField".toList).sent = some (payload, surplus) := by
  obtain ⟨payload, surplus, -, hne, hdecode⟩ :=
    (not_exactResponse_of_sent doRecv_get List.mem_cons_self).1
  exact ⟨payload, surplus, hne, hdecode⟩

/-- The answer to the shortest request is not exactly one response. -/
theorem not_exactResponse_get : ∃ calls s,
    doRecv .succeed localhost (received "GET / HTTP/1.1\r\n\r\n".toList) = .ok (true, calls) ∧
      sentOf calls = [s] ∧ ¬ ∃ payload, ExactResponse s.sent payload := by
  refine ⟨_, _, doRecv_get, rfl, ?_⟩
  rintro ⟨payload, hexact⟩
  rw [ExactResponse, decode_sentIoData (by decide)] at hexact
  have hfit := @length_responseText_lt "ErrorCode=NoField".toList (by decide)
  have hnil := (Prod.mk.inj (Option.some.inj hexact)).2
  rw [List.replicate_eq_nil_iff] at hnil
  omega

end HttpServer

end AMSServer
