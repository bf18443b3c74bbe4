import AMSServer.Foundations.Http
import AMSServer.HttpData.Answer
import AMSServer.HttpServer.Basic

/-!
# The response

`BuildSend` appends a response to a buffer that was cleared before. `buildSend_eq` gives the buffer
it leaves: the response with the payload as its body (`responseText`), and zeros up to the end. The
payload is at most as long as `payloadbuf`, so the response always fits.
-/

namespace AMSServer

open CRuntime Fields

/-! ## Buffers that hold a text and zeros -/

namespace IOBuf

/-- The buffer with a text at its start and zeros after it. -/
def ofText (t : Text) : IOBuf := zero.write t

theorem chars_ofText {t : Text} (h : t.length ≤ bufferSize) :
    (ofText t).chars = t ++ List.replicate (bufferSize - t.length) nul := by
  have hlen : (t ++ List.replicate (bufferSize - t.length) nul).length = bufferSize := by
    simp only [List.length_append, List.length_replicate]
    omega
  change (t ++ (List.replicate bufferSize nul).drop t.length).take bufferSize = _
  rw [List.drop_replicate, List.take_of_length_le hlen.le]

theorem ofText_nil : ofText [] = zero := by
  rw [IOBuf.ext_iff, chars_ofText (by simp)]
  rfl

theorem text_ofText {t : Text} (hnul : nul ∉ t) (h : t.length < bufferSize) :
    (ofText t).text = t := by
  obtain ⟨n, hn⟩ : ∃ n, bufferSize - t.length = n + 1 := ⟨bufferSize - t.length - 1, by omega⟩
  rw [text, chars_ofText h.le, hn, List.replicate_succ, cstr_append_nul hnul]

theorem strlen_ofText {t : Text} (hnul : nul ∉ t) (h : t.length < bufferSize) :
    (ofText t).strlen = .ok t.length := by
  have hmem : nul ∈ (ofText t).chars := by
    rw [chars_ofText h.le]
    exact List.mem_append_right _ (List.mem_replicate.mpr ⟨by omega, rfl⟩)
  rw [strlen, if_pos hmem, text_ofText hnul h]

/-- Appending a text that fits. -/
theorem strcatS_ofText {t s : Text} (ht : nul ∉ t) (hs : nul ∉ s)
    (h : t.length + s.length < bufferSize) :
    (ofText t).strcatS bufferSize s = .ok (ofText (t ++ s)) := by
  rw [strcatS, text_ofText ht (by omega), cstr_of_notMem hs, if_pos h, if_pos h]
  refine congrArg Except.ok (IOBuf.ext ?_)
  obtain ⟨n, hn⟩ : ∃ n, bufferSize - (t ++ s).length = n + 1 :=
    ⟨bufferSize - (t ++ s).length - 1, by simp only [List.length_append]; omega⟩
  have hdrop : (ofText t).chars.drop (t ++ s ++ [nul]).length = List.replicate n nul := by
    have hn' : bufferSize - t.length - (t.length + s.length + 1 - t.length) = n := by
      rw [List.length_append] at hn
      omega
    rw [chars_ofText (by omega), List.drop_append, List.length_append, List.length_append,
      List.length_singleton, List.drop_of_length_le (by omega), List.nil_append,
      List.drop_replicate, hn']
  have hall : t ++ s ++ [nul] ++ (ofText t).chars.drop (t ++ s ++ [nul]).length =
      t ++ s ++ List.replicate (bufferSize - (t ++ s).length) nul := by
    rw [hdrop, hn, List.replicate_succ, List.append_assoc, List.singleton_append]
  have hfit : (t ++ s).length ≤ bufferSize := by rw [List.length_append]; omega
  rw [chars_ofText hfit, ← hall]
  apply List.take_of_length_le
  rw [hall, List.length_append, List.length_replicate]
  omega

end IOBuf

/-- Appending to an io whose buffer holds a text. -/
theorem PerIOData.strcat_ofText {io : PerIOData} (t s : Text) (hlen : io.len = bufferSize)
    (ht : nul ∉ t) (hs : nul ∉ s) (h : t.length + s.length < bufferSize) :
    { io with buf := IOBuf.ofText t }.strcat s = .ok { io with buf := IOBuf.ofText (t ++ s) } := by
  rw [strcat, hlen, IOBuf.strcatS_ofText ht hs h]
  rfl

namespace HttpServer

/-! ## The text of a response -/

/-- `HTTP/1.1 200 OK` -/
def statusLine : Http.Line :=
  ⟨"HTTP/1.1 200 OK".toList, by decide, by decide, by decide⟩

/-- `Content-Type: text/html` -/
def contentTypeLine : Http.Line :=
  ⟨"Content-Type: text/html".toList, by decide, by decide, by decide⟩

/-- The response with a payload. -/
def responseText (payload : Text) : Text := Http.render [statusLine, contentTypeLine] payload

theorem responseText_eq (payload : Text) :
    responseText payload = "HTTP/1.1 200 OK\r\nContent-Type: text/html\r\n".toList ++
      Http.contentLengthText payload.length ++ "\r\n\r\n".toList ++ payload := by
  have hlines : ∀ a b l : Http.Line, Http.head [a, b, l] ++ payload =
      a.text ++ Http.crlf ++ b.text ++ Http.crlf ++ l.text ++ (Http.crlf ++ Http.crlf) ++ payload :=
    fun a b l => by simp [Http.head]
  have hfixed : statusLine.text ++ Http.crlf ++ contentTypeLine.text ++ Http.crlf =
      "HTTP/1.1 200 OK\r\nContent-Type: text/html\r\n".toList := by decide
  rw [← hfixed]
  exact hlines statusLine contentTypeLine (Http.contentLengthLine payload.length)

theorem nul_notMem_contentLengthText (n : ℕ) : nul ∉ Http.contentLengthText n := by
  intro h
  rcases List.mem_append.mp h with h | h
  · exact absurd h (by decide)
  · exact absurd (Http.isDigit_of_mem_toDigits h) (by decide)

theorem nul_notMem_responseText {payload : Text} (h : nul ∉ payload) :
    nul ∉ responseText payload := by
  have hlength := nul_notMem_contentLengthText payload.length
  rw [responseText_eq]
  generalize Http.contentLengthText payload.length = t at hlength ⊢
  simp [h, hlength, nul]

/-- The length of a payload has at most four digits. -/
theorem length_contentLengthText_le {n : ℕ} (h : n < payloadBufferLength) :
    (Http.contentLengthText n).length ≤ 20 := by
  have hdigits : (Nat.toDigits 10 n).length ≤ 4 := by
    rw [Nat.length_toDigits_le_iff (by decide) (by decide)]
    exact h.trans (by decide)
  have hlength : (Http.contentLengthText n).length = 16 + (Nat.toDigits 10 n).length :=
    List.length_append
  omega

/-- Every response fits the buffer and leaves some of it. -/
theorem length_responseText_lt {payload : Text} (h : payload.length < payloadBufferLength) :
    (responseText payload).length < bufferSize := by
  have hlength := length_contentLengthText_le h
  have h1 : ("HTTP/1.1 200 OK\r\nContent-Type: text/html\r\n".toList).length = 42 := rfl
  have h2 : ("\r\n\r\n".toList).length = 4 := rfl
  have hsum : (responseText payload).length =
      42 + (Http.contentLengthText payload.length).length + 4 + payload.length := by
    rw [responseText_eq, List.length_append, List.length_append, List.length_append, h1, h2]
  rw [payloadBufferLength] at h
  rw [hsum, bufferSize]
  omega

theorem length_responseText_le {payload : Text} (h : payload.length ≤ 29) :
    (responseText payload).length ≤ 95 := by
  have hlength := length_contentLengthText_le (n := payload.length)
    (by rw [payloadBufferLength]; omega)
  have h1 : ("HTTP/1.1 200 OK\r\nContent-Type: text/html\r\n".toList).length = 42 := rfl
  have h2 : ("\r\n\r\n".toList).length = 4 := rfl
  rw [responseText_eq, List.length_append, List.length_append, List.length_append, h1, h2]
  omega

/-! ## `BuildSend` -/

/-- The lines that `BuildSend` writes before it handles the request. -/
def fixedLines : Text := "HTTP/1.1 200 OK\r\nContent-Type: text/html\r\n".toList

/-- The line with the length, formatted into its buffer. -/
theorem exists_sprintfS_contentLength {n : ℕ} (h : n < payloadBufferLength) :
    ∃ tmpBuf : CBuf 32, CBuf.sprintfS 32 32 ("Content-Length: ".toList ++ Nat.toDigits 10 n) =
      .ok tmpBuf ∧ tmpBuf.text = Http.contentLengthText n := by
  have hnul := nul_notMem_contentLengthText n
  have hlt : (Http.contentLengthText n).length < 32 :=
    (length_contentLengthText_le h).trans_lt (by decide)
  refine ⟨⟨Http.contentLengthText n, hlt, hnul⟩, ?_, rfl⟩
  rw [CBuf.sprintfS_eq_ok]
  change (cstr (Http.contentLengthText n)).length < 32 ∧ _ = cstr (Http.contentLengthText n)
  rw [cstr_of_notMem hnul]
  exact ⟨hlt, rfl⟩

/-- The payload is appended to the fixed lines, after its length. -/
theorem exists_strcat_payload {io : PerIOData} (hlen : io.len = bufferSize) {payload : Text}
    (hnul : nul ∉ payload) (hlt : payload.length < payloadBufferLength) :
    ∃ (tmpBuf : CBuf 32) (io₁ io₂ : PerIOData),
      CBuf.sprintfS 32 32 ("Content-Length: ".toList ++ Nat.toDigits 10 payload.length) =
        .ok tmpBuf ∧
      { io with buf := IOBuf.ofText fixedLines }.strcat tmpBuf.text = .ok io₁ ∧
      io₁.strcat "\r\n\r\n".toList = .ok io₂ ∧
      io₂.strcat payload = .ok { io with buf := IOBuf.ofText (responseText payload) } := by
  obtain ⟨tmpBuf, hprint, htext⟩ := exists_sprintfS_contentLength hlt
  have hresponse : responseText payload =
      fixedLines ++ tmpBuf.text ++ "\r\n\r\n".toList ++ payload := by
    rw [htext]
    exact responseText_eq payload
  have hfree := nul_notMem_responseText hnul
  have hfit := length_responseText_lt hlt
  rw [hresponse] at hfree hfit ⊢
  simp only [List.mem_append, not_or] at hfree
  simp only [List.length_append] at hfit
  have hlength := PerIOData.strcat_ofText fixedLines tmpBuf.text hlen hfree.1.1.1 tmpBuf.nul_free
    (by omega)
  have hblank := PerIOData.strcat_ofText (fixedLines ++ tmpBuf.text) "\r\n\r\n".toList hlen
    (by simp [hfree.1.1.1, hfree.1.1.2]) (by decide) (by simp only [List.length_append]; omega)
  have hpayload := PerIOData.strcat_ofText (fixedLines ++ tmpBuf.text ++ "\r\n\r\n".toList) payload
    hlen (by simp only [List.mem_append, not_or]; exact hfree.1) hnul
    (by simp only [List.length_append]; omega)
  exact ⟨tmpBuf, _, _, hprint, hlength, hblank, hpayload⟩

/-- **`BuildSend` writes the response with the payload that `HandleHttpData` built.** -/
theorem buildSendWith_eq {write : HttpData.Event → Except Fault Unit} (hw : HttpData.Accepts write)
    {io : PerIOData} (hbuf : io.buf = .zero) (hlen : io.len = bufferSize)
    (handle : Except Fault (Bool × HttpData)) :
    buildSendWith (.writing write) io handle = handle.map fun r =>
      (r.1, { io with buf := IOBuf.ofText (if r.1 then responseText r.2.payloadbuf.text
        else fixedLines) }) := by
  have h0 : io = { io with buf := IOBuf.ofText [] } := by rw [IOBuf.ofText_nil, ← hbuf]
  have hfixed : [] ++ "HTTP/1.1 200 OK".toList ++ "\r\n".toList ++
      "Content-Type: text/html".toList ++ "\r\n".toList = fixedLines := by decide
  rw [buildSendWith, h0]
  simp only [Effects.writing_lift]
  rw [PerIOData.strcat_ofText _ _ hlen (by decide) (by decide) (by decide), ok_bind,
    PerIOData.strcat_ofText _ _ hlen (by decide) (by decide) (by decide), ok_bind,
    PerIOData.strcat_ofText _ _ hlen (by decide) (by decide) (by decide), ok_bind,
    PerIOData.strcat_ofText _ _ hlen (by decide) (by decide) (by decide), ok_bind, hfixed]
  cases handle with
  | error e => rfl
  | ok r =>
    obtain ⟨ok, h⟩ := r
    rw [ok_bind]
    cases ok with
    | false => exact hw.dbug_bind (by decide) _
    | true =>
      obtain ⟨tmpBuf, io₁, io₂, hprint, hlength, hblank, hpayload⟩ :=
        exists_strcat_payload hlen h.payloadbuf.nul_free h.payloadbuf.text_lt
      dsimp only
      rw [if_neg (by decide), hprint, ok_bind, hlength, ok_bind, hblank, ok_bind, hpayload, ok_bind,
        hw.dbug_bind (by decide)]
      rfl

theorem buildSend_eq {io : PerIOData} (hbuf : io.buf = .zero) (hlen : io.len = bufferSize)
    (httpdata : HttpData) :
    buildSend io httpdata = httpdata.handleHttpData.map fun r =>
      (r.1, { io with buf := IOBuf.ofText (if r.1 then responseText r.2.payloadbuf.text
        else fixedLines) }) :=
  buildSendWith_eq HttpData.accepts_write hbuf hlen httpdata.handleHttpData

end HttpServer

end AMSServer
