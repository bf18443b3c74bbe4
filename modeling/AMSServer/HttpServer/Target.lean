import AMSServer.HttpServer.RecvEnd

/-!
# The target of a request

`DoRecv` does not read the request line. It takes a message for a `GET` when `GET` stands anywhere
in it, and the query to be the word after the first `?` of the message. So a request is taken for
what its request line says (`takenAs_iff`) only as long as the header lines and the target of
another method have no `GET` in them, and a `GET` request has a query or no `?` that a word follows:
a target that ends in `?` is answered for `HTTP/1.1`, and a target without a query for that of a
header line.
-/

namespace AMSServer

open CRuntime Fields

namespace HttpServer

/-! ## What is handed to `HttpData` -/

/-- The part of `DoRecv` for a complete message that reads it: the text that `HttpData` gets, or
nothing when the message is refused. -/
def getContext (peer : SockAddrIn) (connectiodata : PerIOData) : Except Fault (Option Text) := do
  amsDbugLog (receiveLine peer connectiodata.buf.text)
  if strstr connectiodata.buf.text "GET".toList = none then
    return none
  let getbuf : CBuf httpGetLength := CBuf.empty
  let getbuf ← getbuf.scanInto (wordAfter '?') connectiodata.buf.text
  return some getbuf.text

/-- `DoRecv` makes its `HttpData` of the context. -/
theorem doRecvComplete_eq_getContext (sys : SysCalls) (peer : SockAddrIn)
    (connectiodata : PerIOData) :
    doRecvComplete sys peer connectiodata = getContext peer connectiodata >>= fun
      | none => .ok (false, [])
      | some getbuf => do
        let httpdata ← HttpData.new getbuf
        let (_, calls) ← postSend sys peer connectiodata.resetIOBuf httpdata
        return (true, calls) := by
  rw [doRecvComplete, doRecvCompleteWith, HttpData.dbug_code, getContext]
  cases amsDbugLog (receiveLine peer connectiodata.buf.text) with
  | error e => rfl
  | ok _ =>
    rw [ok_bind, ok_bind]
    split
    · exact HttpData.dbug_code_bind (by decide) _
    dsimp only
    rw [HttpData.code_lift]
    cases (CBuf.empty : CBuf httpGetLength).scanInto (wordAfter '?') connectiodata.buf.text with
    | error e => rfl
    | ok getbuf =>
      have hget : getbuf.text.length < 256 := getbuf.text_lt
      have hpeer := length_peerText_le peer
      rw [ok_bind, HttpData.dbug_code_bind (lineFits_append (by omega) (by decide) (by decide))]
      refine bind_congr fun httpdata => bind_congr fun r => ?_
      obtain ⟨sent, calls⟩ := r
      dsimp only
      split
      · exact HttpData.dbug_code_bind (lineFits_append (by omega) (by decide) (by decide)) _
      · rfl

/-- **What `DoRecv` reads**, when its log line and the word fit their buffers. -/
theorem getContext_eq (peer : SockAddrIn) (io : PerIOData) :
    getContext peer io =
      if (receiveLine peer io.buf.text).length < oneLogLen then
        if "GET".toList <:+: io.buf.text then
          if (scanToken io.buf.text).length < httpGetLength then .ok (some (scanToken io.buf.text))
          else .error .overrun
        else .ok none
      else .error .overrun := by
  have hnul : nul ∉ io.buf.text := nul_notMem_cstr _
  rw [getContext]
  by_cases hlog : (receiveLine peer io.buf.text).length < oneLogLen
  · rw [amsDbugLog_of_lt hlog, ok_bind, if_pos hlog]
    by_cases hget : "GET".toList <:+: io.buf.text
    · rw [if_neg (strstr_eq_none.not.mpr (not_not.mpr hget)), if_pos hget]
      dsimp only
      rcases CBuf.scanInto_empty httpGetLength (wordAfter '?') hnul with
        ⟨getbuf, hscan, htext, hfit⟩ | ⟨hscan, hover⟩
      · change getbuf.text = scanToken io.buf.text at htext
        change (scanToken io.buf.text).length < httpGetLength at hfit
        rw [hscan, ok_bind, htext, if_pos hfit]
        rfl
      · change httpGetLength ≤ (scanToken io.buf.text).length at hover
        rw [hscan, if_neg (not_lt.mpr hover)]
        rfl
    · rw [if_pos (strstr_eq_none.mpr hget), if_neg hget]
      rfl
  · rw [amsDbugLog_of_le (nul_notMem_receiveLine peer hnul) (not_lt.mp hlog), if_neg hlog]
    rfl

/-- A message whose log line fits is a short one. -/
theorem length_le_receiveLine (peer : SockAddrIn) (message : Text) :
    message.length ≤ (receiveLine peer message).length :=
  (List.infix_append _ message _).length_le

theorem getContext_eq_none {peer : SockAddrIn} {io : PerIOData} :
    getContext peer io = .ok none ↔
      (receiveLine peer io.buf.text).length < oneLogLen ∧ ¬ "GET".toList <:+: io.buf.text := by
  rw [getContext_eq]
  constructor
  · intro h
    split_ifs at h with hlog hget
    exacts [absurd (Except.ok.inj h) (Option.some_ne_none _), ⟨hlog, hget⟩]
  · rintro ⟨hlog, hget⟩
    rw [if_pos hlog, if_neg hget]

/-- A context that fits is the word after the first `?` of the message. -/
theorem getContext_eq_some {peer : SockAddrIn} {io : PerIOData} {context : Text}
    (hfit : context.length < httpGetLength) :
    getContext peer io = .ok (some context) ↔
      (receiveLine peer io.buf.text).length < oneLogLen ∧ "GET".toList <:+: io.buf.text ∧
        scanToken io.buf.text = context := by
  rw [getContext_eq]
  constructor
  · intro h
    split_ifs at h with hlog hget htoken
    · exact ⟨hlog, hget, Option.some.inj (Except.ok.inj h)⟩
    · exact absurd (Except.ok.inj h).symm (Option.some_ne_none _)
  · rintro ⟨hlog, hget, rfl⟩
    rw [if_pos hlog, if_pos hget, if_pos hfit]

/-- `DoRecv` takes a message to be complete, and hands a text to `HttpData` or refuses it. -/
def TakenAs (peer : SockAddrIn) (io : PerIOData) (context : Option Text) : Prop :=
  (∃ n, recvEnd io.buf = .ok (n, true)) ∧ getContext peer io = .ok context

/-! ## A head in the buffer -/

/-- The text of a buffer is a start of what was received. -/
theorem prefix_text_ofText (bytes : Text) : (IOBuf.ofText bytes).text <+: bytes := by
  by_cases hlt : bytes.length < bufferSize
  · rw [text_ofText_eq_cstr hlt]
    exact List.takeWhile_prefix _
  · refine (List.takeWhile_prefix _).trans ?_
    change (bytes ++ (List.replicate bufferSize nul).drop bytes.length).take bufferSize <+: bytes
    rw [List.take_append_of_le_length (not_lt.mp hlt)]
    exact List.take_prefix _ _

/-- **A head is taken to be complete** exactly when it has no terminator in it and leaves room for
one. -/
theorem recvEnd_head {lines : List Http.Line} (hne : lines ≠ []) :
    (∃ n, recvEnd (IOBuf.ofText (Http.head lines)) = .ok (n, true)) ↔
      nul ∉ Http.head lines ∧ (Http.head lines).length < bufferSize := by
  constructor
  · rintro ⟨n, h⟩
    rw [recvEnd_eq] at h
    split at h
    next hread =>
      have hblank := of_decide_eq_true (Prod.mk.inj (Except.ok.inj h)).2
      have hwhole := Http.eq_head_of_suffix hne (prefix_text_ofText _) hblank
      rw [← hwhole]
      exact ⟨nul_notMem_cstr _, length_text_lt hread.1⟩
    · cases h
  · rintro ⟨hnul, hlt⟩
    have hblank := Http.blank_suffix_head hne
    have hend := (recvEnd_iff _).mpr ⟨hnul, hblank.length_le, hlt⟩
    rw [decide_eq_true hblank] at hend
    exact ⟨_, hend⟩

/-! ## Requests with any method -/

/-- `HTTP/1.minor` -/
def version (minor : Fin 10) : Text := "HTTP/1.".toList ++ [Nat.digitChar minor]

theorem version_all (minor : Fin 10) :
    (version minor).all (fun c => !isSpace c && c ≠ '?') = true := by
  revert minor
  decide

theorem version_clean {minor : Fin 10} {c : Char} (h : c ∈ version minor) :
    isSpace c = false ∧ c ≠ '?' := by
  simpa using List.all_eq_true.mp (version_all minor) c h

/-- The words of a request line have no end of a line in them. -/
theorem notMem_words {d : Char} (hd : isSpace d = true) (hspace : d ≠ ' ') {method target : Text}
    {minor : Fin 10} (hmethod : ∀ c ∈ method, isSpace c = false)
    (htarget : ∀ c ∈ target, isSpace c = false) :
    d ∉ method ++ ' ' :: (target ++ ' ' :: version minor) := by
  intro hmem
  rcases List.mem_append.mp hmem with h | h
  · exact absurd hd (Bool.eq_false_iff.mp (hmethod d h))
  rcases List.mem_cons.mp h with h | h
  · exact hspace h
  rcases List.mem_append.mp h with h | h
  · exact absurd hd (Bool.eq_false_iff.mp (htarget d h))
  rcases List.mem_cons.mp h with h | h
  · exact hspace h
  · exact absurd hd (Bool.eq_false_iff.mp (version_clean h).1)

/-- `METHOD target HTTP/1.minor` -/
def methodLine (method target : Text) (minor : Fin 10) (hmethod : ∀ c ∈ method, isSpace c = false)
    (htarget : ∀ c ∈ target, isSpace c = false) : Http.Line where
  text := method ++ ' ' :: (target ++ ' ' :: version minor)
  nonempty := List.append_ne_nil_of_right_ne_nil _ (List.cons_ne_nil _ _)
  noCR := notMem_words (by decide) (by decide) hmethod htarget
  noLF := notMem_words (by decide) (by decide) hmethod htarget

/-- The part of a text after its first `?`. -/
def queryOf (s : Text) : Text := (s.dropWhile (· ≠ '?')).tail

theorem queryOf_append_cons {a : Text} (ha : '?' ∉ a) (q : Text) : queryOf (a ++ '?' :: q) = q := by
  rw [queryOf, dropWhile_ne_append ha, List.tail_cons]

theorem queryOf_append {a : Text} (ha : '?' ∉ a) (s : Text) : queryOf (a ++ s) = queryOf s := by
  rw [queryOf, List.dropWhile_append_of_pos, queryOf]
  intro c hc
  simpa using ne_of_mem_of_not_mem hc ha

theorem queryOf_eq_nil {s : Text} (hs : '?' ∉ s) : queryOf s = [] := by
  have h := queryOf_append hs []
  rwa [List.append_nil] at h

/-- A complete HTTP request with a short query. -/
structure AnyRequest where
  method : Text
  target : Text
  minor : Fin 10
  fields : List Http.Line
  method_clean : ∀ c ∈ method, isSpace c = false
  target_clean : ∀ c ∈ target, isSpace c = false
  query_short : (queryOf target).length < httpGetLength

namespace AnyRequest

/-- The lines of a request. -/
def lines (r : AnyRequest) : List Http.Line :=
  methodLine r.method r.target r.minor r.method_clean r.target_clean :: r.fields

/-- The text of a request. -/
def text (r : AnyRequest) : Text := Http.head r.lines

/-- What the request line asks for: a `GET` with the query of the target, or no `GET`. -/
def context (r : AnyRequest) : Option Text :=
  if r.method = "GET".toList then some (queryOf r.target) else none

/-- The text after the target. -/
def rest (r : AnyRequest) : Text :=
  version r.minor ++ (Http.crlf ++ (Http.linesText r.fields ++ Http.crlf))

theorem text_eq (r : AnyRequest) : r.text = (r.method ++ ' ' :: r.target) ++ ' ' :: r.rest := by
  rw [text, lines, Http.head, Http.linesText_cons, methodLine, rest]
  simp only [List.append_assoc, List.cons_append]

/-- A request is taken to be complete when no terminator is in it and there is room for one. -/
theorem recvEnd_received (r : AnyRequest) :
    (∃ n, recvEnd (received r.text).buf = .ok (n, true)) ↔
      nul ∉ r.text ∧ r.text.length < bufferSize :=
  recvEnd_head (List.cons_ne_nil _ _)

/-- A `GET` request has `GET` in it. -/
theorem get_infix {r : AnyRequest} (h : r.method = "GET".toList) : "GET".toList <:+: r.text := by
  rw [text_eq, h, List.append_assoc]
  exact (List.prefix_append _ _).isInfix

/-! ## The word after the first `?` -/

/-- The word that `DoRecv` scans of a `GET` request. -/
theorem scanToken_text {r : AnyRequest} (h : r.method = "GET".toList) :
    scanToken r.text = firstWord (queryOf r.text) := by
  have hcons : ∃ s, r.text = 'G' :: s := ⟨_, by rw [text_eq, h]; rfl⟩
  obtain ⟨s, hs⟩ := hcons
  rw [hs]
  exact headD_sscanf_wordAfter (by decide) s

/-- The version of a request is a word. -/
theorem firstWord_rest_ne (r : AnyRequest) : firstWord r.rest ≠ [] := by
  intro h
  have hmem : 'H' ∈ version r.minor := List.mem_append_left _ (by decide)
  exact absurd (firstWord_eq_nil.mp h 'H' (List.mem_append_left _ hmem)) (by decide)

/-- With a `?` in the target, the word is the query, or else the version. -/
theorem scanToken_of_mem {r : AnyRequest} (h : r.method = "GET".toList) (hq : '?' ∈ r.target) :
    scanToken r.text = queryOf r.target ↔ queryOf r.target ≠ [] := by
  obtain ⟨a, q, htarget, ha⟩ := List.eq_append_cons_of_mem hq
  have hpath : '?' ∉ "GET".toList ++ ' ' :: a := by
    rw [List.mem_append, List.mem_cons, not_or, not_or]
    exact ⟨by decide, by decide, ha⟩
  have htext : r.text = ("GET".toList ++ ' ' :: a) ++ '?' :: (q ++ ' ' :: r.rest) := by
    rw [text_eq, h, htarget]
    simp only [List.append_assoc, List.cons_append]
  rw [scanToken_text h, htext, queryOf_append_cons hpath, htarget, queryOf_append_cons ha]
  constructor
  · rintro hword rfl
    exact r.firstWord_rest_ne hword
  · intro hne
    refine firstWord_append hne (fun c hc => r.target_clean c ?_) rfl _
    rw [htarget]
    exact List.mem_append_right _ (List.mem_cons_of_mem _ hc)

/-- Without a `?` in the target, the word is looked for in the header lines. -/
theorem scanToken_of_notMem {r : AnyRequest} (h : r.method = "GET".toList) (hq : '?' ∉ r.target) :
    scanToken r.text = queryOf r.target ↔
      ∀ c ∈ queryOf (Http.linesText r.fields), isSpace c = true := by
  have hline : '?' ∉ r.method ++ ' ' :: r.target := by
    have hget : '?' ∉ "GET".toList := by decide
    rw [List.mem_append, List.mem_cons, not_or, not_or]
    exact ⟨h ▸ hget, by decide, hq⟩
  have hversion : '?' ∉ ' ' :: version r.minor := by
    rw [List.mem_cons, not_or]
    exact ⟨by decide, fun hmem => (version_clean hmem).2 rfl⟩
  rw [scanToken_text h, text_eq, queryOf_append hline, rest, ← List.cons_append,
    queryOf_append hversion, queryOf_append (by decide), queryOf_eq_nil hq, firstWord_eq_nil]
  by_cases hfields : '?' ∈ Http.linesText r.fields
  · obtain ⟨a, q, hlines, ha⟩ := List.eq_append_cons_of_mem hfields
    rw [hlines, List.append_assoc, List.cons_append, queryOf_append_cons ha,
      queryOf_append_cons ha]
    refine ⟨fun hall c hc => hall c (List.mem_append_left _ hc), fun hall c hc => ?_⟩
    rcases List.mem_append.mp hc with hc | hc
    · exact hall c hc
    · exact List.all_eq_true.mp (by decide : Http.crlf.all isSpace = true) c hc
  · rw [queryOf_append hfields, queryOf_eq_nil hfields, queryOf_eq_nil (by decide)]

/-- The searches of `DoRecv` find what the request line says. -/
def ReadAsMeant (r : AnyRequest) : Prop :=
  if r.method = "GET".toList then
    if '?' ∈ r.target then queryOf r.target ≠ []
    else ∀ c ∈ queryOf (Http.linesText r.fields), isSpace c = true
  else ¬ "GET".toList <:+: r.text

theorem scanToken_eq_query_iff {r : AnyRequest} (h : r.method = "GET".toList) :
    scanToken r.text = queryOf r.target ↔ r.ReadAsMeant := by
  rw [ReadAsMeant, if_pos h]
  split
  · next hq => exact scanToken_of_mem h hq
  · next hq => exact scanToken_of_notMem h hq

end AnyRequest

/-- **A request is taken for what its request line says** exactly when it has no terminator in it,
its log line fits, and the searches find what the request line says. -/
theorem takenAs_iff (peer : SockAddrIn) (r : AnyRequest) :
    TakenAs peer (received r.text) r.context ↔
      nul ∉ r.text ∧ (receiveLine peer r.text).length < oneLogLen ∧ r.ReadAsMeant := by
  constructor
  · rintro ⟨hend, hcontext⟩
    obtain ⟨hnul, hlt⟩ := r.recvEnd_received.mp hend
    rw [AnyRequest.context] at hcontext
    split at hcontext
    · next hget =>
      obtain ⟨hlog, -, htoken⟩ := (getContext_eq_some r.query_short).mp hcontext
      rw [text_received hnul hlt] at hlog htoken
      exact ⟨hnul, hlog, (AnyRequest.scanToken_eq_query_iff hget).mp htoken⟩
    · next hget =>
      obtain ⟨hlog, hnone⟩ := getContext_eq_none.mp hcontext
      rw [text_received hnul hlt] at hlog hnone
      refine ⟨hnul, hlog, ?_⟩
      rw [AnyRequest.ReadAsMeant, if_neg hget]
      exact hnone
  · rintro ⟨hnul, hlog, hread⟩
    have hlt : r.text.length < bufferSize := by
      exact (length_le_receiveLine peer r.text).trans_lt (hlog.trans (by decide))
    have htext := text_received hnul hlt
    refine ⟨r.recvEnd_received.mpr ⟨hnul, hlt⟩, ?_⟩
    rw [AnyRequest.context]
    split
    · next hget =>
      rw [getContext_eq_some r.query_short, htext]
      exact ⟨hlog, AnyRequest.get_infix hget, (AnyRequest.scanToken_eq_query_iff hget).mpr hread⟩
    · next hget =>
      rw [AnyRequest.ReadAsMeant, if_neg hget] at hread
      rw [getContext_eq_none, htext]
      exact ⟨hlog, hread⟩

theorem clean_of_all {s : Text} (h : s.all (fun c => !isSpace c) = true) :
    ∀ c ∈ s, isSpace c = false := fun c hc => by
  simpa using List.all_eq_true.mp h c hc

/-- A `GET` request whose target ends in its `?`. -/
def emptyQuery : AnyRequest where
  method := "GET".toList
  target := "/?".toList
  minor := ⟨1, by decide⟩
  fields := []
  method_clean := clean_of_all (by decide)
  target_clean := clean_of_all (by decide)
  query_short := by decide

/-- An empty query is taken to be the version. -/
theorem not_takenAs_emptyQuery :
    ¬ ∀ (peer : SockAddrIn) (r : AnyRequest), TakenAs peer (received r.text) r.context := by
  intro hall
  have hget : emptyQuery.method = "GET".toList := rfl
  obtain ⟨hend, hcontext⟩ := hall localhost emptyQuery
  obtain ⟨hnul, hlt⟩ := emptyQuery.recvEnd_received.mp hend
  rw [AnyRequest.context, if_pos hget] at hcontext
  have htoken := ((getContext_eq_some emptyQuery.query_short).mp hcontext).2.2
  rw [text_received hnul hlt] at htoken
  exact (AnyRequest.scanToken_of_mem hget (by decide)).mp htoken (by decide)

end HttpServer

end AMSServer
