import AMSServer.HttpData.Items
import AMSServer.HttpServer.Segmentation
import AMSServer.HttpServer.Target

/-!
# A client and the server

What the server is for, from end to end. A client means five values and writes them into the target
of a `GET` request, in any order and with other items and header lines around them (`Ask`). It reads
the answers off the bytes that come back: it decodes a response, skips the zeros after it, and reads
the payload (`readReplies`). On a connection that carries one request in each receive it gets, for
each request in its turn, the reply that the values call for (`Reply.meant`), and it gets them
exactly when every request fits the buffers that it goes through (`conversation_iff`).
-/

namespace AMSServer

open CRuntime Fields

/-! ## Replies -/

/-- What a box is identified by. -/
inductive Identifier
  | stbId
  | chipId
  | mac
  deriving DecidableEq

/-- What the server can reply. -/
inductive Reply
  | error (e : Errorcode)
  | sum
  | state (i : Identifier)
  deriving DecidableEq

namespace Reply

/-- The payload of a reply. -/
def text : Reply → Text
  | error e => "ErrorCode=".toList ++ e.name.toList
  | sum => "AuthSum=0".toList
  | state .stbId => "AuthState=StbId".toList
  | state .chipId => "AuthState=ChipId".toList
  | state .mac => "AuthState=Mac".toList

/-- All replies. -/
def all : List Reply :=
  [error .kNoField, error .kQueryLenIsWrong, error .kQueryNumberUndefine, error .kNoProjectID,
    error .kProjectIDIsWrong, error .kNoVendorID, error .kVendorIDIsWrong,
    error .kProjectIDTooLong, error .kVendorIDTooLong, error .kSTBIDTooLong, error .kChipIDTooLong,
    error .kMACLenIsWrong, error .kNullError, sum, state .stbId, state .chipId, state .mac]

/-- The reply with a payload. -/
def ofText (t : Text) : Option Reply := all.find? (·.text = t)

/-- **A payload says which reply it is.** -/
theorem ofText_text (r : Reply) : ofText r.text = some r := by
  cases r with
  | error e => cases e <;> decide
  | sum => decide
  | state i => cases i <;> decide

theorem length_text_lt (r : Reply) : r.text.length < payloadBufferLength := by
  cases r with
  | error e => cases e <;> decide
  | sum => decide
  | state i => cases i <;> decide

/-- The error that a query is refused with: that of the first check it fails. -/
def refusal (q : Text) (f : AuthFields) : Option Errorcode :=
  ([(decide (q.length ≠ 1), Errorcode.kQueryLenIsWrong),
    (decide (q ≠ "0".toList), .kQueryNumberUndefine),
    (decide (8 < f.projectid.length), .kProjectIDTooLong),
    (decide (f.projectid = []), .kNoProjectID),
    (decide (8 < f.vendorid.length), .kVendorIDTooLong),
    (decide (f.vendorid = []), .kNoVendorID),
    (decide (32 < f.stbid.length), .kSTBIDTooLong),
    (decide (32 < f.chipid.length), .kChipIDTooLong),
    (decide (f.macaddr.length ≠ 0 ∧ f.macaddr.length ≠ 12), .kMACLenIsWrong)].find? (·.1)).map (·.2)

theorem specError_eq (q : Text) (f : AuthFields) :
    specError q f = (refusal q f).map Errorcode.name := by
  have hmap : ∀ checks : List (Bool × Errorcode),
      ((checks.map fun c => (c.1, c.2.name)).find? (·.1)).map (·.2) =
        ((checks.find? (·.1)).map (·.2)).map Errorcode.name := by
    intro checks
    rw [List.find?_map, Option.map_map, Option.map_map]
    rfl
  rw [refusal, ← hmap]
  rfl

/-- The reply to a query type and five values. -/
def meant (q : Text) (f : AuthFields) : Reply :=
  match refusal q f with
  | some e => error e
  | none =>
    if f.stbid ≠ [] then state .stbId
    else if f.chipid ≠ [] then state .chipId
    else if f.macaddr ≠ [] then state .mac
    else sum

theorem specText_eq (q : Text) (f : AuthFields) : specText q f = (meant q f).text := by
  rw [specText, specError_eq, meant]
  cases refusal q f with
  | some e => rfl
  | none =>
    dsimp only [Option.map_none]
    by_cases hs : f.stbid = []
    · by_cases hc : f.chipid = []
      · by_cases hm : f.macaddr = []
        · rw [if_pos ⟨hs, hc, hm⟩, if_neg (not_not.mpr hs), if_neg (not_not.mpr hc),
            if_neg (not_not.mpr hm)]
          rfl
        · rw [if_neg fun h => hm h.2.2, if_neg (not_not.mpr hs), if_neg (not_not.mpr hc),
            if_neg (not_not.mpr hs), if_neg (not_not.mpr hc), if_pos hm]
          rfl
      · rw [if_neg fun h => hc h.2.1, if_neg (not_not.mpr hs), if_pos hc, if_neg (not_not.mpr hs),
          if_pos hc]
        rfl
    · rw [if_neg fun h => hs h.1, if_pos hs, if_pos hs]
      rfl

end Reply

/-- The five items of a query. -/
def AuthFields.items (f : AuthFields) : List Item :=
  [("ProjectID".toList, f.projectid), ("VendorID".toList, f.vendorid), ("STBID".toList, f.stbid),
    ("ChipID".toList, f.chipid), ("MAC".toList, f.macaddr)]

namespace HttpServer

/-! ## Requests of a client -/

/-- The target of a request for a query type, with items in some order. -/
def askTarget (path word q : Text) (items : List Item) : Text :=
  path ++ '?' :: query (Item.text (word, q)) items

theorem get_clean : ∀ c ∈ "GET".toList, isSpace c = false := clean_of_all (by decide)

/-- A request of a client that means five values. -/
structure Ask where
  path : Text
  word : Text
  q : Text
  fields : AuthFields
  others : List Item
  items : List Item
  minor : Fin 10
  headers : List Http.Line
  path_clean : '?' ∉ path
  word_eq : word.map Char.toLower = "query".toList
  q_clean : '&' ∉ q ∧ '=' ∉ q
  q_ne : q ≠ "1".toList
  perm : items.Perm (fields.items ++ others)
  items_clean : ∀ i ∈ items, ('&' ∉ i.1 ∧ '=' ∉ i.1) ∧ '&' ∉ i.2 ∧ '=' ∉ i.2
  others_foreign : ∀ i ∈ others, ∀ name ∈ itemNames, ¬ name <:+ i.1
  target_clean : ∀ c ∈ askTarget path word q items, isSpace c = false
  nul_free : nul ∉ Http.head (methodLine "GET".toList (askTarget path word q items) minor
    get_clean target_clean :: headers)
  short : (Http.head (methodLine "GET".toList (askTarget path word q items) minor
    get_clean target_clean :: headers)).length < bufferSize

namespace Ask

/-- The query of a request. -/
def queryText (a : Ask) : Text := query (Item.text (a.word, a.q)) a.items

/-- The lines of a request. -/
def lines (a : Ask) : List Http.Line :=
  methodLine "GET".toList (askTarget a.path a.word a.q a.items) a.minor get_clean
    a.target_clean :: a.headers

/-- The text of a request. -/
def text (a : Ask) : Text := Http.head a.lines

/-- What the client is to be told. -/
def reply (a : Ask) : Reply := .meant a.q a.fields

/-- The request fits the buffers it goes through: that of the log line and that of the query. -/
def Fits (peer : SockAddrIn) (a : Ask) : Prop :=
  (receiveLine peer a.text).length < oneLogLen ∧ a.queryText.length < httpGetLength

instance (peer : SockAddrIn) (a : Ask) : Decidable (a.Fits peer) :=
  inferInstanceAs (Decidable (_ ∧ _))

/-! ## What the server reads of a request -/

/-- **The values are read whatever the order of the items.** -/
theorem valueOf_items (a : Ask) {i : Item} (hi : i ∈ a.fields.items) :
    valueOf a.items i.1 = i.2 := by
  have hname : ∀ f : AuthFields, ∀ i ∈ f.items, i.1 ∈ itemNames := by
    simp [AuthFields.items, itemNames]
  have hdistinct : ∀ f : AuthFields, ∀ i ∈ f.items, ∀ j ∈ f.items, j.1 = i.1 → j.2 = i.2 := by
    simp [AuthFields.items]
  have hmem : i ∈ a.items := a.perm.mem_iff.mpr (List.mem_append_left _ hi)
  rw [valueOf, lookup_of_unique hmem, Option.getD_some]
  intro j hj heq
  rcases List.mem_append.mp (a.perm.mem_iff.mp hj) with hj | hj
  · exact hdistinct _ i hi j hj heq
  · have hforeign := a.others_foreign j hj i.1 (hname _ i hi)
    rw [heq] at hforeign
    exact absurd (List.suffix_refl _) hforeign

theorem itemFields_items (a : Ask) : itemFields a.items = a.fields := by
  have hvalue : ∀ name value, (name, value) ∈ a.fields.items → valueOf a.items name = value :=
    fun name value hi => a.valueOf_items hi
  rw [itemFields, hvalue "ProjectID".toList a.fields.projectid (by simp [AuthFields.items]),
    hvalue "VendorID".toList a.fields.vendorid (by simp [AuthFields.items]),
    hvalue "STBID".toList a.fields.stbid (by simp [AuthFields.items]),
    hvalue "ChipID".toList a.fields.chipid (by simp [AuthFields.items]),
    hvalue "MAC".toList a.fields.macaddr (by simp [AuthFields.items])]

/-- The text after the target. -/
def rest (a : Ask) : Text :=
  version a.minor ++ (Http.crlf ++ (Http.linesText a.headers ++ Http.crlf))

theorem text_eq (a : Ask) :
    a.text = ("GET".toList ++ ' ' :: a.path) ++ '?' :: (a.queryText ++ ' ' :: a.rest) := by
  rw [text, lines, Http.head, Http.linesText_cons, methodLine, rest]
  simp only [askTarget, queryText, List.append_assoc, List.cons_append]

/-- **`DoRecv` scans the query.** -/
theorem scanToken_text (a : Ask) : scanToken a.text = a.queryText := by
  have hpath : '?' ∉ "GET".toList ++ ' ' :: a.path := by
    rw [List.mem_append, List.mem_cons, not_or, not_or]
    exact ⟨by decide, by decide, a.path_clean⟩
  have hne : a.queryText ≠ [] := by simp [queryText, query, Item.text]
  have hclean : ∀ c ∈ a.queryText, isSpace c = false := fun c hc =>
    a.target_clean c (List.mem_append_right _ (List.mem_cons_of_mem _ hc))
  obtain ⟨s, hs⟩ : ∃ s, a.text = 'G' :: s := ⟨_, by rw [text_eq]; rfl⟩
  have hword : scanToken a.text = firstWord (queryOf a.text) := by
    rw [hs]
    exact headD_sscanf_wordAfter (by decide) s
  rw [hword, text_eq, queryOf_append_cons hpath]
  exact firstWord_append hne hclean rfl _

theorem nul_notMem_queryText (a : Ask) : nul ∉ a.queryText := by
  have hnul : nul ∉ a.text := a.nul_free
  rw [text_eq] at hnul
  exact fun h => hnul (List.mem_append_right _
    (List.mem_cons_of_mem _ (List.mem_append_left _ h)))

/-- The query of a request that fits is a well-formed one. -/
def toWellFormed (a : Ask) (h : a.queryText.length < recvBufferLength) : WellFormedQuery where
  word := a.word
  q := a.q
  items := a.items
  word_eq := a.word_eq
  q_clean := a.q_clean
  q_ne := a.q_ne
  items_clean := a.items_clean
  no_foreign_suffix i hi hne := by
    rcases List.mem_append.mp (a.perm.mem_iff.mp hi) with hi | hi
    · refine absurd ?_ hne
      simp only [AuthFields.items, List.mem_cons, List.not_mem_nil, or_false] at hi
      rcases hi with rfl | rfl | rfl | rfl | rfl <;> simp [itemNames]
    · exact a.others_foreign i hi
  nul_free := a.nul_notMem_queryText
  fits := h

/-- **The reply that the values call for is what is answered to the query.** -/
theorem answerText_queryText (a : Ask) (h : a.queryText.length < httpGetLength) :
    answerText (parseOutcome a.queryText) = .ok (some a.reply.text) := by
  have hfit : a.queryText.length < recvBufferLength := h.trans (by decide)
  have hanswers := (a.toWellFormed hfit).answers
  have hpayload : specPayload a.queryText = a.reply.text := by
    have hspec := (a.toWellFormed hfit).specPayload_text
    change specPayload a.queryText = specText a.q (itemFields a.items) at hspec
    rw [hspec, itemFields_items, Reply.specText_eq, reply]
  change Answers _ (specPayload a.queryText) (parseOutcome a.queryText) at hanswers
  rw [hpayload] at hanswers
  refine hanswers.1 (not_not.mp fun hlines => parseOutcome_ne_overrun h ?_)
  have hover := hanswers.2 hlines
  cases ho : parseOutcome a.queryText with
  | overrun => rfl
  | _ => rw [ho] at hover; cases hover

/-- **What `DoRecv` makes of a request.** -/
theorem verdict_text (peer : SockAddrIn) (a : Ask) :
    verdict peer a.text =
      if a.Fits peer then .ok (.answered a.reply.text) else .error .overrun := by
  have hblank : Http.blank <:+ a.text := Http.blank_suffix_head (List.cons_ne_nil _ _)
  have hlen : ¬ a.text.length < 4 := not_lt.mpr hblank.length_le
  have hget : "GET".toList <:+: a.text := by
    rw [text_eq, List.append_assoc]
    exact (List.prefix_append _ _).isInfix
  rw [verdict_of_get hlen hblank hget, scanToken_text]
  by_cases hfits : a.Fits peer
  · refine (if_pos hfits).trans ?_
    rw [if_pos hfits, a.answerText_queryText hfits.2]
    rfl
  · exact (if_neg hfits).trans (if_neg hfits).symm

end Ask

/-! ## A connection -/

/-- **A connection that carries one request in each receive answers each of them, or breaks.** -/
theorem run_asks (peer : SockAddrIn) (asks : List Ask) (sent : List PerIOData) :
    Conn.run peer ⟨[recvIoData], sent⟩ (asks.map Ask.text) =
      if ∀ a ∈ asks, a.Fits peer then
        .ok ⟨[recvIoData], sent ++ asks.map fun a => sentIoData a.reply.text⟩
      else .error .overrun := by
  induction asks generalizing sent with
  | nil => simp [Conn.run]
  | cons a asks ih =>
    rw [List.map_cons, Conn.run, @deliver_eq peer a.text a.nul_free a.short, a.verdict_text]
    by_cases hfits : a.Fits peer
    · rw [if_pos hfits]
      change Conn.run peer ⟨[recvIoData], sent ++ [sentIoData a.reply.text]⟩ _ = _
      rw [ih]
      simp only [List.forall_mem_cons, hfits, true_and, List.map_cons, List.append_assoc,
        List.singleton_append]
    · rw [if_neg hfits, if_neg fun h => hfits (h a List.mem_cons_self)]
      rfl

/-! ## What the client reads -/

/-- Some replies, each with the zeros after it, at the start of a stream. -/
def readReplies : ℕ → Text → Option (List Reply)
  | 0, _ => some []
  | n + 1, s => do
    let (body, rest) ← Http.decode s
    let r ← Reply.ofText body
    let rs ← readReplies n (rest.dropWhile (· = nul))
    return r :: rs

/-- The bytes of some replies. -/
def wire (rs : List Reply) : Text := rs.flatMap fun r => (sentIoData r.text).sent

theorem dropWhile_nul_wire (n : ℕ) (rs : List Reply) :
    (List.replicate n nul ++ wire rs).dropWhile (· = nul) = wire rs := by
  have hskip : (List.replicate n nul).dropWhile (· = nul) = [] := by
    rw [List.dropWhile_eq_nil_iff]
    intro c hc
    exact decide_eq_true (List.eq_of_mem_replicate hc)
  rw [List.dropWhile_append, hskip, List.isEmpty_nil, if_pos rfl]
  cases rs with
  | nil => rfl
  | cons r rs =>
    rw [wire, List.flatMap_cons, sent_sentIoData r.length_text_lt, responseText_eq]
    rfl

/-- **The client reads the replies that were sent.** -/
theorem readReplies_wire (rs : List Reply) : readReplies rs.length (wire rs) = some rs := by
  induction rs with
  | nil => rfl
  | cons r rs ih =>
    have hdecode : Http.decode (wire (r :: rs)) = some (r.text,
        List.replicate (bufferSize - (responseText r.text).length) nul ++ wire rs) := by
      rw [wire, List.flatMap_cons, sent_sentIoData r.length_text_lt, List.append_assoc]
      refine Http.decode_render (by decide) ?_ _ _
      simp only [List.mem_cons, List.not_mem_nil, or_false, forall_eq_or_imp, forall_eq]
      exact ⟨by decide, by decide⟩
    rw [List.length_cons, readReplies, hdecode]
    simp only [Option.bind_eq_bind, Option.bind_some, Reply.ofText_text, dropWhile_nul_wire, ih]
    rfl

/-- **A conversation.** A client that sends its requests one to a receive, and skips the zeros that
come behind each response, reads for each request in its turn the reply that its values call for,
exactly when all of them fit their buffers. -/
theorem conversation_iff (peer : SockAddrIn) (asks : List Ask) :
    (∃ c, Conn.start.run peer (asks.map Ask.text) = .ok c ∧
      readReplies asks.length (c.sent.flatMap PerIOData.sent) = some (asks.map Ask.reply)) ↔
      ∀ a ∈ asks, a.Fits peer := by
  have hrun := run_asks peer asks []
  constructor
  · rintro ⟨c, hc, -⟩
    by_contra hfits
    rw [if_neg hfits, ← Conn.start, hc] at hrun
    cases hrun
  · intro hfits
    rw [if_pos hfits, List.nil_append] at hrun
    refine ⟨_, hrun, ?_⟩
    have hread := readReplies_wire (asks.map Ask.reply)
    rw [List.length_map, wire, List.flatMap_map] at hread
    rw [List.flatMap_map]
    exact hread

/-- A box asks for itself by its number, with the items in another order and one of its own. -/
def boxAsk : Ask where
  path := ['/']
  word := "QUERY".toList
  q := ['0']
  fields := ⟨"7".toList, "21".toList, "A9".toList, [], []⟩
  others := [("t".toList, "1".toList)]
  items := [("MAC".toList, []), ("STBID".toList, "A9".toList), ("t".toList, "1".toList),
    ("VendorID".toList, "21".toList), ("ProjectID".toList, "7".toList), ("ChipID".toList, [])]
  minor := ⟨1, Nat.one_lt_succ_succ 8⟩
  headers := []
  path_clean := by decide
  word_eq := by decide
  q_clean := by decide
  q_ne := by decide
  perm := by decide
  items_clean := by decide
  others_foreign := by decide
  target_clean := clean_of_all (by decide)
  nul_free := by decide
  short := by decide

/-- A project asks for the number of its boxes of a vendor. -/
def sumAsk : Ask where
  path := "/ams".toList
  word := "QUERY".toList
  q := ['0']
  fields := ⟨"7".toList, "21".toList, [], [], []⟩
  others := []
  items := [("ProjectID".toList, "7".toList), ("VendorID".toList, "21".toList),
    ("STBID".toList, []), ("ChipID".toList, []), ("MAC".toList, [])]
  minor := ⟨1, Nat.one_lt_succ_succ 8⟩
  headers := []
  path_clean := by decide
  word_eq := by decide
  q_clean := by decide
  q_ne := by decide
  perm := by decide
  items_clean := by decide
  others_foreign := by decide
  target_clean := clean_of_all (by decide)
  nul_free := by decide
  short := by decide

example : boxAsk.Fits localhost ∧ boxAsk.reply = .state .stbId ∧ sumAsk.Fits localhost ∧
    sumAsk.reply = .sum := by decide +kernel

end HttpServer

end AMSServer
