import AMSServer.HttpData.Answer

/-!
# Well-formed queries

A query `Query=q&key=value&...` as the protocol means it: split at `&`, each item a key and a value.
`specPayload` is the answer to it in those terms, and `answer_eq_specPayload_iff` compares it with
what the class answers by searching the text. They agree except where a value is logged that is
too long for the log buffer (`LinesFit`).
-/

namespace AMSServer

open CRuntime Fields

/-! ## The answer by splitting -/

/-- The names of the five items. -/
def itemNames : List Text :=
  ["ProjectID".toList, "VendorID".toList, "STBID".toList, "ChipID".toList, "MAC".toList]

/-- The value of the first item with the name, empty if there is none. -/
def valueOf (items : List Item) (name : Text) : Text := (items.lookup name).getD []

/-- The five values of a list of items. -/
def itemFields (items : List Item) : AuthFields where
  projectid := valueOf items "ProjectID".toList
  vendorid := valueOf items "VendorID".toList
  stbid := valueOf items "STBID".toList
  chipid := valueOf items "ChipID".toList
  macaddr := valueOf items "MAC".toList

/-- The name of the first error that applies. -/
def specError (q : Text) (f : AuthFields) : Option String :=
  ([(decide (q.length ≠ 1), "QueryLenIsWrong"),
    (decide (q ≠ "0".toList), "QueryNumberUndefine"),
    (decide (8 < f.projectid.length), "ProjectIDTooLong"),
    (decide (f.projectid = []), "NoProjectID"),
    (decide (8 < f.vendorid.length), "VendorIDTooLong"),
    (decide (f.vendorid = []), "NoVendorID"),
    (decide (32 < f.stbid.length), "STBIDTooLong"),
    (decide (32 < f.chipid.length), "ChipIDTooLong"),
    (decide (f.macaddr.length ≠ 0 ∧ f.macaddr.length ≠ 12), "MACLenIsWrong")].find? (·.1)).map (·.2)

/-- The payload for a query type and five values. -/
def specText (q : Text) (f : AuthFields) : Text :=
  match specError q f with
  | some name => "ErrorCode=".toList ++ name.toList
  | none =>
    if f.stbid = [] ∧ f.chipid = [] ∧ f.macaddr = [] then "AuthSum=0".toList
    else if f.stbid ≠ [] then "AuthState=StbId".toList
    else if f.chipid ≠ [] then "AuthState=ChipId".toList
    else "AuthState=Mac".toList

/-- The payload for a query, split at `&`. -/
def specPayload (query : Text) : Text :=
  match query.splitOn '&' with
  | [] => []
  | first :: rest => specText (toItem first).2 (itemFields (rest.map toItem))

/-- The lines that log the five values fit the log buffer, up to the first value refused. -/
def AuthLinesFit (f : AuthFields) : Prop :=
  LogFits "ProjectID".toList f.projectid ∧ (¬ 8 < f.projectid.length → ¬ f.projectid.length = 0 →
  LogFits "VendorID".toList f.vendorid ∧ (¬ 8 < f.vendorid.length → ¬ f.vendorid.length = 0 →
  LogFits "STBID".toList f.stbid ∧ (¬ 32 < f.stbid.length →
  LogFits "ChipID".toList f.chipid ∧ (¬ 32 < f.chipid.length →
  LogFits "MAC".toList f.macaddr))))

/-- The lines logged on the way to the answer fit the log buffer. -/
def LinesFit (q : Text) (f : AuthFields) : Prop :=
  LogFits "Query".toList q ∧ (q = "0".toList → AuthLinesFit f)

/-! ## The same answer -/

/-- What the parser decides from a query type and five values. -/
def queryOutcome (q : Text) (f : AuthFields) : ParseOutcome :=
  itemOutcome "Query" q (1 ≠ ·) .kQueryLenIsWrong <|
  if q = "0".toList then authOutcome f
  else if q = "1".toList then .nothing
  else .error .kQueryNumberUndefine

theorem specText_of_error {q : Text} {f : AuthFields} {e : Errorcode}
    (h : specError q f = some e.name) : specText q f = "ErrorCode=".toList ++ e.name.toList := by
  rw [specText, h]

/-- The outcome is answered with the text when its lines fit, and is an overrun otherwise. -/
def Answers (fit : Prop) (text : Text) (o : ParseOutcome) : Prop :=
  (fit → answerText o = .ok (some text)) ∧ (¬ fit → answerText o = .error .overrun)

/-- An item adds its own line, and the rest is reached when the item is not refused. -/
theorem Answers.item {name : String} {value : Text} {refused : ℕ → Prop} [DecidablePred refused]
    {e : Errorcode} {rest : ParseOutcome} {fit fit' : Prop} {text : Text}
    (hfit : fit ↔ LogFits name.toList value ∧ (¬ refused value.length → fit'))
    (herror : refused value.length → text = "ErrorCode=".toList ++ e.name.toList)
    (hrest : ¬ refused value.length → Answers fit' text rest) :
    Answers fit text (itemOutcome name value refused e rest) := by
  unfold itemOutcome
  by_cases hlog : LogFits name.toList value
  · rw [if_pos hlog]
    by_cases hr : refused value.length
    · rw [if_pos hr, herror hr]
      exact ⟨fun _ => rfl, fun hn => absurd (hfit.mpr ⟨hlog, (absurd hr ·)⟩) hn⟩
    · rw [if_neg hr]
      obtain ⟨hok, hover⟩ := hrest hr
      exact ⟨fun h => hok ((hfit.mp h).2 hr),
        fun hn => hover fun h => hn (hfit.mpr ⟨hlog, fun _ => h⟩)⟩
  · rw [if_neg hlog]
    exact ⟨fun h => absurd (hfit.mp h).1 hlog, fun _ => rfl⟩

/-- A check that logs nothing. -/
theorem Answers.check {refused : Prop} [Decidable refused] {o rest : ParseOutcome} {fit fit' : Prop}
    {text : Text} (hfit : fit ↔ (¬ refused → fit'))
    (hthen : refused → answerText o = .ok (some text))
    (hrest : ¬ refused → Answers fit' text rest) :
    Answers fit text (if refused then o else rest) := by
  by_cases hr : refused
  · rw [if_pos hr]
    exact ⟨fun _ => hthen hr, fun hn => absurd (hfit.mpr (absurd hr ·)) hn⟩
  · rw [if_neg hr]
    obtain ⟨hok, hover⟩ := hrest hr
    exact ⟨fun h => hok (hfit.mp h hr), fun hn => hover fun h => hn (hfit.mpr fun _ => h)⟩

theorem Answers.congr {fit fit' : Prop} {text : Text} {o : ParseOutcome}
    (h : Answers fit' text o) (hfit : fit ↔ fit') : Answers fit text o := by
  rwa [Answers, hfit]

/-- An answer that logs nothing. -/
theorem Answers.of_eq {o : ParseOutcome} {text : Text} (h : answerText o = .ok (some text)) :
    Answers True text o :=
  ⟨fun _ => h, fun hn => absurd trivial hn⟩

/-- The five values are checked in the order of the errors. -/
theorem answers_authOutcome (f : AuthFields) :
    Answers (AuthLinesFit f) (specText "0".toList f) (authOutcome f) := by
  refine .item Iff.rfl (fun h => specText_of_error ?_) fun hp => ?_
  · simp_all [specError, Errorcode.name]
  refine .check Iff.rfl (fun h => congrArg (Except.ok ∘ some) (specText_of_error ?_).symm)
    fun hp0 => ?_
  · simp_all [specError, Errorcode.name]
  refine .item Iff.rfl (fun h => specText_of_error ?_) fun hv => ?_
  · simp_all [specError, Errorcode.name]
  refine .check Iff.rfl (fun h => congrArg (Except.ok ∘ some) (specText_of_error ?_).symm)
    fun hv0 => ?_
  · simp_all [specError, Errorcode.name]
  refine .item Iff.rfl (fun h => specText_of_error ?_) fun hs => ?_
  · simp_all [specError, Errorcode.name]
  refine .item Iff.rfl (fun h => specText_of_error ?_) fun hc => ?_
  · simp_all [specError, Errorcode.name]
  refine .item (by simp) (fun h => specText_of_error ?_) fun hm => .of_eq ?_
  · have h12 := h.1.symm
    have h0 := h.2.symm
    simp_all [specError, Errorcode.name]
  -- no error applies
  have hnone : specError "0".toList f = none := by
    have hmac : f.macaddr = [] ∨ f.macaddr.length = 12 := by
      rw [← List.length_eq_zero_iff]; omega
    rcases hmac with hmac | hmac <;> simp_all [specError]
  rw [specText, hnone, answerText, authText]
  by_cases hs0 : f.stbid = [] <;> by_cases hc0 : f.chipid = [] <;> by_cases hm0 : f.macaddr = [] <;>
    simp [hs0, hc0, hm0]

/-- **The order of the checks is the order of the errors.** -/
theorem answers_queryOutcome {q : Text} {f : AuthFields} (hq : q ≠ "1".toList) :
    Answers (LinesFit q f) (specText q f) (queryOutcome q f) := by
  have hlen : q = "0".toList → ¬ 1 ≠ q.length := by rintro rfl; decide
  have hfit : LinesFit q f ↔ LogFits "Query".toList q ∧
      (¬ 1 ≠ q.length → q = "0".toList → AuthLinesFit f) :=
    and_congr_right fun _ => ⟨fun h _ => h, fun h h0 => h (hlen h0) h0⟩
  refine .item hfit (fun h => specText_of_error ?_) fun hq1 => ?_
  · simp [specError, Errorcode.name, h.symm]
  by_cases hq0 : q = "0".toList
  · rw [if_pos hq0, hq0]
    exact (answers_authOutcome f).congr (by simp)
  · rw [if_neg hq0, if_neg hq]
    have herror : specError q f = some Errorcode.kQueryNumberUndefine.name := by
      simp_all [specError, Errorcode.name]
    refine (Answers.of_eq ?_).congr (iff_of_true (absurd · hq0) trivial)
    rw [specText_of_error herror]
    rfl

/-! ## The text of a query -/

/-- What a search reads in a query whose first segment does not mention the name. -/
theorem fieldOf_query {first name : Text} {items : List Item} (hfirst : '&' ∉ first)
    (hitems : ∀ i ∈ items, '&' ∉ i.text) (hmention : mention name first = none) :
    fieldOf (query first items) name =
      ((items.map Item.text).findSome? (mention name)).getD [] := by
  rw [fieldOf, splitOn_query hfirst hitems, List.findSome?_cons, hmention]

/-- A well-formed query: `Query=q` in any case, then items. A key that ends in the name of an item
is that name. -/
structure WellFormedQuery where
  word : Text
  q : Text
  items : List Item
  word_eq : word.map Char.toLower = "query".toList
  q_clean : '&' ∉ q ∧ '=' ∉ q
  q_ne : q ≠ "1".toList
  items_clean : ∀ i ∈ items, ('&' ∉ i.1 ∧ '=' ∉ i.1) ∧ '&' ∉ i.2 ∧ '=' ∉ i.2
  no_foreign_suffix : ∀ i ∈ items, i.1 ∉ itemNames → ∀ name ∈ itemNames, ¬ name <:+ i.1
  nul_free : nul ∉ query (Item.text (word, q)) items
  fits : (query (Item.text (word, q)) items).length < recvBufferLength

namespace WellFormedQuery

/-- The query string. -/
def text (Q : WellFormedQuery) : Text := query (Item.text (Q.word, Q.q)) Q.items

theorem equals_notMem_word (Q : WellFormedQuery) : '=' ∉ Q.word := by
  have hlow : Q.word.map Char.toLower = ("query".toList).map Char.toLower := Q.word_eq
  exact equals_notMem_of_map_toLower hlow (by decide)

theorem ampersand_notMem_first (Q : WellFormedQuery) : '&' ∉ Item.text (Q.word, Q.q) := by
  have hword : '&' ∉ Q.word := fun h => by
    have hmem : ('&').toLower ∈ Q.word.map Char.toLower := List.mem_map.mpr ⟨'&', h, rfl⟩
    rw [Q.word_eq] at hmem
    exact absurd hmem (by decide)
  simp [Item.text, hword, Q.q_clean.1]

theorem ampersand_notMem_item (Q : WellFormedQuery) {i : Item} (h : i ∈ Q.items) :
    '&' ∉ i.text := by
  have hi := Q.items_clean i h
  simp [Item.text, hi.1.1, hi.2.1]

/-- The first segment mentions no item. -/
theorem mention_first (Q : WellFormedQuery) {name : Text} (hname : name ∈ itemNames) :
    mention name (Item.text (Q.word, Q.q)) = none := by
  have hnone : ∀ name ∈ itemNames, ¬ name.map Char.toLower <:+ "query".toList := by decide
  exact mention_eq_none Q.equals_notMem_word Q.q_clean.2 fun hs =>
    hnone name hname (Q.word_eq ▸ hs.map Char.toLower)

/-- **In a well-formed query the search reads the first item with the name.** -/
theorem fieldOf_text (Q : WellFormedQuery) {name : Text} (hname : name ∈ itemNames) :
    fieldOf Q.text name = valueOf Q.items name := by
  have hsuffix : ∀ a ∈ itemNames, ∀ b ∈ itemNames, a <:+ b → b = a := by decide
  rw [text, fieldOf_query Q.ampersand_notMem_first (fun i hi => Q.ampersand_notMem_item hi)
    (Q.mention_first hname), valueOf, findSome_mention_items]
  · exact fun i hi => ⟨(Q.items_clean i hi).1.2, (Q.items_clean i hi).2.2⟩
  · intro i hi hs
    by_cases hmem : i.1 ∈ itemNames
    · exact hsuffix _ hname _ hmem hs
    · exact absurd hs (Q.no_foreign_suffix i hi hmem _ hname)

theorem readFields_text (Q : WellFormedQuery) : readFields Q.text = itemFields Q.items := by
  rw [readFields, itemFields, Q.fieldOf_text (by decide), Q.fieldOf_text (by decide),
    Q.fieldOf_text (by decide), Q.fieldOf_text (by decide), Q.fieldOf_text (by decide)]

/-- What the parser decides about a well-formed query. -/
theorem parseOutcome_text (Q : WellFormedQuery) :
    parseOutcome Q.text = queryOutcome Q.q (itemFields Q.items) := by
  have htext : Q.text = Q.word ++ '=' :: query Q.q Q.items := by
    simp [text, query, Item.text]
  have hkey := (@strnicmpEq_key Q.text "Query".toList).mpr ⟨Q.word, _, htext, Q.word_eq⟩
  have hquery : strnicmpEq Q.text "Query=".toList "Query=".length = true := hkey
  have htype : queryType Q.text = Q.q := by
    rw [queryType, htext, dropWhile_ne_append Q.equals_notMem_word, List.tail_cons,
      takeWhile_query Q.q_clean.1]
  rw [parseOutcome, if_pos hquery, htype, Q.readFields_text, queryOutcome]

/-- Splitting gives the specification the same parts. -/
theorem specPayload_text (Q : WellFormedQuery) :
    specPayload Q.text = specText Q.q (itemFields Q.items) := by
  have hitems : (Q.items.map Item.text).map toItem = Q.items := by
    rw [List.map_map]
    refine (List.map_congr_left fun i hi => ?_).trans (List.map_id _)
    exact toItem_text (Q.items_clean i hi).1.2
  rw [specPayload, text,
    splitOn_query Q.ampersand_notMem_first fun i hi => Q.ampersand_notMem_item hi]
  dsimp only
  rw [hitems, toItem_text Q.equals_notMem_word]

/-- A well-formed query is answered as specified, or a log line of it overruns its buffer. -/
theorem answers (Q : WellFormedQuery) :
    Answers (LinesFit Q.q (itemFields Q.items)) (specPayload Q.text) (parseOutcome Q.text) := by
  rw [Q.parseOutcome_text, Q.specPayload_text]
  exact answers_queryOutcome Q.q_ne

theorem answer_text (Q : WellFormedQuery) :
    (HttpData.answer Q.text).map (fun r => (r.1, r.2.text)) =
      (answerText (parseOutcome Q.text)).map fun t => (t.isSome, t.getD []) :=
  HttpData.answer_eq Q.nul_free Q.fits

theorem answer_of_not_linesFit (Q : WellFormedQuery) (h : ¬ LinesFit Q.q (itemFields Q.items)) :
    HttpData.answer Q.text = .error .overrun := by
  have hmap := Q.answer_text
  rw [Q.answers.2 h] at hmap
  cases ha : HttpData.answer Q.text with
  | error e => rw [ha] at hmap; exact congrArg Except.error (Except.error.inj hmap)
  | ok r => rw [ha] at hmap; cases hmap

/-- **A well-formed query is answered as specified exactly when its log lines fit.** -/
theorem answer_eq_specPayload_iff (Q : WellFormedQuery) :
    (∃ payload, HttpData.answer Q.text = .ok (true, payload) ∧
      payload.text = specPayload Q.text) ↔ LinesFit Q.q (itemFields Q.items) := by
  constructor
  · rintro ⟨payload, hok, -⟩
    by_contra hfit
    rw [Q.answer_of_not_linesFit hfit] at hok
    cases hok
  · intro hfit
    have hmap := Q.answer_text
    rw [Q.answers.1 hfit] at hmap
    cases ha : HttpData.answer Q.text with
    | error e => rw [ha] at hmap; cases hmap
    | ok r =>
      rw [ha] at hmap
      obtain ⟨hflag, htext⟩ := Prod.mk.inj (Except.ok.inj hmap)
      exact ⟨r.2, congrArg Except.ok (Prod.ext hflag rfl), htext⟩

/-- A query type of a thousand characters. -/
def long : WellFormedQuery where
  word := "Query".toList
  q := List.replicate 1000 'x'
  items := []
  word_eq := by decide
  q_clean := by simp [List.mem_replicate, -List.reduceReplicate]
  q_ne := fun h => absurd (congrArg List.length h) (by simp [-List.reduceReplicate])
  items_clean := nofun
  no_foreign_suffix := nofun
  nul_free := by simp [query, Item.text, List.mem_replicate, nul, -List.reduceReplicate]
  fits := by simp [query, Item.text, recvBufferLength, -List.reduceReplicate]

/-- The line that logs a query type of a thousand characters overruns the log buffer. -/
theorem long_not_answered :
    ¬ ∃ payload, HttpData.answer long.text = .ok (true, payload) ∧
      payload.text = specPayload long.text := by
  have hlong : ¬ LinesFit long.q (itemFields long.items) := by
    rintro ⟨hline, -⟩
    simp [LogFits, long, oneLogLen, -List.reduceReplicate] at hline
  rw [long.answer_of_not_linesFit hlong]
  rintro ⟨payload, hok, -⟩
  cases hok

end WellFormedQuery

end AMSServer
