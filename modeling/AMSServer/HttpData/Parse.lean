import AMSServer.HttpData.Basic

/-!
# What the parser reads

`ParseItem` searches the whole received text for `name=`. `parseItem_eq` says what that reads, for
every text: the value after the first segment that mentions the name (`fieldOf`). The scans never
leave their buffers; the log line of a long value does. What `ParseRecvBuf` decides is then a
function of the text (`parseOutcome`), item by item in the order of the source (`itemOutcome`), and
`parseRecvBuf_spec` is the object it leaves.
-/

namespace AMSServer

open CRuntime Fields

/-! ## The decision -/

/-- The value that a search for `name=` reads: what follows its first mention, up to `&`. -/
def fieldOf (query name : Text) : Text := ((query.splitOn '&').findSome? (mention name)).getD []

/-- The five values of an authorization query. -/
structure AuthFields where
  projectid : Text
  vendorid : Text
  stbid : Text
  chipid : Text
  macaddr : Text
  deriving DecidableEq

/-- The five values that the parser reads in a query. -/
def readFields (query : Text) : AuthFields where
  projectid := fieldOf query "ProjectID".toList
  vendorid := fieldOf query "VendorID".toList
  stbid := fieldOf query "STBID".toList
  chipid := fieldOf query "ChipID".toList
  macaddr := fieldOf query "MAC".toList

/-- What the parser decides about a query. -/
inductive ParseOutcome
  /-- Neither an answer nor an error: the activation branches do nothing. -/
  | nothing
  | error (e : Errorcode)
  | auth (f : AuthFields)
  /-- The log line of a value is longer than its buffer. -/
  | overrun
  deriving DecidableEq

/-- The line that logs a value and its terminator fit the log buffer. -/
def LogFits (name value : Text) : Prop := (name ++ '=' :: value ++ ['\n']).length < oneLogLen

instance (name value : Text) : Decidable (LogFits name value) :=
  inferInstanceAs (Decidable (_ < _))

/-- What one item decides: it is logged, then refused for its length or left to the rest. -/
def itemOutcome (name : String) (value : Text) (refused : ℕ → Prop) [DecidablePred refused]
    (e : Errorcode) (rest : ParseOutcome) : ParseOutcome :=
  if LogFits name.toList value then
    if refused value.length then .error e else rest
  else .overrun

/-- What the five values decide. -/
def authOutcome (f : AuthFields) : ParseOutcome :=
  itemOutcome "ProjectID" f.projectid (8 < ·) .kProjectIDTooLong <|
  if f.projectid.length = 0 then .error .kNoProjectID else
  itemOutcome "VendorID" f.vendorid (8 < ·) .kVendorIDTooLong <|
  if f.vendorid.length = 0 then .error .kNoVendorID else
  itemOutcome "STBID" f.stbid (32 < ·) .kSTBIDTooLong <|
  itemOutcome "ChipID" f.chipid (32 < ·) .kChipIDTooLong <|
  itemOutcome "MAC" f.macaddr (fun n => 12 ≠ n ∧ 0 ≠ n) .kMACLenIsWrong <|
  .auth f

/-- What is answered once the checks pass: the total, or the state of one box. -/
def authFlag (f : AuthFields) : SendFlag :=
  if f.stbid.length = 0 ∧ f.chipid.length = 0 ∧ f.macaddr.length = 0 then .kQueryAuthSum
  else .kQueryAuthState

/-- The value of the first segment, from its first `=`. -/
def queryType (query : Text) : Text := ((query.dropWhile (· ≠ '=')).tail).takeWhile (· ≠ '&')

/-- What a query decides. -/
def parseOutcome (query : Text) : ParseOutcome :=
  if strnicmpEq query "Query=".toList "Query=".length then
    itemOutcome "Query" (queryType query) (1 ≠ ·) .kQueryLenIsWrong <|
    if queryType query = "0".toList then authOutcome (readFields query)
    else if queryType query = "1".toList then .nothing
    else .error .kQueryNumberUndefine
  else if strnicmpEq query "Activate=".toList "Activate=".length then .nothing
  else .error .kNoField

/-- The `projectid` after an error of the parser: empty unless its value was accepted before. -/
def keptProjectid (query : Text) : Errorcode → Text
  | .kVendorIDTooLong => fieldOf query "ProjectID".toList
  | .kNoVendorID => fieldOf query "ProjectID".toList
  | .kSTBIDTooLong => fieldOf query "ProjectID".toList
  | .kChipIDTooLong => fieldOf query "ProjectID".toList
  | .kMACLenIsWrong => fieldOf query "ProjectID".toList
  | _ => []

/-- The `vendorid` after an error of the parser. -/
def keptVendorid (query : Text) : Errorcode → Text
  | .kSTBIDTooLong => fieldOf query "VendorID".toList
  | .kChipIDTooLong => fieldOf query "VendorID".toList
  | .kMACLenIsWrong => fieldOf query "VendorID".toList
  | _ => []

namespace HttpData

/-- What parsing an object with these buffers leaves, by what its text decides. Only the members
named here have a known value: after an error, the fields read before it may be set. -/
inductive Parsed (h : HttpData) : ParseOutcome → Except Fault HttpData → Prop
  | nothing : Parsed h .nothing (.ok h)
  | error {e : Errorcode} {h' : HttpData} (recvdatabuf : h'.recvdatabuf = h.recvdatabuf)
      (payloadbuf : h'.payloadbuf = h.payloadbuf) (sendflag : h'.sendflag = .kErrorFlag)
      (errorcode : h'.errorcode = e) : Parsed h (.error e) (.ok h')
  | auth {f : AuthFields} {h' : HttpData} (recvdatabuf : h'.recvdatabuf = h.recvdatabuf)
      (payloadbuf : h'.payloadbuf = h.payloadbuf) (sendflag : h'.sendflag = authFlag f)
      (projectid : h'.projectid.text = f.projectid) (vendorid : h'.vendorid.text = f.vendorid)
      (stbid : h'.stbid.text = f.stbid) (chipid : h'.chipid.text = f.chipid)
      (macaddr : h'.macaddr.text = f.macaddr) : Parsed h (.auth f) (.ok h')
  | overrun : Parsed h .overrun (.error .overrun)

/-! ## One item -/

/-- **`ParseItem` reads what follows the first mention of the name, if it can log it.** -/
theorem parseItem_eq (h : HttpData) {location : String} {name : Text}
    (hloc : location.toList = name ++ ['=']) (hne : name ≠ []) (he : '=' ∉ name)
    (ha : '&' ∉ name) (hshort : LogFits name []) :
    ∃ tmp : CBuf recvBufferLength, tmp.text = fieldOf h.recvdatabuf.text name ∧
      h.parseItem CBuf.empty location.toList =
        if LogFits name tmp.text then .ok tmp else .error .overrun := by
  have hread := findSome_mention ha h.recvdatabuf.text
  rw [parseItem, parseItemWith, hloc, fieldOf, ← hread]
  cases hs : strstr h.recvdatabuf.text (name ++ ['=']) with
  | none => exact ⟨CBuf.empty, rfl, (if_pos hshort).symm⟩
  | some t =>
    obtain ⟨hsuf, u, rfl⟩ := strstr_eq_some hs
    have hnul : nul ∉ name ++ ['='] ++ u := fun hn => h.recvdatabuf.nul_free (hsuf.subset hn)
    have hlen := hsuf.length_le.trans_lt h.recvdatabuf.text_lt
    obtain ⟨tmp, htmp, htext⟩ :=
      CBuf.exists_scanInto (CBuf.empty : CBuf recvBufferLength)
        (between '=' '&') hnul hlen
    have hdrop : (name ++ ['='] ++ u).drop (name.length + 1) = u := by simp
    refine ⟨tmp, ?_, ?_⟩
    · rw [htext, CBuf.text_empty, Option.map_some, Option.getD_some, hdrop, List.append_assoc,
        List.singleton_append, headD_sscanf_between hne he]
    · have hline : name ++ ['='] ++ tmp.text ++ "\n".toList =
          name ++ '=' :: tmp.text ++ ['\n'] := by
        simp
      dsimp only
      rw [code_lift, htmp, ok_bind, dbug_code, hline]
      split
      · next hfit => rw [amsDbugLog_of_lt hfit]; rfl
      · next hfit =>
        have hfree : nul ∉ name ++ '=' :: tmp.text ++ ['\n'] := by
          have hname : nul ∉ name := fun hn => hnul (by simp [hn])
          simp [hname, tmp.nul_free, nul]
        rw [amsDbugLog_of_le hfree (not_lt.mp hfit)]
        rfl

/-- **One item of `ParseQueryAuth`**: its value is refused, or copied as it stands in the text. -/
theorem readMember_eq (h : HttpData) {len : ℕ} {location name refusal : String}
    {refused : ℕ → Prop} [DecidablePred refused]
    (hloc : location = name ++ "=") (hname : name ≠ "" ∧ '=' ∉ name.toList ∧ '&' ∉ name.toList)
    (hshort : LogFits name.toList []) (hrefusal : LineFits refusal.toList)
    (hmember : location.toList.length + len + 2 ≤ oneLogLen) (hfit : ∀ n, ¬ refused n → n ≤ len) :
    ∃ o : Option (CBuf (len + 1)),
      (h.readMemberWith Event.code len location refused refusal =
        if LogFits name.toList (fieldOf h.recvdatabuf.text name.toList) then .ok o
        else .error .overrun) ∧
      (refused (fieldOf h.recvdatabuf.text name.toList).length → o = none) ∧
      (¬ refused (fieldOf h.recvdatabuf.text name.toList).length →
        ∃ b, o = some b ∧ b.text = fieldOf h.recvdatabuf.text name.toList) := by
  obtain ⟨hne, he, ha⟩ := hname
  have hkey : location.toList = name.toList ++ ['='] := by rw [hloc, String.toList_append]; rfl
  obtain ⟨tmp, htext, htmp⟩ := parseItem_eq h hkey (by simpa using hne) he ha hshort
  rw [parseItem] at htmp
  rw [← htext, readMemberWith, htmp]
  by_cases hlog : LogFits name.toList tmp.text
  · simp only [if_pos hlog, ok_bind, code_item_bind]
    by_cases hr : refused tmp.text.length
    · refine ⟨none, ?_, fun _ => rfl, fun hn => absurd hr hn⟩
      rw [if_pos hr]
      exact dbug_code_bind hrefusal _
    · have hlt : tmp.text.length < len + 1 := Nat.lt_succ_of_le (hfit _ hr)
      have hcopy : CBuf.strncpyS (len + 1) (len + 1) tmp.text tmp.text.length =
          .ok ⟨tmp.text, hlt, tmp.nul_free⟩ := by
        rw [CBuf.strncpyS_eq_ok, CBuf.cstr_text, List.take_length]
        exact ⟨hlt, rfl⟩
      have hline : LineFits (location.toList ++ tmp.text ++ "\n".toList) := by
        have hone : "\n".toList.length = 1 := rfl
        rw [LineFits, List.length_append, List.length_append, hone]
        omega
      refine ⟨some ⟨tmp.text, hlt, tmp.nul_free⟩, ?_, fun h => absurd h hr, fun _ => ⟨_, rfl, rfl⟩⟩
      rw [if_neg hr, code_lift, hcopy, ok_bind]
      exact dbug_code_bind hline _
  · -- the line for the value is the first that is logged
    simp only [if_neg hlog]
    by_cases hr : refused tmp.text.length
    · exact ⟨none, rfl, fun _ => rfl, fun hn => absurd hr hn⟩
    · exact ⟨some ⟨tmp.text, Nat.lt_succ_of_le (hfit _ hr), tmp.nul_free⟩, rfl,
        fun h => absurd h hr, fun _ => ⟨_, rfl, rfl⟩⟩

/-- What an item decides is refused, or left to the rest. -/
theorem Parsed.readMember {h₀ h : HttpData} {len : ℕ} {location name refusal : String}
    {value : Text} {refused : ℕ → Prop} [DecidablePred refused] {e : Errorcode}
    {rest : ParseOutcome} {next : Option (CBuf (len + 1)) → Except Fault HttpData}
    (hloc : location = name ++ "=") (hname : name ≠ "" ∧ '=' ∉ name.toList ∧ '&' ∉ name.toList)
    (hshort : LogFits name.toList []) (hrefusal : LineFits refusal.toList)
    (hmember : location.toList.length + len + 2 ≤ oneLogLen)
    (hvalue : fieldOf h.recvdatabuf.text name.toList = value) (hfit : ∀ n, ¬ refused n → n ≤ len)
    (hrecv : h.recvdatabuf = h₀.recvdatabuf) (hpay : h.payloadbuf = h₀.payloadbuf)
    (hnone : next none = .ok (h.setError e))
    (hsome : ∀ b : CBuf (len + 1), b.text = value → Parsed h₀ rest (next (some b))) :
    Parsed h₀ (itemOutcome name value refused e rest)
      (h.readMemberWith Event.code len location refused refusal >>= next) := by
  obtain ⟨o, hread, hrefused, haccepted⟩ := readMember_eq h hloc hname hshort hrefusal hmember hfit
  rw [hvalue] at hread hrefused haccepted
  rw [hread, itemOutcome]
  by_cases hlog : LogFits name.toList value
  · rw [if_pos hlog, if_pos hlog, ok_bind]
    by_cases hr : refused value.length
    · rw [if_pos hr, hrefused hr, hnone]
      exact .error hrecv hpay rfl rfl
    · obtain ⟨b, rfl, hb⟩ := haccepted hr
      rw [if_neg hr]
      exact hsome b hb
  · rw [if_neg hlog, if_neg hlog]
    exact .overrun

/-! ## The authorization query -/

/-- **`ParseQueryAuth` leaves what the five values decide.** -/
theorem parseQueryAuth_spec (h : HttpData) :
    Parsed h (authOutcome (readFields h.recvdatabuf.text)) h.parseQueryAuth := by
  obtain ⟨f, hf⟩ : ∃ f, readFields h.recvdatabuf.text = f := ⟨_, rfl⟩
  rw [hf, parseQueryAuth, parseQueryAuthWith, authOutcome]
  simp (disch := decide) only [dbug_code_bind]
  refine .readMember rfl (by decide) (by decide) (by decide) (by decide)
    (congrArg AuthFields.projectid hf) (fun _ => not_lt.mp) rfl rfl rfl fun bp hp => ?_
  dsimp only
  rw [hp]
  split
  · exact .error rfl rfl rfl rfl
  refine .readMember rfl (by decide) (by decide) (by decide) (by decide)
    (congrArg AuthFields.vendorid hf) (fun _ => not_lt.mp) rfl rfl rfl fun bv hv => ?_
  dsimp only
  rw [hv]
  split
  · exact .error rfl rfl rfl rfl
  refine .readMember rfl (by decide) (by decide) (by decide) (by decide)
    (congrArg AuthFields.stbid hf) (fun _ => not_lt.mp) rfl rfl rfl fun bs hs => ?_
  refine .readMember rfl (by decide) (by decide) (by decide) (by decide)
    (congrArg AuthFields.chipid hf) (fun _ => not_lt.mp) rfl rfl rfl fun bc hc => ?_
  refine .readMember rfl (by decide) (by decide) (by decide) (by decide)
    (congrArg AuthFields.macaddr hf) (fun n hn => by rw [macLength]; omega) rfl rfl rfl
    fun bm hm => ?_
  dsimp only
  rw [hs, hc, hm]
  split
  · next hsum => exact .auth rfl rfl (if_pos hsum).symm hp hv hs hc hm
  · next hsum => exact .auth rfl rfl (if_neg hsum).symm hp hv hs hc hm

/-! ## The whole query -/

/-- The scan of `ParseQuery` reads the value of the first segment, when it has a key. -/
theorem headD_sscanf_queryType {query : Text} (hkey : query.takeWhile (· ≠ '=') ≠ [])
    (heq : '=' ∈ query) : (sscanf (between '=' '&') query).headD [] = queryType query := by
  obtain ⟨key, rest, rfl, he⟩ := List.eq_append_cons_of_mem heq
  rw [takeWhile_ne_append he] at hkey
  rw [headD_sscanf_between hkey he, queryType, dropWhile_ne_append he, List.tail_cons]

/-- `ParseQuery` leaves what the query type and the five values decide. -/
theorem parseQuery_spec (h : HttpData) (hkey : h.recvdatabuf.text.takeWhile (· ≠ '=') ≠ [])
    (heq : '=' ∈ h.recvdatabuf.text) :
    Parsed h (itemOutcome "Query" (queryType h.recvdatabuf.text) (1 ≠ ·) .kQueryLenIsWrong <|
      if queryType h.recvdatabuf.text = "0".toList then authOutcome (readFields h.recvdatabuf.text)
      else if queryType h.recvdatabuf.text = "1".toList then .nothing
      else .error .kQueryNumberUndefine) h.parseQuery := by
  obtain ⟨querytype, hscan, htext⟩ :=
    CBuf.exists_scanInto (CBuf.empty : CBuf recvBufferLength) (between '=' '&')
      h.recvdatabuf.nul_free h.recvdatabuf.text_lt
  rw [CBuf.text_empty, headD_sscanf_queryType hkey heq] at htext
  have hline : "Query=".toList ++ querytype.text ++ "\n".toList =
      "Query".toList ++ '=' :: querytype.text ++ ['\n'] := by simp
  rw [parseQuery, parseQueryWith, code_lift, hscan, ok_bind, dbug_code, hline, itemOutcome, ← htext]
  simp (disch := decide) only [dbug_code_bind]
  split
  · next hfit =>
    rw [amsDbugLog_of_lt hfit, ok_bind]
    split
    · exact .error rfl rfl rfl rfl
    · split
      · exact parseQueryAuth_spec h
      · split
        · exact .nothing
        · exact .error rfl rfl rfl rfl
  · next hfit =>
    have hfree : nul ∉ "Query".toList ++ '=' :: querytype.text ++ ['\n'] := by
      simp [querytype.nul_free, nul]
    rw [amsDbugLog_of_le hfree (not_lt.mp hfit)]
    exact .overrun

/-- **`ParseRecvBuf` leaves what the text decides.** -/
theorem parseRecvBuf_spec (h : HttpData) :
    Parsed h (parseOutcome h.recvdatabuf.text) h.parseRecvBuf := by
  rw [parseRecvBuf, parseRecvBufWith, parseOutcome]
  simp (disch := decide) only [dbug_code_bind]
  split
  · next hq =>
    have hkey : strnicmpEq h.recvdatabuf.text ("Query".toList ++ ['='])
        ("Query".toList ++ ['=']).length = true := hq
    obtain ⟨w, rest, hs, hw⟩ := strnicmpEq_key.mp hkey
    have he : '=' ∉ w := equals_notMem_of_map_toLower hw (by decide)
    have hne : w ≠ [] := by rintro rfl; simp at hw
    exact parseQuery_spec h (by rw [hs, takeWhile_ne_append he]; exact hne) (by simp [hs])
  · split
    · exact .nothing
    · exact .error rfl rfl rfl rfl

/-! ## What a refused query leaves -/

/-- An object whose query was refused: it has the names accepted so far, and an error that is not
one of the catalogue. -/
structure Refused (query : Text) (base : HttpData) : Prop where
  projectid : base.projectid.text = keptProjectid query base.errorcode
  vendorid : base.vendorid.text = keptVendorid query base.errorcode
  ne_project : base.errorcode ≠ .kProjectIDIsWrong
  ne_vendor : base.errorcode ≠ .kVendorIDIsWrong

theorem refused_setError {query : Text} {h : HttpData} {e : Errorcode}
    (hproject : h.projectid.text = keptProjectid query e)
    (hvendor : h.vendorid.text = keptVendorid query e)
    (he : e ≠ .kProjectIDIsWrong ∧ e ≠ .kVendorIDIsWrong) : Refused query (h.setError e) :=
  ⟨hproject, hvendor, he.1, he.2⟩

/-- A value that is read is refused, or copied as it stands in the text. -/
theorem readMember_eq_ok (name : String) {h : HttpData} {len : ℕ} {location refusal : String}
    {refused : ℕ → Prop} [DecidablePred refused] {o : Option (CBuf (len + 1))}
    (hloc : location = name ++ "=")
    (hname : name ≠ "" ∧ '=' ∉ name.toList ∧ '&' ∉ name.toList)
    (hshort : LogFits name.toList []) (hrefusal : LineFits refusal.toList)
    (hmember : location.toList.length + len + 2 ≤ oneLogLen) (hfit : ∀ n, ¬ refused n → n ≤ len)
    (hok : h.readMemberWith Event.code len location refused refusal = .ok o) :
    o = none ∨ ∃ b, o = some b ∧ b.text = fieldOf h.recvdatabuf.text name.toList := by
  obtain ⟨o', hread, hrefused, haccepted⟩ := readMember_eq h hloc hname hshort hrefusal hmember hfit
  rw [hread] at hok
  split at hok
  · cases hok
    by_cases hr : refused (fieldOf h.recvdatabuf.text name.toList).length
    · exact Or.inl (hrefused hr)
    · exact Or.inr (haccepted hr)
  · cases hok

/-- `ParseQueryAuth` keeps the values before the one it refuses. -/
theorem parseQueryAuth_refused {h base : HttpData} (hproject : h.projectid.text = [])
    (hvendor : h.vendorid.text = []) (hok : h.parseQueryAuth = .ok base)
    (hflag : base.sendflag = .kErrorFlag) : Refused h.recvdatabuf.text base := by
  rw [parseQueryAuth, parseQueryAuthWith] at hok
  simp (disch := decide) only [dbug_code_bind] at hok
  obtain ⟨o, ho, hok⟩ := bind_eq_ok.mp hok
  rcases readMember_eq_ok "ProjectID" rfl (by decide) (by decide) (by decide)
      (by decide) (fun _ => not_lt.mp) ho with rfl | ⟨bp, rfl, hp⟩
  · cases hok
    exact refused_setError hproject hvendor (by decide)
  dsimp only at hok
  split at hok
  next hempty =>
    cases hok
    exact refused_setError (List.length_eq_zero_iff.mp hempty) hvendor (by decide)
  obtain ⟨o, ho, hok⟩ := bind_eq_ok.mp hok
  rcases readMember_eq_ok "VendorID" rfl (by decide) (by decide) (by decide)
      (by decide) (fun _ => not_lt.mp) ho with rfl | ⟨bv, rfl, hv⟩
  · cases hok
    exact refused_setError hp hvendor (by decide)
  dsimp only at hok
  split at hok
  next hempty =>
    cases hok
    exact refused_setError hp (List.length_eq_zero_iff.mp hempty) (by decide)
  obtain ⟨o, ho, hok⟩ := bind_eq_ok.mp hok
  rcases readMember_eq_ok "STBID" rfl (by decide) (by decide) (by decide)
      (by decide) (fun _ => not_lt.mp) ho with rfl | ⟨bs, rfl, hs⟩
  · cases hok
    exact refused_setError hp hv (by decide)
  obtain ⟨o, ho, hok⟩ := bind_eq_ok.mp hok
  rcases readMember_eq_ok "ChipID" rfl (by decide) (by decide) (by decide)
      (by decide) (fun _ => not_lt.mp) ho with rfl | ⟨bc, rfl, hc⟩
  · cases hok
    exact refused_setError hp hv (by decide)
  obtain ⟨o, ho, hok⟩ := bind_eq_ok.mp hok
  rcases readMember_eq_ok "MAC" rfl (by decide) (by decide) (by decide)
      (by decide) (fun n hn => by rw [macLength]; omega) ho with rfl | ⟨bm, rfl, hm⟩
  · cases hok
    exact refused_setError hp hv (by decide)
  -- all values were accepted
  dsimp only at hok
  split at hok <;> cases hok <;> cases hflag

/-- **What `ParseRecvBuf` leaves of the names when it refuses a query.** -/
theorem parseRecvBuf_refused {h base : HttpData} (hproject : h.projectid.text = [])
    (hvendor : h.vendorid.text = []) (hnone : h.sendflag = .kNullFlag)
    (hok : h.parseRecvBuf = .ok base) (hflag : base.sendflag = .kErrorFlag) :
    Refused h.recvdatabuf.text base := by
  have hactivate : base ≠ h := by
    rintro rfl
    rw [hnone] at hflag
    cases hflag
  rw [parseRecvBuf, parseRecvBufWith, parseQueryWith] at hok
  simp (disch := decide) only [dbug_code_bind] at hok
  split at hok
  · obtain ⟨querytype, -, hok⟩ := bind_eq_ok.mp hok
    obtain ⟨u, -, hok⟩ := bind_eq_ok.mp hok
    split at hok
    · cases hok
      exact refused_setError hproject hvendor (by decide)
    · split at hok
      · exact parseQueryAuth_refused hproject hvendor hok hflag
      · split at hok
        · exact absurd (Except.ok.inj hok).symm hactivate
        · cases hok
          exact refused_setError hproject hvendor (by decide)
  · split at hok
    · exact absurd (Except.ok.inj hok).symm hactivate
    · cases hok
      exact refused_setError hproject hvendor (by decide)

/-- A query that was refused is one the parser decides to refuse. -/
theorem parseOutcome_of_refused {h base : HttpData} (hnone : h.sendflag = .kNullFlag)
    (hok : h.parseRecvBuf = .ok base) (hflag : base.sendflag = .kErrorFlag) :
    parseOutcome h.recvdatabuf.text = .error base.errorcode ∧ base.payloadbuf = h.payloadbuf := by
  have hspec := parseRecvBuf_spec h
  rw [hok] at hspec
  generalize parseOutcome h.recvdatabuf.text = o at hspec ⊢
  cases hspec with
  | nothing =>
    rw [hnone] at hflag
    cases hflag
  | error recvdatabuf payloadbuf sendflag errorcode => exact ⟨by rw [errorcode], payloadbuf⟩
  | auth recvdatabuf payloadbuf sendflag =>
    rw [sendflag, authFlag] at hflag
    split at hflag <;> cases hflag

end HttpData

end AMSServer
