import AMSServer.HttpData.Parse

/-!
# What `HttpData` answers

The payload is a function of what the parser decided (`answerText`): no answer at all, the name of
an error, or the state of a box. Every payload is short, so the appends never leave `payloadbuf`,
and `answer_eq` gives the result of the whole class for every text that a client can send.
-/

namespace AMSServer

open CRuntime Fields

/-- The name of an enumerator. -/
def Errorcode.name : Errorcode → String
  | kNoField => "NoField"
  | kQueryLenIsWrong => "QueryLenIsWrong"
  | kQueryNumberUndefine => "QueryNumberUndefine"
  | kNoProjectID => "NoProjectID"
  | kProjectIDIsWrong => "ProjectIDIsWrong"
  | kNoVendorID => "NoVendorID"
  | kVendorIDIsWrong => "VendorIDIsWrong"
  | kProjectIDTooLong => "ProjectIDTooLong"
  | kVendorIDTooLong => "VendorIDTooLong"
  | kSTBIDTooLong => "STBIDTooLong"
  | kChipIDTooLong => "ChipIDTooLong"
  | kMACLenIsWrong => "MACLenIsWrong"
  | kNullError => "NullError"

/-- **`ErrorContext` has the name of every error at its number.** -/
theorem errorContext_toNat {e : Errorcode} (he : e ≠ .kNullError) :
    errorContext[e.toNat]? = some (some e.name) := by
  cases e <;> first | rfl | exact absurd rfl he

/-- The state of the first identifier given, or the total. -/
def authText (f : AuthFields) : Text :=
  if f.stbid.length ≠ 0 then "AuthState=StbId".toList
  else if f.chipid.length ≠ 0 then "AuthState=ChipId".toList
  else if f.macaddr.length ≠ 0 then "AuthState=Mac".toList
  else "AuthSum=0".toList

/-- The payload for what the parser decided, with `none` for `FALSE`. -/
def answerText : ParseOutcome → Except Fault (Option Text)
  | .nothing => .ok none
  | .error e => .ok (some ("ErrorCode=".toList ++ e.name.toList))
  | .auth f => .ok (some (authText f))
  | .overrun => .error .overrun

/-- An item decides nothing but its two failures and what the rest decides. -/
theorem itemOutcome_ne {name : String} {value : Text} {refused : ℕ → Prop} [DecidablePred refused]
    {e : Errorcode} {rest o : ParseOutcome} (herror : .error e ≠ o) (hover : .overrun ≠ o)
    (hrest : rest ≠ o) : itemOutcome name value refused e rest ≠ o := by
  unfold itemOutcome
  split
  · split
    · exact herror
    · exact hrest
  · exact hover

/-- The five values decide nothing but an error, an overrun and themselves. -/
theorem authOutcome_ne {f : AuthFields} {o : ParseOutcome}
    (herror : ∀ e : Errorcode, e ≠ .kNullError → .error e ≠ o) (hover : .overrun ≠ o)
    (hauth : .auth f ≠ o) : authOutcome f ≠ o := by
  apply itemOutcome_ne (herror _ (by decide)) hover
  split
  · exact herror _ (by decide)
  apply itemOutcome_ne (herror _ (by decide)) hover
  split
  · exact herror _ (by decide)
  apply itemOutcome_ne (herror _ (by decide)) hover
  apply itemOutcome_ne (herror _ (by decide)) hover
  exact itemOutcome_ne (herror _ (by decide)) hover hauth

/-- The parser never decides on the error that stands for no error. -/
theorem parseOutcome_ne_kNullError (query : Text) : parseOutcome query ≠ .error .kNullError := by
  have herror : ∀ e : Errorcode, e ≠ .kNullError → ParseOutcome.error e ≠ .error .kNullError := by
    intro e he h
    exact he (ParseOutcome.error.inj h)
  unfold parseOutcome
  split
  · apply itemOutcome_ne (herror _ (by decide)) ParseOutcome.noConfusion
    split
    · exact authOutcome_ne herror ParseOutcome.noConfusion ParseOutcome.noConfusion
    · split
      · exact ParseOutcome.noConfusion
      · exact herror _ (by decide)
  · split
    · exact ParseOutcome.noConfusion
    · exact herror _ (by decide)

theorem answerText_ne_nil {o : ParseOutcome} {t : Text} (h : answerText o = .ok (some t)) :
    t ≠ [] := by
  cases o with
  | nothing => cases h
  | error e => cases h; simp
  | auth f =>
    cases h
    unfold authText
    split
    · decide
    · split
      · decide
      · split <;> decide
  | overrun => cases h

/-- Every payload fits its buffer. -/
theorem answerText_fits {o : ParseOutcome} {t : Text} (h : answerText o = .ok (some t)) :
    nul ∉ t ∧ t.length < payloadBufferLength := by
  cases o with
  | nothing => cases h
  | error e => cases h; cases e <;> decide
  | auth f =>
    cases h
    unfold authText
    split
    · decide
    · split
      · decide
      · split <;> decide
  | overrun => cases h

/-! ## Short queries -/

theorem length_fieldOf_le {name : Text} (ha : '&' ∉ name) (query : Text) :
    (fieldOf query name).length ≤ query.length := by
  rw [fieldOf, ← findSome_mention ha]
  cases hs : strstr query (name ++ ['=']) with
  | none => exact Nat.zero_le _
  | some t =>
    have hdrop : (t.drop (name.length + 1)).takeWhile (· ≠ '&') <:+: t :=
      (List.takeWhile_prefix _).isInfix.trans (List.drop_suffix _ _).isInfix
    exact hdrop.length_le.trans (strstr_eq_some hs).1.length_le

theorem length_queryType_le (query : Text) : (queryType query).length ≤ query.length :=
  ((List.takeWhile_prefix _).length_le.trans (List.tail_suffix _).length_le).trans
    (List.dropWhile_suffix _).length_le

theorem itemOutcome_ne_overrun {name : String} {value : Text} {refused : ℕ → Prop}
    [DecidablePred refused] {e : Errorcode} {rest : ParseOutcome}
    (hfit : name.toList.length + value.length + 2 < oneLogLen) (hrest : rest ≠ .overrun) :
    itemOutcome name value refused e rest ≠ .overrun := by
  have hlog : LogFits name.toList value := by
    unfold LogFits
    simp only [List.length_append, List.length_cons, List.length_nil]
    omega
  rw [itemOutcome, if_pos hlog]
  split
  · exact ParseOutcome.noConfusion
  · exact hrest

/-- **The log lines of a short query fit their buffer.** -/
theorem parseOutcome_ne_overrun {query : Text} (h : query.length < 256) :
    parseOutcome query ≠ .overrun := by
  have hfield : ∀ name : String, '&' ∉ name.toList → name.toList.length ≤ 9 →
      name.toList.length + (fieldOf query name.toList).length + 2 < oneLogLen := by
    intro name ha hn
    have hlen := length_fieldOf_le ha query
    rw [oneLogLen]
    omega
  have htype := length_queryType_le query
  have hauth : authOutcome (readFields query) ≠ .overrun := by
    apply itemOutcome_ne_overrun (hfield "ProjectID" (by decide) (by decide))
    split
    · exact ParseOutcome.noConfusion
    apply itemOutcome_ne_overrun (hfield "VendorID" (by decide) (by decide))
    split
    · exact ParseOutcome.noConfusion
    apply itemOutcome_ne_overrun (hfield "STBID" (by decide) (by decide))
    apply itemOutcome_ne_overrun (hfield "ChipID" (by decide) (by decide))
    exact itemOutcome_ne_overrun (hfield "MAC" (by decide) (by decide))
      ParseOutcome.noConfusion
  have hname : ("Query".toList).length = 5 := rfl
  unfold parseOutcome
  split
  · apply itemOutcome_ne_overrun (by rw [hname, oneLogLen]; omega)
    split
    · exact hauth
    · split <;> exact ParseOutcome.noConfusion
  · split <;> exact ParseOutcome.noConfusion

theorem authOutcome_ne_nothing (f : AuthFields) : authOutcome f ≠ .nothing :=
  authOutcome_ne (fun _ _ => ParseOutcome.noConfusion) ParseOutcome.noConfusion
    ParseOutcome.noConfusion

/-- Only the two activation branches decide on nothing. -/
theorem parseOutcome_eq_nothing_iff {query : Text} (h : query.length < 256) :
    parseOutcome query = .nothing ↔
      strnicmpEq query "Activate=".toList "Activate=".length = true ∨
        (strnicmpEq query "Query=".toList "Query=".length = true ∧
          queryType query = "1".toList) := by
  have hlog : LogFits "Query".toList (queryType query) := by
    have htype := length_queryType_le query
    have hname : ("Query".toList).length = 5 := rfl
    unfold LogFits
    simp only [List.length_append, List.length_cons, List.length_nil, hname, oneLogLen]
    omega
  unfold parseOutcome
  by_cases hq : strnicmpEq query "Query=".toList "Query=".length = true
  · have hactivate : ¬ strnicmpEq query "Activate=".toList "Activate=".length = true := fun ha =>
      absurd (@map_toLower_eq_of_strnicmpEq query "Query".toList "Activate".toList (by decide)
        (by decide) hq ha) (by decide)
    rw [if_pos hq, itemOutcome, if_pos hlog]
    by_cases h1 : queryType query = "1".toList
    · rw [h1]
      exact iff_of_true rfl (Or.inr ⟨hq, rfl⟩)
    · refine iff_of_false ?_ fun hor => hor.elim hactivate fun hand => h1 hand.2
      rw [if_neg h1]
      split
      · exact ParseOutcome.noConfusion
      · split
        · exact authOutcome_ne_nothing _
        · exact ParseOutcome.noConfusion
  · rw [if_neg hq]
    by_cases ha : strnicmpEq query "Activate=".toList "Activate=".length = true
    · exact iff_of_true (if_pos ha) (Or.inl ha)
    · rw [if_neg ha]
      exact iff_of_false ParseOutcome.noConfusion fun hor => hor.elim ha fun hand => hq hand.1

namespace HttpData

/-- An append of text that fits. -/
theorem append_eq {h : HttpData} {t : Text} (hnul : nul ∉ t)
    (hfit : h.payloadbuf.text.length + t.length < payloadBufferLength) :
    ∃ b : CBuf payloadBufferLength, b.text = h.payloadbuf.text ++ t ∧
      h.append t = .ok { h with payloadbuf := b } := by
  obtain ⟨b, hcat, hb⟩ := CBuf.exists_strcatS _ hnul hfit hfit
  refine ⟨b, hb, ?_⟩
  rw [append, hcat]
  rfl

/-- The result of a builder: its `BOOL` and the payload. -/
def result (r : Bool × HttpData) : Bool × Text := (r.1, r.2.payloadbuf.text)

/-- A builder of a fixed text writes it into an empty payload. -/
theorem appendBuilder_eq {h : HttpData} {t : String} (hpay : h.payloadbuf.text = [])
    (hnul : nul ∉ t.toList) (hfit : t.toList.length < payloadBufferLength) :
    (appendBuilder Event.code t h).map result = .ok (true, t.toList) := by
  obtain ⟨b, hb, happ⟩ := append_eq (h := h) hnul (by simpa [hpay] using hfit)
  rw [appendBuilder, code_lift, happ]
  simp [Except.map, pure, Except.pure, result, hb, hpay]

/-- **An error is answered by its name.** -/
theorem buildErrorPayLoad_eq {h : HttpData} (hpay : h.payloadbuf.text = [])
    (he : h.errorcode ≠ .kNullError) :
    h.buildErrorPayLoad.map result =
      .ok (true, "ErrorCode=".toList ++ h.errorcode.name.toList) := by
  have hname : nul ∉ h.errorcode.name.toList ∧ h.errorcode.name.toList.length < 1000 := by
    cases h.errorcode <;> decide
  obtain ⟨b, hb, happ⟩ := append_eq (h := h) (t := "ErrorCode=".toList) (by decide)
    (by rw [hpay]; decide)
  rw [hpay, List.nil_append] at hb
  have hten : b.text.length = 10 := by rw [hb]; rfl
  obtain ⟨b', hb', happ'⟩ := append_eq (h := { h with payloadbuf := b }) hname.1
    (by change b.text.length + _ < 1024; omega)
  rw [buildErrorPayLoad, buildErrorPayLoadWith, if_neg he, code_lift, happ, ok_bind]
  dsimp only
  rw [errorContext_toNat he]
  dsimp only
  rw [code_lift, happ']
  simp [Except.map, pure, Except.pure, result, hb', hb]

theorem buildPayLoad_error_eq (b : Builders (Except Fault)) {h : HttpData}
    (hflag : h.sendflag = .kErrorFlag) (hpay : h.payloadbuf.text = [])
    (he : h.errorcode ≠ .kNullError) :
    (buildPayLoad b h).map result = .ok (true, "ErrorCode=".toList ++ h.errorcode.name.toList) := by
  rw [buildPayLoad_error b hflag, buildErrorPayLoad_eq hpay he]

/-- **What `HandleHttpData` returns.** -/
theorem handleHttpData_eq {h : HttpData} (hflag : h.sendflag = .kNullFlag)
    (hpay : h.payloadbuf.text = []) :
    h.handleHttpData.map result =
      (answerText (parseOutcome h.recvdatabuf.text)).map fun t => (t.isSome, t.getD []) := by
  have hnull := parseOutcome_ne_kNullError h.recvdatabuf.text
  have hspec := parseRecvBuf_spec h
  rw [handleHttpData_bind]
  generalize parseOutcome h.recvdatabuf.text = o at hspec hnull ⊢
  generalize h.parseRecvBuf = x at hspec ⊢
  cases hspec with
  | nothing =>
    rw [ok_bind, buildPayLoad_null _ hflag]
    simp [Except.map, result, hpay, answerText]
  | @error e h' hrecv hpay' hf he =>
    have hne : h'.errorcode ≠ .kNullError := by rintro heq; exact hnull (by rw [← he, heq])
    rw [ok_bind, answerText, ← he]
    exact buildPayLoad_error_eq _ hf (by rw [hpay', hpay]) hne
  | @auth f h' hrecv hpay' hf hp hv hs hc hm =>
    have hempty : h'.payloadbuf.text = [] := by rw [hpay', hpay]
    rw [ok_bind, answerText, authText]
    by_cases hs0 : f.stbid.length = 0
    · by_cases hc0 : f.chipid.length = 0
      · by_cases hm0 : f.macaddr.length = 0
        · have hsum : h'.sendflag = .kQueryAuthSum := hf.trans (if_pos ⟨hs0, hc0, hm0⟩)
          simp only [hs0, hc0, hm0, ne_eq, not_true, if_false]
          rw [buildPayLoad_sum _ hsum]
          exact appendBuilder_eq hempty (by decide) (by decide)
        · have hstate : h'.sendflag = .kQueryAuthState := hf.trans (if_neg fun h => hm0 h.2.2)
          rw [buildPayLoad_state _ hstate, buildQueryAuthStatePayLoad_eq, hs, hc, hm]
          simp only [hs0, hc0, hm0, ne_eq, not_true, not_false_iff, if_false, if_true]
          exact appendBuilder_eq hempty (by decide) (by decide)
      · have hstate : h'.sendflag = .kQueryAuthState := hf.trans (if_neg fun h => hc0 h.2.1)
        rw [buildPayLoad_state _ hstate, buildQueryAuthStatePayLoad_eq, hs, hc]
        simp only [hs0, hc0, ne_eq, not_true, not_false_iff, if_false, if_true]
        exact appendBuilder_eq hempty (by decide) (by decide)
    · have hstate : h'.sendflag = .kQueryAuthState := hf.trans (if_neg fun h => hs0 h.1)
      rw [buildPayLoad_state _ hstate, buildQueryAuthStatePayLoad_eq, hs]
      simp only [hs0, ne_eq, not_false_iff, if_true]
      exact appendBuilder_eq hempty (by decide) (by decide)
  | overrun => rfl

/-- A text that is answered leaves the answer in the payload. -/
theorem handleHttpData_of_ok {h : HttpData} (hflag : h.sendflag = .kNullFlag)
    (hpay : h.payloadbuf.text = []) {a : Option Text}
    (ha : answerText (parseOutcome h.recvdatabuf.text) = .ok a) :
    ∃ h', h.handleHttpData = .ok (a.isSome, h') ∧ h'.payloadbuf.text = a.getD [] := by
  have hmap := handleHttpData_eq hflag hpay
  rw [ha] at hmap
  cases hhandle : h.handleHttpData with
  | error e =>
    rw [hhandle] at hmap
    cases hmap
  | ok r =>
    obtain ⟨ok, h'⟩ := r
    rw [hhandle] at hmap
    obtain ⟨rfl, htext⟩ := Prod.mk.inj (Except.ok.inj hmap)
    exact ⟨h', rfl, htext⟩

theorem handleHttpData_of_error {h : HttpData} (hflag : h.sendflag = .kNullFlag)
    (hpay : h.payloadbuf.text = []) {e : Fault}
    (ha : answerText (parseOutcome h.recvdatabuf.text) = .error e) :
    h.handleHttpData = .error e := by
  have hmap := handleHttpData_eq hflag hpay
  rw [ha] at hmap
  cases hhandle : h.handleHttpData with
  | error e' =>
    rw [hhandle] at hmap
    cases hmap
    rfl
  | ok r =>
    rw [hhandle] at hmap
    cases hmap

/-- The constructor copies a text that fits. -/
theorem new_of_lt {comedata : Text} (hnul : nul ∉ comedata)
    (hfit : comedata.length < recvBufferLength) :
    new comedata = .ok (ofRecv ⟨comedata, hfit, hnul⟩) := by
  have hcopy : CBuf.strncpyS recvBufferLength recvBufferLength comedata
      (cstr comedata).length = .ok ⟨comedata, hfit, hnul⟩ := by
    rw [CBuf.strncpyS_eq_ok, List.take_length, cstr_of_notMem hnul]
    exact ⟨hfit, rfl⟩
  rw [new, hcopy]
  rfl

/-- The constructor refuses a text that does not fit. -/
theorem new_eq_ok {comedata : Text} {h : HttpData} (hnul : nul ∉ comedata)
    (hnew : new comedata = .ok h) :
    comedata.length < recvBufferLength ∧ h.recvdatabuf.text = comedata := by
  rw [new, bind_eq_ok] at hnew
  obtain ⟨recvdatabuf, hcopy, hok⟩ := hnew
  rw [CBuf.strncpyS_eq_ok, List.take_length, cstr_of_notMem hnul] at hcopy
  cases hok
  exact hcopy

/-- **What the class answers to a text that fits its buffer.** -/
theorem answer_eq {comedata : Text} (hnul : nul ∉ comedata)
    (hfit : comedata.length < recvBufferLength) :
    (answer comedata).map (fun r => (r.1, r.2.text)) =
      (answerText (parseOutcome comedata)).map fun t => (t.isSome, t.getD []) := by
  have h := handleHttpData_eq (h := ofRecv ⟨comedata, hfit, hnul⟩) rfl rfl
  change _ = (answerText (parseOutcome comedata)).map _ at h
  rw [← h, answer, new_of_lt hnul hfit, ok_bind]
  cases (ofRecv ⟨comedata, hfit, hnul⟩).handleHttpData with
  | error e => rfl
  | ok r => rfl

end HttpData

end AMSServer
