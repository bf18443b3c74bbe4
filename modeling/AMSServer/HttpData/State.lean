import AMSServer.HttpData.Items
import AMSServer.HttpData.Logged

/-!
# What the parser leaves for the builders

`BuildPayLoad` relies on what `ParseRecvBuf` left: an error has a name in `ErrorContext`, a query
for one box has an identifier, and the values are within their bounds (`Consistent`). The parser
establishes this for every text (`parseRecvBufLogged_returns`), and it leaves no flag exactly for a
request for activation (`AsksActivation`). So `HandleHttpData` never comes to the lines that should
not show up, and returns `FALSE` for those requests only (`parseRecvBuf_consistent`).
-/

namespace AMSServer

open CRuntime Fields Logged

/-- The text starts with `Activate=`, or is a query of type `1`. -/
def AsksActivation (query : Text) : Prop :=
  strnicmpEq query "Activate=".toList "Activate=".length = true ∨
    (strnicmpEq query "Query=".toList "Query=".length = true ∧ queryType query = "1".toList)

/-- No text starts with both words. -/
theorem not_activate_of_query {query : Text}
    (hq : strnicmpEq query "Query=".toList "Query=".length = true) :
    ¬ strnicmpEq query "Activate=".toList "Activate=".length = true := fun ha =>
  absurd (@map_toLower_eq_of_strnicmpEq query "Query".toList "Activate".toList (by decide)
    (by decide) hq ha) (by decide)

namespace HttpData

/-! ## Consistent states -/

/-- The values of a query that was accepted are within their bounds. -/
structure FieldsFit (h : HttpData) : Prop where
  projectid : 1 ≤ h.projectid.text.length ∧ h.projectid.text.length ≤ 8
  vendorid : 1 ≤ h.vendorid.text.length ∧ h.vendorid.text.length ≤ 8
  stbid : h.stbid.text.length ≤ 32
  chipid : h.chipid.text.length ≤ 32
  macaddr : h.macaddr.text.length = 0 ∨ h.macaddr.text.length = 12

/-- No box was named. -/
def NoBox (h : HttpData) : Prop :=
  h.stbid.text.length = 0 ∧ h.chipid.text.length = 0 ∧ h.macaddr.text.length = 0

/-- The object is what `BuildPayLoad` relies on. -/
structure Consistent (h : HttpData) : Prop where
  error : h.sendflag = .kErrorFlag →
    errorContext[h.errorcode.toNat]? = some (some h.errorcode.name)
  state : h.sendflag = .kQueryAuthState → h.FieldsFit ∧ ¬ h.NoBox
  sum : h.sendflag = .kQueryAuthSum → h.FieldsFit ∧ h.NoBox
  flag : h.sendflag = .kErrorFlag ∨ h.sendflag = .kQueryAuthState ∨
    h.sendflag = .kQueryAuthSum ∨ h.sendflag = .kNullFlag

/-- An error that is left has a name. -/
theorem Consistent.errorcode_ne {h : HttpData} (hc : h.Consistent)
    (hflag : h.sendflag = .kErrorFlag) : h.errorcode ≠ .kNullError := by
  intro hnull
  have herror := hc.error hflag
  rw [hnull] at herror
  exact absurd herror (by decide)

/-- A flag is left, for a consistent object with the payload as it was. -/
structure Flagged (h s : HttpData) : Prop where
  consistent : s.Consistent
  ne_null : s.sendflag ≠ .kNullFlag
  payloadbuf : s.payloadbuf = h.payloadbuf

theorem flagged_setError {h s : HttpData} {e : Errorcode} (hpay : s.payloadbuf = h.payloadbuf)
    (he : e ≠ .kNullError) : Flagged h (s.setError e) where
  consistent := {
    error := fun _ => errorContext_toNat he
    state := fun h => SendFlag.noConfusion h
    sum := fun h => SendFlag.noConfusion h
    flag := Or.inl rfl }
  ne_null h := SendFlag.noConfusion h
  payloadbuf := hpay

/-! ## The parser -/

/-- The scan of an item stays in its buffer. -/
theorem parseItem_returns (h : HttpData) (location : Text) :
    Returns (h.parseItemWith Event.logged CBuf.empty location) fun _ => True := by
  unfold parseItemWith
  cases hs : strstr h.recvdatabuf.text location with
  | none => exact Returns.pure trivial
  | some t =>
    have hsuf := (strstr_eq_some hs).1
    obtain ⟨tmp, htmp, -⟩ := CBuf.exists_scanInto (CBuf.empty : CBuf recvBufferLength)
      (between '=' '&') (fun hn => h.recvdatabuf.nul_free (hsuf.subset hn))
      (hsuf.length_le.trans_lt h.recvdatabuf.text_lt)
    exact Returns.lift_bind htmp (Returns.log_bind (Returns.pure trivial))

/-- An item is refused, or fits its member. -/
theorem readMember_returns {h : HttpData} {len : ℕ} {location : String}
    {refused : ℕ → Prop} [DecidablePred refused] {refusal : String}
    (hfit : ∀ n, ¬ refused n → n ≤ len) :
    Returns (h.readMemberWith Event.logged len location refused refusal) fun o =>
      ∀ member, o = some member → ¬ refused member.text.length := by
  rw [readMemberWith]
  refine (h.parseItem_returns _).bind fun tmp _ => ?_
  refine (Returns.pure trivial).bind (q := fun _ => True) fun _ _ => ?_
  split
  · refine Returns.log_bind (Returns.pure ?_)
    intro member hmember
    cases hmember
  · next hr =>
    have hlt : tmp.text.length < len + 1 := Nat.lt_succ_of_le (hfit _ hr)
    have hcopy : CBuf.strncpyS (len + 1) (len + 1) tmp.text tmp.text.length =
        .ok ⟨tmp.text, hlt, tmp.nul_free⟩ := by
      rw [CBuf.strncpyS_eq_ok, CBuf.cstr_text, List.take_length]
      exact ⟨hlt, rfl⟩
    refine Returns.lift_bind hcopy (Returns.log_bind (Returns.pure ?_))
    intro member hmember
    cases hmember
    exact hr

/-- One item, and what follows it. -/
theorem readMember_bind {h : HttpData} {len : ℕ} {location : String}
    {refused : ℕ → Prop} [DecidablePred refused] {refusal : String}
    {f : Option (CBuf (len + 1)) → Dbug HttpData} {q : HttpData → Prop}
    (hfit : ∀ n, ¬ refused n → n ≤ len) (hnone : Returns (f none) q)
    (hsome : ∀ member, ¬ refused member.text.length → Returns (f (some member)) q) :
    Returns (h.readMemberWith Event.logged len location refused refusal >>= f) q := by
  refine (readMember_returns hfit).bind fun o ho => ?_
  cases o with
  | none => exact hnone
  | some member => exact hsome member (ho member rfl)

/-- **`ParseQueryAuth` leaves an error with a name, or values within their bounds.** -/
theorem parseQueryAuth_returns (h : HttpData) :
    Returns (h.parseQueryAuthWith Event.logged) (Flagged h) := by
  rw [parseQueryAuthWith]
  apply readMember_bind fun _ => not_lt.mp
  · exact Returns.pure (flagged_setError rfl (by decide))
  intro projectid hproject
  dsimp only
  split
  · exact Returns.log_bind (Returns.pure (flagged_setError rfl (by decide)))
  next hproject0 =>
  apply readMember_bind fun _ => not_lt.mp
  · exact Returns.pure (flagged_setError rfl (by decide))
  intro vendorid hvendor
  dsimp only
  split
  · exact Returns.log_bind (Returns.pure (flagged_setError rfl (by decide)))
  next hvendor0 =>
  apply readMember_bind fun _ => not_lt.mp
  · exact Returns.pure (flagged_setError rfl (by decide))
  intro stbid hstbid
  apply readMember_bind fun _ => not_lt.mp
  · exact Returns.pure (flagged_setError rfl (by decide))
  intro chipid hchipid
  apply readMember_bind fun n hn => by rw [macLength]; omega
  · exact Returns.pure (flagged_setError rfl (by decide))
  intro macaddr hmac
  dsimp only
  have hfields : ∀ flag, FieldsFit { ((((h.setProjectid projectid).setVendorid vendorid).setStbid
      stbid).setChipid chipid).setMacaddr macaddr with sendflag := flag } := fun flag =>
    { projectid := ⟨Nat.pos_of_ne_zero hproject0, not_lt.mp hproject⟩
      vendorid := ⟨Nat.pos_of_ne_zero hvendor0, not_lt.mp hvendor⟩
      stbid := not_lt.mp hstbid
      chipid := not_lt.mp hchipid
      macaddr := by
        change macaddr.text.length = 0 ∨ macaddr.text.length = 12
        omega }
  split
  · next hnone =>
    refine Returns.log_bind (Returns.pure ⟨?_, fun h => SendFlag.noConfusion h, rfl⟩)
    exact { error := fun h => SendFlag.noConfusion h
            state := fun h => SendFlag.noConfusion h
            sum := fun _ => ⟨hfields _, hnone⟩
            flag := Or.inr (Or.inr (Or.inl rfl)) }
  · next hsome =>
    refine Returns.pure ⟨?_, fun h => SendFlag.noConfusion h, rfl⟩
    exact { error := fun h => SendFlag.noConfusion h
            state := fun _ => ⟨hfields _, hsome⟩
            sum := fun h => SendFlag.noConfusion h
            flag := Or.inr (Or.inl rfl) }

/-- A consistent object without a flag exactly under a condition, the payload as it was. -/
structure Left (h : HttpData) (nothing : Prop) (s : HttpData) : Prop where
  consistent : s.Consistent
  null : s.sendflag = .kNullFlag ↔ nothing
  payloadbuf : s.payloadbuf = h.payloadbuf

theorem Flagged.left {h s : HttpData} {nothing : Prop} (hs : Flagged h s) (hno : ¬ nothing) :
    Left h nothing s :=
  ⟨hs.consistent, iff_of_false hs.ne_null hno, hs.payloadbuf⟩

/-- The two activation branches leave the object as it was. -/
theorem left_self {h : HttpData} {nothing : Prop} (hflag : h.sendflag = .kNullFlag)
    (hyes : nothing) : Left h nothing h where
  consistent := {
    error := fun h' => SendFlag.noConfusion (hflag.symm.trans h')
    state := fun h' => SendFlag.noConfusion (hflag.symm.trans h')
    sum := fun h' => SendFlag.noConfusion (hflag.symm.trans h')
    flag := Or.inr (Or.inr (Or.inr hflag)) }
  null := iff_of_true hflag hyes
  payloadbuf := rfl

/-- `ParseQuery` leaves no flag for the type `1` only. -/
theorem parseQuery_returns {h : HttpData} (hflag : h.sendflag = .kNullFlag)
    (hkey : h.recvdatabuf.text.takeWhile (· ≠ '=') ≠ []) (heq : '=' ∈ h.recvdatabuf.text) :
    Returns (h.parseQueryWith Event.logged)
      (Left h (queryType h.recvdatabuf.text = "1".toList)) := by
  obtain ⟨querytype, hscan, htext⟩ :=
    CBuf.exists_scanInto (CBuf.empty : CBuf recvBufferLength) (between '=' '&')
      h.recvdatabuf.nul_free h.recvdatabuf.text_lt
  rw [CBuf.text_empty, headD_sscanf_queryType hkey heq] at htext
  rw [← htext, parseQueryWith]
  apply Returns.lift_bind hscan
  apply Returns.log_bind
  split
  · next hlen =>
    refine Returns.log_bind (Returns.pure ((flagged_setError rfl (by decide)).left ?_))
    intro h1
    exact hlen (by rw [h1]; rfl)
  split
  · next h0 =>
    apply Returns.log_bind
    refine h.parseQueryAuth_returns.mono fun s hs => hs.left ?_
    rw [h0]
    decide
  split
  · next h1 => exact Returns.log_bind (Returns.pure (left_self hflag h1))
  · next h1 =>
    exact Returns.log_bind (Returns.pure ((flagged_setError rfl (by decide)).left h1))

/-- **`ParseRecvBuf` leaves a consistent object for every text**, without a flag exactly for a
request for activation. -/
theorem parseRecvBufLogged_returns {h : HttpData} (hflag : h.sendflag = .kNullFlag) :
    Returns h.parseRecvBufLogged (Left h (AsksActivation h.recvdatabuf.text)) := by
  rw [parseRecvBufLogged, parseRecvBufWith, AsksActivation]
  split
  · next hq =>
    have hkey : strnicmpEq h.recvdatabuf.text ("Query".toList ++ ['='])
        ("Query".toList ++ ['=']).length = true := hq
    obtain ⟨w, rest, hs, hw⟩ := strnicmpEq_key.mp hkey
    have he : '=' ∉ w := equals_notMem_of_map_toLower hw (by decide)
    have hne : w ≠ [] := by rintro rfl; simp at hw
    apply Returns.log_bind
    refine (parseQuery_returns hflag ?_ ?_).mono fun s hs' => ⟨hs'.consistent, ?_, ?_⟩
    · rw [hs, takeWhile_ne_append he]
      exact hne
    · simp [hs]
    · rw [hs'.null, or_iff_right (not_activate_of_query hq), and_iff_right hq]
    · exact hs'.payloadbuf
  · next hq =>
    split
    · next ha => exact Returns.log_bind (Returns.pure (left_self hflag (Or.inl ha)))
    · next ha =>
      refine Returns.log_bind (Returns.pure ((flagged_setError rfl (by decide)).left ?_))
      exact fun hor => hor.elim ha fun h => hq h.1

/-! ## The builders -/

/-- The lines of the branches that should not be taken. -/
def unexpectedLines : List Text :=
  ["Wrong Error value after parse recv buf\n".toList,
    "client send no STBID, ChipID and MAC, this line shouldn't show up\n".toList]

/-- A method returns `TRUE`, and comes to none of those lines. -/
def Expected (build : Dbug (Bool × HttpData)) : Prop :=
  Returns build (fun r => r.1 = true) ∧ Writes (· ∉ unexpectedLines) build

/-- A method that returns `TRUE` logs no failure. -/
theorem Expected.orFailed {build : Dbug (Bool × HttpData)} (h : Expected build)
    (failure : String) : Expected (orFailed Event.logged build failure) := by
  obtain ⟨⟨r, hbuild, hr⟩, hlines⟩ := h
  obtain ⟨ok, h'⟩ := r
  obtain rfl : ok = true := hr
  refine ⟨⟨(true, h'), result_bind_ok hbuild, rfl⟩, ?_⟩
  refine Writes.bind hlines fun r hr => ?_
  obtain rfl : (true, h') = r := Except.ok.inj (hbuild.symm.trans hr)
  exact Writes.pure _

theorem Expected.buildSent {build : Dbug (Bool × HttpData)} (h : Expected build) {sent : String}
    (hsent : sent.toList ∉ unexpectedLines) (failure : String) :
    Expected (buildSent Event.logged sent build failure) := by
  obtain ⟨hreturns, hwrites⟩ := h.orFailed failure
  exact ⟨Returns.log_bind hreturns,
    (Writes.log (p := (· ∉ unexpectedLines)) hsent).bind fun _ _ => hwrites⟩

theorem returns_of_map_eq {x : Dbug (Bool × HttpData)} {y : Except Fault (Bool × HttpData)}
    {t : Text} (hxy : x.result = y) (h : y.map result = .ok (true, t)) :
    Returns x fun r => r.1 = true := by
  subst hxy
  rw [Returns]
  cases hx : x.result with
  | error e =>
    rw [hx] at h
    cases h
  | ok r =>
    obtain ⟨ok, h'⟩ := r
    rw [hx] at h
    cases h
    exact ⟨_, rfl, rfl⟩

/-- A fixed text is appended to an empty payload. -/
theorem expected_appendBuilder {h : HttpData} {t : String} (hpay : h.payloadbuf.text = [])
    (hnul : nul ∉ t.toList) (hfit : t.toList.length < payloadBufferLength) :
    Expected (appendBuilder Event.logged t h) :=
  ⟨returns_of_map_eq (map_appendBuilder Event.forgotten t h) (appendBuilder_eq hpay hnul hfit),
    (Writes.lift _).bind fun _ _ => Writes.pure _⟩

/-- For an error with a name nothing is put out. -/
theorem buildErrorPayLoad_silent {write : Event → Except Fault Unit} {h : HttpData}
    (he : h.errorcode ≠ .kNullError) :
    h.buildErrorPayLoadWith (.writing write) = h.buildErrorPayLoad := by
  rw [buildErrorPayLoad, buildErrorPayLoadWith, buildErrorPayLoadWith, if_neg he, if_neg he]
  rfl

theorem expected_buildErrorPayLoad {h : HttpData} (hpay : h.payloadbuf.text = [])
    (he : h.errorcode ≠ .kNullError) : Expected (h.buildErrorPayLoadWith Event.logged) := by
  refine ⟨returns_of_map_eq ((map_buildErrorPayLoadWith Event.forgotten h).trans
    (buildErrorPayLoad_silent he)) (buildErrorPayLoad_eq hpay he), ?_⟩
  rw [buildErrorPayLoadWith, if_neg he]
  refine (Writes.lift _).bind fun h _ => ?_
  split
  · exact (Writes.lift _).bind fun _ _ => Writes.pure _
  · exact Writes.lift _
  · exact Writes.lift _

/-- **`BuildPayLoad` returns `TRUE` for a consistent object that has a flag**, without a line that
should not show up. -/
theorem expected_buildPayLoadLogged {h : HttpData} (hc : h.Consistent)
    (hpay : h.payloadbuf.text = []) (hflag : h.sendflag ≠ .kNullFlag) :
    Expected h.buildPayLoadLogged := by
  unfold buildPayLoadLogged buildPayLoadWith
  rcases hc.flag with hf | hf | hf | hf
  · rw [hf]
    exact (expected_buildErrorPayLoad hpay (hc.errorcode_ne hf)).orFailed _
  · rw [hf]
    refine Expected.orFailed ?_ _
    rw [buildQueryAuthStatePayLoadWith]
    split
    · exact (expected_appendBuilder hpay (by decide) (by decide)).buildSent (by decide) _
    next hs =>
    split
    · exact (expected_appendBuilder hpay (by decide) (by decide)).buildSent (by decide) _
    next hcid =>
    split
    · exact (expected_appendBuilder hpay (by decide) (by decide)).buildSent (by decide) _
    next hm =>
    exact absurd ⟨not_not.mp hs, not_not.mp hcid, not_not.mp hm⟩ (hc.state hf).2
  · rw [hf]
    exact (expected_appendBuilder hpay (by decide) (by decide)).orFailed _
  · exact absurd hf hflag

/-- Without a flag, `BuildPayLoad` returns `FALSE`. -/
theorem buildPayLoadLogged_of_null {h : HttpData} (hflag : h.sendflag = .kNullFlag) :
    h.buildPayLoadLogged.result = .ok (false, h) ∧
      Writes (· ∉ unexpectedLines) h.buildPayLoadLogged := by
  unfold buildPayLoadLogged buildPayLoadWith
  rw [hflag]
  refine ⟨rfl, (Writes.log ?_).bind fun _ _ => Writes.pure _⟩
  decide

/-! ## Builders that do not fail -/

/-- The builders of a query for authorization do not fail on an object. -/
structure Builders.Total (b : Builders (Except Fault)) (h : HttpData) : Prop where
  sum : ∃ r, b.buildQueryAuthSumPayLoad h = .ok r
  stbid : ∃ r, b.buildQueryAuthPayLoadByStbId h = .ok r
  chipid : ∃ r, b.buildQueryAuthPayLoadByChipId h = .ok r
  mac : ∃ r, b.buildQueryAuthPayLoadByMac h = .ok r

/-- `BuildPayLoad` does not fail for a consistent object when the builders do not. -/
theorem Accepts.exists_buildPayLoad {write : Event → Except Fault Unit} (hw : Accepts write)
    {b : Builders (Except Fault)} {h : HttpData} (hb : b.Total h) (hc : h.Consistent)
    (hpay : h.payloadbuf.text = []) : ∃ r, buildPayLoadWith (.writing write) b h = .ok r := by
  rcases hc.flag with hf | hf | hf | hf
  · have he := hc.errorcode_ne hf
    rw [hw.buildPayLoad_error b hf, buildErrorPayLoad_silent he]
    exact exists_of_map_eq_ok (buildErrorPayLoad_eq hpay he)
  · rw [hw.buildPayLoad_state b hf, hw.buildQueryAuthStatePayLoad_eq]
    split
    · exact hb.stbid
    split
    · exact hb.chipid
    split
    · exact hb.mac
    · exact ⟨_, rfl⟩
  · rw [hw.buildPayLoad_sum b hf]
    exact hb.sum
  · rw [hw.buildPayLoad_null b hf]
    exact ⟨_, rfl⟩

/-! ## The whole class -/

/-- `HandleHttpData` returns `FALSE` exactly when the parser leaves no flag. -/
theorem handleHttpDataLogged_returns {h s : HttpData} (hs : h.parseRecvBufLogged.result = .ok s)
    (hc : s.Consistent) (hpay : s.payloadbuf.text = []) :
    Returns h.handleHttpDataLogged fun r => r.1 = false ↔ s.sendflag = .kNullFlag := by
  refine Returns.bind (q := (· = s)) ⟨s, hs, rfl⟩ ?_
  rintro s rfl
  by_cases hflag : s.sendflag = .kNullFlag
  · refine Returns.bind (q := (· = (false, s))) ⟨_, (buildPayLoadLogged_of_null hflag).1, rfl⟩ ?_
    rintro _ rfl
    exact Returns.log_bind (Returns.pure (iff_of_true rfl hflag))
  · obtain ⟨r, hr, htrue⟩ :=
      ((expected_buildPayLoadLogged hc hpay hflag).orFailed "failed in BuildPayLoad\n").1
    refine ⟨r, hr, iff_of_false ?_ hflag⟩
    rw [htrue]
    decide

/-- The lines that the parser logs on the way through a text fit the log buffer. -/
def ParseLinesFit (query : Text) : Prop :=
  strnicmpEq query "Query=".toList "Query=".length = true →
    LinesFit (queryType query) (readFields query)

/-- An item overruns the log with its own line, or the rest does. -/
theorem itemOutcome_ne_overrun_iff {name : String} {value : Text} {refused : ℕ → Prop}
    [DecidablePred refused] {e : Errorcode} {rest : ParseOutcome} :
    itemOutcome name value refused e rest ≠ .overrun ↔
      LogFits name.toList value ∧ (¬ refused value.length → rest ≠ .overrun) := by
  unfold itemOutcome
  by_cases hlog : LogFits name.toList value <;> by_cases hr : refused value.length <;>
    simp [hlog, hr]

theorem authOutcome_ne_overrun_iff {f : AuthFields} :
    authOutcome f ≠ .overrun ↔ AuthLinesFit f := by
  have hcheck : ∀ {refused : Prop} [Decidable refused] {e : Errorcode} {rest : ParseOutcome},
      (if refused then .error e else rest) ≠ .overrun ↔ (¬ refused → rest ≠ .overrun) := by
    intro refused _ e rest
    by_cases hr : refused <;> simp [hr]
  simp only [authOutcome, AuthLinesFit, itemOutcome_ne_overrun_iff, hcheck]
  simp

/-- **The parser overruns the log exactly when a line on its way does not fit.** -/
theorem parseOutcome_ne_overrun_iff {query : Text} :
    parseOutcome query ≠ .overrun ↔ ParseLinesFit query := by
  rw [parseOutcome, ParseLinesFit]
  by_cases hq : strnicmpEq query "Query=".toList "Query=".length = true
  swap
  · rw [if_neg hq]
    refine iff_of_true ?_ fun h => absurd h hq
    split <;> exact ParseOutcome.noConfusion
  rw [if_pos hq, itemOutcome_ne_overrun_iff, LinesFit]
  refine (and_congr_right fun _ => ?_).trans (imp_iff_right hq).symm
  by_cases h0 : queryType query = "0".toList
  · rw [if_pos h0, authOutcome_ne_overrun_iff]
    simp [h0]
  · rw [if_neg h0]
    refine iff_of_true (fun _ => ?_) fun h => absurd h h0
    split <;> exact ParseOutcome.noConfusion

theorem exists_parseRecvBuf_iff (h : HttpData) :
    (∃ s, h.parseRecvBuf = .ok s) ↔ ParseLinesFit h.recvdatabuf.text := by
  rw [← parseOutcome_ne_overrun_iff]
  have hspec := parseRecvBuf_spec h
  generalize h.parseRecvBuf = x at hspec ⊢
  generalize parseOutcome h.recvdatabuf.text = o at hspec ⊢
  cases hspec with
  | overrun => exact iff_of_false (by rintro ⟨s, hs⟩; cases hs) (not_not.mpr rfl)
  | _ => exact iff_of_true ⟨_, rfl⟩ ParseOutcome.noConfusion

/-- What the parser leaves, when it comes to its end. -/
theorem left_of_parseRecvBuf {h s : HttpData} (hflag : h.sendflag = .kNullFlag)
    (hok : h.parseRecvBuf = .ok s) : Left h (AsksActivation h.recvdatabuf.text) s := by
  obtain ⟨s', hs', hleft⟩ := parseRecvBufLogged_returns hflag
  rw [← run_parseRecvBufLogged] at hok
  rwa [Except.ok.inj ((result_of_run hok).symm.trans hs')]

/-- A request for activation is short enough for the log. -/
theorem parseLinesFit_of_asksActivation {query : Text} (h : AsksActivation query) :
    ParseLinesFit query := by
  intro hq
  rcases h with ha | ⟨-, h1⟩
  · exact absurd ha (not_activate_of_query hq)
  · rw [LinesFit, h1]
    exact ⟨by decide, fun h0 => absurd h0 (by decide)⟩

/-- `HandleHttpData` returns `FALSE` exactly for a request for activation. -/
theorem exists_handleHttpData_false_iff {h : HttpData} (hflag : h.sendflag = .kNullFlag)
    (hpay : h.payloadbuf.text = []) :
    (∃ h', h.handleHttpData = .ok (false, h')) ↔ AsksActivation h.recvdatabuf.text := by
  constructor
  · rintro ⟨h', hok⟩
    obtain ⟨s, hs, hleft⟩ := parseRecvBufLogged_returns hflag
    have hempty : s.payloadbuf.text = [] := by rw [hleft.payloadbuf, hpay]
    obtain ⟨r, hr, hfalse⟩ := handleHttpDataLogged_returns hs hleft.consistent hempty
    rw [← run_handleHttpDataLogged] at hok
    obtain rfl := Except.ok.inj (hr.symm.trans (result_of_run hok))
    exact hleft.null.mp (hfalse.mp rfl)
  · intro hasks
    obtain ⟨s, hs⟩ := (exists_parseRecvBuf_iff h).mpr (parseLinesFit_of_asksActivation hasks)
    have hnull := (left_of_parseRecvBuf hflag hs).null.mpr hasks
    exact ⟨s, by rw [handleHttpData_bind, hs, ok_bind, buildPayLoad_null _ hnull]⟩

/-- **The state that `ParseRecvBuf` leaves is consistent with what `BuildPayLoad` relies on**, for
every text that fits. It leaves one where the lines that it logs fit; none of the branches that
should not be taken is taken from there, and `HandleHttpData` returns `FALSE` exactly for a request
for activation. -/
theorem parseRecvBuf_consistent {comedata : Text} (hnul : nul ∉ comedata)
    (hfit : comedata.length < recvBufferLength) :
    ∃ h, new comedata = .ok h ∧
      ((∃ s, h.parseRecvBuf = .ok s) ↔ ParseLinesFit comedata) ∧
      (∀ s, h.parseRecvBuf = .ok s →
        s.Consistent ∧ (s.sendflag = .kNullFlag ↔ AsksActivation comedata) ∧
          Writes (· ∉ unexpectedLines) s.buildPayLoadLogged) ∧
      ((∃ h', h.handleHttpData = .ok (false, h')) ↔ AsksActivation comedata) := by
  refine ⟨ofRecv ⟨comedata, hfit, hnul⟩, new_of_lt hnul hfit, exists_parseRecvBuf_iff _,
    fun s hs => ?_, exists_handleHttpData_false_iff rfl rfl⟩
  have hleft := left_of_parseRecvBuf rfl hs
  have hpay : s.payloadbuf.text = [] := by rw [hleft.payloadbuf]; rfl
  refine ⟨hleft.consistent, hleft.null, ?_⟩
  by_cases hflag : s.sendflag = .kNullFlag
  · exact (buildPayLoadLogged_of_null hflag).2
  · exact (expected_buildPayLoadLogged hleft.consistent hpay hflag).2

theorem parseRecvBuf_consistent_query :
    ∃ h, new "Query=1".toList = .ok h ∧
      (∀ s, h.parseRecvBuf = .ok s → s.Consistent) ∧ ∃ h', h.handleHttpData = .ok (false, h') := by
  obtain ⟨h, hnew, -, hstate, hfalse⟩ :=
    @parseRecvBuf_consistent "Query=1".toList (by decide) (by decide)
  exact ⟨h, hnew, fun s hs => (hstate s hs).1, hfalse.mpr (Or.inr ⟨by decide, by decide⟩)⟩

end HttpData

end AMSServer
