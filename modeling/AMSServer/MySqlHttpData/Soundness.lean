import AMSServer.HttpData.Items
import AMSServer.MySqlHttpData.Answer

/-!
# Who is authorized

A server answers queries from a database (`MySql.Serves`). An answer `AuthState=n` to a request
should say that `n` rows of the vendor's table have the identifier that was sent, and that there are
some (`AuthSound`).

It does when the identifier is an STBID, as long as the number of rows fits an `int`. The builders
for the other identifiers are those of `HttpData`, which answer without looking (`authSound_iff`).
-/

namespace AMSServer

open CRuntime Fields Sql

/-- A server of a database: a `SELECT` gives the number of rows that it selects. -/
def MySql.Serves {Row : Type} (server : MySql) (db : Database Row) : Prop :=
  ∀ schema query s result, readSelect query = some s →
    server.realQuery schema query = some (some result) → result.numRows = s.count db schema

namespace MySqlHttpData

/-! ## Requests -/

/-- A well-formed query about one box, with values of letters and digits. -/
structure AuthRequest extends WellFormedQuery where
  q_eq : q = "0".toList
  alphanum : ∀ i ∈ items, ∀ c ∈ i.2, c.isAlphanum = true
  identified : (itemFields items).stbid ≠ [] ∨ (itemFields items).chipid ≠ [] ∨
    (itemFields items).macaddr ≠ []

namespace AuthRequest

/-- The five values of a request. -/
def fields (R : AuthRequest) : AuthFields := itemFields R.items

theorem alphanum_valueOf (R : AuthRequest) (name : Text) :
    ∀ c ∈ valueOf R.items name, c.isAlphanum = true := by
  intro c hc
  rw [valueOf] at hc
  cases hlookup : R.items.lookup name with
  | none =>
    rw [hlookup] at hc
    cases hc
  | some v =>
    rw [hlookup] at hc
    obtain ⟨before, after, hitems, -⟩ := List.lookup_eq_some_iff.mp hlookup
    exact R.alphanum (name, v) (by simp [hitems]) c hc

theorem parseOutcome_text (R : AuthRequest) : parseOutcome R.text = authOutcome R.fields := by
  have hlog : LogFits "Query".toList "0".toList := by decide
  rw [R.toWellFormedQuery.parseOutcome_text, queryOutcome, R.q_eq, itemOutcome, if_pos hlog]
  rfl

theorem authFlag_fields (R : AuthRequest) : authFlag R.fields = .kQueryAuthState := by
  rw [authFlag, if_neg]
  rintro ⟨hs, hc, hm⟩
  rw [List.length_eq_zero_iff] at hs hc hm
  rcases R.identified with h | h | h
  · exact h hs
  · exact h hc
  · exact h hm

end AuthRequest

/-! ## Soundness -/

/-- The identifier that is used: its column and its value. Only the first column occurs in a query.
-/
def identifier (f : AuthFields) : Text × Text :=
  if f.stbid ≠ [] then ("stbid".toList, f.stbid)
  else if f.chipid ≠ [] then ("chipid".toList, f.chipid)
  else ("macaddr".toList, f.macaddr)

/-- The rows of the vendor's table in the project's schema with the identifier. -/
def authRows {Row : Type} (db : Database Row) (f : AuthFields) : List Row :=
  db.matching (databaseNameOf f.projectid) (tableNameOf f.vendorid) (identifier f).1
    (identifier f).2

/-- A state that is answered is the number of rows with the identifier, and there are some. -/
def AuthSound {Row : Type} (db : Database Row) (f : AuthFields)
    (answer : Except Fault (Bool × CBuf payloadBufferLength)) : Prop :=
  ∀ payload, answer = .ok (true, payload) → "AuthState=".toList <+: payload.text →
    1 ≤ (authRows db f).length ∧
      payload.text = "AuthState=".toList ++ Nat.toDigits 10 (authRows db f).length

/-- A result that is answered: it can be printed, and its number of rows as an `int` is positive and
fits the array for it. -/
def Sent (result : MysqlRes) : Prop :=
  result.numFields % 256 ≤ 20 ∧ 1 ≤ rowsAsInt result ∧ rowsAsInt result < 10 ^ 7

/-! ## The number of rows -/

theorem bmod_eq {n : ℕ} (hpos : 1 ≤ (n : Int).bmod (2 ^ 32)) (hlt : n < 2 ^ 32) :
    (n : Int).bmod (2 ^ 32) = n := by
  rw [Int.bmod_def] at *
  split at hpos
  next h =>
    rw [if_pos h]
    omega
  · omega

/-- A positive `int` is the number of rows unless there are more rows than 32 bits count. -/
theorem rowsAsInt_eq {result : MysqlRes} (hpos : 1 ≤ rowsAsInt result)
    (hlt : result.numRows < 2 ^ 32) :
    rowsAsInt result = result.numRows :=
  bmod_eq hpos hlt

theorem bmod_eq_zero {n : ℕ} (m : ℕ) (h : n = 0) : (n : Int).bmod m = 0 := by
  subst h
  exact Int.zero_bmod

theorem rowsAsInt_eq_zero {result : MysqlRes} (h : result.numRows = 0) : rowsAsInt result = 0 :=
  bmod_eq_zero (2 ^ 32) h

theorem toDigits_injective {m n : ℕ} (h : Nat.toDigits 10 m = Nat.toDigits 10 n) : m = n := by
  rw [← @Nat.ofDigitChars_ten_toDigits m, h, Nat.ofDigitChars_ten_toDigits]

theorem countText_eq_some_iff {authstate : Int} {t : Text} :
    countText authstate = .ok (some t) ↔ (1 ≤ authstate ∧ authstate < 10 ^ 7) ∧
      t = "AuthState=".toList ++ Nat.toDigits 10 authstate.natAbs := by
  rw [countText]
  by_cases hpos : authstate < 1
  · rw [if_pos hpos]
    refine iff_of_false (by simp) ?_
    rintro ⟨⟨hone, -⟩, -⟩
    omega
  have hdigits : intText authstate = Nat.toDigits 10 authstate.natAbs := by
    rw [intText, if_neg (by omega)]
  have hlen : (Nat.toDigits 10 authstate.natAbs).length < sumLength ↔ authstate < 10 ^ 7 := by
    rw [sumLength, Nat.lt_succ_iff, Nat.length_toDigits_le_iff (by decide) (by decide)]
    omega
  rw [if_neg hpos, hdigits]
  by_cases hfit : authstate < 10 ^ 7
  · rw [if_pos (hlen.mpr hfit), Except.ok.injEq, Option.some.injEq, eq_comm,
      and_iff_right ⟨by omega, hfit⟩]
  · rw [if_neg fun h => hfit (hlen.mp h)]
    exact iff_of_false (by simp) fun h => hfit h.1.2

/-- What the lookup answers. -/
theorem lookupText_eq_some_iff {result : MysqlRes} {t : Text} :
    lookupText (some result) = .ok (some t) ↔
      Sent result ∧ t = "AuthState=".toList ++ Nat.toDigits 10 (rowsAsInt result).natAbs := by
  rw [lookupText, showQueryDetails_eq, Sent]
  by_cases hrows : result.numRows = 0
  · rw [if_pos hrows, ok_bind, countText_eq_some_iff, rowsAsInt_eq_zero hrows]
    exact iff_of_false (fun h => absurd h.1.1 (by decide)) fun h => absurd h.1.2.1 (by decide)
  · rw [if_neg hrows]
    by_cases hfields : result.numFields % 256 ≤ 20
    · rw [if_pos hfields, ok_bind, countText_eq_some_iff]
      exact ⟨fun h => ⟨⟨hfields, h.1⟩, h.2⟩, fun h => ⟨h.1.2, h.2⟩⟩
    · rw [if_neg hfields, error_bind]
      exact iff_of_false (by simp) fun h => hfields h.1.1

/-! ## The answer -/

/-- The server's result for the lookup of a request. -/
def lookup (server : MySql) (f : AuthFields) : Option MysqlRes :=
  server.result (databaseNameOf f.projectid) (stbidSelect f.vendorid f.stbid).text

/-- The checks let the request through to its builder. -/
def Reached (server : MySql) (f : AuthFields) : Prop :=
  authOutcome f = .auth f ∧ checkOutcome server f.projectid f.vendorid = .found

theorem authOutcome_eq_auth {f g : AuthFields} (h : authOutcome f = .auth g) : g = f := by
  by_contra hne
  refine authOutcome_ne (fun _ _ => ParseOutcome.noConfusion) ParseOutcome.noConfusion ?_ h
  intro heq
  exact hne (ParseOutcome.auth.inj heq).symm

/-- The answers to a request, by their payload. -/
theorem answered_iff {x : Except Fault (Bool × CBuf payloadBufferLength)}
    {y : Except Fault (Option Text)}
    (h : x.map (fun r => (r.1, r.2.text)) = y.map fun t => (t.isSome, t.getD [])) (t : Text) :
    (∃ payload, x = .ok (true, payload) ∧ payload.text = t) ↔ y = .ok (some t) := by
  cases x with
  | error e =>
    cases y with
    | error e' => exact iff_of_false (fun ⟨_, h, _⟩ => nomatch h) nofun
    | ok o => cases h
  | ok r =>
    cases y with
    | error e' => cases h
    | ok o =>
      obtain ⟨hflag, htext⟩ := Prod.mk.inj (Except.ok.inj h)
      cases o with
      | none =>
        refine iff_of_false ?_ nofun
        rintro ⟨payload, hok, -⟩
        cases hok
        cases hflag
      | some u =>
        have htext : r.2.text = u := htext
        constructor
        · rintro ⟨payload, hok, rfl⟩
          cases hok
          rw [htext]
        · intro hok
          cases hok
          exact ⟨r.2, congrArg Except.ok (Prod.ext hflag rfl), htext⟩

/-- The object for a request, and its answer. -/
theorem exists_object (server : MySql) (R : AuthRequest) :
    ∃ object : MySqlHttpData, object.databasename.text = [] ∧ object.tablename.text = [] ∧
      object.payloadbuf.text = [] ∧ parseOutcome object.recvdatabuf.text = authOutcome R.fields ∧
      (answer server R.text).map (fun r => (r.1, r.2.text)) =
        (object.handleHttpData server).map HttpData.result := by
  obtain ⟨object, hnew, hdatabase, htable, hpay, hrecv⟩ := new_of_lt R.nul_free R.fits
  exact ⟨object, hdatabase, htable, hpay, by rw [hrecv]; exact R.parseOutcome_text,
    answer_result hnew⟩

/-- An accepted request is answered by what the server says. -/
theorem answer_of_accepted (server : MySql) {R : AuthRequest}
    (h : authOutcome R.fields = .auth R.fields) :
    (answer server R.text).map (fun r => (r.1, r.2.text)) =
      (authText server R.fields).map fun t => (t.isSome, t.getD []) := by
  obtain ⟨object, hdatabase, htable, hpay, hparse, hanswer⟩ := exists_object server R
  rw [hanswer]
  exact handleHttpData_auth server hdatabase htable hpay (hparse.trans h) R.authFlag_fields

/-- A request that is not accepted gets no state. -/
theorem not_state_of_not_accepted {server : MySql} {R : AuthRequest}
    (h : authOutcome R.fields ≠ .auth R.fields) {payload : CBuf payloadBufferLength}
    (hok : answer server R.text = .ok (true, payload)) :
    ¬ "AuthState=".toList <+: payload.text := by
  obtain ⟨object, hdatabase, htable, hpay, hparse, hanswer⟩ := exists_object server R
  rw [hok] at hanswer
  cases hout : authOutcome R.fields with
  | nothing => exact absurd hout (authOutcome_ne_nothing R.fields)
  | auth g =>
    cases authOutcome_eq_auth hout
    exact absurd hout h
  | overrun =>
    have hspec := HttpData.parseRecvBuf_spec object.toHttpData
    rw [hparse, hout] at hspec
    rw [handleHttpData, handleHttpDataWith, parseRecvBufWith_code] at hanswer
    generalize object.toHttpData.parseRecvBuf = x at hspec hanswer
    cases hspec
    cases hanswer
  | error e =>
    have herror := handleHttpData_error hdatabase htable hpay (hparse.trans hout) hanswer.symm
    intro hstate
    obtain ⟨t, ht⟩ := herror
    obtain ⟨u, hu⟩ := hstate
    rw [← ht] at hu
    exact absurd (List.cons.inj hu).1 (by decide)

/-- Only a request that is accepted can be answered with a wrong state. -/
theorem authSound_iff_authText {Row : Type} {server : MySql} (db : Database Row) (R : AuthRequest) :
    AuthSound db R.fields (answer server R.text) ↔
      (authOutcome R.fields = .auth R.fields → ∀ t, authText server R.fields = .ok (some t) →
        "AuthState=".toList <+: t → 1 ≤ (authRows db R.fields).length ∧
          t = "AuthState=".toList ++ Nat.toDigits 10 (authRows db R.fields).length) := by
  by_cases haccepted : authOutcome R.fields = .auth R.fields
  · rw [imp_iff_right haccepted]
    have hanswered := answered_iff (answer_of_accepted server haccepted)
    constructor
    · intro hsound t ht hstate
      obtain ⟨payload, hok, rfl⟩ := (hanswered t).mpr ht
      exact hsound payload hok hstate
    · intro hsound payload hok hstate
      exact hsound payload.text ((hanswered payload.text).mp ⟨payload, hok, rfl⟩) hstate
  · refine iff_of_true ?_ fun h => absurd h haccepted
    intro payload hok hstate
    exact absurd hstate (not_state_of_not_accepted haccepted hok)

/-! ## The lookup of a request -/

/-- The lookup of a request is read as it was meant. -/
theorem readSelect_stbidSelect (R : AuthRequest) :
    readSelect (stbidSelect R.fields.vendorid R.fields.stbid).text =
      some (stbidSelect R.fields.vendorid R.fields.stbid) := by
  have hvendor := R.alphanum_valueOf "VendorID".toList
  have hstbid := R.alphanum_valueOf "STBID".toList
  rw [readSelect_text_iff, named_stbidSelect_iff]
  refine ⟨fun c hc => ?_, fun x hx => ?_⟩
  · simp [nameChar, hvendor c hc]
  · cases hx
    exact plain_of_isAlphanum hstbid

/-- A server of the database counts the rows with the STBID. -/
theorem numRows_of_lookup {Row : Type} {server : MySql} {db : Database Row}
    (hserver : server.Serves db) {R : AuthRequest} (hstbid : R.fields.stbid ≠ [])
    {result : MysqlRes} (hresult : lookup server R.fields = some result) :
    result.numRows = (authRows db R.fields).length := by
  have hjoin := Option.join_eq_some_iff.mp hresult
  rw [hserver _ _ _ _ (readSelect_stbidSelect R) hjoin, authRows, identifier, if_pos hstbid]
  rfl

/-- A word is no number. -/
theorem ne_toDigits {w : Text} (hw : ∃ c ∈ w, c.isDigit = false) (n : ℕ) :
    w ≠ Nat.toDigits 10 n := by
  rintro rfl
  obtain ⟨c, hmem, hc⟩ := hw
  rw [Nat.isDigit_of_mem_toDigits (by decide) (by decide) hmem] at hc
  cases hc

/-- The builders of `HttpData`, which answer without an STBID, answer a word. -/
theorem exists_word_of_stbid_eq_nil (server : MySql) {f : AuthFields} (hstbid : f.stbid = []) :
    ∃ w, stateText server f = .ok (some ("AuthState=".toList ++ w)) ∧
      ∀ n, w ≠ Nat.toDigits 10 n := by
  rw [stateText, if_neg (not_not.mpr (List.length_eq_zero_iff.mpr hstbid))]
  split
  · exact ⟨"ChipId".toList, rfl, ne_toDigits ⟨'C', by decide, by decide⟩⟩
  · exact ⟨"Mac".toList, rfl, ne_toDigits ⟨'M', by decide, by decide⟩⟩

/-- **What the lookup answers is the number of rows exactly when an `int` holds it.** -/
theorem lookup_sound_iff {Row : Type} {server : MySql} {db : Database Row}
    (hserver : server.Serves db) {R : AuthRequest} (hstbid : R.fields.stbid ≠ []) :
    (∀ t, stateText server R.fields = .ok (some t) → "AuthState=".toList <+: t →
      1 ≤ (authRows db R.fields).length ∧
        t = "AuthState=".toList ++ Nat.toDigits 10 (authRows db R.fields).length) ↔
      ∀ result, lookup server R.fields = some result → Sent result →
        result.numRows < 2 ^ 32 := by
  have hstate : stateText server R.fields = lookupText (lookup server R.fields) := by
    rw [stateText, if_pos fun h => hstbid (List.length_eq_zero_iff.mp h)]
    rfl
  rw [hstate]
  constructor
  · intro hsound result hresult hsent
    have hrows := numRows_of_lookup hserver hstbid hresult
    obtain ⟨-, hdigits⟩ := hsound _ (hresult ▸ lookupText_eq_some_iff.mpr ⟨hsent, rfl⟩)
      (List.prefix_append _ _)
    have heq := toDigits_injective (List.append_cancel_left hdigits)
    obtain ⟨-, hpos, hlt⟩ := hsent
    -- `rowsAsInt` stays closed: its modulus is not to be computed with
    generalize rowsAsInt result = n at heq hpos hlt
    omega
  · intro hfits t ht _
    cases hresult : lookup server R.fields with
    | none =>
      rw [hresult] at ht
      cases ht
    | some result =>
      rw [hresult] at ht
      obtain ⟨hsent, rfl⟩ := lookupText_eq_some_iff.mp ht
      have hrows := numRows_of_lookup hserver hstbid hresult
      have hint := rowsAsInt_eq hsent.2.1 (hfits result hresult hsent)
      have hpos := hsent.2.1
      generalize rowsAsInt result = n at hint hpos ⊢
      rw [← hrows, hint]
      exact ⟨by omega, rfl⟩

/-- **The state that is answered is the number of rows with the identifier exactly when the checks
stop the request, or it has an STBID and a number of rows that an `int` holds.** -/
theorem authSound_iff {Row : Type} {server : MySql} {db : Database Row}
    (hserver : server.Serves db) (R : AuthRequest) :
    AuthSound db R.fields (answer server R.text) ↔
      (Reached server R.fields → R.fields.stbid ≠ [] ∧
        ∀ result, lookup server R.fields = some result → Sent result →
          result.numRows < 2 ^ 32) := by
  rw [authSound_iff_authText, Reached, and_imp]
  refine imp_congr_right fun haccepted => ?_
  rw [authText]
  cases hcheck : checkOutcome server R.fields.projectid R.fields.vendorid with
  | refused =>
    refine iff_of_true ?_ (by simp)
    intro t ht
    cases ht
  | overrun =>
    refine iff_of_true ?_ (by simp)
    intro t ht
    cases ht
  | wrong e =>
    refine iff_of_true ?_ (by simp)
    intro t ht hstate
    cases ht
    obtain ⟨u, hu⟩ := hstate
    exact absurd (List.cons.inj hu).1 (by decide)
  | found =>
    rw [imp_iff_right rfl]
    dsimp only
    by_cases hstbid : R.fields.stbid = []
    · refine iff_of_false ?_ fun h => h.1 hstbid
      intro hsound
      obtain ⟨w, hw, hword⟩ := exists_word_of_stbid_eq_nil server hstbid
      obtain ⟨-, hdigits⟩ := hsound _ hw (List.prefix_append _ _)
      exact hword _ (List.append_cancel_left hdigits)
    · rw [and_iff_right hstbid]
      exact lookup_sound_iff hserver hstbid

/-! ## A database -/

/-- A server that counts the rows a statement selects, and refuses a text that is none. -/
def serverOf {Row : Type} (db : Database Row) : MySql where
  realConnect := true
  selectDb _ := true
  realQuery schema query := (readSelect query).map fun s => some ⟨s.count db schema, 1⟩

theorem serves_serverOf {Row : Type} (db : Database Row) : (serverOf db).Serves db := by
  intro schema query s result hread hresult
  change (readSelect query).map _ = _ at hresult
  rw [hread] at hresult
  cases hresult
  rfl

/-- The project `1` with the vendor `2`, who has one box. -/
def boxes : Database (List (Text × Text)) where
  rows schema table :=
    if schema = "information_schema".toList ∧ table = "SCHEMATA".toList then
      [[("schema_name".toList, "ProjectID_1".toList)]]
    else if schema = "information_schema".toList ∧ table = "TABLES".toList then
      [[("table_name".toList, "VendorID_2".toList)]]
    else if schema = "ProjectID_1".toList ∧ table = "VendorID_2".toList then
      [[("stbid".toList, "a1".toList), ("chipid".toList, "b1".toList)]]
    else []
  equals row column value := row.lookup column == some value

/-- A request with the STBID of the box. -/
def stbidRequest : AuthRequest where
  word := "query".toList
  q := "0".toList
  items := [("ProjectID".toList, "1".toList), ("VendorID".toList, "2".toList),
    ("STBID".toList, "a1".toList)]
  word_eq := by decide
  q_clean := by decide
  q_ne := by decide
  items_clean := by decide
  no_foreign_suffix := by decide
  nul_free := by decide
  fits := by decide
  q_eq := rfl
  alphanum := by simp [Char.isAlphanum]
  identified := by decide

/-- The box is found, and is the only one. -/
theorem authSound_stbidRequest :
    Reached (serverOf boxes) stbidRequest.fields ∧
      AuthSound boxes stbidRequest.fields (answer (serverOf boxes) stbidRequest.text) := by
  have hreached : Reached (serverOf boxes) stbidRequest.fields :=
    ⟨by decide +kernel, by decide +kernel⟩
  have hlookup : lookup (serverOf boxes) stbidRequest.fields = some ⟨1, 1⟩ := by decide +kernel
  refine ⟨hreached, (authSound_iff (serves_serverOf boxes) stbidRequest).mpr ?_⟩
  refine fun _ => ⟨by decide, ?_⟩
  intro result hresult _
  rw [hlookup] at hresult
  cases hresult
  decide

/-- A request with a chip identifier that no box has. -/
def chipidRequest : AuthRequest where
  word := "query".toList
  q := "0".toList
  items := [("ProjectID".toList, "1".toList), ("VendorID".toList, "2".toList),
    ("ChipID".toList, "b2".toList)]
  word_eq := by decide
  q_clean := by decide
  q_ne := by decide
  items_clean := by decide
  no_foreign_suffix := by decide
  nul_free := by decide
  fits := by decide
  q_eq := rfl
  alphanum := by simp [Char.isAlphanum]
  identified := by decide

/-- A chip identifier is answered with a state without being looked for. -/
theorem not_authSound_chipidRequest :
    ¬ ∀ (db : Database (List (Text × Text))) (server : MySql) (R : AuthRequest), server.Serves db →
      AuthSound db R.fields (answer server R.text) := by
  intro hall
  have hsound := (authSound_iff_authText boxes chipidRequest).mp
    (hall boxes (serverOf boxes) chipidRequest (serves_serverOf boxes))
  have htext : authText (serverOf boxes) chipidRequest.fields =
      .ok (some ("AuthState=".toList ++ "ChipId".toList)) := by decide +kernel
  have hpos := (hsound (by decide +kernel) _ htext (List.prefix_append _ _)).1
  exact absurd hpos (by decide +kernel)

end MySqlHttpData

end AMSServer
