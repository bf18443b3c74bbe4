import AMSServer.HttpData.Items
import AMSServer.HttpData.Logged

/-!
# Field isolation

A client may put any text without `&` into a value, also text that looks like another item. The
search for `name=` then reads the first item that mentions the name anywhere, and that is the value
of the first item with the name only when the two agree (`Isolated`).

`parseQueryAuthReads` is `ParseQueryAuth` with the values that it reads recorded. They are those of
the items exactly when the names are isolated and the lines for their values fit the log, as far as
it reads them: up to the first value that it refuses (`AuthClear`, `reads_valueOf_iff`).
-/

namespace AMSServer

open CRuntime Fields Logged

/-! ## The first mention -/

/-- The first item that mentions the name has it as its key, or what follows the mention is the
value of the first item that has. -/
def Isolated (name : Text) (items : List Item) : Prop :=
  ∀ before i after, items = before ++ i :: after →
    (∀ j ∈ before, ¬ name ++ ['='] <:+: j.text) → name ++ ['='] <:+: i.text →
      i.1 = name ∨ mention name i.text = some (valueOf items name)

/-- An item with the name mentions it. -/
theorem infix_text_self (i : Item) : i.1 ++ ['='] <:+: i.text := by
  rw [← isSome_mention, mention_self]
  rfl

/-- **Searching the items for `name=` looks the name up exactly when they are isolated.** -/
theorem findSome_mention_eq_valueOf {name : Text} {items : List Item} :
    (items.findSome? fun i => mention name i.text).getD [] = valueOf items name ↔
      Isolated name items := by
  cases hread : items.findSome? fun i => mention name i.text with
  | none =>
    have hnone := List.findSome?_eq_none_iff.mp hread
    have habsent : ∀ i ∈ items, ¬ name ++ ['='] <:+: i.text := fun i hi h => by
      rw [← isSome_mention, hnone i hi] at h
      cases h
    have hlookup : items.lookup name = none := by
      refine List.lookup_eq_none_iff.mpr fun p hp => ?_
      rw [bne_iff_ne]
      rintro rfl
      exact habsent p hp (infix_text_self p)
    refine iff_of_true (by rw [valueOf, hlookup]) fun before i after hitems _ hi => ?_
    exact absurd hi (habsent i (by simp [hitems]))
  | some value =>
    constructor
    · intro hvalue before i after hitems hbefore hi
      obtain ⟨v, hv⟩ := Option.isSome_iff_exists.mp (isSome_mention.mpr hi)
      have hfirst : items.findSome? (fun i => mention name i.text) = some v := by
        refine List.findSome?_eq_some_iff.mpr ⟨before, i, after, hitems, hv, fun j hj => ?_⟩
        rw [← Option.not_isSome_iff_eq_none, isSome_mention]
        exact hbefore j hj
      rw [hread] at hfirst
      rw [hv, ← hvalue, ← hfirst]
      exact Or.inr rfl
    · intro hisolated
      obtain ⟨before, i, after, hitems, hv, hbefore⟩ := List.findSome?_eq_some_iff.mp hread
      have hclean : ∀ j ∈ before, ¬ name ++ ['='] <:+: j.text := fun j hj h => by
        rw [← isSome_mention, hbefore j hj] at h
        cases h
      have hi : name ++ ['='] <:+: i.text := isSome_mention.mp (by rw [hv]; rfl)
      rcases hisolated before i after hitems hclean hi with rfl | h
      · -- the item with the name comes first, since an earlier one would mention it
        have hlookup : items.lookup i.1 = some i.2 := by
          refine List.lookup_eq_some_iff.mpr ⟨before, after, hitems, fun p hp => ?_⟩
          rw [bne_iff_ne]
          intro hkey
          exact hclean p hp (hkey ▸ infix_text_self p)
        rw [mention_self] at hv
        rw [valueOf, hlookup, hv]
      · rw [hv] at h
        exact Option.some.inj h

/-! ## What `ParseQueryAuth` reads -/

namespace HttpData

/-- An event with the values read recorded. -/
def Event.read : Event → Logged (Text × Text) Fault Unit
  | dbug line => liftM (amsDbugLog line)
  | item location value => Logged.log (location, value)

/-- The output where the values read are recorded, each with what it was searched by. -/
def Event.reads : Effects Event Fault (Logged (Text × Text) Fault) := .recording Event.read

/-- The values read are forgotten. -/
def Event.unread : Effects.Hom Event.reads Event.code :=
  Effects.forget Event.read fun e => by cases e <;> rfl

/-- `ParseQueryAuth` with the values it reads -/
def parseQueryAuthReads (h : HttpData) : Logged (Text × Text) Fault HttpData :=
  h.parseQueryAuthWith Event.reads

/-- It is the `ParseQueryAuth` of the code. -/
theorem result_parseQueryAuthReads (h : HttpData) :
    h.parseQueryAuthReads.result = h.parseQueryAuth :=
  map_parseQueryAuthWith Event.unread h

variable {p : Text × Text → Prop}

/-- A line that fits records nothing. -/
theorem ends_dbug_bind {α : Type} {line : Text} {f : Unit → Logged (Text × Text) Fault α}
    (h : LineFits line) : Ends p (dbug Event.reads line >>= f) ↔ Ends p (f ()) := by
  have hresult : (dbug Event.reads line).result = .ok () := h.amsDbugLog
  exact (ends_bind_ok hresult).trans (and_iff_right (Writes.lift _))

/-- An item records its value, once the value is logged. -/
theorem writes_readMember_iff {h : HttpData} {len : ℕ} {location name refusal : String}
    {refused : ℕ → Prop} [DecidablePred refused] (hloc : location = name ++ "=")
    (hname : name ≠ "" ∧ '=' ∉ name.toList ∧ '&' ∉ name.toList)
    (hshort : LogFits name.toList []) :
    Writes p (h.readMemberWith Event.reads len location refused refusal) ↔
      (LogFits name.toList (fieldOf h.recvdatabuf.text name.toList) →
        p (location.toList, fieldOf h.recvdatabuf.text name.toList)) := by
  obtain ⟨hne, he, ha⟩ := hname
  have hkey : location.toList = name.toList ++ ['='] := by rw [hloc, String.toList_append]; rfl
  obtain ⟨tmp, htext, htmp⟩ := parseItem_eq h hkey (by simpa using hne) he ha hshort
  have hresult := (map_parseItemWith Event.unread h CBuf.empty location.toList).trans htmp
  have hitem : Writes p (h.parseItemWith Event.reads CBuf.empty location.toList) := by
    unfold parseItemWith
    split
    · exact Writes.pure _
    · exact (Writes.lift _).bind fun _ _ => (Writes.lift _).bind fun _ _ => Writes.pure _
  rw [← htext, readMemberWith]
  by_cases hlog : LogFits name.toList tmp.text
  · rw [if_pos hlog] at hresult
    rw [imp_iff_right hlog]
    refine (writes_bind_ok hitem hresult).trans ((writes_bind_iff fun _ => ?_).trans ?_)
    · split
      · exact (Writes.lift _).bind fun _ _ => Writes.pure _
      · exact (Writes.lift _).bind fun _ _ => (Writes.lift _).bind fun _ _ => Writes.pure _
    · exact ⟨fun hw => hw _ List.mem_cons_self, Writes.log⟩
  · rw [if_neg hlog] at hresult
    refine iff_of_true (hitem.bind fun _ hok => ?_) fun h => absurd h hlog
    cases hresult.symm.trans hok

/-- **One item of `ParseQueryAuth`, and what follows it**: it comes to its end when the value is
logged, has the property, and the rest comes to its end if the value is not refused. -/
theorem ends_readMember_bind {h : HttpData} {len : ℕ} {location name refusal : String}
    {refused : ℕ → Prop} [DecidablePred refused] {rest : Prop} {value : Text}
    {next : Option (CBuf (len + 1)) → Logged (Text × Text) Fault HttpData}
    (hloc : location = name ++ "=") (hname : name ≠ "" ∧ '=' ∉ name.toList ∧ '&' ∉ name.toList)
    (hshort : LogFits name.toList []) (hrefusal : LineFits refusal.toList)
    (hmember : location.toList.length + len + 2 ≤ oneLogLen) (hfit : ∀ n, ¬ refused n → n ≤ len)
    (hp : p (location.toList, fieldOf h.recvdatabuf.text name.toList) ↔
      fieldOf h.recvdatabuf.text name.toList = value) (hnone : Ends p (next none))
    (hsome : ∀ b : CBuf (len + 1), b.text = value → (Ends p (next (some b)) ↔ rest)) :
    Ends p (h.readMemberWith Event.reads len location refused refusal >>= next) ↔
      (fieldOf h.recvdatabuf.text name.toList = value ∧ LogFits name.toList value) ∧
        (¬ refused value.length → rest) := by
  obtain ⟨o, hread, hrefused, haccepted⟩ := readMember_eq h hloc hname hshort hrefusal hmember hfit
  have hwrites := @writes_readMember_iff p h len location name refusal refused _ hloc hname hshort
  have hresult := (map_readMemberWith Event.unread h len location refused refusal).trans hread
  by_cases hlog : LogFits name.toList (fieldOf h.recvdatabuf.text name.toList)
  · rw [if_pos hlog] at hresult
    rw [imp_iff_right hlog, hp] at hwrites
    rw [ends_bind_ok hresult, hwrites]
    by_cases hvalue : fieldOf h.recvdatabuf.text name.toList = value
    swap
    · exact iff_of_false (fun h => hvalue h.1) fun h => hvalue h.1.1
    rw [hvalue] at hlog hrefused haccepted
    rw [and_iff_right hvalue, and_iff_right ⟨hvalue, hlog⟩]
    by_cases hr : refused value.length
    · rw [hrefused hr]
      exact iff_of_true hnone fun hn => absurd hr hn
    · obtain ⟨b, rfl, hb⟩ := haccepted hr
      rw [hsome b hb, imp_iff_right hr]
  · rw [if_neg hlog] at hresult
    refine iff_of_false (not_ends_bind hresult) fun h => hlog ?_
    rw [h.1.1]
    exact h.1.2

/-- A check that ends the parser. -/
theorem ends_ite {refused : Prop} [Decidable refused] {rest : Prop}
    {x y : Logged (Text × Text) Fault HttpData} (hx : Ends p x) (hy : Ends p y ↔ rest) :
    Ends p (if refused then x else y) ↔ (¬ refused → rest) := by
  by_cases hr : refused
  · rw [if_pos hr]
    exact iff_of_true hx fun hn => absurd hr hn
  · rw [if_neg hr, hy, imp_iff_right hr]

end HttpData

/-! ## Queries with any values -/

/-- A query `Query=0` with items whose values are any text without `&` and white space. -/
structure FieldQuery where
  items : List Item
  keys_clean : ∀ i ∈ items, '&' ∉ i.1 ∧ '=' ∉ i.1
  values_clean : ∀ i ∈ items, ∀ c ∈ i.2, c ≠ '&' ∧ isSpace c = false
  nul_free : nul ∉ query "Query=0".toList items

namespace FieldQuery

/-- The query string. -/
def text (Q : FieldQuery) : Text := query "Query=0".toList Q.items

theorem ampersand_notMem_item (Q : FieldQuery) {i : Item} (h : i ∈ Q.items) : '&' ∉ i.text := by
  have hvalue : '&' ∉ i.2 := fun hc => (Q.values_clean i h _ hc).1 rfl
  simp [Item.text, (Q.keys_clean i h).1, hvalue]

/-- The text after the first mention of a name. -/
theorem fieldOf_text (Q : FieldQuery) {name : Text} (hname : name ∈ itemNames) :
    fieldOf Q.text name = (Q.items.findSome? fun i => mention name i.text).getD [] := by
  have hclean : ∀ n ∈ itemNames, mention n "Query=0".toList = none := by decide
  rw [text, fieldOf_query (by decide) (fun i hi => Q.ampersand_notMem_item hi) (hclean name hname),
    List.findSome?_map]
  rfl

end FieldQuery

/-- The name is isolated, and the line for its value fits the log. -/
def Clear (items : List Item) (name : String) : Prop :=
  Isolated name.toList items ∧ LogFits name.toList (valueOf items name.toList)

/-- The names that are read are clear: each one until a value is refused. -/
def AuthClear (items : List Item) : Prop :=
  Clear items "ProjectID" ∧ (¬ 8 < (itemFields items).projectid.length →
    ¬ (itemFields items).projectid.length = 0 →
  Clear items "VendorID" ∧ (¬ 8 < (itemFields items).vendorid.length →
    ¬ (itemFields items).vendorid.length = 0 →
  Clear items "STBID" ∧ (¬ 32 < (itemFields items).stbid.length →
  Clear items "ChipID" ∧ (¬ 32 < (itemFields items).chipid.length →
  Clear items "MAC"))))

/-- A value that was read is the one of the first item with the name. -/
def IsValue (items : List Item) (r : Text × Text) : Prop :=
  ∀ name, r.1 = name ++ ['='] → r.2 = valueOf items name

namespace FieldQuery

theorem isValue_iff (Q : FieldQuery) {location name : String} {value : Text}
    (hloc : location = name ++ "=") :
    IsValue Q.items (location.toList, value) ↔ value = valueOf Q.items name.toList := by
  have hkey : location.toList = name.toList ++ ['='] := by rw [hloc, String.toList_append]; rfl
  rw [IsValue, hkey]
  constructor
  · intro h
    exact h _ rfl
  · rintro h n hn
    rw [← List.append_cancel_right hn]
    exact h

/-- One item of a query, and what follows it. -/
theorem ends_item (Q : FieldQuery) {h : HttpData} {len : ℕ} {location name refusal : String}
    {refused : ℕ → Prop} [DecidablePred refused] {rest : Prop}
    {next : Option (CBuf (len + 1)) → Logged (Text × Text) Fault HttpData}
    (htext : h.recvdatabuf.text = Q.text) (hmem : name.toList ∈ itemNames)
    (hloc : location = name ++ "=") (hname : name ≠ "" ∧ '=' ∉ name.toList ∧ '&' ∉ name.toList)
    (hshort : LogFits name.toList []) (hrefusal : LineFits refusal.toList)
    (hmember : location.toList.length + len + 2 ≤ oneLogLen) (hfit : ∀ n, ¬ refused n → n ≤ len)
    (hnone : Ends (IsValue Q.items) (next none))
    (hsome : ∀ b : CBuf (len + 1), b.text = valueOf Q.items name.toList →
      (Ends (IsValue Q.items) (next (some b)) ↔ rest)) :
    Ends (IsValue Q.items) (h.readMemberWith HttpData.Event.reads len location refused refusal >>=
        next) ↔
      Clear Q.items name ∧ (¬ refused (valueOf Q.items name.toList).length → rest) := by
  rw [Clear, ← findSome_mention_eq_valueOf, ← Q.fieldOf_text hmem, ← htext]
  exact HttpData.ends_readMember_bind hloc hname hshort hrefusal hmember hfit (Q.isValue_iff hloc)
    hnone hsome

/-- The five items are read in order, each one until a value is refused. -/
theorem ends_parseQueryAuthReads (Q : FieldQuery) {h : HttpData}
    (htext : h.recvdatabuf.text = Q.text) :
    Ends (IsValue Q.items) h.parseQueryAuthReads ↔ AuthClear Q.items := by
  rw [HttpData.parseQueryAuthReads, HttpData.parseQueryAuthWith, AuthClear]
  refine Q.ends_item htext (by decide) rfl (by decide) (by decide) (by decide) (by decide)
    (fun _ => not_lt.mp) (ends_pure _) fun projectid hp => ?_
  dsimp only
  rw [hp]
  refine HttpData.ends_ite ((HttpData.ends_dbug_bind (by decide)).mpr (ends_pure _)) ?_
  refine Q.ends_item htext (by decide) rfl (by decide) (by decide) (by decide) (by decide)
    (fun _ => not_lt.mp) (ends_pure _) fun vendorid hv => ?_
  dsimp only
  rw [hv]
  refine HttpData.ends_ite ((HttpData.ends_dbug_bind (by decide)).mpr (ends_pure _)) ?_
  refine Q.ends_item htext (by decide) rfl (by decide) (by decide) (by decide) (by decide)
    (fun _ => not_lt.mp) (ends_pure _) fun stbid hs => ?_
  refine Q.ends_item htext (by decide) rfl (by decide) (by decide) (by decide) (by decide)
    (fun _ => not_lt.mp) (ends_pure _) fun chipid hc => ?_
  -- nothing is read after the last item
  have hrest : Clear Q.items "MAC" ↔ Clear Q.items "MAC" ∧
      (¬ (12 ≠ (itemFields Q.items).macaddr.length ∧ 0 ≠ (itemFields Q.items).macaddr.length) →
        True) := by simp
  rw [hrest]
  refine Q.ends_item htext (by decide) rfl (by decide) (by decide) (by decide) (by decide)
    (fun n hn => by rw [macLength]; omega) (ends_pure _) fun macaddr hm => iff_true_intro ?_
  dsimp only
  split
  · exact (HttpData.ends_dbug_bind (by decide)).mpr (ends_pure _)
  · exact ends_pure _

/-- **`ParseQueryAuth` reads for each name the value of the first item with it**, and comes to its
end, exactly when the query fits its buffer and the names are isolated and their lines fit the log,
as far as it reads them. -/
theorem reads_valueOf_iff (Q : FieldQuery) :
    (∃ h s, HttpData.new Q.text = .ok h ∧ h.parseQueryAuth = .ok s ∧
        ∀ name value, (name ++ ['='], value) ∈ h.parseQueryAuthReads.lines →
          value = valueOf Q.items name) ↔
      Q.text.length < recvBufferLength ∧ AuthClear Q.items := by
  constructor
  · rintro ⟨h, s, hnew, hok, hvalues⟩
    obtain ⟨hlen, htext⟩ := HttpData.new_eq_ok Q.nul_free hnew
    refine ⟨hlen, (Q.ends_parseQueryAuthReads htext).mp ⟨?_, s, ?_⟩⟩
    · rintro ⟨location, value⟩ hline name rfl
      exact hvalues name value hline
    · rw [HttpData.result_parseQueryAuthReads, hok]
  · rintro ⟨hlen, hclear⟩
    have hnew := HttpData.new_of_lt Q.nul_free hlen
    obtain ⟨hwrites, s, hs⟩ :=
      (Q.ends_parseQueryAuthReads (h := HttpData.ofRecv ⟨_, hlen, Q.nul_free⟩) rfl).mpr hclear
    rw [HttpData.result_parseQueryAuthReads] at hs
    exact ⟨_, s, hnew, hs, fun name value hline => hwrites _ hline name rfl⟩

/-- A value that looks like an item, before the item. -/
def embedded : FieldQuery where
  items := [("X".toList, "ProjectID=evil".toList), ("ProjectID".toList, "good".toList)]
  keys_clean := by decide
  values_clean := by simp [isSpace]
  nul_free := by decide

/-- The parser takes the project from the value of the item `X`. -/
theorem embedded_not_isolated :
    ¬ ∃ h s, HttpData.new embedded.text = .ok h ∧ h.parseQueryAuth = .ok s ∧
      ∀ name value, (name ++ ['='], value) ∈ h.parseQueryAuthReads.lines →
        value = valueOf embedded.items name := by
  rintro ⟨h, s, hnew, -, hvalues⟩
  obtain rfl := Except.ok.inj (hnew.symm.trans (HttpData.new_of_lt embedded.nul_free (by decide)))
  have hread : ("ProjectID".toList ++ ['='], "evil".toList) ∈ (HttpData.ofRecv
      ⟨embedded.text, by decide, embedded.nul_free⟩).parseQueryAuthReads.lines := by
    decide +kernel
  exact absurd (hvalues _ _ hread) (by decide)

end FieldQuery

end AMSServer
