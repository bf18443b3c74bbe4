import AMSServer.MySqlHttpData.Basic

/-!
# The statements

The queries that `MySqlHttpData` writes are the texts of three statements with the client's values
in them (`schemaSelect`, `tableSelect`, `stbidSelect`). No value is escaped. So the server reads the
statement that was meant when a value between quotes is plain and a value in the name of a table
belongs in a name, and only then (`statements_read_iff`).
-/

namespace AMSServer

open CRuntime Sql

namespace MySqlHttpData

/-! ## What is meant -/

/-- The schema of a project. -/
def databaseNameOf (projectid : Text) : Text := databaseNameHeader.toList ++ projectid

/-- The table of a vendor. -/
def tableNameOf (vendorid : Text) : Text := tableNameHeader.toList ++ vendorid

/-- The schemas with the name for a project. -/
def schemaSelect (projectid : Text) : Select where
  columns := some "schema_name".toList
  schema := none
  table := "SCHEMATA".toList
  condition := some ("schema_name".toList, databaseNameOf projectid)

/-- The tables with the name for a vendor, in all schemas. -/
def tableSelect (vendorid : Text) : Select where
  columns := some "table_name".toList
  schema := some "information_schema".toList
  table := "TABLES".toList
  condition := some ("table_name".toList, tableNameOf vendorid)

/-- The rows of the table of a vendor with one STBID. -/
def stbidSelect (vendorid stbid : Text) : Select where
  columns := none
  schema := none
  table := tableNameOf vendorid
  condition := some ("stbid".toList, stbid)

/-- All rows of the table of a vendor. -/
def sumSelect (vendorid : Text) : Select where
  columns := none
  schema := none
  table := tableNameOf vendorid
  condition := none

/-! ## What is written -/

theorem appendQuery_eq (query : CBuf queryStringLen) {t : Text} (hnul : nul ∉ t)
    (hfit : query.text.length + t.length < queryStringLen) :
    ∃ q, appendQuery query t = .ok q ∧ q.text = query.text ++ t :=
  CBuf.exists_strcatS _ hnul hfit hfit

/-- A name has room for its header and a value of eight characters. -/
theorem setName_eq (header : String) {name : CBuf nameLength} {n : ℕ} (value : CBuf n) (hn : n ≤ 9)
    (hname : name.text = []) (hnul : nul ∉ header.toList) (hlen : header.toList.length ≤ 10) :
    ∃ b, setName name header value.text = .ok b ∧ b.text = header.toList ++ value.text := by
  have hvalue := value.text_lt
  obtain ⟨b, hb, htext⟩ := CBuf.exists_strcatS (b := name) queryStringLen hnul
    (by rw [hname, queryStringLen, List.length_nil]; omega)
    (by rw [hname, nameLength, List.length_nil]; omega)
  rw [hname, List.nil_append] at htext
  obtain ⟨b', hb', htext'⟩ := CBuf.exists_strcatS (b := b) queryStringLen value.nul_free
    (by rw [htext, queryStringLen]; omega) (by rw [htext, nameLength]; omega)
  refine ⟨b', ?_, by rw [htext', htext]⟩
  rw [setName, hb, ok_bind, hb']

theorem nameQuery_eq (head : String) (name : CBuf nameLength) (hnul : nul ∉ head.toList)
    (hlen : head.toList.length ≤ 200) :
    ∃ q, nameQuery head name = .ok q ∧ q.text = head.toList ++ ('"' :: name.text ++ ['"']) := by
  have hname : name.text.length < 32 := name.text_lt
  have hfree : nul ∉ '"' :: name.text ++ ['"'] := by simp [name.nul_free, nul]
  have hlength : ('"' :: name.text ++ ['"']).length = name.text.length + 2 := by simp
  obtain ⟨q, hq, htext⟩ := appendQuery_eq CBuf.empty hnul
    (by rw [CBuf.text_empty, queryStringLen, List.length_nil]; omega)
  rw [CBuf.text_empty, List.nil_append] at htext
  obtain ⟨temp, htemp, htext'⟩ := CBuf.exists_sprintfS (n := nameLength + 3) hfree
    (by rw [hlength]; exact (by omega : name.text.length + 2 < 35))
  obtain ⟨q', hq', htext''⟩ := appendQuery_eq q (htext' ▸ hfree)
    (by rw [htext, htext', hlength, queryStringLen]; omega)
  refine ⟨q', ?_, by rw [htext'', htext, htext']⟩
  rw [nameQuery, hq, ok_bind, htemp, ok_bind, hq']

theorem sumQuery_eq (name : CBuf nameLength) :
    ∃ q, sumQuery name = .ok q ∧ q.text = "SELECT * FROM ".toList ++ name.text := by
  have hname : name.text.length < 32 := name.text_lt
  obtain ⟨q, hq, htext⟩ := appendQuery_eq CBuf.empty
    (t := "SELECT * FROM ".toList) (by decide) (by decide)
  rw [CBuf.text_empty, List.nil_append] at htext
  have hlen : q.text.length = 14 := by rw [htext]; rfl
  obtain ⟨q', hq', htext'⟩ := appendQuery_eq q name.nul_free
    (by rw [hlen, queryStringLen]; omega)
  refine ⟨q', ?_, by rw [htext', htext]⟩
  rw [sumQuery, hq, ok_bind, hq']

theorem stbidQuery_eq (name : CBuf nameLength) (stbid : CBuf (stbidLength + 1)) :
    ∃ q, stbidQuery name stbid = .ok q ∧ q.text =
      "SELECT * FROM ".toList ++ name.text ++ " WHERE stbid=".toList ++
        ('"' :: stbid.text ++ ['"']) := by
  have hname : name.text.length < 32 := name.text_lt
  have hstbid : stbid.text.length < 33 := stbid.text_lt
  have hfree : nul ∉ '"' :: stbid.text ++ ['"'] := by simp [stbid.nul_free, nul]
  have hlength : ('"' :: stbid.text ++ ['"']).length = stbid.text.length + 2 := by simp
  obtain ⟨q₀, hq₀, htext₀⟩ := appendQuery_eq CBuf.empty
    (t := "SELECT * FROM ".toList) (by decide) (by decide)
  rw [CBuf.text_empty, List.nil_append] at htext₀
  have hlen₀ : q₀.text.length = 14 := by rw [htext₀]; rfl
  obtain ⟨q₁, hq₁, htext₁⟩ := appendQuery_eq q₀ name.nul_free
    (by rw [hlen₀, queryStringLen]; omega)
  have hlen₁ : q₁.text.length = 14 + name.text.length := by
    rw [htext₁, List.length_append, hlen₀]
  obtain ⟨q₂, hq₂, htext₂⟩ := appendQuery_eq q₁ (t := " WHERE stbid=".toList) (by decide)
    (by rw [hlen₁, queryStringLen]; exact (by omega : 14 + name.text.length + 13 < 256))
  have hlen₂ : q₂.text.length = 14 + name.text.length + 13 := by
    rw [htext₂, List.length_append, hlen₁]
    rfl
  obtain ⟨temp, htemp, htext₃⟩ := CBuf.exists_sprintfS (n := stbidLength + 3) hfree
    (by rw [hlength]; exact (by omega : stbid.text.length + 2 < 35))
  obtain ⟨q₃, hq₃, htext₄⟩ := appendQuery_eq q₂ (htext₃ ▸ hfree)
    (by rw [hlen₂, htext₃, hlength, queryStringLen]; omega)
  refine ⟨q₃, ?_, by rw [htext₄, htext₂, htext₁, htext₀, htext₃]⟩
  rw [stbidQuery, hq₀, ok_bind, hq₁, ok_bind, hq₂, ok_bind, htemp, ok_bind, hq₃]

/-! ## The texts -/

theorem schemaSelect_text (projectid : Text) :
    (schemaSelect projectid).text = "SELECT schema_name FROM SCHEMATA WHERE schema_name=".toList ++
      ('"' :: databaseNameOf projectid ++ ['"']) := by
  have hhead : "SELECT schema_name FROM SCHEMATA WHERE schema_name=".toList ++ ['"'] =
      "SELECT ".toList ++ "schema_name".toList ++ " FROM ".toList ++ "SCHEMATA".toList ++
        " WHERE ".toList ++ "schema_name".toList ++ "=\"".toList := by
    decide
  have hsplit := congrArg (· ++ (databaseNameOf projectid ++ ['"'])) hhead
  simp only [List.append_assoc] at hsplit
  unfold Select.text Select.columnsText Select.tableText Select.conditionText schemaSelect
  simp only [Option.getD_some, List.append_assoc]
  exact hsplit.symm

theorem tableSelect_text (vendorid : Text) :
    (tableSelect vendorid).text =
      "SELECT table_name FROM information_schema.TABLES WHERE table_name=".toList ++
        ('"' :: tableNameOf vendorid ++ ['"']) := by
  have hhead :
      "SELECT table_name FROM information_schema.TABLES WHERE table_name=".toList ++ ['"'] =
      "SELECT ".toList ++ "table_name".toList ++ " FROM ".toList ++
        ("information_schema".toList ++ '.' :: "TABLES".toList) ++
          " WHERE ".toList ++ "table_name".toList ++ "=\"".toList := by
    decide
  have hsplit := congrArg (· ++ (tableNameOf vendorid ++ ['"'])) hhead
  simp only [List.append_assoc] at hsplit
  unfold Select.text Select.columnsText Select.tableText Select.conditionText tableSelect
  simp only [Option.getD_some, List.append_assoc]
  exact hsplit.symm

theorem stbidSelect_text (vendorid stbid : Text) :
    (stbidSelect vendorid stbid).text = "SELECT * FROM ".toList ++ tableNameOf vendorid ++
      " WHERE stbid=".toList ++ ('"' :: stbid ++ ['"']) := by
  have hhead : "SELECT * FROM ".toList = "SELECT ".toList ++ ['*'] ++ " FROM ".toList := by decide
  have hwhere : " WHERE stbid=".toList ++ ['"'] =
      " WHERE ".toList ++ "stbid".toList ++ "=\"".toList := by decide
  have hsplit := congrArg (· ++ (stbid ++ ['"'])) hwhere
  simp only [List.append_assoc] at hsplit
  unfold Select.text Select.columnsText Select.tableText Select.conditionText stbidSelect
  simp only [Option.getD_none, List.append_assoc, hhead]
  rw [← hsplit]
  rfl

theorem sumSelect_text (vendorid : Text) :
    (sumSelect vendorid).text = "SELECT * FROM ".toList ++ tableNameOf vendorid := by
  have hhead : "SELECT * FROM ".toList = "SELECT ".toList ++ ['*'] ++ " FROM ".toList := by decide
  unfold Select.text Select.columnsText Select.tableText Select.conditionText sumSelect
  simp only [Option.getD_none, List.append_nil, hhead]

/-! ## What is read -/

/-- The statement about the schema that a new object writes. -/
def schemaStatement (projectid : Text) : Except Fault (CBuf queryStringLen) := do
  let databasename ← setName CBuf.empty databaseNameHeader projectid
  schemaQuery databasename

/-- The statement about the table that a new object writes. -/
def tableStatement (vendorid : Text) : Except Fault (CBuf queryStringLen) := do
  let tablename ← setName CBuf.empty tableNameHeader vendorid
  tableQuery tablename

/-- The query for the total that a new object writes. -/
def sumStatement (vendorid : Text) : Except Fault (CBuf queryStringLen) := do
  let tablename ← setName CBuf.empty tableNameHeader vendorid
  sumQuery tablename

/-- The lookup that a new object writes. -/
def stbidStatement (vendorid : Text) (stbid : CBuf (stbidLength + 1)) :
    Except Fault (CBuf queryStringLen) := do
  let tablename ← setName CBuf.empty tableNameHeader vendorid
  stbidQuery tablename stbid

/-- The text is written and read as the statement. -/
def Reads (query : Except Fault (CBuf queryStringLen)) (s : Select) : Prop :=
  ∃ q, query = .ok q ∧ readSelect q.text = some s

theorem reads_iff {query : Except Fault (CBuf queryStringLen)} {s : Select}
    (h : ∃ q, query = .ok q ∧ q.text = s.text) : Reads query s ↔ s.Named ∧ s.PlainValue := by
  obtain ⟨q, rfl, htext⟩ := h
  rw [← readSelect_text_iff, ← htext]
  constructor
  · rintro ⟨q', hq, hread⟩
    cases hq
    exact hread
  · exact fun hread => ⟨q, rfl, hread⟩

theorem isName_tableNameOf (vendorid : Text) :
    IsName (tableNameOf vendorid) ↔ ∀ c ∈ vendorid, nameChar c = true := by
  have hheader : ∀ c ∈ tableNameHeader.toList, nameChar c = true :=
    List.all_eq_true.mp (by decide)
  constructor
  · exact fun h c hc => h.2 c (List.mem_append_right _ hc)
  · intro h
    refine ⟨by simp [tableNameOf, tableNameHeader], fun c hc => ?_⟩
    exact (List.mem_append.mp hc).elim (hheader c) (h c)

theorem named_schemaSelect (projectid : Text) : (schemaSelect projectid).Named := by
  have hcolumn : IsName "schema_name".toList := by decide
  have htable : IsName "SCHEMATA".toList := by decide
  refine ⟨fun w hw => ?_, nofun, htable, fun x hx => ?_⟩
  · cases hw
    exact hcolumn
  · cases hx
    exact hcolumn

theorem named_tableSelect (vendorid : Text) : (tableSelect vendorid).Named := by
  have hcolumn : IsName "table_name".toList := by decide
  have hschema : IsName "information_schema".toList := by decide
  have htable : IsName "TABLES".toList := by decide
  refine ⟨fun w hw => ?_, fun w hw => ?_, htable, fun x hx => ?_⟩
  · cases hw
    exact hcolumn
  · cases hw
    exact hschema
  · cases hx
    exact hcolumn

/-- The name of the table carries the client's value. -/
theorem named_stbidSelect_iff (vendorid stbid : Text) :
    (stbidSelect vendorid stbid).Named ↔ ∀ c ∈ vendorid, nameChar c = true := by
  have hcolumn : IsName "stbid".toList := by decide
  rw [← isName_tableNameOf]
  refine ⟨fun h => h.table, fun h => ⟨nofun, nofun, h, fun x hx => ?_⟩⟩
  cases hx
  exact hcolumn

theorem readSelect_schemaSelect {projectid : Text} (h : Plain projectid) :
    readSelect (schemaSelect projectid).text = some (schemaSelect projectid) := by
  rw [readSelect_text_iff]
  refine ⟨named_schemaSelect projectid, fun x hx => ?_⟩
  cases hx
  exact (plain_append (by simp [databaseNameHeader]) projectid).mpr h

theorem readSelect_tableSelect {vendorid : Text} (h : Plain vendorid) :
    readSelect (tableSelect vendorid).text = some (tableSelect vendorid) := by
  rw [readSelect_text_iff]
  refine ⟨named_tableSelect vendorid, fun x hx => ?_⟩
  cases hx
  exact (plain_append (by simp [tableNameHeader]) vendorid).mpr h

theorem readSelect_sumSelect {vendorid : Text} (h : ∀ c ∈ vendorid, nameChar c = true) :
    readSelect (sumSelect vendorid).text = some (sumSelect vendorid) := by
  rw [readSelect_text_iff]
  exact ⟨⟨nofun, nofun, (isName_tableNameOf vendorid).mpr h, nofun⟩, nofun⟩

/-- A statement about one name is read as it was meant when the value in the name is plain. -/
theorem reads_nameStatement {header head : String} {n : ℕ} (value : CBuf n) {s : Select}
    {column : Text} (hn : n ≤ 9) (hheader : nul ∉ header.toList)
    (hheaderLen : header.toList.length ≤ 10) (hhead : nul ∉ head.toList)
    (hheadLen : head.toList.length ≤ 200) (hclean : ∀ c ∈ header.toList, c ≠ '"' ∧ c ≠ '\\')
    (hnamed : s.Named) (hcondition : s.condition = some (column, header.toList ++ value.text))
    (htext : s.text = head.toList ++ ('"' :: (header.toList ++ value.text) ++ ['"'])) :
    Reads (setName CBuf.empty header value.text >>= nameQuery head) s ↔ Plain value.text := by
  obtain ⟨name, hname, hnameText⟩ :=
    setName_eq header value hn CBuf.text_empty hheader hheaderLen
  obtain ⟨q, hq, hqText⟩ := nameQuery_eq head name hhead hheadLen
  have hplain : s.PlainValue ↔ Plain value.text := by
    rw [← plain_append hclean]
    simp [Select.PlainValue, hcondition]
  rw [reads_iff ⟨q, ?_, ?_⟩, and_iff_right hnamed, hplain]
  · rw [hname, ok_bind, hq]
  · rw [hqText, hnameText, htext]

/-- The schema is asked for as it was meant. -/
theorem reads_schemaStatement (projectid : CBuf (projectidLength + 1)) :
    Reads (schemaStatement projectid.text) (schemaSelect projectid.text) ↔
      Plain projectid.text := by
  apply reads_nameStatement projectid (by decide) (by decide) (by decide) (by decide) (by decide)
  · simp [databaseNameHeader]
  · exact named_schemaSelect projectid.text
  · rfl
  · exact schemaSelect_text projectid.text

/-- The table is asked for as it was meant. -/
theorem reads_tableStatement (vendorid : CBuf (vendoridLength + 1)) :
    Reads (tableStatement vendorid.text) (tableSelect vendorid.text) ↔ Plain vendorid.text := by
  apply reads_nameStatement vendorid (by decide) (by decide) (by decide) (by decide) (by decide)
  · simp [tableNameHeader]
  · exact named_tableSelect vendorid.text
  · rfl
  · exact tableSelect_text vendorid.text

/-- The rows are asked for as it was meant. -/
theorem reads_stbidStatement (vendorid : CBuf (vendoridLength + 1))
    (stbid : CBuf (stbidLength + 1)) :
    Reads (stbidStatement vendorid.text stbid) (stbidSelect vendorid.text stbid.text) ↔
      (∀ c ∈ vendorid.text, nameChar c = true) ∧ Plain stbid.text := by
  obtain ⟨name, hname, htext⟩ := setName_eq tableNameHeader vendorid (by decide)
    CBuf.text_empty (by decide) (by decide)
  obtain ⟨q, hq, htext'⟩ := stbidQuery_eq name stbid
  have hnamed := named_stbidSelect_iff vendorid.text stbid.text
  have hplain : (stbidSelect vendorid.text stbid.text).PlainValue ↔ Plain stbid.text := by
    simp [Select.PlainValue, stbidSelect]
  rw [reads_iff ⟨q, ?_, ?_⟩, hnamed, hplain]
  · rw [stbidStatement, hname, ok_bind, hq]
  · rw [htext', htext, stbidSelect_text]
    rfl

/-- The total has no literal, and its text depends on the name of the table alone. -/
theorem reads_sumStatement (vendorid : CBuf (vendoridLength + 1)) :
    Reads (sumStatement vendorid.text) (sumSelect vendorid.text) ↔
      ∀ c ∈ vendorid.text, nameChar c = true := by
  obtain ⟨name, hname, htext⟩ :=
    setName_eq tableNameHeader vendorid (by decide) CBuf.text_empty (by decide) (by decide)
  obtain ⟨q, hq, htext'⟩ := sumQuery_eq name
  have hnamed : (sumSelect vendorid.text).Named ↔ ∀ c ∈ vendorid.text, nameChar c = true := by
    rw [← isName_tableNameOf]
    exact ⟨fun h => h.table, fun h => ⟨nofun, nofun, h, nofun⟩⟩
  have hplain : (sumSelect vendorid.text).PlainValue := nofun
  rw [reads_iff ⟨q, ?_, ?_⟩, hnamed, and_iff_left hplain]
  · rw [sumStatement, hname, ok_bind, hq]
  · rw [htext', htext, sumSelect_text]
    rfl

/-- **The server reads the statements as they were meant exactly when the values between quotes are
plain and the one in a name belongs in a name.** -/
theorem statements_read_iff (projectid : CBuf (projectidLength + 1))
    (vendorid : CBuf (vendoridLength + 1)) (stbid : CBuf (stbidLength + 1)) :
    (Reads (schemaStatement projectid.text) (schemaSelect projectid.text) ↔ Plain projectid.text) ∧
    (Reads (tableStatement vendorid.text) (tableSelect vendorid.text) ↔ Plain vendorid.text) ∧
    (Reads (stbidStatement vendorid.text stbid) (stbidSelect vendorid.text stbid.text) ↔
      (∀ c ∈ vendorid.text, nameChar c = true) ∧ Plain stbid.text) :=
  ⟨reads_schemaStatement projectid, reads_tableStatement vendorid,
    reads_stbidStatement vendorid stbid⟩

/-- An STBID that closes its literal. -/
def quotedStbid : CBuf (stbidLength + 1) := ⟨"\"OR\"1\"=\"1".toList, by decide, by decide⟩

/-- A query with it. -/
def quotedQuery : Text := "Query=0&ProjectID=1&VendorID=2&STBID=\"OR\"1\"=\"1".toList

theorem not_reads_quotedStbid :
    ¬ ∀ (query : Text) (f : AuthFields) (vendorid : CBuf (vendoridLength + 1))
        (stbid : CBuf (stbidLength + 1)),
      parseOutcome query = .auth f → f.vendorid = vendorid.text → f.stbid = stbid.text →
        Reads (stbidStatement vendorid.text stbid) (stbidSelect vendorid.text stbid.text) := by
  intro hall
  have hparse : parseOutcome quotedQuery =
      .auth ⟨"1".toList, "2".toList, quotedStbid.text, [], []⟩ := by decide +kernel
  have hreads := hall quotedQuery _ ⟨"2".toList, by decide, by decide⟩ quotedStbid hparse rfl rfl
  exact absurd ((reads_stbidStatement _ _).mp hreads).2 (by decide)

end MySqlHttpData

end AMSServer
