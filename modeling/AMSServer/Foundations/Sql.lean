import AMSServer.Foundations.CRuntime.Text
import Mathlib.Data.List.AList

/-!
# Reading `SELECT` statements

The statements that a program writes when it asks one table for the rows with one value, and how a
MySQL server reads them: unquoted names, and string literals between double quotes, in which a
doubled quote is a quote and a backslash escapes the next character (`readLiteral`). The reader
gives the statement that was meant exactly when the names are names and the text put between the
quotes is plain (`readSelect_text_iff`).

What a statement selects is a number of rows of a database (`Select.count`). The equality that the
comparison uses is left to the database, since it depends on the column. The catalogue of a server
(`Catalogue`) is itself asked by statements about names, which look at one schema or at all of them.
-/

namespace AMSServer.Sql

open CRuntime

/-! ## Literals -/

/-- What a character after a backslash stands for. `\%` and `\_` stand for themselves, since they
matter to patterns. -/
def escaped (c : Char) : Text :=
  match c with
  | '0' => [nul]
  | 'b' => ['\x08']
  | 'n' => ['\n']
  | 'r' => ['\r']
  | 't' => ['\t']
  | 'Z' => ['\x1a']
  | '%' => ['\\', '%']
  | '_' => ['\\', '_']
  | c => [c]

/-- Read a literal up to its closing quote: what it denotes, and the text after it. -/
def readLiteral : Text → Option (Text × Text)
  | [] => none
  | [c] => if c = '"' then some ([], []) else none
  | c :: d :: t =>
    if c = '"' then
      if d = '"' then (readLiteral t).map fun (v, rest) => ('"' :: v, rest) else some ([], d :: t)
    else if c = '\\' then (readLiteral t).map fun (v, rest) => (escaped d ++ v, rest)
    else (readLiteral (d :: t)).map fun (v, rest) => (c :: v, rest)

/-- The text has no quote, and a backslash only before `%` and `_`. -/
def Plain : Text → Prop
  | [] => True
  | [c] => c ≠ '"' ∧ c ≠ '\\'
  | c :: d :: t => c ≠ '"' ∧ if c = '\\' then (d = '%' ∨ d = '_') ∧ Plain t else Plain (d :: t)

instance decidablePlain : ∀ t, Decidable (Plain t)
  | [] => inferInstanceAs (Decidable True)
  | [_] => inferInstanceAs (Decidable (_ ∧ _))
  | _ :: d :: t =>
    have := decidablePlain t
    have := decidablePlain (d :: t)
    inferInstanceAs (Decidable (_ ∧ ite _ _ _))

theorem readLiteral_quoted (t : Text) :
    readLiteral ('"' :: '"' :: t) = (readLiteral t).map fun (v, rest) => ('"' :: v, rest) := by
  rw [readLiteral, if_pos rfl, if_pos rfl]

theorem readLiteral_end {d : Char} (hd : d ≠ '"') (t : Text) :
    readLiteral ('"' :: d :: t) = some ([], d :: t) := by
  rw [readLiteral, if_pos rfl, if_neg hd]

theorem readLiteral_escaped (d : Char) (t : Text) :
    readLiteral ('\\' :: d :: t) = (readLiteral t).map fun (v, rest) => (escaped d ++ v, rest) := by
  rw [readLiteral, if_neg (by decide), if_pos rfl]

theorem readLiteral_cons {c d : Char} (hquote : c ≠ '"') (hback : c ≠ '\\') (t : Text) :
    readLiteral (c :: d :: t) = (readLiteral (d :: t)).map fun (v, rest) => (c :: v, rest) := by
  rw [readLiteral, if_neg hquote, if_neg hback]

/-- A character after a backslash denotes itself, with the backslash, only before `%` and `_`. -/
theorem escaped_cases (d : Char) :
    (escaped d = ['\\', d] ∧ (d = '%' ∨ d = '_')) ∨
      ((escaped d).length = 1 ∧ ¬ (d = '%' ∨ d = '_')) := by
  by_cases hpercent : d = '%'
  · subst hpercent
    exact Or.inl ⟨rfl, Or.inl rfl⟩
  by_cases hunder : d = '_'
  · subst hunder
    exact Or.inl ⟨rfl, Or.inr rfl⟩
  refine Or.inr ⟨?_, fun h => h.elim hpercent hunder⟩
  unfold escaped
  split <;> first | rfl | contradiction

theorem plain_cons {c : Char} (hquote : c ≠ '"') (hback : c ≠ '\\') (t : Text) :
    Plain (c :: t) ↔ Plain t := by
  cases t with
  | nil => exact iff_of_true ⟨hquote, hback⟩ trivial
  | cons d t => rw [Plain, if_neg hback, and_iff_right hquote]

/-- A prefix without quotes and backslashes. -/
theorem plain_append {a : Text} (ha : ∀ c ∈ a, c ≠ '"' ∧ c ≠ '\\') (v : Text) :
    Plain (a ++ v) ↔ Plain v := by
  induction a with
  | nil => rfl
  | cons c a ih =>
    obtain ⟨hquote, hback⟩ := ha c List.mem_cons_self
    rw [List.cons_append, plain_cons hquote hback]
    exact ih fun d hd => ha d (List.mem_cons_of_mem _ hd)

/-- Letters and digits are plain. -/
theorem plain_of_isAlphanum {t : Text} (h : ∀ c ∈ t, c.isAlphanum = true) : Plain t := by
  have hquote : ('"').isAlphanum = false := by decide
  have hback : ('\\').isAlphanum = false := by decide
  have hplain := (plain_append (a := t) (v := []) fun c hc => ⟨?_, ?_⟩).mpr trivial
  · rwa [List.append_nil] at hplain
  · rintro rfl
    exact absurd (h _ hc) (by simp [hquote])
  · rintro rfl
    exact absurd (h _ hc) (by simp [hback])

/-- A literal denotes less than it takes. -/
theorem length_readLiteral {s v rest : Text} (h : readLiteral s = some (v, rest)) :
    v.length + rest.length < s.length := by
  induction s using readLiteral.induct generalizing v with
  | case1 => cases h
  | case2 =>
    cases h
    exact Nat.zero_lt_one
  | case3 c hc =>
    rw [readLiteral, if_neg hc] at h
    cases h
  | case4 t ih =>
    rw [readLiteral_quoted] at h
    obtain ⟨⟨u, rest'⟩, hu, heq⟩ := Option.map_eq_some_iff.mp h
    cases heq
    have hlen := ih hu
    simp only [List.length_cons]
    omega
  | case5 d t hd =>
    rw [readLiteral_end hd] at h
    cases h
    simp
  | case6 d t hne ih =>
    rw [readLiteral_escaped] at h
    obtain ⟨⟨u, rest'⟩, hu, heq⟩ := Option.map_eq_some_iff.mp h
    cases heq
    have hlen := ih hu
    have htwo : (escaped d).length ≤ 2 := by
      rcases escaped_cases d with ⟨hd, -⟩ | ⟨hd, -⟩
      · rw [hd]
        exact Nat.le_refl _
      · omega
    simp only [List.length_append, List.length_cons]
    omega
  | case7 c d t hquote hback ih =>
    rw [readLiteral_cons hquote hback] at h
    obtain ⟨⟨u, rest'⟩, hu, heq⟩ := Option.map_eq_some_iff.mp h
    cases heq
    have hlen := ih hu
    simp only [List.length_cons] at hlen ⊢
    omega

/-- **A text between quotes is read back exactly when it is plain.** -/
theorem readLiteral_append_quote (v : Text) :
    readLiteral (v ++ ['"']) = some (v, []) ↔ Plain v := by
  induction v using Plain.induct with
  | case1 => exact iff_of_true rfl trivial
  | case2 c =>
    change readLiteral [c, '"'] = _ ↔ c ≠ '"' ∧ c ≠ '\\'
    by_cases hquote : c = '"'
    · subst hquote
      exact iff_of_false (by decide) (by decide)
    by_cases hback : c = '\\'
    · subst hback
      exact iff_of_false (by decide) (by decide)
    rw [readLiteral_cons hquote hback]
    exact iff_of_true rfl ⟨hquote, hback⟩
  | case3 c d t ih ih' =>
    change readLiteral (c :: d :: (t ++ ['"'])) = _ ↔ _
    rw [Plain]
    by_cases hquote : c = '"'
    · subst hquote
      refine iff_of_false (fun h => ?_) fun h => h.1 rfl
      -- a doubled quote is read as one, so the text is read shorter than it is
      by_cases hd : d = '"'
      · subst hd
        rw [readLiteral_quoted] at h
        obtain ⟨⟨u, rest⟩, hu, heq⟩ := Option.map_eq_some_iff.mp h
        cases heq
        have hlen := length_readLiteral hu
        simp at hlen
      · rw [readLiteral_end hd] at h
        cases h
    by_cases hback : c = '\\'
    · subst hback
      rw [readLiteral_escaped, if_pos rfl]
      rcases escaped_cases d with ⟨hd, hkeeps⟩ | ⟨hd, hkeeps⟩
      · rw [hd, ← ih]
        cases hu : readLiteral (t ++ ['"']) with
        | none => exact iff_of_false nofun fun h => nomatch h.2.2
        | some u => simp [Prod.ext_iff, hkeeps]
      · refine iff_of_false (fun h => ?_) fun h => hkeeps h.2.1
        obtain ⟨⟨u, rest⟩, hu, heq⟩ := Option.map_eq_some_iff.mp h
        obtain ⟨hv, rfl⟩ := Prod.mk.inj heq
        have hlen := length_readLiteral hu
        have hv := congrArg List.length hv
        simp only [List.length_append, List.length_cons, List.length_nil] at hlen hv
        omega
    · rw [readLiteral_cons hquote hback, if_neg hback, ← ih', List.cons_append]
      cases hu : readLiteral (d :: (t ++ ['"'])) with
      | none => exact iff_of_false nofun fun h => nomatch h.2
      | some u => simp [Prod.ext_iff, hquote]

/-! ## Names -/

/-- A character of an unquoted name. -/
def nameChar (c : Char) : Bool := c.isAlphanum || c == '_' || c == '$' || '\x80' ≤ c

/-- An unquoted name. -/
def IsName (w : Text) : Prop := w ≠ [] ∧ ∀ c ∈ w, nameChar c = true

instance (w : Text) : Decidable (IsName w) :=
  @instDecidableAnd _ _ _ (List.decidableBAll _ _)

/-- Read the longest name. -/
def readName (s : Text) : Option (Text × Text) :=
  if s.takeWhile nameChar = [] then none else some (s.takeWhile nameChar, s.dropWhile nameChar)

theorem isName_of_readName {s w rest : Text} (h : readName s = some (w, rest)) : IsName w := by
  unfold readName at h
  split_ifs at h with hne
  obtain ⟨rfl, -⟩ := Prod.mk.inj (Option.some.inj h)
  exact ⟨hne, fun c hc => List.mem_takeWhile_imp hc⟩

/-- A name is read where no character of a name follows it. -/
theorem readName_append {w s : Text} (hw : IsName w) (hs : ∀ c ∈ s.head?, nameChar c = false) :
    readName (w ++ s) = some (w, s) := by
  have htake : (w ++ s).takeWhile nameChar = w := by
    rw [List.takeWhile_append_of_pos hw.2]
    cases s with
    | nil => simp
    | cons c s => simp [hs c rfl]
  have hdrop : (w ++ s).dropWhile nameChar = s := by
    rw [List.dropWhile_append_of_pos hw.2]
    cases s with
    | nil => rfl
    | cons c s => simp [hs c rfl]
  rw [readName, htake, hdrop, if_neg hw.1]

/-! ## Statements -/

/-- `SELECT columns FROM schema.table WHERE column="value"`, where `none` stands for `*`, for the
schema in use and for no condition. -/
@[ext] structure Select where
  columns : Option Text
  schema : Option Text
  table : Text
  condition : Option (Text × Text)
  deriving DecidableEq

namespace Select

/-- What stands for the columns. -/
def columnsText (s : Select) : Text := s.columns.getD ['*']

def tableText (s : Select) : Text :=
  match s.schema with
  | none => s.table
  | some schema => schema ++ '.' :: s.table

def conditionText (s : Select) : Text :=
  match s.condition with
  | none => []
  | some (column, value) => " WHERE ".toList ++ column ++ "=\"".toList ++ value ++ ['"']

/-- The text of a statement. -/
def text (s : Select) : Text :=
  "SELECT ".toList ++ s.columnsText ++ " FROM ".toList ++ s.tableText ++ s.conditionText

/-- The names of a statement are names. -/
structure Named (s : Select) : Prop where
  columns : ∀ w ∈ s.columns, IsName w
  schema : ∀ w ∈ s.schema, IsName w
  table : IsName s.table
  condition : ∀ x ∈ s.condition, IsName x.1

/-- The text put between quotes is plain. -/
def PlainValue (s : Select) : Prop := ∀ x ∈ s.condition, Plain x.2

end Select

/-- Read a fixed text. -/
def expect (k s : Text) : Option Text := if k <+: s then some (s.drop k.length) else none

def readColumns : Text → Option (Option Text × Text)
  | '*' :: s => some (none, s)
  | s => (readName s).map fun (w, s) => (some w, s)

def readTable (s : Text) : Option ((Option Text × Text) × Text) := do
  let (w, s) ← readName s
  match s with
  | '.' :: s => do
    let (table, s) ← readName s
    return ((some w, table), s)
  | s => return ((none, w), s)

/-- The condition, with nothing after its literal. -/
def readCondition (s : Text) : Option (Option (Text × Text)) :=
  if s = [] then some none
  else do
    let s ← expect " WHERE ".toList s
    let (column, s) ← readName s
    let s ← expect "=\"".toList s
    let (value, s) ← readLiteral s
    if s = [] then some (some (column, value)) else none

/-- Read a statement. -/
def readSelect (s : Text) : Option Select := do
  let s ← expect "SELECT ".toList s
  let (columns, s) ← readColumns s
  let s ← expect " FROM ".toList s
  let ((schema, table), s) ← readTable s
  let condition ← readCondition s
  return ⟨columns, schema, table, condition⟩

/-! ## What the reader gives -/

theorem expect_append (k s : Text) : expect k (k ++ s) = some s := by
  rw [expect, if_pos (List.prefix_append k s), List.drop_left]

theorem readColumns_append {s : Select} (hs : s.Named) {rest : Text}
    (hrest : ∀ c ∈ rest.head?, nameChar c = false) :
    readColumns (s.columnsText ++ rest) = some (s.columns, rest) := by
  cases hc : s.columns with
  | none =>
    rw [Select.columnsText, hc]
    rfl
  | some w =>
    have hw : IsName w := hs.columns w hc
    have htext : s.columnsText = w := by rw [Select.columnsText, hc, Option.getD_some]
    rw [htext, readColumns, readName_append hw hrest]
    · rfl
    · -- a name does not start with `*`
      intro t ht
      obtain ⟨c, w, rfl⟩ := List.exists_cons_of_ne_nil hw.1
      obtain ⟨rfl, -⟩ := List.cons.inj ht
      exact absurd (hw.2 '*' List.mem_cons_self) (by decide)

theorem readTable_append {s : Select} (hs : s.Named) {rest : Text}
    (hrest : ∀ c ∈ rest.head?, c = ' ') :
    readTable (s.tableText ++ rest) = some ((s.schema, s.table), rest) := by
  have hend : ∀ c ∈ rest.head?, nameChar c = false := by
    intro c hc
    rw [hrest c hc]
    decide
  cases hc : s.schema with
  | none =>
    rw [Select.tableText, hc, readTable, readName_append hs.table hend]
    change (match rest with | '.' :: _ => _ | _ => _) = _
    split
    · exact absurd (hrest '.' rfl) (by decide)
    · rfl
  | some schema =>
    have hschema : IsName schema := hs.schema schema hc
    rw [Select.tableText, hc, List.append_assoc, readTable,
      readName_append hschema (by simp [nameChar]), List.cons_append]
    change (readName (s.table ++ rest)).bind _ = _
    rw [readName_append hs.table hend]
    rfl

theorem readCondition_text {s : Select} (hs : s.Named) :
    readCondition s.conditionText = some s.condition ↔ s.PlainValue := by
  cases hc : s.condition with
  | none =>
    rw [Select.conditionText, hc, Select.PlainValue, hc]
    exact iff_of_true rfl nofun
  | some x =>
    obtain ⟨column, value⟩ := x
    have hname : IsName column := hs.condition _ hc
    have hplain : s.PlainValue ↔ Plain value := by simp [Select.PlainValue, hc]
    have htext : s.conditionText =
        " WHERE ".toList ++ (column ++ ("=\"".toList ++ (value ++ ['"']))) := by
      rw [Select.conditionText, hc]
      simp only [List.append_assoc]
    have hequals : ∀ c ∈ ("=\"".toList ++ (value ++ ['"'])).head?, nameChar c = false := by
      simp [nameChar]
    rw [hplain, ← readLiteral_append_quote, htext, readCondition, if_neg (by simp), expect_append]
    simp only [Option.bind_eq_bind, Option.bind_some]
    rw [readName_append hname hequals]
    simp only [Option.bind_some]
    rw [expect_append]
    simp only [Option.bind_some]
    cases readLiteral (value ++ ['"']) with
    | none => exact iff_of_false nofun nofun
    | some u =>
      simp only [Option.bind_some]
      split_ifs with hrest <;> simp [hrest, Prod.ext_iff]

theorem isName_of_readColumns {t rest : Text} {columns : Option Text}
    (h : readColumns t = some (columns, rest)) : ∀ w ∈ columns, IsName w := by
  unfold readColumns at h
  split at h
  · cases h
    nofun
  · obtain ⟨⟨w, rest'⟩, hw, heq⟩ := Option.map_eq_some_iff.mp h
    cases heq
    intro w' hw'
    cases hw'
    exact isName_of_readName hw

theorem isName_of_readTable {t rest table : Text} {schema : Option Text}
    (h : readTable t = some ((schema, table), rest)) : (∀ w ∈ schema, IsName w) ∧ IsName table := by
  obtain ⟨⟨w, t'⟩, hw, h⟩ := Option.bind_eq_some_iff.mp h
  dsimp only at h
  split at h
  · obtain ⟨⟨w', t''⟩, hw', heq⟩ := Option.bind_eq_some_iff.mp h
    cases heq
    refine ⟨fun w'' hw'' => ?_, isName_of_readName hw'⟩
    cases hw''
    exact isName_of_readName hw
  · cases h
    exact ⟨nofun, isName_of_readName hw⟩

theorem isName_of_readCondition {t : Text} {condition : Option (Text × Text)}
    (h : readCondition t = some condition) : ∀ x ∈ condition, IsName x.1 := by
  unfold readCondition at h
  split at h
  · cases h
    nofun
  · obtain ⟨t₁, -, h⟩ := Option.bind_eq_some_iff.mp h
    obtain ⟨⟨column, t₂⟩, hcolumn, h⟩ := Option.bind_eq_some_iff.mp h
    obtain ⟨t₃, -, h⟩ := Option.bind_eq_some_iff.mp h
    obtain ⟨⟨value, t₄⟩, -, h⟩ := Option.bind_eq_some_iff.mp h
    dsimp only at h
    split at h <;> cases h
    intro x hx
    cases hx
    exact isName_of_readName hcolumn

/-- What the reader gives has names for names. -/
theorem named_of_readSelect {t : Text} {s : Select} (h : readSelect t = some s) : s.Named := by
  obtain ⟨t₁, -, h⟩ := Option.bind_eq_some_iff.mp h
  obtain ⟨⟨columns, t₂⟩, hcolumns, h⟩ := Option.bind_eq_some_iff.mp h
  obtain ⟨t₃, -, h⟩ := Option.bind_eq_some_iff.mp h
  obtain ⟨⟨⟨schema, table⟩, t₄⟩, htable, h⟩ := Option.bind_eq_some_iff.mp h
  obtain ⟨condition, hcondition, h⟩ := Option.bind_eq_some_iff.mp h
  cases h
  obtain ⟨hschema, htable⟩ := isName_of_readTable htable
  exact ⟨isName_of_readColumns hcolumns, hschema, htable, isName_of_readCondition hcondition⟩

/-- **The statement is read back exactly when its names are names and its value is plain.** -/
theorem readSelect_text_iff (s : Select) : readSelect s.text = some s ↔ s.Named ∧ s.PlainValue := by
  suffices hread : s.Named → (readSelect s.text = some s ↔ s.PlainValue) from
    ⟨fun h => ⟨named_of_readSelect h, (hread (named_of_readSelect h)).mp h⟩,
      fun h => (hread h.1).mpr h.2⟩
  intro hs
  have htext : s.text = "SELECT ".toList ++ (s.columnsText ++
      (" FROM ".toList ++ (s.tableText ++ s.conditionText))) := by
    unfold Select.text
    simp only [List.append_assoc]
  have hfrom : ∀ c ∈ (" FROM ".toList ++ (s.tableText ++ s.conditionText)).head?,
      nameChar c = false := by
    simp [nameChar]
  have hwhere : ∀ c ∈ s.conditionText.head?, c = ' ' := by
    intro c hc
    unfold Select.conditionText at hc
    split at hc
    · cases hc
    · simpa using hc.symm
  rw [← readCondition_text hs, htext, readSelect, expect_append]
  simp only [Option.bind_eq_bind, Option.bind_some]
  rw [readColumns_append hs hfrom]
  simp only [Option.bind_some]
  rw [expect_append]
  simp only [Option.bind_some]
  rw [readTable_append hs hwhere]
  simp only [Option.bind_some]
  cases readCondition s.conditionText with
  | none => exact iff_of_false nofun nofun
  | some condition => simp [Select.ext_iff]

/-! ## Selecting -/

/-- The rows of every table of every schema, and the comparison of a column with a value. -/
structure Database (Row : Type) where
  rows (schema table : Text) : List Row
  equals (row : Row) (column value : Text) : Bool

/-- The rows of a table whose column has the value. -/
def Database.matching {Row : Type} (db : Database Row) (schema table column value : Text) :
    List Row :=
  (db.rows schema table).filter fun row => db.equals row column value

/-- How many rows a statement selects when a schema is in use. -/
def Select.count {Row : Type} (s : Select) (db : Database Row) (current : Text) : ℕ :=
  match s.condition with
  | none => (db.rows (s.schema.getD current) s.table).length
  | some (column, value) => (db.matching (s.schema.getD current) s.table column value).length

/-! ## The catalogue -/

/-- The schemas of a server, each with its tables. -/
abbrev Catalogue (Table : Type) := AList fun _ : Text => AList fun _ : Text => Table

namespace Catalogue

variable {Table : Type} (c : Catalogue Table)

/-- The table with a name in a schema. -/
def table? (schema name : Text) : Option Table := (AList.lookup schema c).bind (AList.lookup name)

/-- The rows of `SCHEMATA` with a name. -/
def schemaCount (name : Text) : ℕ := c.keys.count name

/-- The rows of `TABLES` with a name, whatever their schema. -/
def tableCount (name : Text) : ℕ := (c.entries.flatMap fun schema => schema.2.keys).count name

theorem schemaCount_eq_zero {name : Text} : c.schemaCount name = 0 ↔ name ∉ c := by
  rw [schemaCount, List.count_eq_zero, AList.mem_keys]

/-- **No row of `TABLES` has the name exactly when no schema has such a table.** -/
theorem tableCount_eq_zero {name : Text} :
    c.tableCount name = 0 ↔ ∀ schema, c.table? schema name = none := by
  rw [tableCount, List.count_eq_zero, List.mem_flatMap]
  constructor
  · intro hnone schema
    rw [table?, Option.bind_eq_none_iff]
    intro tables htables
    rw [AList.lookup_eq_none]
    intro hmem
    exact hnone ⟨_, AList.mem_lookup_iff.mp htables, AList.mem_keys.mp hmem⟩
  · rintro hnone ⟨⟨schema, tables⟩, hschema, hmem⟩
    have htables : AList.lookup schema c = some tables := AList.mem_lookup_iff.mpr hschema
    have hlookup := hnone schema
    rw [table?, htables, Option.bind_some, AList.lookup_eq_none] at hlookup
    exact hlookup (AList.mem_keys.mpr hmem)

end Catalogue

end AMSServer.Sql
