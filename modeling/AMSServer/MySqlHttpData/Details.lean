import AMSServer.Foundations.Table
import AMSServer.MySqlHttpData.Basic

/-!
# The details of a result

What `ShowQueryDetails` prints for a result with its fields and its rows (`showDetails`). The widths
of the columns are taken from the names and the first row and kept in bytes, in an array of twenty,
and the number of fields is kept in a byte too.

For a result that has a row, the text printed is a table exactly when the columns fit the array, the
names fit a byte, nothing printed ends a line, and in every row the cells that are longer than their
columns are made up for by cells that are cut at a terminator (`printsTable_iff`). In a row without
terminators nothing makes up for anything: no cell may be `NULL` and none longer than its column
(`printsTable_iff_of_nulFree`).
-/

namespace AMSServer

open CRuntime Table

/-- A `MYSQL_FIELD`, by its `name`. Its `name_length` is the length of the name. -/
structure MysqlField where
  name : Text
  nul_free : nul ∉ name

/-- A cell of a row, `none` for `NULL` -/
abbrev Cell := Option Text

/-- A `MYSQL_RES`: its fields, and its rows in the order they are fetched. -/
structure ResultSet where
  fields : List MysqlField
  rows : List (List Cell)
  row_length : ∀ row ∈ rows, row.length = fields.length

/-- The result, by `mysql_num_rows` and `mysql_num_fields` -/
def ResultSet.res (result : ResultSet) : MysqlRes := ⟨result.rows.length, result.fields.length⟩

theorem ResultSet.length_of_rows_eq {result : ResultSet} {sqlrow : List Cell}
    {rows : List (List Cell)} (hrows : result.rows = sqlrow :: rows) :
    sqlrow.length = result.fields.length :=
  result.row_length sqlrow (hrows ▸ List.mem_cons_self)

namespace MySqlHttpData

def showQueryLevel : ℕ := 1

/-- The elements of the arrays `columnlen` and `fd` -/
def maxColumns : ℕ := 20

/-- `(UCHAR)n` -/
def uchar (n : ℕ) : ℕ := n % 256

/-! ## What is printed -/

/-- `lengths[i]` -/
def cellLength : Cell → ℕ
  | none => 0
  | some value => value.length

/-- `sqlrow[i]`, as `%s` prints it. -/
def cellShown : Cell → Text
  | none => "(null)".toList
  | some value => cstr value

/-- `fd[i]` and `columnlen[i]` -/
structure Column where
  fd : MysqlField
  columnlen : ℕ

/-- `columnlen[i]`, from the name and the cell of the first row -/
def columnLen (fd : MysqlField) (cell : Cell) : ℕ :=
  uchar (if fd.name.length > uchar (cellLength cell) then fd.name.length
    else uchar (cellLength cell))

/-- The loop that fills `fd` and `columnlen`, from an index on -/
def fetchColumns (i : ℕ) : List (MysqlField × Cell) → Except Fault (List Column)
  | [] => .ok []
  | (fd, cell) :: rest => do
    if maxColumns ≤ i then
      throw .overrun
    let columns ← fetchColumns (i + 1) rest
    return ⟨fd, columnLen fd cell⟩ :: columns

/-- The loop that prints a rule -/
def printRule (columns : List Column) : Text :=
  (columns.flatMap fun c =>
    "+-".toList ++ List.replicate c.columnlen '-' ++ "-".toList) ++ "+\n".toList

/-- The loop that prints the names -/
def printNames (columns : List Column) : Text :=
  (columns.flatMap fun c =>
    "| ".toList ++ c.fd.name ++ " ".toList ++
      List.replicate (c.columnlen - c.fd.name.length) ' ') ++ "|\n".toList

/-- The loop that prints a row -/
def printRow (columns : List Column) (sqlrow : List Cell) : Text :=
  (List.zipWith (fun c cell =>
    "| ".toList ++ cellShown cell ++ " ".toList ++
      List.replicate (c.columnlen - cellLength cell) ' ') columns sqlrow).flatten ++ "|\n".toList

/-- What `MySqlHttpData::ShowQueryDetails` prints. -/
def showDetails (level : ℕ) (result : ResultSet) : Except Fault Text :=
  if level < 1 then .ok []
  else
    match result.rows with
    | [] => .ok "\n".toList
    | sqlrow :: rows => do
      let filednum := uchar result.fields.length
      let columns ← fetchColumns 0 ((result.fields.zip sqlrow).take filednum)
      return "\n".toList ++ printRule columns ++ printNames columns ++ printRule columns ++
        printRow columns sqlrow ++
        (rows.flatMap fun sqlrow => printRule columns ++ printRow columns sqlrow) ++
        printRule columns ++ "\n".toList

/-! ## The columns -/

/-- The column of a field and its first cell. -/
def toColumn (fc : MysqlField × Cell) : Column := ⟨fc.1, columnLen fc.1 fc.2⟩

theorem fetchColumns_of_le {i : ℕ} {l : List (MysqlField × Cell)} (h : i + l.length ≤ maxColumns) :
    fetchColumns i l = .ok (l.map toColumn) := by
  induction l generalizing i with
  | nil => rfl
  | cons fc l ih =>
    rw [List.length_cons] at h
    rw [fetchColumns, if_neg (by omega), ih (by omega)]
    rfl

theorem fetchColumns_of_lt {i : ℕ} {l : List (MysqlField × Cell)} (hi : i ≤ maxColumns)
    (h : maxColumns < i + l.length) : fetchColumns i l = .error .overrun := by
  induction l generalizing i with
  | nil =>
    rw [List.length_nil] at h
    omega
  | cons fc l ih =>
    rw [List.length_cons] at h
    rw [fetchColumns]
    split
    · rfl
    · next hlt =>
      rw [ih (by omega) (by omega)]
      rfl

/-- The widths of columns. -/
def widths (columns : List Column) : List ℕ := columns.map Column.columnlen

/-! ## The text in lines -/

/-- The blanks after the cells of a row. -/
def pads (widths : List ℕ) (sqlrow : List Cell) : List ℕ :=
  List.zipWith (fun w cell => w - cellLength cell) widths sqlrow

/-- A row in columns of the given widths. -/
def rowOf (widths : List ℕ) (sqlrow : List Cell) : Text :=
  rowLine (sqlrow.map cellShown) (pads widths sqlrow)

/-- The name of a field, as a cell. -/
def nameCell (fd : MysqlField) : Cell := some fd.name

theorem cellShown_nameCell (fd : MysqlField) : cellShown (nameCell fd) = fd.name :=
  cstr_of_notMem fd.nul_free

theorem printRule_eq (columns : List Column) :
    printRule columns = ruleLine (widths columns) ++ ['\n'] := by
  simp [printRule, ruleLine, widths, List.flatMap_map]

/-- The cells of a row, column by column. -/
theorem cellTexts_eq (columns : List Column) (sqlrow : List Cell) :
    List.zipWith cellText (sqlrow.map cellShown) (pads (widths columns) sqlrow) =
      List.zipWith (fun c cell => cellText (cellShown cell) (c.columnlen - cellLength cell))
        columns sqlrow := by
  induction columns generalizing sqlrow with
  | nil => simp [pads, widths]
  | cons c columns ih =>
    cases sqlrow with
    | nil => rfl
    | cons cell sqlrow => exact congrArg _ (ih sqlrow)

theorem printRow_eq (columns : List Column) (sqlrow : List Cell) :
    printRow columns sqlrow = rowOf (widths columns) sqlrow ++ ['\n'] := by
  rw [rowOf, rowLine, cellTexts_eq]
  simp [printRow, cellText]

theorem printNames_eq (columns : List Column) :
    printNames columns =
      rowOf (widths columns) (columns.map fun c => nameCell c.fd) ++ ['\n'] := by
  rw [rowOf, rowLine, cellTexts_eq, List.zipWith_map_right, List.zipWith_self]
  simp only [cellShown_nameCell]
  simp [printNames, cellText, nameCell, cellLength, List.flatMap_def]

theorem printRows_eq (columns : List Column) (rows : List (List Cell)) :
    (rows.flatMap fun sqlrow => printRule columns ++ printRow columns sqlrow) =
      unlines ((rows.map (rowOf (widths columns))).flatMap
        fun line => [ruleLine (widths columns), line]) := by
  induction rows with
  | nil => rfl
  | cons sqlrow rows ih =>
    rw [List.flatMap_cons, ih, printRule_eq, printRow_eq]
    simp

/-- The lines printed for columns and rows, the blank ones apart. -/
def detailLines (columns : List Column) (rows : List (List Cell)) : List Text :=
  tableLines (ruleLine (widths columns))
    (rowOf (widths columns) (columns.map fun c => nameCell c.fd))
    (rows.map (rowOf (widths columns)))

theorem showDetails_eq {result : ResultSet} {sqlrow : List Cell} {rows : List (List Cell)}
    (hrows : result.rows = sqlrow :: rows) :
    showDetails showQueryLevel result =
      (fetchColumns 0 ((result.fields.zip sqlrow).take (uchar result.fields.length))).map
        fun columns => unlines ([] :: detailLines columns (sqlrow :: rows) ++ [[]]) := by
  rw [showDetails, if_neg (by decide), hrows]
  dsimp only
  cases fetchColumns 0 ((result.fields.zip sqlrow).take (uchar result.fields.length)) with
  | error e => rfl
  | ok columns =>
    rw [ok_bind, printRows_eq, printRule_eq, printNames_eq, printRow_eq]
    simp [Except.map, pure, Except.pure, detailLines, tableLines]

/-! ## The lines of a table -/

/-- **The text printed for a result is a table of it**, between blank lines: no element past the
arrays is used, every column and every row is in the table, and its lines have one width. -/
def PrintsTable (result : ResultSet) : Prop :=
  ∃ lines, showDetails showQueryLevel result = .ok (unlines ([] :: lines ++ [[]])) ∧
    (∀ line ∈ lines, '\n' ∉ line) ∧
    IsTable (result.fields.map MysqlField.name) (result.rows.map (List.map cellShown)) lines

theorem length_detailLines (columns : List Column) (rows : List (List Cell)) :
    (detailLines columns rows).length = 2 * rows.length + 3 := by
  rw [detailLines, length_tableLines, List.length_map]

/-- The lines printed are the only ones the text can be cut into. -/
theorem detailLines_eq {columns : List Column} {rows : List (List Cell)} {names : List Text}
    {lines : List Text}
    (h : unlines ([] :: detailLines columns rows ++ [[]]) = unlines ([] :: lines ++ [[]]))
    (hfree : ∀ line ∈ lines, '\n' ∉ line)
    (htable : IsTable names (rows.map (List.map cellShown)) lines) :
    detailLines columns rows = lines := by
  obtain ⟨ws, headline, body, rfl, -, -, hbody, -⟩ := htable
  have hlength : body.length = rows.length := by
    rw [← hbody.length_eq, List.length_map]
  have heq := eq_of_unlines_eq h (by simp [length_detailLines, length_tableLines, hlength])
    (by simpa [or_imp, forall_and] using hfree)
  simpa using heq

/-- The rules printed are for as many columns as there are. -/
theorem length_columns_of_isTable {columns : List Column} {rows : List (List Cell)}
    {names : List Text}
    (htable : IsTable names (rows.map (List.map cellShown)) (detailLines columns rows)) :
    columns.length = names.length := by
  obtain ⟨ws, headline, body, hlines, hnames, -, -, -⟩ := htable
  have hrule := congrArg (List.count '+') (tableLines_inj hlines).1
  rw [count_ruleLine, count_ruleLine, widths, List.length_map] at hrule
  omega

/-! ## Rows as wide as a rule -/

/-- The characters that a cell has too many for a column: all six for `NULL`, whose length is `0`,
and those past the width of the column for a value. -/
def excess (w : ℕ) : Cell → ℕ
  | none => 6
  | some value => (cstr value).length - w

/-- The characters that a cell has too few for a column: those of its length that are not printed,
up to the width of the column, because they follow a terminator. -/
def shortage (w : ℕ) : Cell → ℕ
  | none => 0
  | some value => min value.length w - (cstr value).length

/-- Cells printed on one line that is as wide as their columns. -/
def FitsColumns (widths : List ℕ) (sqlrow : List Cell) : Prop :=
  (∀ cell ∈ sqlrow, '\n' ∉ cellShown cell) ∧
    (List.zipWith excess widths sqlrow).sum = (List.zipWith shortage widths sqlrow).sum

theorem length_cell_add_shortage (w : ℕ) (cell : Cell) :
    (cellShown cell).length + (w - cellLength cell) + shortage w cell = w + excess w cell := by
  cases cell with
  | none =>
    have hnull : (cellShown none).length = 6 := rfl
    rw [hnull]
    simp only [cellLength, shortage, excess]
    omega
  | some value =>
    have hle := length_cstr_le value
    simp only [cellShown, cellLength, shortage, excess]
    omega

theorem sum_cells_add_shortage {widths : List ℕ} {sqlrow : List Cell}
    (h : sqlrow.length = widths.length) :
    (List.zipWith (fun cell pad => cell.length + pad) (sqlrow.map cellShown)
        (pads widths sqlrow)).sum + (List.zipWith shortage widths sqlrow).sum =
      widths.sum + (List.zipWith excess widths sqlrow).sum := by
  induction widths generalizing sqlrow with
  | nil =>
    rw [List.length_eq_zero_iff.mp h]
    rfl
  | cons w widths ih =>
    obtain ⟨cell, sqlrow, rfl⟩ := List.exists_cons_of_length_eq_add_one h
    have hcell := length_cell_add_shortage w cell
    have hrest := ih (Nat.succ_injective h)
    simp only [pads, List.map_cons, List.zipWith_cons_cons, List.sum_cons] at hrest ⊢
    omega

theorem length_pads {widths : List ℕ} {sqlrow : List Cell} (h : sqlrow.length = widths.length) :
    (pads widths sqlrow).length = (sqlrow.map cellShown).length := by
  simp [pads, h]

/-- **A row is printed on one line as wide as a rule exactly when its cells fit.** -/
theorem rowOf_fits_iff {widths : List ℕ} {sqlrow : List Cell} (h : sqlrow.length = widths.length) :
    ('\n' ∉ rowOf widths sqlrow ∧ (rowOf widths sqlrow).length = (ruleLine widths).length) ↔
      FitsColumns widths sqlrow := by
  have hsum := sum_cells_add_shortage h
  rw [rowOf, newline_mem_rowLine_iff (length_pads h), length_rowLine (length_pads h),
    length_ruleLine, List.length_map, h, FitsColumns]
  refine and_congr ?_ ⟨fun hw => by omega, fun hw => by omega⟩
  simp

theorem shows_rowOf {widths : List ℕ} {sqlrow : List Cell} (h : sqlrow.length = widths.length) :
    Shows (sqlrow.map cellShown) (rowOf widths sqlrow) :=
  ⟨pads widths sqlrow, length_pads h, rfl⟩

/-- The lines printed are a table exactly when the names and all rows fit. -/
theorem detailLines_isTable_iff {columns : List Column} {rows : List (List Cell)}
    (hrows : ∀ row ∈ rows, row.length = columns.length) :
    ((∀ line ∈ detailLines columns rows, '\n' ∉ line) ∧
        IsTable (columns.map fun c => c.fd.name) (rows.map (List.map cellShown))
          (detailLines columns rows)) ↔
      FitsColumns (widths columns) (columns.map fun c => nameCell c.fd) ∧
        ∀ row ∈ rows, FitsColumns (widths columns) row := by
  have hnames : (columns.map fun c => nameCell c.fd).length = (widths columns).length := by
    simp [widths]
  have hlen : ∀ row ∈ rows, row.length = (widths columns).length := by
    simpa [widths] using hrows
  constructor
  · rintro ⟨hfree, ws, headline, body, hlines, -, -, -, hwidth⟩
    obtain ⟨hrule, rfl, rfl⟩ := tableLines_inj hlines
    rw [← hrule] at hwidth
    have hfits : ∀ row, row.length = (widths columns).length →
        rowOf (widths columns) row ∈ rowOf (widths columns) (columns.map fun c => nameCell c.fd) ::
          rows.map (rowOf (widths columns)) → FitsColumns (widths columns) row := by
      intro row hrow hmem
      refine (rowOf_fits_iff hrow).mp ⟨hfree _ ?_, hwidth _ hmem⟩
      exact mem_tableLines.mpr (Or.inr (by simpa using hmem))
    exact ⟨hfits _ hnames List.mem_cons_self, fun row hrow =>
      hfits row (hlen row hrow) (List.mem_cons_of_mem _ (List.mem_map_of_mem hrow))⟩
  · rintro ⟨hname, hfits⟩
    have hheadline := (rowOf_fits_iff hnames).mpr hname
    have hbody : ∀ row ∈ rows, _ := fun row hrow =>
      (rowOf_fits_iff (hlen row hrow)).mpr (hfits row hrow)
    refine ⟨fun line hline => ?_, widths columns, _, _, rfl, by simp [widths], ?_, ?_, ?_⟩
    · rcases mem_tableLines.mp hline with rfl | rfl | hmem
      · exact newline_notMem_ruleLine _
      · exact hheadline.1
      · obtain ⟨row, hrow, rfl⟩ := List.mem_map.mp hmem
        exact (hbody row hrow).1
    · simpa [Function.comp_def, cellShown_nameCell] using shows_rowOf hnames
    · rw [List.forall₂_map_left_iff, List.forall₂_map_right_iff, List.forall₂_same]
      exact fun row hrow => shows_rowOf (hlen row hrow)
    · intro line hline
      rcases List.mem_cons.mp hline with rfl | hmem
      · exact hheadline.2
      · obtain ⟨row, hrow, rfl⟩ := List.mem_map.mp hmem
        exact (hbody row hrow).2

/-! ## Values without terminators -/

/-- A cell that is printed within its column. -/
def FitsCell (w : ℕ) (cell : Cell) : Prop :=
  ∃ value, cell = some value ∧ value.length ≤ w ∧ '\n' ∉ value

theorem excess_eq_zero_iff {w : ℕ} {cell : Cell} (hnul : ∀ value, cell = some value → nul ∉ value) :
    ('\n' ∉ cellShown cell ∧ excess w cell = 0) ↔ FitsCell w cell := by
  cases cell with
  | none => simp [excess, FitsCell]
  | some value =>
    have hvalue : cstr value = value := cstr_of_notMem (hnul value rfl)
    simp [excess, FitsCell, cellShown, hvalue, Nat.sub_eq_zero_iff_le, and_comm]

theorem shortage_eq_zero {w : ℕ} {cell : Cell} (hnul : ∀ value, cell = some value → nul ∉ value) :
    shortage w cell = 0 := by
  cases cell with
  | none => rfl
  | some value =>
    have hvalue : cstr value = value := cstr_of_notMem (hnul value rfl)
    simp only [shortage, hvalue]
    omega

theorem sum_shortage_eq_zero (widths : List ℕ) {sqlrow : List Cell}
    (hnul : ∀ value, some value ∈ sqlrow → nul ∉ value) :
    (List.zipWith shortage widths sqlrow).sum = 0 := by
  induction sqlrow generalizing widths with
  | nil => simp
  | cons cell sqlrow ih =>
    cases widths with
    | nil => rfl
    | cons w widths =>
      have hcell : shortage w cell = 0 := shortage_eq_zero fun value h =>
        hnul value (h ▸ List.mem_cons_self)
      rw [List.zipWith_cons_cons, List.sum_cons, hcell,
        ih widths fun value h => hnul value (List.mem_cons_of_mem _ h)]

/-- **Without terminators a row fits exactly when each of its cells does.** -/
theorem fitsColumns_iff_of_nulFree {widths : List ℕ} {sqlrow : List Cell}
    (h : sqlrow.length = widths.length) (hnul : ∀ value, some value ∈ sqlrow → nul ∉ value) :
    FitsColumns widths sqlrow ↔ List.Forall₂ FitsCell widths sqlrow := by
  rw [FitsColumns, sum_shortage_eq_zero widths hnul]
  induction widths generalizing sqlrow with
  | nil =>
    rw [List.length_eq_zero_iff.mp h]
    simp
  | cons w widths ih =>
    obtain ⟨cell, sqlrow, rfl⟩ := List.exists_cons_of_length_eq_add_one h
    have hrest := ih (Nat.succ_injective h) fun value hmem =>
      hnul value (List.mem_cons_of_mem _ hmem)
    have hcell := @excess_eq_zero_iff w cell fun value heq => hnul value (heq ▸ List.mem_cons_self)
    rw [List.forall_mem_cons, List.zipWith_cons_cons, List.sum_cons, Nat.add_eq_zero_iff,
      List.forall₂_cons, ← hrest, ← hcell]
    exact and_and_and_comm

/-! ## The results that are printed as tables -/

/-- The width of a column: that of its name or, in a byte, of its first cell. -/
def colWidth (fd : MysqlField) (cell : Cell) : ℕ := max fd.name.length (cellLength cell % 256)

/-- The widths of the columns of a result. -/
def colWidths (result : ResultSet) : List ℕ :=
  List.zipWith colWidth result.fields (result.rows.headD [])

theorem length_colWidths {result : ResultSet} (hrows : result.rows ≠ []) :
    (colWidths result).length = result.fields.length := by
  obtain ⟨sqlrow, rows, hcons⟩ := List.exists_cons_of_ne_nil hrows
  have hrow := ResultSet.length_of_rows_eq hcons
  simp [colWidths, hcons, hrow]

/-- The results whose details are a table. -/
structure Printable (result : ResultSet) : Prop where
  /-- The columns fit the arrays. -/
  columns : result.fields.length ≤ maxColumns
  /-- The names fit a byte and a line. -/
  names : ∀ fd ∈ result.fields, fd.name.length ≤ 255 ∧ '\n' ∉ fd.name
  /-- The rows fit the columns. -/
  rows : ∀ row ∈ result.rows, FitsColumns (colWidths result) row

theorem columnLen_eq_colWidth {fd : MysqlField} (h : fd.name.length ≤ 255) (cell : Cell) :
    columnLen fd cell = colWidth fd cell := by
  have hlt : cellLength cell % 256 < 256 := Nat.mod_lt _ (by decide)
  unfold columnLen colWidth uchar
  split <;> omega

/-- A name is printed within its column exactly when its length fits a byte. -/
theorem length_name_le_columnLen_iff (fd : MysqlField) (cell : Cell) :
    fd.name.length ≤ columnLen fd cell ↔ fd.name.length ≤ 255 := by
  constructor
  · intro h
    have hlt : columnLen fd cell < 256 := Nat.mod_lt _ (by decide)
    omega
  · intro h
    rw [columnLen_eq_colWidth h]
    exact le_max_left _ _

/-- The columns of a result, in the order of its fields. -/
def columnsOf (fields : List MysqlField) (sqlrow : List Cell) : List Column :=
  (fields.zip sqlrow).map toColumn

theorem length_columnsOf {fields : List MysqlField} {sqlrow : List Cell}
    (h : sqlrow.length = fields.length) : (columnsOf fields sqlrow).length = fields.length := by
  simp [columnsOf, h]

theorem map_fd_columnsOf {α : Type} (f : MysqlField → α) {fields : List MysqlField}
    {sqlrow : List Cell} (h : sqlrow.length = fields.length) :
    (columnsOf fields sqlrow).map (fun c => f c.fd) = fields.map f := by
  have hfst : (fields.zip sqlrow).map Prod.fst = fields := List.map_fst_zip h.ge
  calc (columnsOf fields sqlrow).map (fun c => f c.fd)
      = ((fields.zip sqlrow).map Prod.fst).map f := by simp [columnsOf, toColumn]
    _ = fields.map f := by rw [hfst]

theorem widths_columnsOf (fields : List MysqlField) (sqlrow : List Cell) :
    widths (columnsOf fields sqlrow) = List.zipWith columnLen fields sqlrow := by
  simp [widths, columnsOf, toColumn, List.zip, List.map_zipWith]

/-- The name of a field fits its column exactly when it fits a byte and a line. -/
theorem fitsCell_nameCell_iff (fd : MysqlField) (cell : Cell) :
    FitsCell (columnLen fd cell) (nameCell fd) ↔ fd.name.length ≤ 255 ∧ '\n' ∉ fd.name := by
  rw [← length_name_le_columnLen_iff fd cell]
  simp [FitsCell, nameCell]

/-- The names of the columns fit exactly when they fit a byte and a line. -/
theorem names_fit_iff {fields : List MysqlField} {sqlrow : List Cell}
    (h : sqlrow.length = fields.length) :
    FitsColumns (widths (columnsOf fields sqlrow)) (fields.map nameCell) ↔
      ∀ fd ∈ fields, fd.name.length ≤ 255 ∧ '\n' ∉ fd.name := by
  have hnul : ∀ value, some value ∈ fields.map nameCell → nul ∉ value := by
    intro value hmem
    obtain ⟨fd, -, hfd⟩ := List.mem_map.mp hmem
    cases hfd
    exact fd.nul_free
  rw [fitsColumns_iff_of_nulFree (by simp [widths, columnsOf, h]) hnul, widths_columnsOf]
  clear hnul
  induction fields generalizing sqlrow with
  | nil => simp
  | cons fd fields ih =>
    obtain ⟨cell, sqlrow, rfl⟩ := List.exists_cons_of_length_eq_add_one h
    rw [List.map_cons, List.zipWith_cons_cons, List.forall₂_cons, fitsCell_nameCell_iff,
      List.forall_mem_cons]
    exact and_congr_right' (ih (Nat.succ_injective h))

/-- Names that fit a byte make the widths kept in bytes the widths of the columns. -/
theorem widths_eq_colWidths {result : ResultSet} {sqlrow : List Cell} {rows : List (List Cell)}
    (hrows : result.rows = sqlrow :: rows)
    (hnames : ∀ fd ∈ result.fields, fd.name.length ≤ 255 ∧ '\n' ∉ fd.name) :
    widths (columnsOf result.fields sqlrow) = colWidths result := by
  rw [widths_columnsOf, colWidths, hrows, List.headD_cons, ← List.map_uncurry_zip_eq_zipWith,
    ← List.map_uncurry_zip_eq_zipWith]
  apply List.map_congr_left
  intro fc hfc
  exact columnLen_eq_colWidth (hnames _ (List.of_mem_zip hfc).1).1 _

/-- **The details of a result whose columns fit the arrays.** -/
theorem showDetails_of_le {result : ResultSet} {sqlrow : List Cell} {rows : List (List Cell)}
    (hrows : result.rows = sqlrow :: rows) (hcolumns : result.fields.length ≤ maxColumns) :
    showDetails showQueryLevel result =
      .ok (unlines ([] :: detailLines (columnsOf result.fields sqlrow) result.rows ++ [[]])) := by
  have hlength : (result.fields.zip sqlrow).length ≤ result.fields.length := by
    rw [List.length_zip]
    exact min_le_left _ _
  have huchar : uchar result.fields.length = result.fields.length := by
    rw [maxColumns] at hcolumns
    exact Nat.mod_eq_of_lt (by omega)
  rw [showDetails_eq hrows, huchar, List.take_of_length_le hlength,
    fetchColumns_of_le (by omega), hrows]
  rfl

/-- A result whose details are a table has no more columns than the arrays. -/
theorem length_fields_le_of_printsTable {result : ResultSet} {sqlrow : List Cell}
    {rows : List (List Cell)} (hrows : result.rows = sqlrow :: rows) (h : PrintsTable result) :
    result.fields.length ≤ maxColumns := by
  obtain ⟨lines, hprint, hfree, htable⟩ := h
  rw [showDetails_eq hrows] at hprint
  by_cases hfit : ((result.fields.zip sqlrow).take (uchar result.fields.length)).length ≤ maxColumns
  · rw [fetchColumns_of_le (by omega)] at hprint
    rw [hrows] at htable
    obtain rfl := detailLines_eq (Except.ok.inj hprint) hfree htable
    have hlength := length_columns_of_isTable htable
    rw [List.length_map, List.length_map] at hlength
    omega
  · rw [fetchColumns_of_lt (by decide) (by omega)] at hprint
    cases hprint

/-- Within the arrays, the details are a table exactly when the names and the rows fit. -/
theorem printsTable_iff_of_le {result : ResultSet} {sqlrow : List Cell} {rows : List (List Cell)}
    (hrows : result.rows = sqlrow :: rows) (hcolumns : result.fields.length ≤ maxColumns) :
    PrintsTable result ↔
      FitsColumns (widths (columnsOf result.fields sqlrow)) (result.fields.map nameCell) ∧
        ∀ row ∈ result.rows, FitsColumns (widths (columnsOf result.fields sqlrow)) row := by
  have hrow := ResultSet.length_of_rows_eq hrows
  have hlines := @detailLines_isTable_iff (columnsOf result.fields sqlrow) result.rows
    fun row hmem => (result.row_length row hmem).trans (length_columnsOf hrow).symm
  rw [map_fd_columnsOf MysqlField.name hrow, map_fd_columnsOf nameCell hrow] at hlines
  rw [← hlines, PrintsTable]
  constructor
  · rintro ⟨lines, hprint, hfree, htable⟩
    rw [showDetails_of_le hrows hcolumns] at hprint
    obtain rfl := detailLines_eq (Except.ok.inj hprint) hfree htable
    exact ⟨hfree, htable⟩
  · rintro ⟨hfree, htable⟩
    exact ⟨_, showDetails_of_le hrows hcolumns, hfree, htable⟩

theorem printable_of_printsTable {result : ResultSet} (hrows : result.rows ≠ [])
    (h : PrintsTable result) : Printable result := by
  obtain ⟨sqlrow, rows, hcons⟩ := List.exists_cons_of_ne_nil hrows
  have hcolumns := length_fields_le_of_printsTable hcons h
  have hrow := ResultSet.length_of_rows_eq hcons
  obtain ⟨hnames, hfits⟩ := (printsTable_iff_of_le hcons hcolumns).mp h
  rw [names_fit_iff hrow] at hnames
  rw [widths_eq_colWidths hcons hnames] at hfits
  exact ⟨hcolumns, hnames, hfits⟩

theorem printsTable_of_printable {result : ResultSet} (hrows : result.rows ≠ [])
    (h : Printable result) : PrintsTable result := by
  obtain ⟨sqlrow, rows, hcons⟩ := List.exists_cons_of_ne_nil hrows
  have hrow := ResultSet.length_of_rows_eq hcons
  apply (printsTable_iff_of_le hcons h.columns).mpr
  rw [names_fit_iff hrow, widths_eq_colWidths hcons h.names]
  exact ⟨h.names, h.rows⟩

/-- **The details of a result with a row are a table exactly when the result is printable**, for any
number of columns and rows and cells of any length. -/
theorem printsTable_iff (result : ResultSet) (hrows : result.rows ≠ []) :
    PrintsTable result ↔ Printable result :=
  ⟨printable_of_printsTable hrows, printsTable_of_printable hrows⟩

/-- A result of two rows in one column: its field and the two values. -/
def twoRows (fd : MysqlField) (value value' : Text) : ResultSet :=
  ⟨[fd], [[some value], [some value']], by simp⟩

/-- The column `a` -/
def fieldA : MysqlField := ⟨['a'], by decide⟩

theorem printsTable_twoRows : PrintsTable (twoRows fieldA ['1'] ['2']) := by
  refine (printsTable_iff (twoRows fieldA ['1'] ['2']) (by decide)).mpr
    ⟨by decide, by decide, ?_⟩
  intro row hrow
  unfold FitsColumns
  revert row
  decide

/-- A second row that is longer than the name and the first row is printed past its column. -/
theorem not_printsTable_longRow :
    ¬ ∀ result : ResultSet, result.rows ≠ [] → PrintsTable result := by
  intro hall
  have hprint := hall (twoRows fieldA ['9'] ['1', '0']) (by decide)
  have hfits := ((printable_of_printsTable (by decide) hprint).rows [some ['1', '0']] (by decide)).2
  exact absurd hfits (by decide)

/-- **The details of a result without terminators in its values** are a table exactly when no cell
is `NULL` and none is longer than its column. -/
theorem printsTable_iff_of_nulFree {result : ResultSet} (hrows : result.rows ≠ [])
    (hnul : ∀ row ∈ result.rows, ∀ value, some value ∈ row → nul ∉ value) :
    PrintsTable result ↔
      result.fields.length ≤ maxColumns ∧
        (∀ fd ∈ result.fields, fd.name.length ≤ 255 ∧ '\n' ∉ fd.name) ∧
          ∀ row ∈ result.rows, List.Forall₂ FitsCell (colWidths result) row := by
  have hrow : ∀ row ∈ result.rows, FitsColumns (colWidths result) row ↔
      List.Forall₂ FitsCell (colWidths result) row := by
    intro row hmem
    refine fitsColumns_iff_of_nulFree ?_ (hnul row hmem)
    rw [length_colWidths hrows, result.row_length row hmem]
  constructor
  · intro h
    obtain ⟨hcolumns, hnames, hfits⟩ := printable_of_printsTable hrows h
    exact ⟨hcolumns, hnames, fun row hmem => (hrow row hmem).mp (hfits row hmem)⟩
  · rintro ⟨hcolumns, hnames, hfits⟩
    exact printsTable_of_printable hrows
      ⟨hcolumns, hnames, fun row hmem => (hrow row hmem).mpr (hfits row hmem)⟩

/-! ## The array bounds alone -/

/-- What is known of a result by its numbers of rows and columns alone is whether the arrays suffice
to print it. -/
theorem showQueryDetails_res (result : ResultSet) :
    showQueryDetails result.res = (showDetails showQueryLevel result).map fun _ => () := by
  rw [showQueryDetails_eq, ResultSet.res]
  cases hrows : result.rows with
  | nil =>
    rw [showDetails, hrows]
    rfl
  | cons sqlrow rows =>
    have hrow := ResultSet.length_of_rows_eq hrows
    have hmod : result.fields.length % 256 ≤ result.fields.length := Nat.mod_le _ _
    have hlength : ((result.fields.zip sqlrow).take (uchar result.fields.length)).length =
        result.fields.length % 256 := by
      rw [List.length_take, List.length_zip, hrow, min_self, uchar, min_eq_left hmod]
    rw [showDetails_eq hrows, if_neg (by simp)]
    by_cases hle : result.fields.length % 256 ≤ 20
    · rw [if_pos hle, fetchColumns_of_le (by rw [hlength, maxColumns]; omega)]
      rfl
    · rw [if_neg hle, fetchColumns_of_lt (by decide) (by rw [hlength, maxColumns]; omega)]
      rfl

end MySqlHttpData

end AMSServer
