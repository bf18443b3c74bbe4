import AMSServer.Foundations.CRuntime.Text
import Mathlib.Algebra.GroupWithZero.Nat
import Mathlib.Data.List.Forall2

/-!
# Tables in lines

Text printed line by line (`unlines`), and tables in it: a rule, the names of the columns, and the
rows, each between two rules, all of one width (`IsTable`).

A text says where its lines end only by the ends it has, so two ways to cut it into as many lines
are one way when the lines of one of them have no end inside (`eq_of_unlines_eq`). A rule has one
`+` more than there are columns, so the lines of a table say how many columns it has
(`count_ruleLine`).
-/

namespace AMSServer.Table

open CRuntime

/-! ## Lines -/

/-- Lines, each with its end. -/
def unlines (lines : List Text) : Text := lines.flatMap (· ++ ['\n'])

@[simp] theorem unlines_nil : unlines [] = [] := rfl

@[simp] theorem unlines_cons (line : Text) (lines : List Text) :
    unlines (line :: lines) = line ++ '\n' :: unlines lines := by
  simp [unlines]

@[simp] theorem unlines_append (lines lines' : List Text) :
    unlines (lines ++ lines') = unlines lines ++ unlines lines' :=
  List.flatMap_append

theorem count_unlines (lines : List Text) :
    (unlines lines).count '\n' = lines.length + (lines.map (List.count '\n')).sum := by
  induction lines with
  | nil => rfl
  | cons line lines ih =>
    rw [unlines_cons, List.count_append, List.count_cons_self, ih, List.map_cons, List.sum_cons,
      List.length_cons]
    omega

/-- Lines without an end inside are read back from their text. -/
theorem unlines_injOn {lines lines' : List Text} (hfree : ∀ line ∈ lines, '\n' ∉ line)
    (hfree' : ∀ line ∈ lines', '\n' ∉ line) (h : unlines lines = unlines lines') :
    lines = lines' := by
  induction lines generalizing lines' with
  | nil =>
    cases lines' with
    | nil => rfl
    | cons line' lines' => simp at h
  | cons line lines ih =>
    cases lines' with
    | nil => simp at h
    | cons line' lines' =>
      have hline : '\n' ∉ line := hfree _ List.mem_cons_self
      have hline' : '\n' ∉ line' := hfree' _ List.mem_cons_self
      rw [unlines_cons, unlines_cons] at h
      have hhead := congrArg (List.takeWhile (· ≠ '\n')) h
      rw [takeWhile_ne_append hline, takeWhile_ne_append hline'] at hhead
      subst hhead
      rw [List.append_cancel_left_eq, List.cons.injEq] at h
      rw [ih (fun l hl => hfree l (List.mem_cons_of_mem _ hl))
        (fun l hl => hfree' l (List.mem_cons_of_mem _ hl)) h.2]

/-- **A text is cut into a number of lines in one way**, when no line of one way has an end
inside. -/
theorem eq_of_unlines_eq {lines lines' : List Text} (h : unlines lines = unlines lines')
    (hlength : lines.length = lines'.length) (hfree' : ∀ line ∈ lines', '\n' ∉ line) :
    lines = lines' := by
  refine unlines_injOn (fun line hline => ?_) hfree' h
  have hcount := congrArg (List.count '\n') h
  have hzero : (lines'.map (List.count '\n')).sum = 0 := by
    simpa [List.sum_eq_zero_iff_forall_eq_nat, List.count_eq_zero] using hfree'
  rw [count_unlines, count_unlines, hlength, hzero] at hcount
  have hsum : (lines.map (List.count '\n')).sum = 0 := by omega
  exact List.count_eq_zero.mp
    (List.sum_eq_zero_iff_forall_eq_nat.mp hsum _ (List.mem_map_of_mem hline))

/-! ## Rules and rows -/

/-- A rule for columns of the given widths. -/
def ruleLine (widths : List ℕ) : Text :=
  (widths.flatMap fun w => "+-".toList ++ List.replicate w '-' ++ ['-']) ++ ['+']

/-- A cell, and the blanks that follow it. -/
def cellText (cell : Text) (pad : ℕ) : Text :=
  "| ".toList ++ cell ++ ' ' :: List.replicate pad ' '

/-- A row of cells, each with its number of blanks. -/
def rowLine (cells : List Text) (pads : List ℕ) : Text :=
  (List.zipWith cellText cells pads).flatten ++ ['|']

/-- A line shows cells, in order and each one once. -/
def Shows (cells : List Text) (line : Text) : Prop :=
  ∃ pads : List ℕ, pads.length = cells.length ∧ line = rowLine cells pads

theorem ruleLine_cons (w : ℕ) (widths : List ℕ) :
    ruleLine (w :: widths) = '+' :: '-' :: (List.replicate w '-' ++ '-' :: ruleLine widths) := by
  simp [ruleLine]

theorem rowLine_cons (cell : Text) (cells : List Text) (pad : ℕ) (pads : List ℕ) :
    rowLine (cell :: cells) (pad :: pads) =
      '|' :: ' ' :: (cell ++ ' ' :: (List.replicate pad ' ' ++ rowLine cells pads)) := by
  simp [rowLine, cellText]

/-- A rule has one `+` more than columns. -/
theorem count_ruleLine (widths : List ℕ) : (ruleLine widths).count '+' = widths.length + 1 := by
  induction widths with
  | nil => rfl
  | cons w widths ih =>
    simp only [ruleLine_cons, List.count_cons, List.count_append, List.count_replicate, ih,
      List.length_cons]
    simp

theorem newline_notMem_ruleLine (widths : List ℕ) : '\n' ∉ ruleLine widths := by
  induction widths with
  | nil => decide
  | cons w widths ih => simp [ruleLine_cons, ih]

theorem newline_mem_rowLine_iff {cells : List Text} {pads : List ℕ}
    (h : pads.length = cells.length) :
    '\n' ∈ rowLine cells pads ↔ ∃ cell ∈ cells, '\n' ∈ cell := by
  induction cells generalizing pads with
  | nil => simp [rowLine]
  | cons cell cells ih =>
    obtain ⟨pad, pads, rfl⟩ := List.exists_cons_of_length_eq_add_one h
    rw [rowLine_cons]
    simp [ih (Nat.succ_injective h)]

theorem length_ruleLine (widths : List ℕ) :
    (ruleLine widths).length = widths.sum + 3 * widths.length + 1 := by
  induction widths with
  | nil => rfl
  | cons w widths ih =>
    simp only [ruleLine_cons, List.length_cons, List.length_append, List.length_replicate, ih,
      List.sum_cons]
    omega

theorem length_rowLine {cells : List Text} {pads : List ℕ} (h : pads.length = cells.length) :
    (rowLine cells pads).length =
      (List.zipWith (fun cell pad => cell.length + pad) cells pads).sum + 3 * cells.length + 1 := by
  induction cells generalizing pads with
  | nil => simp [rowLine]
  | cons cell cells ih =>
    obtain ⟨pad, pads, rfl⟩ := List.exists_cons_of_length_eq_add_one h
    simp only [rowLine_cons, List.length_cons, List.length_append, List.length_replicate,
      ih (Nat.succ_injective h), List.zipWith_cons_cons, List.sum_cons]
    omega

/-! ## Tables -/

/-- The lines of a table: every row stands between two rules. -/
def tableLines (rule headline : Text) (body : List Text) : List Text :=
  rule :: headline :: (body.flatMap fun line => [rule, line]) ++ [rule]

/-- Lines that print a table: its rules are for as many columns as there are names, its rows are
shown in order and each one once, and all its lines have the width of a rule. -/
def IsTable (names : List Text) (rows : List (List Text)) (lines : List Text) : Prop :=
  ∃ (widths : List ℕ) (headline : Text) (body : List Text),
    lines = tableLines (ruleLine widths) headline body ∧ widths.length = names.length ∧
      Shows names headline ∧ List.Forall₂ Shows rows body ∧
      ∀ line ∈ headline :: body, line.length = (ruleLine widths).length

theorem length_tableLines (rule headline : Text) (body : List Text) :
    (tableLines rule headline body).length = 2 * body.length + 3 := by
  induction body with
  | nil => rfl
  | cons line body ih =>
    simp only [tableLines, List.flatMap_cons, List.cons_append, List.length_cons,
      List.length_append, List.length_nil] at ih ⊢
    omega

theorem mem_tableLines {rule headline line : Text} {body : List Text} :
    line ∈ tableLines rule headline body ↔ line = rule ∨ line = headline ∨ line ∈ body := by
  induction body with
  | nil => simp [tableLines]; tauto
  | cons l body ih =>
    simp only [tableLines, List.flatMap_cons, List.mem_cons, List.mem_append,
      List.cons_append] at ih ⊢
    tauto

theorem tableLines_inj {rule rule' headline headline' : Text} {body body' : List Text}
    (h : tableLines rule headline body = tableLines rule' headline' body') :
    rule = rule' ∧ headline = headline' ∧ body = body' := by
  simp only [tableLines, List.cons_append, List.cons.injEq] at h
  obtain ⟨rfl, rfl, h⟩ := h
  rw [List.append_cancel_right_eq] at h
  refine ⟨rfl, rfl, ?_⟩
  induction body generalizing body' with
  | nil =>
    cases body' with
    | nil => rfl
    | cons line' body' => simp at h
  | cons line body ih =>
    cases body' with
    | nil => simp at h
    | cons line' body' =>
      simp only [List.flatMap_cons, List.cons_append, List.nil_append, List.cons.injEq,
        true_and] at h
      rw [h.1, ih h.2]

end AMSServer.Table
