import AMSServer.Foundations.CRuntime.Text
import AMSServer.Foundations.Mutex
import Mathlib.Data.List.Infix

/-!
# `FileLog`

The log file (`FileLog.cpp`) under the threads of the server. `WirteLogFile` locks `logmutex`, moves
the file pointer of `logfd` to the end and writes, and `WriteFile` may write less than it is given.
The threads also take the mutex of `HeapProtectMutex.cpp`, for the deletion in `RemoveIOData` and
the `new` in `DoAcceptEx`, and never both mutexes at once.

Both mutexes are made without a name, so every process has its own, while the file is opened for
shared writing. In one process the file holds what was there and then the lines, each in one piece,
those of a thread in its order (`log_whole`). With several processes this is so exactly in the runs
in which every `WriteFile` finds the pointer at the end of the file (`log_whole_iff`). No thread
waits for ever (`log_finishes`).
-/

namespace AMSServer.FileLog

open CRuntime Mutex Transition

variable {ι π : Type*}

/-! ## The file -/

/-- The log file, and the file pointer of the `logfd` of each process. -/
structure LogFile (π : Type*) where
  content : Text
  pointer : π → ℕ

/-- What a thread does between a lock and an unlock. -/
inductive Op (π : Type*)
  /-- `SetFilePointer(logfd, 0, NULL, FILE_END)` -/
  | setFilePointer (p : π)
  /-- `WriteFile(logfd, logstring, strlen(logstring), &len, NULL)` -/
  | writeFile (p : π) (logstring : Text)
  /-- `delete` or `new` under the mutex of the heap -/
  | heap (p : π)

/-- The mutexes of a process. -/
inductive Lock
  | logmutex
  | heapprotectmutex
  deriving DecidableEq

/-- The mutex that an operation stands under. -/
def Op.guard : Op π → Option (π × Lock)
  | setFilePointer p => some (p, .logmutex)
  | writeFile p _ => some (p, .logmutex)
  | heap p => some (p, .heapprotectmutex)

section File

variable [DecidableEq π]

/-- Write at the pointer of a process, over what stands there. -/
def LogFile.write (f : LogFile π) (p : π) (text : Text) : LogFile π where
  content := f.content.take (f.pointer p) ++ text ++ f.content.drop (f.pointer p + text.length)
  pointer := Function.update f.pointer p (f.pointer p + text.length)

/-- What an operation does to the file, where `WriteFile` writes a number of bytes at most. -/
def Op.effect : Op π → ℕ → LogFile π → LogFile π
  | setFilePointer p, _, f => { f with pointer := Function.update f.pointer p f.content.length }
  | writeFile p logstring, bytes, f => f.write p (logstring.take bytes)
  | heap _, _, f => f

end File

/-! ## The threads -/

abbrev Instr (π : Type*) := Mutex.Instr (π × Lock) (Op π)

abbrev State (ι π : Type*) := Mutex.State ι (π × Lock) (Op π) (LogFile π)

/-- The calls of a thread that lock a mutex. -/
inductive Call
  | wirteLogFile (logstring : Text)
  /-- The sections of `RemoveIOData` and `DoAcceptEx` -/
  | heapProtected

/-- `FileLog::WirteLogFile` -/
def wirteLogFile (p : π) (logstring : Text) : List (Instr π) :=
  [.lock (p, .logmutex), .act (.setFilePointer p), .act (.writeFile p (cstr logstring)),
    .unlock (p, .logmutex)]

/-- `WaitHeapProtectMutex` and `ReleaseHeapProtectMutex` with what stands between them -/
def heapProtected (p : π) : List (Instr π) :=
  [.lock (p, .heapprotectmutex), .act (.heap p), .unlock (p, .heapprotectmutex)]

def Call.program (p : π) : Call → List (Instr π)
  | wirteLogFile logstring => FileLog.wirteLogFile p logstring
  | heapProtected => FileLog.heapProtected p

/-- The lines that a thread is to write. -/
def Call.line? : Call → Option Text
  | wirteLogFile logstring => some (cstr logstring)
  | heapProtected => none

/-- Threads of some processes with the calls that each is to make. -/
structure Threads (ι π : Type*) where
  home : ι → π
  calls : ι → List Call

def Threads.program (ts : Threads ι π) (t : ι) : List (Instr π) :=
  (ts.calls t).flatMap (Call.program (ts.home t))

/-- The lines of a thread. -/
def Threads.lines (ts : Threads ι π) (t : ι) : List Text := (ts.calls t).filterMap Call.line?

/-- The threads before their first step: `CreateFile` has set every file pointer to the start of the
file, which may hold something from before. -/
def Threads.start (ts : Threads ι π) (content : Text) : State ι π :=
  Mutex.start ⟨content, fun _ => 0⟩ ts.program

/-! ## The programs -/

theorem wellLocked_call (p : π) (c : Call) :
    WellLocked Op.guard (c.program p) ∧ inside (c.program p) = none := by
  cases c <;> simp [Call.program, wirteLogFile, heapProtected, WellLocked, inside, Op.guard]

/-- **A thread holds one mutex at a time**, and the right one. -/
theorem wellLocked_program (ts : Threads ι π) (t : ι) :
    WellLocked Op.guard (ts.program t) ∧ inside (ts.program t) = none := by
  unfold Threads.program
  induction ts.calls t with
  | nil => exact ⟨trivial, rfl⟩
  | cons c calls ih =>
    obtain ⟨hwell, hout⟩ := wellLocked_call (ts.home t) c
    exact ⟨hwell.append ih.1 ih.2, inside_append hout ih.2⟩

theorem inv_start (ts : Threads ι π) (content : Text) : Inv Op.guard (ts.start content) :=
  Mutex.inv_start (wellLocked_program ts)

/-- The next instruction is a `WriteFile`. -/
def Writes (q : π) (logstring : Text) (p : List (Instr π)) : Prop :=
  p.head? = some (.act (.writeFile q logstring))

/-- Every `WriteFile` comes right after the `SetFilePointer` of its process. -/
def Seeks : List (Instr π) → Prop
  | [] => True
  | i :: p => (∀ q logstring, Writes q logstring p → i = .act (.setFilePointer q)) ∧ Seeks p

theorem seeks_program (ts : Threads ι π) (t : ι) :
    Seeks (ts.program t) ∧ ∀ q logstring, ¬ Writes q logstring (ts.program t) := by
  unfold Threads.program
  induction ts.calls t with
  | nil => exact ⟨trivial, by simp [Writes]⟩
  | cons c calls ih =>
    cases c with
    | wirteLogFile logstring =>
      simpa [Call.program, wirteLogFile, Seeks, Writes] using ih.symm
    | heapProtected =>
      simpa [Call.program, heapProtected, Seeks, Writes] using ih.symm

/-- What a thread knows of the file: before its `WriteFile` the pointer is at the end. -/
def Knows (p : List (Instr π)) (f : LogFile π) : Prop :=
  Seeks p ∧ ∀ q logstring, Writes q logstring p → f.pointer q = f.content.length

theorem Knows.skip {i : Instr π} {p : List (Instr π)} {f : LogFile π} (h : Knows (i :: p) f)
    (hi : ∀ q, i ≠ .act (.setFilePointer q)) : Knows p f :=
  ⟨h.1.2, fun q logstring hq => absurd (h.1.1 q logstring hq) (hi q)⟩

/-- The lines that are left to write. -/
def pending (p : List (Instr π)) : List Text :=
  p.filterMap fun i => match i with
    | .act (.writeFile _ logstring) => some logstring
    | _ => none

theorem pending_program (ts : Threads ι π) (t : ι) : pending (ts.program t) = ts.lines t := by
  unfold pending Threads.program Threads.lines
  induction ts.calls t with
  | nil => rfl
  | cons c calls ih =>
    rw [List.flatMap_cons, List.filterMap_append, ih]
    cases c with
    | wirteLogFile logstring => rfl
    | heapProtected => rfl

/-! ## Runs -/

variable [DecidableEq ι] [DecidableEq π]

/-- A thread takes its next step, and `WriteFile` writes a number of bytes at most. -/
def step : State ι π → ι × ℕ → Option (State ι π) := Mutex.step Op.effect

/-- A call of `WriteFile`: the thread, the line, and the number of bytes that is not exceeded. -/
structure Written (ι : Type*) where
  thread : ι
  logstring : Text
  bytes : ℕ

/-- What was written of the line. -/
def Written.text (w : Written ι) : Text := w.logstring.take w.bytes

/-- The `WriteFile` of a step. -/
def written (s : State ι π) : ι × ℕ → List (Written ι)
  | (t, bytes) =>
    match s.todo t with
    | .act (.writeFile _ logstring) :: _ => [⟨t, logstring, bytes⟩]
    | _ => []

variable {ts : Threads ι π} {content : Text} {s s' : State ι π} {as : List (ι × ℕ)} {t : ι}

theorem filter_map_eq_flatMap (ws : List (Written ι)) (t : ι) :
    (ws.filter (·.thread = t)).map Written.logstring =
      ws.flatMap fun w => if w.thread = t then [w.logstring] else [] := by
  induction ws with
  | nil => rfl
  | cons w ws ih =>
    rw [List.flatMap_cons, ← ih]
    by_cases hw : w.thread = t <;> simp [hw]

/-- What a thread writes at a step of a thread is taken off its lines. -/
theorem pending_step (t : ι) {a : ι × ℕ} (h : step s a = some s') :
    (((written s a).filter (·.thread = t)).map Written.logstring) ++ pending (s'.todo t) =
      pending (s.todo t) := by
  obtain ⟨u, bytes⟩ := a
  obtain ⟨i, p, htodo, htodo'⟩ := step_todo h
  rw [htodo', written, htodo]
  by_cases hu : t = u
  · subst hu
    rw [Function.update_self, htodo]
    cases i with
    | lock m => rfl
    | unlock m => rfl
    | act op => cases op <;> simp [pending]
  · rw [Function.update_of_ne hu]
    cases i with
    | lock m => rfl
    | unlock m => rfl
    | act op => cases op <;> simp [Ne.symm hu]

/-- **What a thread has written and what is left to it are its lines.** -/
theorem written_lines (h : exec step (ts.start content) as = some s) (t : ι) :
    ((observe step written (ts.start content) as).filter (·.thread = t)).map Written.logstring ++
      pending (s.todo t) = ts.lines t := by
  have hwork := observe_append (f := fun s : State ι π => pending (s.todo t))
    (g := fun w : Written ι => if w.thread = t then [w.logstring] else [])
    (fun s a s' hstep => by rw [← filter_map_eq_flatMap]; exact pending_step t hstep) h
  rw [filter_map_eq_flatMap, hwork]
  exact pending_program ts t

/-! ## The content -/

/-- No pointer is past the end. -/
def Within (f : LogFile π) : Prop := ∀ p, f.pointer p ≤ f.content.length

theorem length_write {f : LogFile π} (hf : Within f) (p : π) (text : Text) :
    (f.write p text).content.length = max f.content.length (f.pointer p + text.length) := by
  have hle := hf p
  unfold LogFile.write
  simp only [List.length_append, List.length_take, List.length_drop]
  omega

/-- A write at the end. -/
theorem content_write_end {f : LogFile π} {p : π} (hp : f.pointer p = f.content.length)
    (text : Text) : (f.write p text).content = f.content ++ text := by
  unfold LogFile.write
  rw [hp, List.take_length, List.drop_eq_nil_of_le (Nat.le_add_right _ _), List.append_nil]

theorem content_write_nil (f : LogFile π) (p : π) : (f.write p []).content = f.content := by
  simp [LogFile.write]

theorem within_effect {f : LogFile π} (hf : Within f) (op : Op π) (bytes : ℕ) :
    Within (op.effect bytes f) := by
  intro q
  cases op with
  | setFilePointer p =>
    change Function.update f.pointer p f.content.length q ≤ f.content.length
    by_cases hq : q = p
    · subst hq
      rw [Function.update_self]
    · rw [Function.update_of_ne hq]
      exact hf q
  | writeFile p logstring =>
    have hle := hf q
    change Function.update f.pointer p _ q ≤ (f.write p (logstring.take bytes)).content.length
    rw [length_write hf]
    by_cases hq : q = p
    · subst hq
      rw [Function.update_self]
      exact Nat.le_max_right _ _
    · rw [Function.update_of_ne hq]
      exact hle.trans (Nat.le_max_left _ _)
  | heap p => exact hf q

/-- A `WriteFile` that comes next finds the pointer of its process at the end of the file, or writes
nothing. -/
def NextAtEnd (f : LogFile π) (bytes : ℕ) : List (Instr π) → Prop
  | .act (.writeFile p logstring) :: _ =>
    f.pointer p = f.content.length ∨ logstring.take bytes = []
  | _ => True

def AtEnd (s : State ι π) : ι × ℕ → Prop
  | (t, bytes) => NextAtEnd s.shared bytes (s.todo t)

instance (f : LogFile π) (bytes : ℕ) : DecidablePred (NextAtEnd f bytes)
  | [] => isTrue trivial
  | .lock _ :: _ => isTrue trivial
  | .unlock _ :: _ => isTrue trivial
  | .act (.setFilePointer _) :: _ => isTrue trivial
  | .act (.heap _) :: _ => isTrue trivial
  | .act (.writeFile _ _) :: _ => inferInstanceAs (Decidable (_ ∨ _))

instance (s : State ι π) : DecidablePred (AtEnd s)
  | (t, bytes) => inferInstanceAs (Decidable (NextAtEnd s.shared bytes (s.todo t)))

theorem within_step {a : ι × ℕ} (hs : Within s.shared) (h : step s a = some s') :
    Within s'.shared := by
  obtain ⟨t, bytes⟩ := a
  cases step_move h with
  | act op p htodo => exact within_effect hs op bytes
  | lock m p x htodo hlocked => exact hs
  | unlock m p htodo => exact hs

/-- **The content after a step**: no longer than with all that is written, and as long only when
it is written at the end. -/
theorem content_step {a : ι × ℕ} (hs : Within s.shared) (h : step s a = some s') :
    (AtEnd s a → s'.shared.content = s.shared.content ++ (written s a).flatMap Written.text) ∧
      s'.shared.content.length ≤
        s.shared.content.length + ((written s a).flatMap Written.text).length ∧
      (s'.shared.content.length =
        s.shared.content.length + ((written s a).flatMap Written.text).length → AtEnd s a) := by
  obtain ⟨t, bytes⟩ := a
  cases step_move h with
  | act op p htodo =>
    cases op with
    | setFilePointer q => simp [AtEnd, NextAtEnd, written, htodo, Op.effect]
    | writeFile q logstring =>
      simp only [AtEnd, NextAtEnd, written, htodo, Op.effect, List.flatMap_singleton, Written.text]
      have hle := hs q
      rw [length_write hs]
      refine ⟨?_, by omega, fun h => ?_⟩
      · rintro (hend | hnil)
        · exact content_write_end hend _
        · rw [hnil, content_write_nil, List.append_nil]
      · rcases Nat.eq_zero_or_pos (logstring.take bytes).length with hzero | hpos
        · exact Or.inr (List.eq_nil_of_length_eq_zero hzero)
        · left
          omega
    | heap q => simp [AtEnd, NextAtEnd, written, htodo, Op.effect]
  | lock m p x htodo hlocked => simp [AtEnd, NextAtEnd, written, htodo]
  | unlock m p htodo => simp [AtEnd, NextAtEnd, written, htodo]

theorem length_content_le (hs : Within s.shared) (h : exec step s as = some s') :
    s'.shared.content.length ≤
      s.shared.content.length + ((observe step written s as).flatMap Written.text).length := by
  induction as generalizing s with
  | nil =>
    cases h
    exact Nat.le_add_right _ _
  | cons a as ih =>
    obtain ⟨u, hu, hrest⟩ := exec_cons h
    have hstep := (content_step hs hu).2.1
    have hrun := ih (within_step hs hu) hrest
    rw [observe_cons hu, List.flatMap_append, List.length_append]
    omega

/-- **When the file holds what was written**, of any processes and threads. -/
theorem content_eq_iff (hs : Within s.shared) (h : exec step s as = some s') :
    s'.shared.content = s.shared.content ++ (observe step written s as).flatMap Written.text ↔
      Along step AtEnd s as := by
  refine ⟨fun hcontent => ?_, fun hall => ?_⟩
  · -- a line that is written over makes the file shorter for good
    induction as generalizing s with
    | nil => trivial
    | cons a as ih =>
      obtain ⟨u, hu, hrest⟩ := exec_cons h
      obtain ⟨hadds, hle, hend⟩ := content_step hs hu
      have hrun := length_content_le (within_step hs hu) hrest
      rw [observe_cons hu, List.flatMap_append] at hcontent
      have hlength := congrArg List.length hcontent
      rw [List.length_append, List.length_append] at hlength
      have ha : AtEnd s a := hend (by omega)
      rw [Along, hu]
      refine ⟨ha, ih (within_step hs hu) hrest ?_⟩
      rw [hcontent, hadds ha, List.append_assoc]
  · have hwithin : Along step (fun s _ => Within s.shared) s as :=
      Along.of_invariant (fun s a s' hs _ hstep => within_step hs hstep) (fun s _ hs => hs) hs hall
    exact append_observe (f := fun s : State ι π => s.shared.content)
      (fun s a s' hok hstep => (content_step hok.1 hstep).1 hok.2) (hwithin.and hall) h

/-! ## One process -/

/-- The `SetFilePointer` is what makes it known. -/
theorem Knows.act {op : Op π} {p : List (Instr π)} {f : LogFile π} (bytes : ℕ)
    (h : Knows (.act op :: p) f) : Knows p (op.effect bytes f) := by
  refine ⟨h.1.2, fun q logstring hq => ?_⟩
  obtain rfl : op = .setFilePointer q := by
    have hseek := h.1.1 q logstring hq
    cases hseek
    rfl
  exact Function.update_self _ _ _

/-- The other threads of the process do not touch the file then. -/
theorem Knows.others [Subsingleton π] {op : Op π} {p : List (Instr π)} {f : LogFile π} (bytes : ℕ)
    (hwell : WellLocked Op.guard p) (hop : ∀ m ∈ op.guard, inside p ≠ some m) (h : Knows p f) :
    Knows p (op.effect bytes f) := by
  refine ⟨h.1, fun q logstring hq => ?_⟩
  obtain ⟨rest, rfl⟩ := List.head?_eq_some_iff.mp hq
  have hin : inside (Mutex.Instr.act (.writeFile q logstring) :: rest) = some (q, Lock.logmutex) :=
    hwell.1 _ rfl
  cases op with
  | setFilePointer r =>
    rw [Subsingleton.elim r q] at hop
    exact absurd hin (hop _ rfl)
  | writeFile r l =>
    rw [Subsingleton.elim r q] at hop
    exact absurd hin (hop _ rfl)
  | heap r => exact h.2 q logstring hq

/-- **In one process every line is written at the end of the file.** -/
theorem along_atEnd [Subsingleton π] (ts : Threads ι π) (content : Text) (as : List (ι × ℕ)) :
    Along step AtEnd (ts.start content) as := by
  have hnext : ∀ (s : State ι π) (a : ι × ℕ), (∀ t, Knows (s.todo t) s.shared) →
      (∀ s', step s a = some s' → ∀ t, Knows (s'.todo t) s'.shared) → AtEnd s a := by
    rintro s ⟨t, bytes⟩ hknows -
    have hmine := (hknows t).2
    rw [AtEnd]
    unfold NextAtEnd
    split
    next p logstring rest htodo =>
      exact Or.inl (hmine p logstring (by rw [htodo, Writes]; rfl))
    · trivial
  refine along_of_prefix hnext fun as' s' hpre hrun => ?_
  refine (@invariant_always _ _ _ (fun s : State ι π => Inv Op.guard s ∧
    ∀ t, Knows (s.todo t) s.shared) ?_ _ _ _ ?_ hrun).2
  · rintro s ⟨t, bytes⟩ s' ⟨hs, hknows⟩ hstep
    refine ⟨hs.step hstep, knows (fun m p f hk => hk.skip (by simp))
      (fun m p f hk => hk.skip (by simp)) (fun op p f bytes hk => hk.act bytes)
      (fun op p f bytes hwell hop hk => hk.others bytes hwell hop) hs hknows hstep⟩
  · refine ⟨inv_start ts content, fun t => ?_⟩
    exact ⟨(seeks_program ts t).1, fun q logstring hq => absurd hq ((seeks_program ts t).2 q _)⟩

/-- **The log file of a process.** However the threads take turns, and whatever `WriteFile` writes,
the file holds what was there and then each line in one piece; the lines of a thread are in its
order, and when it has finished they are all there. -/
theorem log_whole [Subsingleton π] (ts : Threads ι π) (content : Text) (as : List (ι × ℕ))
    {s : State ι π} (h : exec step (ts.start content) as = some s) :
    s.shared.content = content ++
        (observe step written (ts.start content) as).flatMap Written.text ∧
      ∀ t, let lines := ((observe step written (ts.start content) as).filter
          (·.thread = t)).map Written.logstring
        lines <+: ts.lines t ∧ (s.todo t = [] → lines = ts.lines t) := by
  refine ⟨(content_eq_iff (fun p => Nat.zero_le _) h).mpr (along_atEnd ts content as), fun t => ?_⟩
  have hlines := written_lines h t
  refine ⟨⟨_, hlines⟩, fun hdone => ?_⟩
  rw [hdone] at hlines
  exact (List.append_nil _).symm.trans hlines

/-- A line for each of two threads. -/
def twoThreads (home : Bool → π) : Threads Bool π :=
  ⟨home, fun b => [.wirteLogFile (if b then "b\n".toList else "a\n".toList)]⟩

theorem log_whole_two_threads :
    ∃ s, exec step ((twoThreads fun _ => ()).start "old\n".toList)
        ([true, true, true, true, false, false, false, false].map (·, 2)) = some s ∧
      s.shared.content = "old\nb\na\n".toList :=
  ⟨_, rfl, (log_whole (twoThreads fun _ => ()) "old\n".toList
    ([true, true, true, true, false, false, false, false].map (·, 2)) rfl).1.trans (by decide)⟩

/-- **The log file of several processes**: it holds what was there and then each line in one piece
exactly when every `WriteFile` finds the pointer of its process at the end. -/
theorem log_whole_iff (ts : Threads ι π) (content : Text) (as : List (ι × ℕ)) {s : State ι π}
    (h : exec step (ts.start content) as = some s) :
    s.shared.content = content ++
        (observe step written (ts.start content) as).flatMap Written.text ↔
      Along step AtEnd (ts.start content) as :=
  content_eq_iff (fun _ => Nat.zero_le _) h

/-- Two processes whose threads have both moved to the end write over each other. -/
theorem log_whole_iff_two_processes :
    ∃ s, exec step ((twoThreads id).start [])
        ([true, true, false, false, true, false, true, false].map (·, 2)) = some s ∧
      s.shared.content ≠ "b\na\n".toList :=
  ⟨_, rfl, fun h => absurd ((log_whole_iff (twoThreads id) []
    ([true, true, false, false, true, false, true, false].map (·, 2)) rfl).mp h) (by decide)⟩

/-- **No thread waits for ever.** However far the threads have come, one that has not finished can
go on or waits for one that can, and all can be brought to the end with as many steps as they have
instructions left. -/
theorem log_finishes [Fintype ι] (ts : Threads ι π) (content : Text) (as : List (ι × ℕ))
    {s : State ι π} (h : exec step (ts.start content) as = some s) :
    (∀ t, s.todo t ≠ [] → ∀ bytes, ∃ u, (u = t ∨ Waits s t u) ∧ ∃ s', step s (u, bytes) = some s') ∧
      ∃ bs s', exec step s bs = some s' ∧ (∀ t, s'.todo t = []) ∧
        as.length + bs.length = ∑ t, (ts.program t).length := by
  have hs : Inv Op.guard s := by
    refine invariant_always (fun s a s' hs hstep => ?_) (inv_start ts content) h
    obtain ⟨t, bytes⟩ := a
    exact hs.step hstep
  obtain ⟨bs, s', hrun, hdone, hlength⟩ := @Inv.finishes _ _ _ ℕ _ _ Op.effect _ _ _ _ hs _
  have hleft : left s + as.length = ∑ t, (ts.program t).length := run_left h
  exact ⟨fun t ht bytes => hs.progress ht bytes, bs, s', hrun, hdone, by omega⟩

theorem log_finishes_two_threads :
    ∃ s, exec step ((twoThreads fun _ => ()).start []) [(true, 0)] = some s ∧
      ∃ u, (u = false ∨ Waits s false u) ∧ ∃ s', step s (u, 0) = some s' :=
  ⟨_, rfl, (log_finishes (twoThreads fun _ => ()) [] [(true, 0)] rfl).1 false (by decide) 0⟩

end AMSServer.FileLog
