import Mathlib.Control.Monad.Writer

/-!
# Computations with a log

A computation that may fail and writes lines to a log on its way (`Logged`). What it has written
stays when it fails, so the lines can be asked for apart from the result: `Writes p x` says that
every line of `x` has a property, and goes through a computation step by step (`Writes.bind`).

Writing a line may itself fail. `run log` is the computation with every line handed to `log`, in
order, and `run_bind` takes it apart: a program that calls the log is the one without the calls
(`result`) whenever no line is refused (`run_eq_result`).
-/

namespace AMSServer

/-- A computation that may fail and writes lines to a log. -/
abbrev Logged (ω ε : Type) : Type → Type := ExceptT ε (Writer (List ω))

namespace Logged

variable {ω ε α β : Type} {p : ω → Prop} {x : Logged ω ε α} {f : α → Logged ω ε β}

/-- The lines written, up to the failure if there is one. -/
def lines (x : Logged ω ε α) : List ω := (WriterT.run (ExceptT.run x)).2

/-- The result, whatever is written. -/
def result (x : Logged ω ε α) : Except ε α := (WriterT.run (ExceptT.run x)).1

/-- Write a line. -/
def log (line : ω) : Logged ω ε Unit := ExceptT.lift (tell [line])

/-- Write some lines. -/
def logs (lines : List ω) : Logged ω ε Unit := ExceptT.lift (tell lines)

/-- The computation where a line is written by a function that may fail. -/
def run (write : ω → Except ε Unit) (x : Logged ω ε α) : Except ε α := do
  forM x.lines write
  x.result

/-! ## Lines and result -/

@[simp] theorem lines_pure (a : α) : lines (pure a : Logged ω ε α) = [] := rfl
@[simp] theorem result_pure (a : α) : result (pure a : Logged ω ε α) = .ok a := rfl
@[simp] theorem lines_lift (y : Except ε α) : lines (liftM y : Logged ω ε α) = [] := rfl
@[simp] theorem result_lift (y : Except ε α) : result (liftM y : Logged ω ε α) = y := rfl
@[simp] theorem lines_log (line : ω) : lines (log line : Logged ω ε Unit) = [line] := rfl

theorem result_bind (x : Logged ω ε α) (f : α → Logged ω ε β) :
    (x >>= f).result = x.result >>= fun a => (f a).result := by
  obtain ⟨r, l⟩ := x
  cases r with
  | error e => rfl
  | ok a => rfl

theorem lines_bind_ok {a : α} (h : x.result = .ok a) :
    (x >>= f).lines = x.lines ++ (f a).lines := by
  obtain ⟨r, l⟩ := x
  cases h
  rfl

/-- After a failure nothing more is written. -/
theorem lines_bind_error {e : ε} (h : x.result = .error e) : (x >>= f).lines = x.lines := by
  obtain ⟨r, l⟩ := x
  cases h
  exact List.append_nil l

theorem result_bind_ok {a : α} (h : x.result = .ok a) : (x >>= f).result = (f a).result := by
  rw [result_bind, h]
  rfl

/-! ## What is written -/

/-- Every line written has the property. -/
def Writes (p : ω → Prop) (x : Logged ω ε α) : Prop := ∀ line ∈ x.lines, p line

theorem Writes.pure (a : α) : Writes p (Pure.pure a : Logged ω ε α) := by simp [Writes]

theorem Writes.lift (y : Except ε α) : Writes p (liftM y : Logged ω ε α) := by simp [Writes]

theorem Writes.log {line : ω} (h : p line) : Writes p (log line : Logged ω ε Unit) := by
  simpa [Writes] using h

/-- **What a computation writes is written by its steps.** -/
theorem Writes.bind (hx : Writes p x) (hf : ∀ a, x.result = .ok a → Writes p (f a)) :
    Writes p (x >>= f) := by
  intro line hline
  cases h : x.result with
  | error e =>
    rw [lines_bind_error h] at hline
    exact hx line hline
  | ok a =>
    rw [lines_bind_ok h] at hline
    rcases List.mem_append.mp hline with hline | hline
    · exact hx line hline
    · exact hf a h line hline

/-- The first step writes its lines. -/
theorem Writes.of_bind_left (h : Writes p (x >>= f)) : Writes p x := by
  intro line hline
  apply h
  cases hr : x.result with
  | error e => rwa [lines_bind_error hr]
  | ok a =>
    rw [lines_bind_ok hr]
    exact List.mem_append_left _ hline

/-- When the next steps write nothing else, the first one decides. -/
theorem writes_bind_iff (hf : ∀ a, Writes p (f a)) : Writes p (x >>= f) ↔ Writes p x :=
  ⟨Writes.of_bind_left, fun hx => hx.bind fun a _ => hf a⟩

/-- When the first step writes nothing else and does not fail, the next one decides. -/
theorem writes_bind_ok {a : α} (hx : Writes p x) (ha : x.result = .ok a) :
    Writes p (x >>= f) ↔ Writes p (f a) := by
  refine ⟨fun h line hline => h line ?_, fun hf => hx.bind fun b hb => ?_⟩
  · rw [lines_bind_ok ha]
    exact List.mem_append_right _ hline
  · obtain rfl : a = b := Except.ok.inj (ha.symm.trans hb)
    exact hf

/-! ## What is returned -/

/-- The computation does not fail, and its value has the property. -/
def Returns (x : Logged ω ε α) (q : α → Prop) : Prop := ∃ a, x.result = .ok a ∧ q a

theorem Returns.pure {q : α → Prop} {a : α} (h : q a) :
    Returns (Pure.pure a : Logged ω ε α) q :=
  ⟨a, rfl, h⟩

theorem Returns.lift {q : α → Prop} {y : Except ε α} {a : α} (hy : y = .ok a) (h : q a) :
    Returns (liftM y : Logged ω ε α) q :=
  ⟨a, hy, h⟩

/-- **What the steps return is returned by the whole.** -/
theorem Returns.bind {q : α → Prop} {r : β → Prop} (hx : Returns x q)
    (hf : ∀ a, q a → Returns (f a) r) : Returns (x >>= f) r := by
  obtain ⟨a, ha, hq⟩ := hx
  obtain ⟨b, hb, hr⟩ := hf a hq
  exact ⟨b, by rw [result_bind_ok ha, hb], hr⟩

/-- A step that does not fail. -/
theorem Returns.lift_bind {y : Except ε α} {a : α} {r : β → Prop} (hy : y = .ok a)
    (hf : Returns (f a) r) : Returns (liftM y >>= f) r := by
  refine Returns.bind (q := (a = ·)) (Returns.lift hy rfl) ?_
  rintro _ rfl
  exact hf

/-- A line has no part in the result. -/
theorem Returns.log_bind {line : ω} {g : Unit → Logged ω ε β} {r : β → Prop}
    (h : Returns (g ()) r) : Returns (log line >>= g) r :=
  Returns.bind (q := fun _ => True) ⟨(), rfl, trivial⟩ fun _ _ => h

theorem Returns.mono {q r : α → Prop} (hx : Returns x q) (h : ∀ a, q a → r a) : Returns x r := by
  obtain ⟨a, ha, hq⟩ := hx
  exact ⟨a, ha, h a hq⟩

/-! ## Coming to the end -/

/-- The computation does not fail, and every line it writes has the property. -/
def Ends (p : ω → Prop) (x : Logged ω ε α) : Prop := Writes p x ∧ ∃ a, x.result = .ok a

theorem ends_pure (a : α) : Ends p (Pure.pure a : Logged ω ε α) := ⟨Writes.pure a, a, rfl⟩

theorem ends_bind_ok {a : α} (ha : x.result = .ok a) :
    Ends p (x >>= f) ↔ Writes p x ∧ Ends p (f a) := by
  rw [Ends, result_bind_ok ha]
  constructor
  · rintro ⟨hw, hresult⟩
    have hx := Writes.of_bind_left hw
    exact ⟨hx, (writes_bind_ok hx ha).mp hw, hresult⟩
  · rintro ⟨hx, hw, hresult⟩
    exact ⟨(writes_bind_ok hx ha).mpr hw, hresult⟩

theorem not_ends_bind {e : ε} (he : x.result = .error e) : ¬ Ends p (x >>= f) := by
  rintro ⟨-, a, ha⟩
  rw [result_bind, he] at ha
  cases ha

/-! ## Writing that may fail -/

variable {write : ω → Except ε Unit}

@[simp] theorem run_pure (a : α) : run write (pure a : Logged ω ε α) = .ok a := rfl
@[simp] theorem run_lift (y : Except ε α) : run write (liftM y : Logged ω ε α) = y := rfl

@[simp] theorem run_log (line : ω) : run write (log line) = write line := by
  change (forM [line] write >>= fun _ => Except.ok ()) = _
  rw [List.forM_cons]
  cases write line with
  | error e => rfl
  | ok u => rfl

/-- **A program that calls the log, step by step.** -/
theorem run_bind (x : Logged ω ε α) (f : α → Logged ω ε β) :
    (x >>= f).run write = x.run write >>= fun a => (f a).run write := by
  cases h : x.result with
  | error e =>
    rw [run, run, lines_bind_error h, result_bind, h]
    cases forM x.lines write with
    | error e => rfl
    | ok u => rfl
  | ok a =>
    rw [run, run, lines_bind_ok h, result_bind, h]
    rw [List.forM_append]
    cases forM x.lines write with
    | error e => rfl
    | ok u => rfl

/-- The log makes no difference when it refuses no line. -/
theorem run_eq_result (h : Writes (write · = .ok ()) x) : x.run write = x.result := by
  have hforM : ∀ l : List ω, (∀ line ∈ l, write line = .ok ()) → forM l write = .ok () := by
    intro l hl
    induction l with
    | nil => rfl
    | cons line l ih =>
      rw [List.forM_cons, hl line List.mem_cons_self]
      exact ih fun line' h' => hl line' (List.mem_cons_of_mem line h')
  rw [run, hforM x.lines h]
  rfl

/-- A result that a program reaches although it calls the log is the one it reaches without. -/
theorem result_of_run {a : α} (h : x.run write = .ok a) : x.result = .ok a := by
  rw [run] at h
  cases hforM : forM x.lines write with
  | error e =>
    rw [hforM] at h
    cases h
  | ok u =>
    rw [hforM] at h
    exact h

end Logged

end AMSServer
