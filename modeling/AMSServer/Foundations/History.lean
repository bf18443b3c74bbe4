import Mathlib.Data.List.Induction

/-!
# Histories

The calls of a program, in order. A rule says which calls are acceptable after the calls before
(`Each`). The rule is checked call by call, so a history that grows keeps what was established about
its beginning.
-/

namespace AMSServer.History

variable {α : Type*} {ok : List α → α → Prop}

/-- Every call is acceptable after those before it, which `before` precede. -/
def Each (ok : List α → α → Prop) : List α → List α → Prop
  | _, [] => True
  | before, a :: as => ok before a ∧ Each ok (before ++ [a]) as

instance decidableEach [h : ∀ before a, Decidable (ok before a)] :
    ∀ before as, Decidable (Each ok before as)
  | _, [] => inferInstanceAs (Decidable True)
  | before, a :: as =>
    have := decidableEach (before ++ [a]) as
    inferInstanceAs (Decidable (ok before a ∧ Each ok (before ++ [a]) as))

theorem each_append {before as bs : List α} :
    Each ok before (as ++ bs) ↔ Each ok before as ∧ Each ok (before ++ as) bs := by
  induction as generalizing before with
  | nil => simp [Each]
  | cons a as ih =>
    rw [List.cons_append, Each, Each, ih, and_assoc, List.append_assoc, List.singleton_append]

theorem each_singleton {before : List α} {a : α} : Each ok before [a] ↔ ok before a :=
  and_iff_left trivial

/-- **Every call of a history is acceptable where it stands.** -/
theorem each_nil_iff {log : List α} :
    Each ok [] log ↔ ∀ before a after, log = before ++ a :: after → ok before a := by
  constructor
  · rintro h before a after rfl
    exact (each_append.mp h).2.1
  · intro h
    induction log using List.reverseRecOn with
    | nil => trivial
    | append_singleton log a ih =>
      rw [each_append, each_singleton]
      refine ⟨ih fun before b after hlog => h before b (after ++ [a]) ?_, h log a [] rfl⟩
      rw [hlog, List.append_assoc, List.cons_append]

end AMSServer.History
