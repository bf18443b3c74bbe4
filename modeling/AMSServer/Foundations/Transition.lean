import Mathlib.Logic.Basic
import Mathlib.Tactic.Common

/-!
# Runs of a machine

A machine is a partial step function: `step s a` is the state after the action `a`, or nothing when
the action is not possible in `s`. A run is a list of actions (`exec`). Properties of runs come from
the steps by two rules: a state predicate that every step keeps holds in every state reached
(`invariant`), and a quantity that every step lowers by its cost has lost exactly the cost of the
run (`add_total`). Both ask the steps of the run for a condition (`Along`), so that a property can
be proved of the runs whose steps all meet it.
-/

namespace AMSServer.Transition

variable {σ α : Type*} (step : σ → α → Option σ)

/-- The state after some actions, if each of them is possible in its turn. -/
def exec : σ → List α → Option σ
  | s, [] => some s
  | s, a :: as =>
    match step s a with
    | none => none
    | some t => exec t as

/-- Every step of a run meets the condition. -/
def Along (ok : σ → α → Prop) : σ → List α → Prop
  | _, [] => True
  | s, a :: as => ok s a ∧
    match step s a with
    | none => True
    | some t => Along ok t as

/-- The cost of a run. -/
def total (cost : σ → α → ℕ) : σ → List α → ℕ
  | _, [] => 0
  | s, a :: as => cost s a +
    match step s a with
    | none => 0
    | some t => total cost t as

/-- What the steps of a run show, in order. -/
def observe {β : Type*} (obs : σ → α → List β) : σ → List α → List β
  | _, [] => []
  | s, a :: as => obs s a ++
    match step s a with
    | none => []
    | some t => observe obs t as

instance decidableAlong (ok : σ → α → Prop) [h : ∀ s a, Decidable (ok s a)] :
    ∀ s as, Decidable (Along step ok s as)
  | _, [] => inferInstanceAs (Decidable True)
  | s, a :: as =>
    match h s a with
    | isFalse hn => isFalse fun hall => hn hall.1
    | isTrue ht =>
      match hs : step s a with
      | none => isTrue ⟨ht, by rw [hs]; trivial⟩
      | some t =>
        match decidableAlong ok t as with
        | isTrue hrest => isTrue ⟨ht, by rw [hs]; exact hrest⟩
        | isFalse hn => isFalse fun hall => hn (by have := hall.2; rwa [hs] at this)

variable {step}

theorem exec_cons {s t : σ} {a : α} {as : List α} (h : exec step s (a :: as) = some t) :
    ∃ u, step s a = some u ∧ exec step u as = some t := by
  rw [exec] at h
  cases hs : step s a with
  | none => rw [hs] at h; cases h
  | some u => rw [hs] at h; exact ⟨u, rfl, h⟩

theorem exec_append (s : σ) (as bs : List α) :
    exec step s (as ++ bs) = (exec step s as).bind fun t => exec step t bs := by
  induction as generalizing s with
  | nil => rfl
  | cons a as ih =>
    rw [List.cons_append, exec, exec]
    cases step s a with
    | none => rfl
    | some u => exact ih u

theorem Along.cons {ok : σ → α → Prop} {s u : σ} {a : α} {as : List α}
    (h : Along step ok s (a :: as)) (hs : step s a = some u) : ok s a ∧ Along step ok u as := by
  rw [Along, hs] at h
  exact h

theorem total_cons {cost : σ → α → ℕ} {s u : σ} {a : α} {as : List α} (hs : step s a = some u) :
    total step cost s (a :: as) = cost s a + total step cost u as := by
  rw [total, hs]

theorem observe_cons {β : Type*} {obs : σ → α → List β} {s u : σ} {a : α} {as : List α}
    (hs : step s a = some u) :
    observe step obs s (a :: as) = obs s a ++ observe step obs u as := by
  rw [observe, hs]

/-- A condition on the actions alone. -/
theorem along_of_forall {ok : α → Prop} {s : σ} {as : List α} (h : ∀ a ∈ as, ok a) :
    Along step (fun _ a => ok a) s as := by
  induction as generalizing s with
  | nil => trivial
  | cons a as ih =>
    refine ⟨h a List.mem_cons_self, ?_⟩
    cases step s a with
    | none => trivial
    | some t => exact ih fun b hb => h b (List.mem_cons_of_mem a hb)

/-- The two parts of a run. -/
theorem Along.of_append {ok : σ → α → Prop} {s t : σ} {as bs : List α}
    (h : Along step ok s (as ++ bs)) (hrun : exec step s as = some t) :
    Along step ok s as ∧ Along step ok t bs := by
  induction as generalizing s with
  | nil =>
    cases hrun
    exact ⟨trivial, h⟩
  | cons a as ih =>
    obtain ⟨u, hu, hrest⟩ := exec_cons hrun
    obtain ⟨ha, has⟩ := Along.cons h hu
    obtain ⟨hfirst, hsecond⟩ := ih has hrest
    refine ⟨⟨ha, ?_⟩, hsecond⟩
    rw [hu]
    exact hfirst

/-- Two conditions together. -/
theorem Along.and {ok ok' : σ → α → Prop} {s : σ} {as : List α} (h : Along step ok s as)
    (h' : Along step ok' s as) : Along step (fun s a => ok s a ∧ ok' s a) s as := by
  induction as generalizing s with
  | nil => trivial
  | cons a as ih =>
    refine ⟨⟨h.1, h'.1⟩, ?_⟩
    cases hs : step s a with
    | none => trivial
    | some t => exact ih (h.cons hs).2 (h'.cons hs).2

/-- A condition that follows from an invariant. -/
theorem Along.of_invariant {Inv : σ → Prop} {ok ok' : σ → α → Prop}
    (hstep : ∀ s a t, Inv s → ok s a → step s a = some t → Inv t) (hok' : ∀ s a, Inv s → ok' s a)
    {s : σ} {as : List α} (hinit : Inv s) (h : Along step ok s as) : Along step ok' s as := by
  induction as generalizing s with
  | nil => trivial
  | cons a as ih =>
    refine ⟨hok' s a hinit, ?_⟩
    cases hs : step s a with
    | none => trivial
    | some t =>
      obtain ⟨ha, has⟩ := h.cons hs
      exact ih (hstep s a t hinit ha hs) has

/-- **The invariant rule.** -/
theorem invariant {Inv : σ → Prop} {ok : σ → α → Prop}
    (hstep : ∀ s a t, Inv s → ok s a → step s a = some t → Inv t) {s t : σ} {as : List α}
    (hinit : Inv s) (hok : Along step ok s as) (h : exec step s as = some t) : Inv t := by
  induction as generalizing s with
  | nil =>
    cases h
    exact hinit
  | cons a as ih =>
    obtain ⟨u, hu, hrest⟩ := exec_cons h
    obtain ⟨ha, has⟩ := hok.cons hu
    exact ih (hstep s a u hinit ha hu) has hrest

/-- **The invariant rule** for a machine whose steps all keep the invariant. -/
theorem invariant_always {Inv : σ → Prop} (hstep : ∀ s a t, Inv s → step s a = some t → Inv t)
    {s t : σ} {as : List α} (hinit : Inv s) (h : exec step s as = some t) : Inv t := by
  induction as generalizing s with
  | nil =>
    cases h
    exact hinit
  | cons a as ih =>
    obtain ⟨u, hu, hrest⟩ := exec_cons h
    exact ih (hstep s a u hinit hu) hrest

/-- **The invariant rule** for every state on the way. -/
theorem invariant_before {Inv : σ → Prop} {ok : σ → α → Prop}
    (hstep : ∀ s a t, Inv s → ok s a → step s a = some t → Inv t) {s t : σ} {as as' : List α}
    (hinit : Inv s) (hok : Along step ok s as) (hpre : as' <+: as)
    (h : exec step s as' = some t) : Inv t := by
  induction as' generalizing s as with
  | nil =>
    cases h
    exact hinit
  | cons a as' ih =>
    obtain ⟨u, hu, hrest⟩ := exec_cons h
    obtain ⟨as'', rfl⟩ := hpre
    obtain ⟨ha, has⟩ := Along.cons hok hu
    exact ih (hstep s a u hinit ha hu) has (List.prefix_append _ _) hrest

/-- A condition that holds at a step whenever the invariant holds before and after it holds along a
run whose states all have the invariant. -/
theorem along_of_prefix {Inv : σ → Prop} {ok : σ → α → Prop}
    (hstep : ∀ s a, Inv s → (∀ t, step s a = some t → Inv t) → ok s a) {s : σ} {as : List α}
    (h : ∀ as' t, as' <+: as → exec step s as' = some t → Inv t) : Along step ok s as := by
  induction as generalizing s with
  | nil => trivial
  | cons a as ih =>
    have hinit : Inv s := h [] s List.nil_prefix rfl
    refine ⟨hstep s a hinit fun t ht => h [a] t (List.prefix_append [a] as) ?_, ?_⟩
    · rw [exec, ht]
      rfl
    cases hs : step s a with
    | none => trivial
    | some u =>
      refine ih fun as' t hpre ht => h (a :: as') t (List.cons_prefix_cons.mpr ⟨rfl, hpre⟩) ?_
      rw [exec, hs]
      exact ht

/-- A condition that keeps the invariant, and that the goal asks for where the invariant holds,
holds along a run whose states all have the goal. -/
theorem along_of_good {Inv Good : σ → Prop} {sort ok : σ → α → Prop}
    (hstep : ∀ s a t, Inv s → sort s a → ok s a → step s a = some t → Inv t)
    (hok : ∀ s a, Inv s → sort s a → (∀ t, step s a = some t → Good t) → ok s a) {s : σ}
    {as : List α} (hinit : Inv s) (hsort : Along step sort s as)
    (h : ∀ as' t, as' <+: as → exec step s as' = some t → Good t) : Along step ok s as := by
  induction as generalizing s with
  | nil => trivial
  | cons a as ih =>
    have ha : ok s a := by
      refine hok s a hinit hsort.1 fun t ht => h [a] t (List.prefix_append [a] as) ?_
      rw [exec, ht]
      rfl
    refine ⟨ha, ?_⟩
    cases hs : step s a with
    | none => trivial
    | some u =>
      obtain ⟨hsorta, hsortas⟩ := hsort.cons hs
      refine ih (hstep s a u hinit hsorta ha hs) hsortas fun as' t hpre ht =>
        h (a :: as') t (List.cons_prefix_cons.mpr ⟨rfl, hpre⟩) ?_
      rw [exec, hs]
      exact ht

/-- **When a condition on the steps is the exact one.** The condition keeps the invariant, the
invariant gives the goal, and a goal that is reached, and cannot be recovered once it is lost, asks
for the condition at every step. All of this is about runs whose steps are of some sort. -/
theorem good_iff_along {Inv Good : σ → Prop} {sort ok : σ → α → Prop}
    (hstep : ∀ s a t, Inv s → sort s a → ok s a → step s a = some t → Inv t)
    (hgood : ∀ s, Inv s → Good s)
    (hok : ∀ s a t, Inv s → sort s a → step s a = some t → Good t → ok s a)
    (hlost : ∀ s a t, step s a = some t → Good t → Good s) {s t : σ} {as : List α}
    (hinit : Inv s) (hsort : Along step sort s as) (h : exec step s as = some t) :
    Good t ↔ Along step ok s as := by
  have hback : ∀ {s : σ} {as : List α}, exec step s as = some t → Good t → Good s := by
    intro s as hrun hgoal
    induction as generalizing s with
    | nil =>
      cases hrun
      exact hgoal
    | cons a as ih =>
      obtain ⟨u, hu, hrest⟩ := exec_cons hrun
      exact hlost s a u hu (ih hrest)
  constructor
  · intro hgoal
    induction as generalizing s with
    | nil => trivial
    | cons a as ih =>
      obtain ⟨u, hu, hrest⟩ := exec_cons h
      obtain ⟨hsorta, hsortas⟩ := hsort.cons hu
      have ha : ok s a := hok s a u hinit hsorta hu (hback hrest hgoal)
      rw [Along, hu]
      exact ⟨ha, ih (hstep s a u hinit hsorta ha hu) hsortas hrest⟩
  · intro hall
    exact hgood t (invariant (fun s a t hs ha => hstep s a t hs ha.1 ha.2) hinit
      (hsort.and hall) h)

/-- **The cost rule.** -/
theorem add_total {m : σ → ℕ} {cost : σ → α → ℕ} {ok : σ → α → Prop}
    (hstep : ∀ s a t, ok s a → step s a = some t → m t + cost s a = m s) {s t : σ} {as : List α}
    (hok : Along step ok s as) (h : exec step s as = some t) :
    m t + total step cost s as = m s := by
  induction as generalizing s with
  | nil =>
    cases h
    rfl
  | cons a as ih =>
    obtain ⟨u, hu, hrest⟩ := exec_cons h
    obtain ⟨ha, has⟩ := hok.cons hu
    have hcost := hstep s a u ha hu
    have hrun := ih has hrest
    rw [total_cons hu]
    omega

/-- A run shows what its steps show. -/
theorem forall_mem_observe {β : Type*} {obs : σ → α → List β} {p : β → Prop}
    (h : ∀ s a, ∀ b ∈ obs s a, p b) (s : σ) (as : List α) : ∀ b ∈ observe step obs s as, p b := by
  induction as generalizing s with
  | nil =>
    intro b hb
    cases hb
  | cons a as ih =>
    intro b hb
    rw [observe] at hb
    rcases List.mem_append.mp hb with hb | hb
    · exact h s a b hb
    · cases hs : step s a with
      | none =>
        rw [hs] at hb
        cases hb
      | some t =>
        rw [hs] at hb
        exact ih t b hb

/-- **The invariant rule** for a machine together with what its run has shown so far. -/
theorem invariant_observed {β : Type*} {obs : σ → α → List β} {Inv : σ → List β → Prop}
    {ok : σ → α → Prop}
    (hstep : ∀ s a t log, Inv s log → ok s a → step s a = some t → Inv t (log ++ obs s a)) {s t : σ}
    {as : List α} {log : List β} (hinit : Inv s log) (hok : Along step ok s as)
    (h : exec step s as = some t) : Inv t (log ++ observe step obs s as) := by
  induction as generalizing s log with
  | nil =>
    cases h
    rw [observe, List.append_nil]
    exact hinit
  | cons a as ih =>
    obtain ⟨u, hu, hrest⟩ := exec_cons h
    obtain ⟨ha, has⟩ := hok.cons hu
    rw [observe_cons hu, ← List.append_assoc]
    exact ih (hstep s a u log hinit ha hu) has hrest

/-- **The record rule**: what every step adds is in the end what the run has shown. -/
theorem append_observe {β γ : Type*} {obs : σ → α → List β} {f : σ → List γ} {g : β → List γ}
    {ok : σ → α → Prop}
    (hstep : ∀ s a t, ok s a → step s a = some t → f t = f s ++ (obs s a).flatMap g) {s t : σ}
    {as : List α} (hok : Along step ok s as) (h : exec step s as = some t) :
    f t = f s ++ (observe step obs s as).flatMap g := by
  induction as generalizing s with
  | nil =>
    cases h
    exact (List.append_nil _).symm
  | cons a as ih =>
    obtain ⟨u, hu, hrest⟩ := exec_cons h
    obtain ⟨ha, has⟩ := hok.cons hu
    rw [observe_cons hu, List.flatMap_append, ← List.append_assoc, ← hstep s a u ha hu]
    exact ih has hrest

/-- **The work-list rule**: what every step takes off the front is what the run has shown. -/
theorem observe_append {β γ : Type*} {obs : σ → α → List β} {f : σ → List γ} {g : β → List γ}
    (hstep : ∀ s a t, step s a = some t → (obs s a).flatMap g ++ f t = f s) {s t : σ} {as : List α}
    (h : exec step s as = some t) : (observe step obs s as).flatMap g ++ f t = f s := by
  induction as generalizing s with
  | nil =>
    cases h
    rfl
  | cons a as ih =>
    obtain ⟨u, hu, hrest⟩ := exec_cons h
    rw [observe_cons hu, List.flatMap_append, List.append_assoc, ih hrest]
    exact hstep s a u hu

end AMSServer.Transition
