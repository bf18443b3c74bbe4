import AMSServer.Foundations.Logged
import AMSServer.Foundations.Transition

/-!
# Calls under a protocol

A computation whose log is the calls it makes of an interface, and an interface that allows a call
only in some of its states. The computation follows the protocol (`Follows`) when every call it
makes is allowed where it is made, also when it fails on the way, and its value goes with the state
that the calls lead to. The rules go through the computation step by step.
-/

namespace AMSServer.Logged

open Transition

variable {ω ε α β σ : Type} {step : σ → ω → Option σ} {s t : σ}

/-- The calls are allowed one after the other from a state on, and lead to a state that goes with
the value if there is one. -/
def Follows (step : σ → ω → Option σ) (s : σ) (x : Logged ω ε α) (q : α → σ → Prop) : Prop :=
  ∃ t, exec step s x.lines = some t ∧ ∀ a, x.result = .ok a → q a t

variable {x : Logged ω ε α} {f : α → Logged ω ε β} {q r : α → σ → Prop}

theorem Follows.pure {a : α} (h : q a s) : Follows step s (Pure.pure a : Logged ω ε α) q := by
  refine ⟨s, rfl, fun b hb => ?_⟩
  cases hb
  exact h

theorem Follows.lift {y : Except ε α} (h : ∀ a, y = .ok a → q a s) :
    Follows step s (liftM y : Logged ω ε α) q :=
  ⟨s, rfl, h⟩

theorem Follows.logs {calls : List ω} {q : Unit → σ → Prop} (hstep : exec step s calls = some t)
    (h : q () t) : Follows step s (Logged.logs calls : Logged ω ε Unit) q :=
  ⟨t, hstep, fun _ _ => h⟩

theorem Follows.log {call : ω} {q : Unit → σ → Prop} (hstep : step s call = some t) (h : q () t) :
    Follows step s (Logged.log call : Logged ω ε Unit) q := by
  refine ⟨t, ?_, fun _ _ => h⟩
  rw [lines_log, exec, hstep]
  rfl

/-- **A computation follows the protocol when its steps do**, each from the state that the one
before has led to. -/
theorem Follows.bind {r : β → σ → Prop} (hx : Follows step s x q)
    (hf : ∀ a t, q a t → Follows step t (f a) r) : Follows step s (x >>= f) r := by
  obtain ⟨t, hrun, hq⟩ := hx
  cases h : x.result with
  | error e =>
    refine ⟨t, by rw [lines_bind_error h]; exact hrun, fun b hb => ?_⟩
    rw [result_bind, h] at hb
    cases hb
  | ok a =>
    obtain ⟨u, hrun', hr⟩ := hf a t (hq a h)
    refine ⟨u, ?_, fun b hb => hr b ?_⟩
    · rw [lines_bind_ok h, exec_append, hrun]
      exact hrun'
    · rwa [result_bind_ok h] at hb

/-- A call before the rest. -/
theorem Follows.log_bind {call : ω} {g : Unit → Logged ω ε β} {r : β → σ → Prop}
    (hstep : step s call = some t) (hg : Follows step t (g ()) r) :
    Follows step s (Logged.log call >>= g) r := by
  refine Follows.bind (q := fun _ u => u = t) (Follows.log hstep rfl) ?_
  rintro _ _ rfl
  exact hg

/-- A step that makes no call. -/
theorem Follows.lift_bind {y : Except ε α} {r : β → σ → Prop}
    (hf : ∀ a, y = .ok a → Follows step s (f a) r) : Follows step s (liftM y >>= f) r := by
  refine Follows.bind (q := fun a u => y = .ok a ∧ u = s) (Follows.lift fun a ha => ⟨ha, rfl⟩) ?_
  rintro a _ ⟨ha, rfl⟩
  exact hf a ha

theorem Follows.mono (hx : Follows step s x q) (h : ∀ a t, q a t → r a t) :
    Follows step s x r := by
  obtain ⟨t, hrun, hq⟩ := hx
  exact ⟨t, hrun, fun a ha => h a t (hq a ha)⟩

end AMSServer.Logged
