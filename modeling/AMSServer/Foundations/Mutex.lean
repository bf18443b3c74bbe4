import AMSServer.Foundations.Transition
import Mathlib.Algebra.BigOperators.Group.Finset.Basic
import Mathlib.Algebra.Order.BigOperators.Group.Finset
import Mathlib.Data.Fintype.Basic
import Mathlib.Logic.Function.Basic

/-!
# Threads and mutexes

Threads that run straight programs, of which any may take the next step. An instruction locks or
unlocks a mutex or acts on what the threads share; what an action does may depend on a reply from
outside. A mutex may be locked again by the thread that holds it, and is free when it has been
unlocked as often.

A program is well locked (`WellLocked`) when it holds one mutex at a time and each action that a
mutex guards stands between the lock and the unlock of it. Threads with such programs exclude each
other (`Inv.inside_of_guard`), no step of another thread spoils what a thread knows while it holds
the mutex (`knows`), and they cannot block each other for ever: one of them can always go on
(`Inv.progress`), and every run can be finished (`Inv.finishes`).
-/

namespace AMSServer.Mutex

open Transition

variable {ι μ α ω σ : Type*}

/-- An instruction of a thread. -/
inductive Instr (μ α : Type*)
  | lock (m : μ)
  | unlock (m : μ)
  | act (a : α)

/-- The threads with the instructions that are left to each, the mutexes with the thread that holds
each and the number of times it has locked it again, and what the threads share. -/
structure State (ι μ α σ : Type*) where
  shared : σ
  holder : μ → Option (ι × ℕ)
  todo : ι → List (Instr μ α)

/-- The instructions that are left. -/
def left [Fintype ι] (s : State ι μ α σ) : ℕ := ∑ t, (s.todo t).length

theorem left_eq_zero_iff [Fintype ι] {s : State ι μ α σ} : left s = 0 ↔ ∀ t, s.todo t = [] := by
  simp [left]

/-! ## Steps -/

section Step

variable [DecidableEq ι] [DecidableEq μ] (effect : α → ω → σ → σ)

/-- The holder of a mutex after a thread has locked it. -/
def locked (t : ι) : Option (ι × ℕ) → Option (ι × ℕ)
  | none => some (t, 0)
  | some (u, n) => if u = t then some (t, n + 1) else none

/-- The holder of a mutex after a thread has tried to unlock it. -/
def unlocked (t : ι) : Option (ι × ℕ) → Option (ι × ℕ)
  | some (u, 0) => if u = t then none else some (u, 0)
  | some (u, n + 1) => if u = t then some (u, n) else some (u, n + 1)
  | none => none

/-- A thread takes its next instruction. -/
def step (s : State ι μ α σ) : ι × ω → Option (State ι μ α σ)
  | (t, r) =>
    match s.todo t with
    | [] => none
    | .act a :: p =>
      some { s with shared := effect a r s.shared, todo := Function.update s.todo t p }
    | .lock m :: p =>
      (locked t (s.holder m)).map fun h =>
        { s with
          holder := Function.update s.holder m (some h)
          todo := Function.update s.todo t p }
    | .unlock m :: p =>
      some { s with
        holder := Function.update s.holder m (unlocked t (s.holder m))
        todo := Function.update s.todo t p }

/-- The threads before their first step. -/
def start (d : σ) (programs : ι → List (Instr μ α)) : State ι μ α σ :=
  ⟨d, fun _ => none, programs⟩

/-- What a step does, by the instruction. -/
inductive Move (s : State ι μ α σ) (t : ι) (r : ω) : State ι μ α σ → Prop
  | act (a : α) (p : List (Instr μ α)) (htodo : s.todo t = .act a :: p) :
      Move s t r { s with shared := effect a r s.shared, todo := Function.update s.todo t p }
  | lock (m : μ) (p : List (Instr μ α)) (h : ι × ℕ) (htodo : s.todo t = .lock m :: p)
      (hlocked : locked t (s.holder m) = some h) :
      Move s t r { s with
        holder := Function.update s.holder m (some h)
        todo := Function.update s.todo t p }
  | unlock (m : μ) (p : List (Instr μ α)) (htodo : s.todo t = .unlock m :: p) :
      Move s t r { s with
        holder := Function.update s.holder m (unlocked t (s.holder m))
        todo := Function.update s.todo t p }

variable {effect}

theorem step_move {s s' : State ι μ α σ} {t : ι} {r : ω} (h : step effect s (t, r) = some s') :
    Move effect s t r s' := by
  rw [step] at h
  split at h
  · cases h
  next a p htodo =>
    cases h
    exact .act a p htodo
  next m p htodo =>
    obtain ⟨x, hlocked, rfl⟩ := Option.map_eq_some_iff.mp h
    exact .lock m p x htodo hlocked
  next m p htodo =>
    cases h
    exact .unlock m p htodo

/-- Every step uses up one instruction of its thread. -/
theorem step_todo {s s' : State ι μ α σ} {t : ι} {r : ω} (h : step effect s (t, r) = some s') :
    ∃ i p, s.todo t = i :: p ∧ s'.todo = Function.update s.todo t p := by
  cases step_move h with
  | act a p htodo => exact ⟨_, p, htodo, rfl⟩
  | lock m p x htodo hlocked => exact ⟨_, p, htodo, rfl⟩
  | unlock m p htodo => exact ⟨_, p, htodo, rfl⟩

end Step

/-! ## Well locked programs -/

/-- The mutex that a thread holds when these instructions are left to it. -/
def inside : List (Instr μ α) → Option μ
  | [] => none
  | .act _ :: p => inside p
  | .lock _ :: _ => none
  | .unlock m :: _ => some m

/-- A program holds one mutex at a time, and holds the one that guards an action at the action. -/
def WellLocked (guard : α → Option μ) : List (Instr μ α) → Prop
  | [] => True
  | .act a :: p => (∀ m ∈ guard a, inside p = some m) ∧ WellLocked guard p
  | .lock m :: p => inside p = some m ∧ WellLocked guard p
  | .unlock _ :: p => inside p = none ∧ WellLocked guard p

theorem WellLocked.tail {guard : α → Option μ} {i : Instr μ α} {p : List (Instr μ α)}
    (h : WellLocked guard (i :: p)) : WellLocked guard p := by
  cases i with
  | act a => exact h.2
  | lock m => exact h.2
  | unlock m => exact h.2

theorem inside_append {p q : List (Instr μ α)} (hp : inside p = none) (hq : inside q = none) :
    inside (p ++ q) = none := by
  induction p with
  | nil => exact hq
  | cons i p ih =>
    cases i with
    | act a => exact ih hp
    | lock m => rfl
    | unlock m => cases hp

/-- What follows a program that has unlocked its mutexes starts with none. -/
theorem inside_append_of_some {p q : List (Instr μ α)} {m : μ} (hp : inside p = some m) :
    inside (p ++ q) = some m := by
  induction p with
  | nil => cases hp
  | cons i p ih =>
    cases i with
    | act a => exact ih hp
    | lock m => cases hp
    | unlock m => exact hp

/-- **Well locked programs one after the other.** -/
theorem WellLocked.append {guard : α → Option μ} {p q : List (Instr μ α)}
    (hp : WellLocked guard p) (hq : WellLocked guard q) (hin : inside q = none) :
    WellLocked guard (p ++ q) := by
  induction p with
  | nil => exact hq
  | cons i p ih =>
    cases i with
    | act a => exact ⟨fun m hm => inside_append_of_some (hp.1 m hm), ih hp.2⟩
    | lock m => exact ⟨inside_append_of_some hp.1, ih hp.2⟩
    | unlock m => exact ⟨inside_append hp.1 hin, ih hp.2⟩

/-! ## Mutual exclusion -/

section Exclusion

variable {guard : α → Option μ} {effect : α → ω → σ → σ} {s s' : State ι μ α σ}

/-- The programs that are left are well locked, and a mutex is held, once, by the thread whose
program is inside it. -/
structure Inv (guard : α → Option μ) (s : State ι μ α σ) : Prop where
  wellLocked : ∀ t, WellLocked guard (s.todo t)
  holder : ∀ m t n, s.holder m = some (t, n) ↔ inside (s.todo t) = some m ∧ n = 0

theorem inv_start {d : σ} {programs : ι → List (Instr μ α)}
    (h : ∀ t, WellLocked guard (programs t) ∧ inside (programs t) = none) :
    Inv guard (start d programs) where
  wellLocked t := (h t).1
  holder m t n := by
    change none = some (t, n) ↔ inside (programs t) = some m ∧ n = 0
    rw [(h t).2]
    simp

/-- **Mutual exclusion.** No two threads are inside the same mutex. -/
theorem Inv.unique (hs : Inv guard s) {m : μ} {t u : ι} (ht : inside (s.todo t) = some m)
    (hu : inside (s.todo u) = some m) : t = u := by
  have h1 := (hs.holder m t 0).mpr ⟨ht, rfl⟩
  have h2 := (hs.holder m u 0).mpr ⟨hu, rfl⟩
  rw [h1] at h2
  cases h2
  rfl

/-- The thread of a guarded action holds the mutex. -/
theorem Inv.inside_of_guard (hs : Inv guard s) {t : ι} {a : α} {p : List (Instr μ α)} {m : μ}
    (htodo : s.todo t = .act a :: p) (hm : guard a = some m) : inside (s.todo t) = some m := by
  have hwell := hs.wellLocked t
  rw [htodo] at hwell ⊢
  exact hwell.1 m hm

variable [DecidableEq ι]

/-- A mutex that is locked was free: its thread holds none yet. -/
theorem Inv.free_of_locked (hs : Inv guard s) {t : ι} {m : μ} {p : List (Instr μ α)} {x : ι × ℕ}
    (htodo : s.todo t = .lock m :: p) (hlocked : locked t (s.holder m) = some x) :
    s.holder m = none ∧ x = (t, 0) := by
  cases hm : s.holder m with
  | none =>
    rw [hm] at hlocked
    exact ⟨rfl, (Option.some.inj hlocked).symm⟩
  | some y =>
    obtain ⟨u, n⟩ := y
    rw [hm, locked] at hlocked
    split_ifs at hlocked with hu
    have hin := ((hs.holder m u n).mp hm).1
    rw [hu, htodo] at hin
    cases hin

variable [DecidableEq μ]

/-- Locking a mutex. -/
theorem Inv.holder_lock (hs : Inv guard s) {t : ι} {m : μ} {p : List (Instr μ α)}
    (hout : inside (s.todo t) = none) (hin : inside p = some m) (hfree : s.holder m = none)
    (m' : μ) (u : ι) (n : ℕ) :
    Function.update s.holder m (some (t, 0)) m' = some (u, n) ↔
      inside (Function.update s.todo t p u) = some m' ∧ n = 0 := by
  have hbefore := hs.holder m' u n
  by_cases hm : m' = m
  · subst hm
    rw [Function.update_self]
    rw [hfree] at hbefore
    by_cases hu : u = t
    · subst hu
      rw [Function.update_self, hin]
      simp [eq_comm]
    · rw [Function.update_of_ne hu, ← hbefore]
      simp [Ne.symm hu]
  · rw [Function.update_of_ne hm]
    by_cases hu : u = t
    · subst hu
      rw [Function.update_self, hin, hbefore, hout]
      simp [Ne.symm hm]
    · rw [Function.update_of_ne hu]
      exact hbefore

/-- Unlocking a mutex. -/
theorem Inv.holder_unlock (hs : Inv guard s) {t : ι} {m : μ} {p : List (Instr μ α)}
    (hin : inside (s.todo t) = some m) (hout : inside p = none) (m' : μ) (u : ι) (n : ℕ) :
    Function.update s.holder m none m' = some (u, n) ↔
      inside (Function.update s.todo t p u) = some m' ∧ n = 0 := by
  have hbefore := hs.holder m' u n
  by_cases hm : m' = m
  · subst hm
    rw [Function.update_self]
    by_cases hu : u = t
    · subst hu
      rw [Function.update_self, hout]
      simp
    · rw [Function.update_of_ne hu]
      refine ⟨fun h => (by cases h), fun h => ?_⟩
      exact absurd (hs.unique h.1 hin) hu
  · rw [Function.update_of_ne hm]
    by_cases hu : u = t
    · subst hu
      rw [Function.update_self, hout, hbefore, hin]
      simp [Ne.symm hm]
    · rw [Function.update_of_ne hu]
      exact hbefore

/-- **Every step keeps the mutexes as the programs say.** -/
theorem Inv.step (hs : Inv guard s) {t : ι} {r : ω}
    (h : Mutex.step effect s (t, r) = some s') : Inv guard s' := by
  have hwell := hs.wellLocked t
  constructor
  · obtain ⟨i, p, htodo, htodo'⟩ := step_todo h
    rw [htodo] at hwell
    rw [htodo', Function.forall_update_iff s.todo fun _ p => WellLocked guard p]
    exact ⟨hwell.tail, fun u _ => hs.wellLocked u⟩
  cases step_move h with
  | act a p htodo =>
    intro m u n
    refine (hs.holder m u n).trans ?_
    change _ ↔ inside (Function.update s.todo t p u) = some m ∧ n = 0
    by_cases hu : u = t
    · subst hu
      rw [Function.update_self, htodo, inside]
    · rw [Function.update_of_ne hu]
  | lock m p x htodo hlocked =>
    obtain ⟨hfree, rfl⟩ := hs.free_of_locked htodo hlocked
    rw [htodo] at hwell
    exact hs.holder_lock (by rw [htodo]; rfl) hwell.1 hfree
  | unlock m p htodo =>
    have hin : inside (s.todo t) = some m := by rw [htodo]; rfl
    have hheld : s.holder m = some (t, 0) := (hs.holder m t 0).mpr ⟨hin, rfl⟩
    rw [htodo] at hwell
    rw [hheld, unlocked, if_pos rfl]
    exact hs.holder_unlock hin hwell.1

/-! ## What a thread knows -/

/-- **Knowledge is kept inside a mutex.** A thread has some knowledge of what is shared, by the
instructions that are left to it. Its own steps must establish it, and the actions of others must
not spoil it; but those that the mutex guards that the thread is inside need no looking at. -/
theorem knows {knowledge : List (Instr μ α) → σ → Prop}
    (hlock : ∀ m p d, knowledge (.lock m :: p) d → knowledge p d)
    (hunlock : ∀ m p d, knowledge (.unlock m :: p) d → knowledge p d)
    (hact : ∀ a p d r, knowledge (.act a :: p) d → knowledge p (effect a r d))
    (hothers : ∀ a p d r, WellLocked guard p → (∀ m ∈ guard a, inside p ≠ some m) →
      knowledge p d → knowledge p (effect a r d))
    {t : ι} {r : ω} (hs : Inv guard s) (hknows : ∀ u, knowledge (s.todo u) s.shared)
    (h : Mutex.step effect s (t, r) = some s') : ∀ u, knowledge (s'.todo u) s'.shared := by
  have hmine := hknows t
  intro u
  cases step_move h with
  | act a p htodo =>
    change knowledge (Function.update s.todo t p u) (effect a r s.shared)
    rw [htodo] at hmine
    by_cases hu : u = t
    · subst hu
      rw [Function.update_self]
      exact hact a p _ r hmine
    · rw [Function.update_of_ne hu]
      refine hothers a _ _ r (hs.wellLocked u) (fun m hm hin => ?_) (hknows u)
      exact hu (hs.unique hin (hs.inside_of_guard htodo hm))
  | lock m p x htodo hlocked =>
    change knowledge (Function.update s.todo t p u) s.shared
    rw [htodo] at hmine
    by_cases hu : u = t
    · subst hu
      rw [Function.update_self]
      exact hlock m p _ hmine
    · rw [Function.update_of_ne hu]
      exact hknows u
  | unlock m p htodo =>
    change knowledge (Function.update s.todo t p u) s.shared
    rw [htodo] at hmine
    by_cases hu : u = t
    · subst hu
      rw [Function.update_self]
      exact hunlock m p _ hmine
    · rw [Function.update_of_ne hu]
      exact hknows u

/-! ## Progress -/

/-- A thread inside a mutex can take its next step. -/
theorem step_of_inside {t : ι} {m : μ} (h : inside (s.todo t) = some m)
    (r : ω) : ∃ s', Mutex.step effect s (t, r) = some s' := by
  rw [Mutex.step]
  cases htodo : s.todo t with
  | nil =>
    rw [htodo] at h
    cases h
  | cons i p =>
    cases i with
    | act a => exact ⟨_, rfl⟩
    | lock m' =>
      rw [htodo] at h
      cases h
    | unlock m' => exact ⟨_, rfl⟩

/-- A thread waits for a mutex that another one holds. -/
def Waits (s : State ι μ α σ) (t u : ι) : Prop :=
  ∃ m p n, s.todo t = .lock m :: p ∧ s.holder m = some (u, n)

/-- **No deadlock.** A thread that has not finished can go on, or waits for one that can. -/
theorem Inv.progress (hs : Inv guard s) {t : ι} (h : s.todo t ≠ []) (r : ω) :
    ∃ u, (u = t ∨ Waits s t u) ∧ ∃ s', Mutex.step effect s (u, r) = some s' := by
  cases htodo : s.todo t with
  | nil => exact absurd htodo h
  | cons i p =>
    cases i with
    | act a => exact ⟨t, Or.inl rfl, _, by rw [Mutex.step, htodo]⟩
    | unlock m => exact ⟨t, Or.inl rfl, _, by rw [Mutex.step, htodo]⟩
    | lock m =>
      cases hm : s.holder m with
      | none =>
        refine ⟨t, Or.inl rfl, ?_⟩
        simp [Mutex.step, htodo, hm, locked]
      | some x =>
        obtain ⟨u, n⟩ := x
        refine ⟨u, Or.inr ⟨m, p, n, htodo, hm⟩, ?_⟩
        exact step_of_inside ((hs.holder m u n).mp hm).1 r

section Finite

variable [Fintype ι]

/-- Every step uses up one instruction. -/
theorem step_left {t : ι} {r : ω} (h : Mutex.step effect s (t, r) = some s') :
    left s' + 1 = left s := by
  obtain ⟨i, p, htodo, htodo'⟩ := step_todo h
  have hrest : ∑ u ∈ Finset.univ.erase t, (s'.todo u).length =
      ∑ u ∈ Finset.univ.erase t, (s.todo u).length := by
    refine Finset.sum_congr rfl fun u hu => ?_
    rw [htodo', Function.update_of_ne (Finset.ne_of_mem_erase hu)]
  have hmine : (s'.todo t).length + 1 = (s.todo t).length := by
    rw [htodo', Function.update_self, htodo, List.length_cons]
  unfold left
  rw [← Finset.add_sum_erase _ _ (Finset.mem_univ t), hrest,
    ← Finset.add_sum_erase _ _ (Finset.mem_univ t)]
  omega

theorem run_left {as : List (ι × ω)} (h : exec (Mutex.step effect) s as = some s') :
    left s' + as.length = left s := by
  induction as generalizing s with
  | nil =>
    cases h
    rfl
  | cons a as ih =>
    obtain ⟨u, hu, hrest⟩ := exec_cons h
    have hstep := step_left hu
    have hrun := ih hrest
    rw [List.length_cons]
    omega

/-- **Every run can be finished**, and takes as many steps in all as there are instructions. -/
theorem Inv.finishes (hs : Inv guard s) [Nonempty ω] :
    ∃ as s', exec (Mutex.step effect) s as = some s' ∧ (∀ t, s'.todo t = []) ∧
      as.length = left s := by
  induction hn : left s generalizing s with
  | zero => exact ⟨[], s, rfl, left_eq_zero_iff.mp hn, rfl⟩
  | succ n ih =>
    have hsome : ∃ t, s.todo t ≠ [] := by
      by_contra hall
      have hzero := left_eq_zero_iff.mpr fun t => not_not.mp (not_exists.mp hall t)
      omega
    obtain ⟨t, ht⟩ := hsome
    obtain ⟨u, -, s₁, hstep⟩ :=
      @Inv.progress _ _ _ _ _ _ effect _ _ _ hs _ ht (Classical.arbitrary ω)
    have hleft := step_left hstep
    obtain ⟨as, s', hrun, hdone, hlength⟩ := ih (hs.step hstep) (by omega)
    refine ⟨(u, Classical.arbitrary ω) :: as, s', ?_, hdone, by rw [List.length_cons, hlength]⟩
    rw [exec, hstep]
    exact hrun

end Finite

end Exclusion

end AMSServer.Mutex
