import AMSServer.Foundations.CRuntime.Text
import Mathlib.Algebra.GroupWithZero.Nat

/-!
# Bounded C buffers

A `char` array of `n` bytes that holds a C string: the string is shorter than `n` and has no
terminator inside, both as fields (`CBuf`). The secure string functions of the C runtime are told
a size, which the caller may get wrong. They refuse a result that does not fit the size they were
told (`Fault.invalidParameter`, which ends the process); a result that fits that size and not the
array is written past its end (`Fault.overrun`).
-/

namespace AMSServer.CRuntime

/-- What ends the defined behaviour of a C function. -/
inductive Fault
  /-- A secure function refused its arguments; the default handler ends the process. -/
  | invalidParameter
  /-- A read or a write outside the object. -/
  | overrun
  deriving DecidableEq

@[simp] theorem ok_bind {α β : Type} (a : α) (f : α → Except Fault β) :
    (Except.ok a >>= f) = f a := rfl

@[simp] theorem error_bind {α β : Type} (e : Fault) (f : α → Except Fault β) :
    ((Except.error e : Except Fault α) >>= f) = .error e := rfl

theorem bind_eq_ok {α β : Type} {x : Except Fault α} {f : α → Except Fault β} {b : β} :
    (x >>= f) = .ok b ↔ ∃ a, x = .ok a ∧ f a = .ok b := by
  cases x with
  | error e => simp
  | ok a => simp

/-- What has a result under a map has one. -/
theorem exists_of_map_eq_ok {α β : Type} {x : Except Fault α} {f : α → β} {b : β}
    (h : x.map f = .ok b) : ∃ a, x = .ok a := by
  cases x with
  | error e => cases h
  | ok a => exact ⟨a, rfl⟩

/-- An array of `n` bytes holding a C string. -/
@[ext] structure CBuf (n : ℕ) where
  text : Text
  text_lt : text.length < n
  nul_free : nul ∉ text
  deriving DecidableEq

namespace CBuf

variable {n : ℕ}

/-- The array filled with terminators. -/
def empty [NeZero n] : CBuf n := ⟨[], Nat.pos_of_neZero n, List.not_mem_nil⟩

@[simp] theorem text_empty [NeZero n] : (empty : CBuf n).text = [] := rfl

@[simp] theorem cstr_text (b : CBuf n) : cstr b.text = b.text := cstr_of_notMem b.nul_free

/-- Write characters and a terminator from the start of the array. -/
def store (n : ℕ) (t : Text) : Except Fault (CBuf n) :=
  if h : (cstr t).length < n then .ok ⟨cstr t, h, nul_notMem_cstr t⟩ else .error .overrun

theorem store_eq_ok {t : Text} {b : CBuf n} : store n t = .ok b ↔ b.text = cstr t := by
  unfold store
  split
  · rw [Except.ok.injEq, CBuf.ext_iff]
    exact eq_comm
  · next h =>
    refine ⟨nofun, fun hb => absurd ?_ h⟩
    rw [← hb]
    exact b.text_lt

/-- `strcpy`-like writes of text that fits succeed. -/
theorem exists_store {t : Text} (ht : nul ∉ t) (h : t.length < n) :
    ∃ b : CBuf n, store n t = .ok b ∧ b.text = t :=
  ⟨⟨t, h, ht⟩, store_eq_ok.mpr (cstr_of_notMem ht).symm, rfl⟩

/-- `strcat_s(b, told, src)` -/
def strcatS (b : CBuf n) (told : ℕ) (src : Text) : Except Fault (CBuf n) :=
  if b.text.length + (cstr src).length < told then store n (b.text ++ cstr src)
  else .error .invalidParameter

/-- `strncpy_s(b, told, src, count)` into an array of `n` bytes -/
def strncpyS (n told : ℕ) (src : Text) (count : ℕ) : Except Fault (CBuf n) :=
  if ((cstr src).take count).length < told then store n ((cstr src).take count)
  else .error .invalidParameter

/-- `sprintf_s(b, told, ...)` into an array of `n` bytes, given the formatted text -/
def sprintfS (n told : ℕ) (formatted : Text) : Except Fault (CBuf n) :=
  if (cstr formatted).length < told then store n formatted else .error .invalidParameter

theorem strcatS_eq_ok {b b' : CBuf n} {told : ℕ} {src : Text} :
    b.strcatS told src = .ok b' ↔
      b.text.length + (cstr src).length < told ∧ b'.text = b.text ++ cstr src := by
  have hfree : nul ∉ b.text ++ cstr src := by
    simp [b.nul_free, nul_notMem_cstr]
  unfold strcatS
  split
  · next h => rw [store_eq_ok, cstr_of_notMem hfree]; simp [h]
  · next h => simp [h]

/-- An append that fits the size told and the array. -/
theorem exists_strcatS {b : CBuf n} (told : ℕ) {src : Text} (hnul : nul ∉ src)
    (htold : b.text.length + src.length < told) (hfit : b.text.length + src.length < n) :
    ∃ b' : CBuf n, b.strcatS told src = .ok b' ∧ b'.text = b.text ++ src := by
  have hfree : nul ∉ b.text ++ src := by simp [b.nul_free, hnul]
  refine ⟨⟨b.text ++ src, by simpa using hfit, hfree⟩, ?_, rfl⟩
  rw [strcatS_eq_ok, cstr_of_notMem hnul]
  exact ⟨htold, rfl⟩

theorem strncpyS_eq_ok {b : CBuf n} {told count : ℕ} {src : Text} :
    strncpyS n told src count = .ok b ↔
      ((cstr src).take count).length < told ∧ b.text = (cstr src).take count := by
  have hfree : nul ∉ (cstr src).take count :=
    fun h => nul_notMem_cstr src (List.mem_of_mem_take h)
  unfold strncpyS
  split
  · next h => rw [store_eq_ok, cstr_of_notMem hfree]; exact (and_iff_right h).symm
  · next h => exact ⟨nofun, fun h' => absurd h'.1 h⟩

theorem sprintfS_eq_ok {b : CBuf n} {told : ℕ} {t : Text} :
    sprintfS n told t = .ok b ↔ (cstr t).length < told ∧ b.text = cstr t := by
  unfold sprintfS
  split
  · next h => rw [store_eq_ok]; exact (and_iff_right h).symm
  · next h => exact ⟨nofun, fun h' => absurd h'.1 h⟩

/-- A formatted text that fits. -/
theorem exists_sprintfS {t : Text} (hnul : nul ∉ t) (hfit : t.length < n) :
    ∃ b : CBuf n, sprintfS n n t = .ok b ∧ b.text = t := by
  refine ⟨⟨t, hfit, hnul⟩, ?_, rfl⟩
  rw [sprintfS_eq_ok, cstr_of_notMem hnul]
  exact ⟨hfit, rfl⟩

end CBuf

end AMSServer.CRuntime
