import Mathlib.Data.List.Count
import Mathlib.Data.List.Perm.Basic
import Mathlib.Logic.Function.Basic

/-!
# References to heap objects

A program with explicit deletion holds references to heap objects in many places: local variables of
its threads, requests that are under way. The ledger is the list of them all. A reference may stand
for the use of its object, for the right to delete it, or for both, and it needs something of the
object. The ledger is sound (`Sound`) when every reference finds such an object, and no object is
used twice or may be deleted twice. It is exact (`Exact`) when besides every object has a reference,
so that none is lost.

The rules say which moves keep the ledger sound: a new object gets a new reference, a reference may
be given up, changed or split into its use and its right to delete, an object may be written by the
one reference that has both, and it may be deleted when nobody else uses it.
-/

namespace AMSServer.Ledger

/-- A reference. -/
structure Ref (α κ : Type*) where
  addr : α
  /-- It uses the object. -/
  uses : Bool
  /-- It has the right to delete the object. -/
  owns : Bool
  /-- What it needs of the object. -/
  needs : κ → Prop

variable {α κ : Type*} [DecidableEq α]

/-- The reference uses the object at an address. -/
def Ref.usesAt (a : α) (r : Ref α κ) : Bool := r.uses && r.addr == a

/-- The reference owns the object at an address. -/
def Ref.ownsAt (a : α) (r : Ref α κ) : Bool := r.owns && r.addr == a

/-- Every reference finds its object, and no object is used or owned twice. -/
structure Sound (heap : α → Option κ) (refs : List (Ref α κ)) : Prop where
  live : ∀ r ∈ refs, ∃ c, heap r.addr = some c ∧ r.needs c
  held : ∀ r ∈ refs, r.uses = true ∨ r.owns = true
  used_once : ∀ a, refs.countP (Ref.usesAt a) ≤ 1
  owned_once : ∀ a, refs.countP (Ref.ownsAt a) ≤ 1

namespace Sound

variable {heap : α → Option κ} {refs refs' : List (Ref α κ)} {r r' r₁ r₂ : Ref α κ} {c c' : κ}
  {a : α}

theorem nil : Sound heap ([] : List (Ref α κ)) :=
  ⟨by simp, by simp, by simp, by simp⟩

/-- The order of the references does not matter. -/
theorem perm (h : Sound heap refs) (hp : refs.Perm refs') : Sound heap refs' where
  live r hr := h.live r (hp.mem_iff.mpr hr)
  held r hr := h.held r (hp.mem_iff.mpr hr)
  used_once a := by rw [← hp.countP_eq]; exact h.used_once a
  owned_once a := by rw [← hp.countP_eq]; exact h.owned_once a

/-- Giving up a reference. -/
theorem tail (h : Sound heap (r :: refs)) : Sound heap refs where
  live r' hr := h.live r' (List.mem_cons_of_mem _ hr)
  held r' hr := h.held r' (List.mem_cons_of_mem _ hr)
  used_once a := Nat.le_trans (List.sublist_cons_self r refs).countP_le (h.used_once a)
  owned_once a := Nat.le_trans (List.sublist_cons_self r refs).countP_le (h.owned_once a)

/-- The object of a used reference is used by no other one. -/
theorem addr_ne_of_uses (h : Sound heap (r :: refs)) (hr : r.uses = true) (hmem : r' ∈ refs)
    (hr' : r'.uses = true) : r'.addr ≠ r.addr := by
  intro heq
  have hpos : 0 < refs.countP (Ref.usesAt r.addr) :=
    List.countP_pos_iff.mpr ⟨r', hmem, by simp [Ref.usesAt, hr', heq]⟩
  have honce := h.used_once r.addr
  rw [List.countP_cons_of_pos (by simp [Ref.usesAt, hr])] at honce
  omega

/-- The object of an owned reference is owned by no other one. -/
theorem addr_ne_of_owns (h : Sound heap (r :: refs)) (hr : r.owns = true) (hmem : r' ∈ refs)
    (hr' : r'.owns = true) : r'.addr ≠ r.addr := by
  intro heq
  have hpos : 0 < refs.countP (Ref.ownsAt r.addr) :=
    List.countP_pos_iff.mpr ⟨r', hmem, by simp [Ref.ownsAt, hr', heq]⟩
  have honce := h.owned_once r.addr
  rw [List.countP_cons_of_pos (by simp [Ref.ownsAt, hr])] at honce
  omega

/-- A reference that uses and owns its object is the only one to it. -/
theorem addr_ne (h : Sound heap (r :: refs)) (hu : r.uses = true) (ho : r.owns = true)
    (hmem : r' ∈ refs) : r'.addr ≠ r.addr := by
  rcases h.held r' (List.mem_cons_of_mem _ hmem) with hr' | hr'
  · exact h.addr_ne_of_uses hu hmem hr'
  · exact h.addr_ne_of_owns ho hmem hr'

/-- The references to other objects do not notice a change of one object. -/
theorem update (h : Sound heap refs) (hne : ∀ r ∈ refs, r.addr ≠ a) (o : Option κ) :
    Sound (Function.update heap a o) refs where
  live r hr := by rw [Function.update_of_ne (hne r hr)]; exact h.live r hr
  held := h.held
  used_once := h.used_once
  owned_once := h.owned_once

/-- A reference to an object that no other reference is to. -/
theorem cons (h : Sound heap refs) (hne : ∀ r' ∈ refs, r'.addr ≠ r.addr)
    (hc : heap r.addr = some c) (hneeds : r.needs c) (hheld : r.uses = true ∨ r.owns = true) :
    Sound heap (r :: refs) where
  live r' hr' := by
    rcases List.mem_cons.mp hr' with rfl | hr'
    · exact ⟨c, hc, hneeds⟩
    · exact h.live r' hr'
  held r' hr' := by
    rcases List.mem_cons.mp hr' with rfl | hr'
    · exact hheld
    · exact h.held r' hr'
  used_once a := by
    by_cases ha : r.addr = a
    · have hzero : refs.countP (Ref.usesAt a) = 0 := by
        rw [List.countP_eq_zero]
        intro r' hr'
        simp [Ref.usesAt, ← ha, hne r' hr']
      rw [List.countP_cons, hzero]
      split <;> omega
    · rw [List.countP_cons_of_neg (by simp [Ref.usesAt, ha])]
      exact h.used_once a
  owned_once a := by
    by_cases ha : r.addr = a
    · have hzero : refs.countP (Ref.ownsAt a) = 0 := by
        rw [List.countP_eq_zero]
        intro r' hr'
        simp [Ref.ownsAt, ← ha, hne r' hr']
      rw [List.countP_cons, hzero]
      split <;> omega
    · rw [List.countP_cons_of_neg (by simp [Ref.ownsAt, ha])]
      exact h.owned_once a

/-- **A new object.** -/
theorem alloc (h : Sound heap refs) (hfree : heap r.addr = none) (hneeds : r.needs c)
    (hheld : r.uses = true ∨ r.owns = true) :
    Sound (Function.update heap r.addr (some c)) (r :: refs) := by
  have hne : ∀ r' ∈ refs, r'.addr ≠ r.addr := fun r' hr' heq => by
    obtain ⟨c', hc', -⟩ := h.live r' hr'
    rw [heq, hfree] at hc'
    cases hc'
  exact (h.update hne _).cons hne (Function.update_self _ _ _) hneeds hheld

/-- **Writing an object** through the only reference to it. -/
theorem write (h : Sound heap (r :: refs)) (hu : r.uses = true) (ho : r.owns = true)
    (hneeds : r.needs c') : Sound (Function.update heap r.addr (some c')) (r :: refs) := by
  have hne : ∀ r' ∈ refs, r'.addr ≠ r.addr := fun r' hr' => h.addr_ne hu ho hr'
  exact (h.tail.update hne _).cons hne (Function.update_self _ _ _) hneeds (Or.inl hu)

/-- **Deleting an object** that nobody else uses. -/
theorem free (h : Sound heap (r :: refs)) (ho : r.owns = true)
    (hunused : ∀ r' ∈ refs, r'.owns = false → r'.addr ≠ r.addr) :
    Sound (Function.update heap r.addr none) refs := by
  refine h.tail.update (fun r' hr' => ?_) none
  cases ho' : r'.owns with
  | true => exact h.addr_ne_of_owns ho hr' ho'
  | false => exact hunused r' hr' ho'

/-- **Changing a reference** to one with no more rights. -/
theorem replace (h : Sound heap (r :: refs)) (haddr : r'.addr = r.addr)
    (hu : r'.uses = true → r.uses = true) (ho : r'.owns = true → r.owns = true)
    (hheld : r'.uses = true ∨ r'.owns = true)
    (hneeds : ∀ c, heap r.addr = some c → r.needs c → r'.needs c) : Sound heap (r' :: refs) where
  live x hx := by
    rcases List.mem_cons.mp hx with rfl | hx
    · obtain ⟨c, hc, hn⟩ := h.live r List.mem_cons_self
      exact ⟨c, haddr ▸ hc, hneeds c hc hn⟩
    · exact h.live x (List.mem_cons_of_mem _ hx)
  held x hx := by
    rcases List.mem_cons.mp hx with rfl | hx
    · exact hheld
    · exact h.held x (List.mem_cons_of_mem _ hx)
  used_once a := by
    refine Nat.le_trans ?_ (h.used_once a)
    rw [List.countP_cons, List.countP_cons]
    refine Nat.add_le_add_left ?_ _
    simp only [Ref.usesAt, Bool.and_eq_true, beq_iff_eq, haddr]
    split_ifs with h₁ h₂
    · exact Nat.le_refl _
    · exact absurd ⟨hu h₁.1, h₁.2⟩ h₂
    · exact Nat.zero_le _
    · exact Nat.le_refl _
  owned_once a := by
    refine Nat.le_trans ?_ (h.owned_once a)
    rw [List.countP_cons, List.countP_cons]
    refine Nat.add_le_add_left ?_ _
    simp only [Ref.ownsAt, Bool.and_eq_true, beq_iff_eq, haddr]
    split_ifs with h₁ h₂
    · exact Nat.le_refl _
    · exact absurd ⟨ho h₁.1, h₁.2⟩ h₂
    · exact Nat.zero_le _
    · exact Nat.le_refl _

/-- **Splitting a reference** into one that uses the object and one that may delete it. -/
theorem split (h : Sound heap (r :: refs)) (hu : r.uses = true) (ho : r.owns = true)
    (h₁ : r₁.addr = r.addr ∧ r₁.uses = true ∧ r₁.owns = false)
    (h₂ : r₂.addr = r.addr ∧ r₂.uses = false ∧ r₂.owns = true)
    (hneeds : ∀ c, heap r.addr = some c → r.needs c → r₁.needs c ∧ r₂.needs c) :
    Sound heap (r₁ :: r₂ :: refs) where
  live x hx := by
    obtain ⟨c, hc, hn⟩ := h.live r List.mem_cons_self
    rcases List.mem_cons.mp hx with rfl | hx
    · exact ⟨c, h₁.1 ▸ hc, (hneeds c hc hn).1⟩
    rcases List.mem_cons.mp hx with rfl | hx
    · exact ⟨c, h₂.1 ▸ hc, (hneeds c hc hn).2⟩
    · exact h.live x (List.mem_cons_of_mem _ hx)
  held x hx := by
    rcases List.mem_cons.mp hx with rfl | hx
    · exact Or.inl h₁.2.1
    rcases List.mem_cons.mp hx with rfl | hx
    · exact Or.inr h₂.2.2
    · exact h.held x (List.mem_cons_of_mem _ hx)
  used_once a := by
    have honce := h.used_once a
    simp only [List.countP_cons, Ref.usesAt, hu, h₁.1, h₁.2.1, h₂.2.1, Bool.true_and,
      Bool.false_and] at honce ⊢
    simpa using honce
  owned_once a := by
    have honce := h.owned_once a
    simp only [List.countP_cons, Ref.ownsAt, ho, h₁.2.2, h₂.1, h₂.2.2, Bool.true_and,
      Bool.false_and] at honce ⊢
    simpa using honce

end Sound

/-- A sound ledger in which every object has a reference. -/
structure Exact (heap : α → Option κ) (refs : List (Ref α κ)) : Prop extends Sound heap refs where
  found : ∀ a, heap a ≠ none → ∃ r ∈ refs, r.addr = a

namespace Exact

variable {heap : α → Option κ} {refs refs' : List (Ref α κ)} {r r' : Ref α κ} {c c' : κ} {a : α}

theorem nil : Exact (fun _ => none) ([] : List (Ref α κ)) :=
  ⟨Sound.nil, fun _ h => absurd rfl h⟩

theorem perm (h : Exact heap refs) (hp : refs.Perm refs') : Exact heap refs' where
  toSound := h.toSound.perm hp
  found a ha := by
    obtain ⟨r, hr, haddr⟩ := h.found a ha
    exact ⟨r, hp.mem_iff.mp hr, haddr⟩

/-- **A new object** gets its reference. -/
theorem alloc (h : Exact heap refs) (hfree : heap r.addr = none) (hneeds : r.needs c)
    (hheld : r.uses = true ∨ r.owns = true) :
    Exact (Function.update heap r.addr (some c)) (r :: refs) where
  toSound := h.toSound.alloc hfree hneeds hheld
  found a ha := by
    by_cases heq : a = r.addr
    · exact ⟨r, List.mem_cons_self, heq.symm⟩
    · rw [Function.update_of_ne heq] at ha
      obtain ⟨r', hr', haddr⟩ := h.found a ha
      exact ⟨r', List.mem_cons_of_mem _ hr', haddr⟩

theorem write (h : Exact heap (r :: refs)) (hu : r.uses = true) (ho : r.owns = true)
    (hneeds : r.needs c') : Exact (Function.update heap r.addr (some c')) (r :: refs) where
  toSound := h.toSound.write hu ho hneeds
  found a ha := by
    by_cases heq : a = r.addr
    · exact ⟨r, List.mem_cons_self, heq.symm⟩
    · rw [Function.update_of_ne heq] at ha
      exact h.found a ha

/-- **A reference is given up** with its object. -/
theorem free (h : Exact heap (r :: refs)) (hu : r.uses = true) (ho : r.owns = true) :
    Exact (Function.update heap r.addr none) refs where
  toSound := h.toSound.free ho fun _ hr' _ => h.toSound.addr_ne hu ho hr'
  found a ha := by
    have hne : a ≠ r.addr := by
      rintro rfl
      exact ha (Function.update_self _ _ _)
    rw [Function.update_of_ne hne] at ha
    obtain ⟨r', hr', rfl⟩ := h.found a ha
    rcases List.mem_cons.mp hr' with rfl | hr'
    · exact absurd rfl hne
    · exact ⟨r', hr', rfl⟩

theorem replace (h : Exact heap (r :: refs)) (haddr : r'.addr = r.addr)
    (hu : r'.uses = true → r.uses = true) (ho : r'.owns = true → r.owns = true)
    (hheld : r'.uses = true ∨ r'.owns = true)
    (hneeds : ∀ c, heap r.addr = some c → r.needs c → r'.needs c) : Exact heap (r' :: refs) where
  toSound := h.toSound.replace haddr hu ho hheld hneeds
  found a ha := by
    obtain ⟨x, hx, rfl⟩ := h.found a ha
    rcases List.mem_cons.mp hx with rfl | hx
    · exact ⟨r', List.mem_cons_self, haddr⟩
    · exact ⟨x, List.mem_cons_of_mem _ hx, rfl⟩

end Exact

end AMSServer.Ledger
