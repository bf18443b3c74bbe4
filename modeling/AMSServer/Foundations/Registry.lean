import Mathlib.Data.List.Basic

/-!
# Classes that register an object

A class keeps a static pointer to one of its objects. The constructor sets the pointer when it is
null, and the destructor clears it when it is the pointer to its own object. While there is one
object at a time the pointer is to that object (`construct_empty`, `destruct_alone`).
-/

namespace AMSServer

/-- The static pointer of a class, and its objects. -/
structure Registry (α : Type*) where
  pointer : Option α
  objects : List α

namespace Registry

variable {α : Type*}

/-- Before the first object. -/
def empty : Registry α := ⟨none, []⟩

/-- One object, which the pointer is to. -/
def alone (a : α) : Registry α := ⟨some a, [a]⟩

section Objects

variable [DecidableEq α]

/-- The constructor, at an address that is free. -/
def construct (c : Registry α) (a : α) : Option (Registry α) :=
  if a ∈ c.objects then none
  else some ⟨if c.pointer = none then some a else c.pointer, a :: c.objects⟩

/-- The destructor. -/
def destruct (c : Registry α) (a : α) : Option (Registry α) :=
  if a ∈ c.objects then
    some ⟨if c.pointer = some a then none else c.pointer, c.objects.erase a⟩
  else none

@[simp] theorem construct_empty (a : α) : empty.construct a = some (alone a) := by
  simp [construct, empty, alone]

@[simp] theorem destruct_alone (a : α) : (alone a).destruct a = some empty := by
  simp [destruct, alone, empty]

end Objects

end Registry

end AMSServer
