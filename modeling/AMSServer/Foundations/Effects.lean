import AMSServer.Foundations.Logged

/-!
# Programs with effects

A program that may fail and reports what it does on its way is written once, for any monad that has
these effects (`Effects`). What becomes of a report is up to the instance: it is written by a
function that may fail (`Effects.writing`), or recorded (`Effects.recording`), or only some of the
reports are.

A map between two instances that respects the effects (`Effects.Hom`) takes a program at the one to
the same program at the other. For each program that is a lemma which follows its steps, with
`Hom.bind_eq` for each of them. From what is recorded there are two such maps: to write it
(`Effects.write`), and to forget it (`Effects.forget`). What is only written is embedded in what
records something else (`Effects.embed`).
-/

namespace AMSServer

/-- The effects of a program: to do what may fail, and to report an event. -/
structure Effects (ω ε : Type) (m : Type → Type) where
  lift : {α : Type} → Except ε α → m α
  emit : ω → m Unit

namespace Effects

section

variable {ω ω' ρ ε α : Type} {m : Type → Type}

/-- Events are written by a function that may fail. -/
def writing (write : ω → Except ε Unit) : Effects ω ε (Except ε) := ⟨fun y => y, write⟩

/-- Events are recorded. -/
def recording (record : ω → Logged ρ ε Unit) : Effects ω ε (Logged ρ ε) :=
  ⟨fun y => liftM y, record⟩

/-- The effects of a part of a program, whose events are events of the whole. -/
def comap (E : Effects ω ε m) (f : ω' → ω) : Effects ω' ε m := ⟨E.lift, fun e => E.emit (f e)⟩

@[simp] theorem writing_lift (write : ω → Except ε Unit) (y : Except ε α) :
    (writing write).lift y = y := rfl

@[simp] theorem writing_emit (write : ω → Except ε Unit) (e : ω) :
    (writing write).emit e = write e := rfl

end

/-! ## Maps between effects -/

variable {ω ω' ρ ε α β : Type} {m n : Type → Type} [Monad m] [Monad n]

/-- A map of computations that respects their effects. -/
structure Hom (E : Effects ω ε m) (F : Effects ω ε n) where
  map : {α : Type} → m α → n α
  map_pure : ∀ {α : Type} (a : α), map (pure a) = pure a
  map_bind : ∀ {α β : Type} (x : m α) (f : α → m β), map (x >>= f) = map x >>= fun a => map (f a)
  map_lift : ∀ {α : Type} (y : Except ε α), map (E.lift y) = F.lift y
  map_emit : ∀ e : ω, map (E.emit e) = F.emit e

namespace Hom

variable {E : Effects ω ε m} {F : Effects ω ε n} (φ : Hom E F)

/-- **A program is mapped step by step.** -/
theorem bind_eq {x : m α} {f : α → m β} {y : n α} {g : α → n β} (hx : φ.map x = y)
    (hf : ∀ a, φ.map (f a) = g a) : φ.map (x >>= f) = y >>= g := by
  rw [φ.map_bind, hx]
  exact congrArg (y >>= ·) (funext hf)

theorem lift_bind (y : Except ε α) {f : α → m β} {g : α → n β} (hf : ∀ a, φ.map (f a) = g a) :
    φ.map (E.lift y >>= f) = F.lift y >>= g :=
  φ.bind_eq (φ.map_lift y) hf

theorem emit_bind (e : ω) {f : Unit → m β} {g : Unit → n β} (hf : φ.map (f ()) = g ()) :
    φ.map (E.emit e >>= f) = F.emit e >>= g :=
  φ.bind_eq (φ.map_emit e) fun _ => hf

/-- The map for a part of a program. -/
def comap (f : ω' → ω) : Hom (E.comap f) (F.comap f) where
  map := φ.map
  map_pure := φ.map_pure
  map_bind := φ.map_bind
  map_lift := φ.map_lift
  map_emit e := φ.map_emit (f e)

end Hom

/-- Write what is recorded. -/
def write (record : ω → Logged ρ ε Unit) (write : ρ → Except ε Unit) {emit : ω → Except ε Unit}
    (h : ∀ e, (record e).run write = emit e) : Hom (recording record) (writing emit) where
  map x := x.run write
  map_pure := Logged.run_pure
  map_bind := Logged.run_bind
  map_lift := Logged.run_lift
  map_emit := h

/-- Forget what is recorded. -/
def forget (record : ω → Logged ρ ε Unit) {emit : ω → Except ε Unit}
    (h : ∀ e, (record e).result = emit e) : Hom (recording record) (writing emit) where
  map x := x.result
  map_pure := Logged.result_pure
  map_bind := Logged.result_bind
  map_lift := Logged.result_lift
  map_emit := h

/-- What is written, in a computation that records something else. -/
def embed (write : ω → Except ε Unit) :
    Hom (writing write) (recording fun e => (liftM (write e) : Logged ρ ε Unit)) where
  map y := liftM y
  map_pure _ := rfl
  map_bind x _ := by
    cases x with
    | error e => rfl
    | ok a => rfl
  map_lift _ := rfl
  map_emit _ := rfl

end Effects

end AMSServer
