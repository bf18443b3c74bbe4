import AMSServer.HttpData.Answer

/-!
# `HttpData` with its log

The methods of `HttpData` with every line that they hand to `AMS_DBUG` recorded (`Event.logged`).
The object that a method leaves does not depend on the log, and the lines are there to be looked at
(`Logged`). A map that respects the output takes a method to itself (`map_parseRecvBufWith`,
`map_handleHttpDataWith`), so with `amsDbugLog` for the log these are the methods of the code
(`run_parseRecvBufLogged`, `run_handleHttpDataLogged`).
-/

namespace AMSServer

open CRuntime Fields Logged

/-- A computation of the server, with the lines it logs. -/
abbrev Dbug : Type → Type := Logged Text Fault

/-- `AMS_DBUG`, given the formatted line -/
def amsDbug (line : Text) : Dbug Unit := Logged.log line

@[simp] theorem run_amsDbug (write : Text → Except Fault Unit) (line : Text) :
    (amsDbug line).run write = write line := Logged.run_log line

namespace HttpData

/-- An event with the lines recorded. -/
def Event.log : Event → Dbug Unit
  | dbug line => amsDbug line
  | item _ _ => return ()

/-- The output where the lines are recorded. -/
def Event.logged : Effects Event Fault Dbug := .recording Event.log

/-- `ParseRecvBuf` with its lines -/
def parseRecvBufLogged (h : HttpData) : Dbug HttpData := h.parseRecvBufWith Event.logged

/-- `BuildPayLoad` with its lines -/
def buildPayLoadLogged (h : HttpData) : Dbug (Bool × HttpData) :=
  buildPayLoadWith Event.logged (builders Event.logged) h

/-- `HandleHttpData` with its lines -/
def handleHttpDataLogged (h : HttpData) : Dbug (Bool × HttpData) :=
  h.handleHttpDataWith Event.logged

/-! ## The methods under a map -/

section

variable {m n : Type → Type} [Monad m] [Monad n] {E : Effects Event Fault m}
  {F : Effects Event Fault n} (φ : Effects.Hom E F)

theorem map_parseItemWith (h : HttpData) (itemvalue : CBuf recvBufferLength) (location : Text) :
    φ.map (h.parseItemWith E itemvalue location) = h.parseItemWith F itemvalue location := by
  unfold parseItemWith
  cases strstr h.recvdatabuf.text location with
  | none => exact φ.map_pure _
  | some bufpointer =>
    exact φ.lift_bind _ fun itemvalue => φ.emit_bind _ (φ.map_pure _)

theorem map_readMemberWith (h : HttpData) (len : ℕ) (location : String) (refused : ℕ → Prop)
    [DecidablePred refused] (refusal : String) :
    φ.map (h.readMemberWith E len location refused refusal) =
      h.readMemberWith F len location refused refusal := by
  rw [readMemberWith, readMemberWith]
  refine φ.bind_eq (map_parseItemWith φ h _ _) fun tmp => φ.emit_bind _ ?_
  split
  · exact φ.emit_bind _ (φ.map_pure _)
  · exact φ.lift_bind _ fun member => φ.emit_bind _ (φ.map_pure _)

/-- One item, and what follows it. -/
theorem map_readMember_bind {h : HttpData} {len : ℕ} {location : String} {refused : ℕ → Prop}
    [DecidablePred refused] {refusal : String} {f : Option (CBuf (len + 1)) → m HttpData}
    {g : Option (CBuf (len + 1)) → n HttpData} (hnone : φ.map (f none) = g none)
    (hsome : ∀ member, φ.map (f (some member)) = g (some member)) :
    φ.map (h.readMemberWith E len location refused refusal >>= f) =
      h.readMemberWith F len location refused refusal >>= g := by
  refine φ.bind_eq (map_readMemberWith φ h len location refused refusal) fun o => ?_
  cases o with
  | none => exact hnone
  | some member => exact hsome member

theorem map_parseQueryAuthWith (h : HttpData) :
    φ.map (h.parseQueryAuthWith E) = h.parseQueryAuthWith F := by
  rw [parseQueryAuthWith, parseQueryAuthWith]
  apply map_readMember_bind φ (φ.map_pure _)
  intro projectid
  dsimp only
  split
  · exact φ.emit_bind _ (φ.map_pure _)
  apply map_readMember_bind φ (φ.map_pure _)
  intro vendorid
  dsimp only
  split
  · exact φ.emit_bind _ (φ.map_pure _)
  apply map_readMember_bind φ (φ.map_pure _)
  intro stbid
  apply map_readMember_bind φ (φ.map_pure _)
  intro chipid
  apply map_readMember_bind φ (φ.map_pure _)
  intro macaddr
  dsimp only
  split
  · exact φ.emit_bind _ (φ.map_pure _)
  · exact φ.map_pure _

theorem map_parseQueryWith (h : HttpData) : φ.map (h.parseQueryWith E) = h.parseQueryWith F := by
  rw [parseQueryWith, parseQueryWith]
  refine φ.lift_bind _ fun querytype => φ.emit_bind _ ?_
  split
  · exact φ.emit_bind _ (φ.map_pure _)
  split
  · exact φ.emit_bind _ (map_parseQueryAuthWith φ h)
  split
  · exact φ.emit_bind _ (φ.map_pure _)
  · exact φ.emit_bind _ (φ.map_pure _)

/-- **The parser, by what becomes of its output.** -/
theorem map_parseRecvBufWith (h : HttpData) :
    φ.map (h.parseRecvBufWith E) = h.parseRecvBufWith F := by
  rw [parseRecvBufWith, parseRecvBufWith]
  split
  · exact φ.emit_bind _ (map_parseQueryWith φ h)
  split
  · exact φ.emit_bind _ (φ.map_pure _)
  · exact φ.emit_bind _ (φ.map_pure _)

theorem map_buildErrorPayLoadWith (h : HttpData) :
    φ.map (h.buildErrorPayLoadWith E) = h.buildErrorPayLoadWith F := by
  rw [buildErrorPayLoadWith, buildErrorPayLoadWith]
  split
  · exact φ.emit_bind _ (φ.map_pure _)
  refine φ.lift_bind _ fun h => ?_
  split
  · exact φ.lift_bind _ fun h => φ.map_pure _
  · exact φ.map_lift _
  · exact φ.map_lift _

theorem map_appendBuilder (t : String) (h : HttpData) :
    φ.map (appendBuilder E t h) = appendBuilder F t h :=
  φ.lift_bind _ fun _ => φ.map_pure _

theorem map_orFailed {build : m (Bool × HttpData)} {build' : n (Bool × HttpData)}
    (hbuild : φ.map build = build') (failure : String) :
    φ.map (orFailed E build failure) = orFailed F build' failure := by
  refine φ.bind_eq hbuild fun r => ?_
  obtain ⟨ok, h⟩ := r
  dsimp only
  split
  · exact φ.emit_bind _ (φ.map_pure _)
  · exact φ.map_pure _

theorem map_buildSent {build : m (Bool × HttpData)} {build' : n (Bool × HttpData)} (sent : String)
    (hbuild : φ.map build = build') (failure : String) :
    φ.map (buildSent E sent build failure) = buildSent F sent build' failure :=
  φ.emit_bind _ (map_orFailed φ hbuild failure)

/-- A builder that is called if an identifier was sent, and what follows it. -/
theorem map_ite_buildSent {build : m (Bool × HttpData)} {build' : n (Bool × HttpData)}
    {sent failure : String} {k : ℕ} {h : HttpData} {f : Bool × HttpData → m (Bool × HttpData)}
    {g : Bool × HttpData → n (Bool × HttpData)} (hbuild : φ.map build = build')
    (hnext : ∀ r, φ.map (f r) = g r) :
    φ.map (if k ≠ 0 then buildSent E sent build failure >>= f else pure (true, h) >>= f) =
      if k ≠ 0 then buildSent F sent build' failure >>= g else pure (true, h) >>= g := by
  split
  · exact φ.bind_eq (map_buildSent φ sent hbuild failure) hnext
  · exact φ.bind_eq (φ.map_pure _) hnext

/-- The builders of a derived class, by what becomes of their output. -/
structure Builders.Maps (b : Builders m) (c : Builders n) : Prop where
  activateSum : ∀ h, φ.map (b.buildQueryActivateSumPayLoad h) = c.buildQueryActivateSumPayLoad h
  activateStbid : ∀ h,
    φ.map (b.buildQueryActivatePayLoadByStbId h) = c.buildQueryActivatePayLoadByStbId h
  activateChipid : ∀ h,
    φ.map (b.buildQueryActivatePayLoadByChipId h) = c.buildQueryActivatePayLoadByChipId h
  activateMac : ∀ h, φ.map (b.buildQueryActivatePayLoadByMac h) = c.buildQueryActivatePayLoadByMac h
  authSum : ∀ h, φ.map (b.buildQueryAuthSumPayLoad h) = c.buildQueryAuthSumPayLoad h
  authStbid : ∀ h, φ.map (b.buildQueryAuthPayLoadByStbId h) = c.buildQueryAuthPayLoadByStbId h
  authChipid : ∀ h, φ.map (b.buildQueryAuthPayLoadByChipId h) = c.buildQueryAuthPayLoadByChipId h
  authMac : ∀ h, φ.map (b.buildQueryAuthPayLoadByMac h) = c.buildQueryAuthPayLoadByMac h

theorem maps_builders : Builders.Maps φ (builders E) (builders F) where
  activateSum := map_appendBuilder φ _
  activateStbid := map_appendBuilder φ _
  activateChipid := map_appendBuilder φ _
  activateMac := map_appendBuilder φ _
  authSum := map_appendBuilder φ _
  authStbid := map_appendBuilder φ _
  authChipid := map_appendBuilder φ _
  authMac := map_appendBuilder φ _

variable {φ} {b : Builders m} {c : Builders n} (hb : b.Maps φ c)

include hb

theorem Builders.Maps.buildQueryAuthStatePayLoad (h : HttpData) :
    φ.map (buildQueryAuthStatePayLoadWith E b h) = buildQueryAuthStatePayLoadWith F c h := by
  rw [buildQueryAuthStatePayLoadWith, buildQueryAuthStatePayLoadWith]
  split
  · exact map_buildSent φ _ (hb.authStbid h) _
  split
  · exact map_buildSent φ _ (hb.authChipid h) _
  split
  · exact map_buildSent φ _ (hb.authMac h) _
  · exact φ.emit_bind _ (φ.map_pure _)

theorem Builders.Maps.buildQueryActivateStatePayLoad (h : HttpData) :
    φ.map (buildQueryActivateStatePayLoadWith E b h) =
      buildQueryActivateStatePayLoadWith F c h := by
  rw [buildQueryActivateStatePayLoadWith, buildQueryActivateStatePayLoadWith]
  apply map_ite_buildSent φ (hb.activateStbid h)
  rintro ⟨ok, h⟩
  dsimp only
  split
  · exact φ.map_pure _
  apply map_ite_buildSent φ (hb.activateChipid h)
  rintro ⟨ok, h⟩
  dsimp only
  split
  · exact φ.map_pure _
  apply map_ite_buildSent φ (hb.activateMac h)
  rintro ⟨ok, h⟩
  dsimp only
  split
  · exact φ.map_pure _
  · exact φ.emit_bind _ (φ.map_pure _)

/-- **`BuildPayLoad`, by what becomes of its output.** -/
theorem Builders.Maps.buildPayLoad (h : HttpData) :
    φ.map (buildPayLoadWith E b h) = buildPayLoadWith F c h := by
  unfold buildPayLoadWith
  cases h.sendflag with
  | kErrorFlag => exact map_orFailed φ (map_buildErrorPayLoadWith φ h) _
  | kQueryAuthState => exact map_orFailed φ (hb.buildQueryAuthStatePayLoad h) _
  | kQueryAuthSum => exact map_orFailed φ (hb.authSum h) _
  | kQueryActivateState => exact map_orFailed φ (hb.buildQueryActivateStatePayLoad h) _
  | kQueryActivateSum => exact map_orFailed φ (hb.activateSum h) _
  | kActivateSucceed => exact φ.map_pure _
  | kActivateFailed => exact φ.map_pure _
  | kNullFlag => exact φ.emit_bind _ (φ.map_pure _)

omit hb

/-- **The class, by what becomes of its output.** -/
theorem map_handleHttpDataWith (φ : Effects.Hom E F) (h : HttpData) :
    φ.map (h.handleHttpDataWith E) = h.handleHttpDataWith F := by
  rw [handleHttpDataWith, handleHttpDataWith]
  refine φ.bind_eq (map_parseRecvBufWith φ h) fun h => ?_
  exact map_orFailed φ ((maps_builders φ).buildPayLoad h) _

end

/-! ## With the log of the code -/

/-- The lines are written by the code. -/
def Event.written : Effects.Hom Event.logged Event.code :=
  Effects.write Event.log amsDbugLog fun e => by
    cases e with
    | dbug line => exact run_amsDbug amsDbugLog line
    | item location value => rfl

/-- Nothing is put out. -/
def Event.silent : Effects Event Fault (Except Fault) := .writing fun _ => .ok ()

theorem accepts_silent : Accepts fun _ => .ok () := ⟨fun _ => rfl, fun _ _ => rfl⟩

/-- The lines are forgotten. -/
def Event.forgotten : Effects.Hom Event.logged Event.silent :=
  Effects.forget Event.log fun e => by cases e <;> rfl

theorem run_parseRecvBufLogged (h : HttpData) :
    h.parseRecvBufLogged.run amsDbugLog = h.parseRecvBuf :=
  map_parseRecvBufWith Event.written h

theorem run_handleHttpDataLogged (h : HttpData) :
    h.handleHttpDataLogged.run amsDbugLog = h.handleHttpData :=
  map_handleHttpDataWith Event.written h

end HttpData

end AMSServer
