import AMSServer.IOCPServer.Ownership

/-!
# The sockets of the connections

`PostAcceptEx` creates a socket for every accept, and `DoAcceptEx` moves it to the handle of a
connection. Somebody should answer for each of these sockets until it is closed
(`State.Conserved`): an accept, or the one connection that has it, with an operation that is
pending, queued or being handled.

Only a failed `AcceptEx` closes its socket. So the sockets are conserved as long as no accept fails
later than that, no connection loses its last operation, and `Stop` returns when nothing is
outstanding (`KeepsSockets`). The steps that break this are ordinary ones: a client that leaves, a
message without `GET`, and every `Stop` of a server that listens.
-/

namespace AMSServer.IOCPServer

open HttpServer Transition

/-! ## Who answers for a socket -/

/-- The `acceptsocket` at an address. -/
def Shared.acceptsocket (sh : Shared) (addr : Addr) : Option Socket :=
  (sh.heap addr).bind Cell.acceptsocket

/-- The io of an accept. -/
def Op.accepts (op : Op) : List Addr := if op.kind = .acceptPosted then [op.addr] else []

/-- The io whose socket a thread accepts on. -/
def Pc.holds : Pc → List Addr
  | got op _ => op.accepts
  | doAcceptEx lio => [lio]
  | acceptAssoc lio _ => [lio]
  | acceptDerive lio _ => [lio]
  | acceptNewIOData lio _ => [lio]
  | acceptRecv lio _ _ => [lio]
  | callAcceptEx lio => [lio]
  | _ => []

/-- The io of an accept that a thread handles or posts. -/
def Pc.accepts : Pc → List Addr
  | acceptRemove lio => [lio]
  | postAcceptEx lio => [lio]
  | pc => pc.holds

/-- The io of the accepts that are pending or queued, next to those of the threads. -/
def acceptIos (f : Pc → List Addr) (sh : Shared) (pcs : List Pc) : List Addr :=
  pcs.flatMap f ++ sh.ops.flatMap Op.accepts

/-- The io of the accepts that are pending, queued or being handled. -/
def accepts (sh : Shared) (pcs : List Pc) : List Addr := acceptIos Pc.accepts sh pcs

/-- The handle whose operation a thread handles. -/
def Pc.handle? : Pc → Option Handle
  | got op _ => some op.key
  | doRecv h _ => some h
  | rePost h _ => some h
  | postSend h _ _ => some h
  | removeSent h _ => some h
  | newRecv h => some h
  | postRecv h _ => some h
  | _ => none

/-- The thread handles an operation of the connection. -/
def Pc.serves (i : ℕ) (pc : Pc) : Bool := pc.handle? = some (.connect i)

/-- The operations of a connection that are pending, queued or being handled. -/
def uses (sh : Shared) (pcs : List Pc) (i : ℕ) : ℕ :=
  sh.opCount (fun _ key => key = .connect i) + pcs.countP (Pc.serves i)

/-- The socket is that of one connection only, which has an operation. -/
def Connected (sh : Shared) (pcs : List Pc) (k : Socket) : Prop :=
  ∃ i < sh.handles.length, sh.handles[i]? = some (some k) ∧ 0 < uses sh pcs i ∧
    ∀ j < sh.handles.length, sh.handles[j]? = some (some k) → j = i

/-- **Every socket of an accept is answered for**: it is closed, or that of an accept, or that of
one connection with an operation; and all are closed when `Stop` has returned. -/
structure State.Conserved (s : State) : Prop where
  held : ∀ k < s.shared.sockets, 0 < k → k ∈ s.shared.closed ∨
    some k ∈ (accepts s.shared s.pcs).map s.shared.acceptsocket ∨ Connected s.shared s.pcs k
  stopped : s.main = .stopped → ∀ k < s.shared.sockets, 0 < k → k ∈ s.shared.closed

instance (sh : Shared) (pcs : List Pc) (k : Socket) : Decidable (Connected sh pcs k) :=
  inferInstanceAs (Decidable (∃ i < sh.handles.length, sh.handles[i]? = some (some k) ∧
    0 < uses sh pcs i ∧ ∀ j < sh.handles.length, sh.handles[j]? = some (some k) → j = i))

/-! ## The condition on the steps -/

/-- The handle whose operation ends with a step of a thread, when nothing follows it. -/
def Pc.drops (sh : Shared) (r : Reply) : Pc → Option Handle
  | wait =>
    match sh.queue with
    | .io op false _ :: _ => some op.key
    | _ => none
  | got op n => if dispatch op n (sh.readType op.addr r.garbage) = wait then some op.key else none
  | acceptAssoc _ _ => if r.ok then none else some .listen
  | acceptDerive _ _ => if r.ok then none else some .listen
  | acceptRecv _ _ _ => if r.ok then none else some .listen
  | doRecv h _ => if verdict r.peer r.message = .ok .noGet then some h else none
  | postRecv h _ => if r.ok then none else some h
  | _ => none

/-- The handle is that of a connection with more than one operation. -/
def spare (sh : Shared) (pcs : List Pc) : Handle → Bool
  | .listen => false
  | .connect i => 1 < uses sh pcs i

/-- An operation that ends is one of a connection, and not its last one. -/
def DropsSpare (s : State) (a : Action) : Prop :=
  ∀ x ∈ s.acting a, ∀ h ∈ x.1.drops s.shared x.2, spare s.shared s.pcs h = true

/-- `PostSend` deletes no io of an accept. -/
def RemovesNoAccept (s : State) (a : Action) : Prop :=
  ∀ x ∈ s.acting a, ∀ io ∈ x.1.removes, io ∉ accepts s.shared s.pcs

/-- `Stop` returns when no operation is pending or queued. -/
def StopsIdle (s : State) : Action → Prop
  | .main _ => s.main = .waiting → s.shared.ops = []
  | .worker _ _ | .kernel _ _ _ | .stop => True

/-- **A step that keeps the sockets.** -/
structure KeepsSockets (s : State) (a : Action) : Prop where
  reads : ReadsKind .acceptPosted s a
  removes : RemovesNoAccept s a
  drops : DropsSpare s a
  stops : StopsIdle s a

instance (s : State) (a : Action) : Decidable (RemovesNoAccept s a) :=
  inferInstanceAs (Decidable (∀ x ∈ s.acting a, ∀ io ∈ x.1.removes, io ∉ accepts s.shared s.pcs))

instance (s : State) (a : Action) : Decidable (DropsSpare s a) :=
  inferInstanceAs (Decidable (∀ x ∈ s.acting a, ∀ h ∈ x.1.drops s.shared x.2,
    spare s.shared s.pcs h = true))

instance (s : State) : DecidablePred (StopsIdle s)
  | .main _ => inferInstanceAs (Decidable (s.main = .waiting → s.shared.ops = []))
  | .worker _ _ | .kernel _ _ _ | .stop => inferInstanceAs (Decidable True)

instance (s : State) (a : Action) : Decidable (KeepsSockets s a) :=
  decidable_of_iff (ReadsKind .acceptPosted s a ∧ RemovesNoAccept s a ∧ DropsSpare s a ∧
      StopsIdle s a)
    ⟨fun h => ⟨h.1, h.2.1, h.2.2.1, h.2.2.2⟩, fun h => ⟨h.1, h.2, h.3, h.4⟩⟩

/-! ## The sockets in the io -/

section

variable {sh sh' : Shared} {addr : Addr} {kind : OperationType} {key : Handle} {ok : Bool}

/-- A call that leaves the sockets where they are. -/
structure Shared.SameSockets (sh sh' : Shared) : Prop where
  acceptsocket : sh'.acceptsocket = sh.acceptsocket
  live : ∀ a, sh.heap a ≠ none → sh'.heap a ≠ none
  handles : sh'.handles = sh.handles
  sockets : sh'.sockets = sh.sockets
  closed : sh'.closed = sh.closed

theorem acceptsocket_setCell (sh : Shared) (addr : Addr) (c : Cell) :
    (sh.setCell addr c).acceptsocket = Function.update sh.acceptsocket addr c.acceptsocket := by
  funext a
  by_cases ha : a = addr
  · subst ha
    simp [Shared.acceptsocket, Shared.setCell]
  · simp [Shared.acceptsocket, Shared.setCell, ha]

theorem live_setCell (sh : Shared) (addr : Addr) (c : Cell) {a : Addr} (h : sh.heap a ≠ none) :
    (sh.setCell addr c).heap a ≠ none := by
  by_cases ha : a = addr
  · subst ha
    simp [Shared.setCell]
  · simpa [Shared.setCell, ha] using h

/-- A write that keeps the socket of an io. -/
theorem sameSockets_setCell {c : Cell} (h : sh.acceptsocket addr = c.acceptsocket) :
    sh.SameSockets (sh.setCell addr c) where
  acceptsocket := by rw [acceptsocket_setCell, ← h, Function.update_eq_self]
  live _ := live_setCell sh addr c
  handles := rfl
  sockets := rfl
  closed := rfl

/-- A new io has no socket. -/
theorem sameSockets_getNewIOData (h : sh.getNewIOData addr key = some sh') :
    sh.SameSockets sh' := by
  rw [Shared.getNewIOData] at h
  split at h
  · cases h
  next hfree =>
    cases h
    have hnone : sh.acceptsocket addr = none := by rw [Shared.acceptsocket, hfree]; rfl
    obtain ⟨haccept, hlive, hhandles, hsockets, hclosed⟩ :=
      sameSockets_setCell (c := ⟨.nullPosted, none, sh.allocated, key⟩) hnone
    exact ⟨haccept, hlive, hhandles, hsockets, hclosed⟩

theorem live_getNewIOData (h : sh.getNewIOData addr key = some sh') :
    sh.heap addr = none ∧ sh'.heap addr ≠ none := by
  rw [Shared.getNewIOData] at h
  split at h
  · cases h
  next hfree =>
    cases h
    exact ⟨hfree, by simp [Shared.setCell]⟩

theorem sameSockets_post (h : sh.post addr kind key ok = some sh') : sh.SameSockets sh' := by
  rw [Shared.post] at h
  split at h
  · cases h
  next c hc =>
    have hsame : sh.acceptsocket addr = c.acceptsocket := by rw [Shared.acceptsocket, hc]; rfl
    obtain ⟨haccept, hlive, hhandles, hsockets, hclosed⟩ :=
      sameSockets_setCell (c := { c with operationtype := kind }) hsame
    split at h <;> cases h <;> exact ⟨haccept, hlive, hhandles, hsockets, hclosed⟩

theorem sameSockets_complete {i n : ℕ} (h : sh.complete i ok n = some sh') :
    sh.SameSockets sh' := by
  rw [Shared.complete] at h
  split at h <;> cases h
  exact ⟨rfl, fun _ => id, rfl, rfl, rfl⟩

/-- The operations after a post. -/
theorem ops_post (h : sh.post addr kind key ok = some sh') :
    ∃ gen, sh'.ops.Perm (if ok then ⟨addr, gen, kind, key⟩ :: sh.ops else sh.ops) := by
  rw [Shared.post] at h
  split at h
  · cases h
  next c hc =>
    refine ⟨c.gen, ?_⟩
    split at h
    next hok =>
      cases h
      rw [if_pos hok, Shared.ops, Shared.ops, List.append_assoc]
      exact List.perm_middle
    next hok =>
      cases h
      rw [if_neg hok]
      exact .refl _

theorem acceptsocket_removeIOData (h : sh.removeIOData addr = some sh') :
    sh'.acceptsocket = Function.update sh.acceptsocket addr none := by
  rw [Shared.removeIOData] at h
  split at h <;> cases h
  funext a
  by_cases ha : a = addr
  · subst ha
    simp [Shared.acceptsocket]
  · simp [Shared.acceptsocket, ha]

theorem live_removeIOData (h : sh.removeIOData addr = some sh') {a : Addr} (ha : a ≠ addr)
    (hlive : sh.heap a ≠ none) : sh'.heap a ≠ none := by
  rw [Shared.removeIOData] at h
  split at h <;> cases h
  simpa [ha] using hlive

theorem rest_removeIOData (h : sh.removeIOData addr = some sh') :
    sh'.handles = sh.handles ∧ sh'.sockets = sh.sockets ∧ sh'.closed = sh.closed := by
  rw [Shared.removeIOData] at h
  split at h <;> cases h
  exact ⟨rfl, rfl, rfl⟩

/-- A socket that is created is a new one. -/
theorem newAcceptSocket_true (h : sh.newAcceptSocket addr true = some sh') :
    sh'.acceptsocket = Function.update sh.acceptsocket addr (some sh.sockets) ∧
      (∀ a, sh.heap a ≠ none → sh'.heap a ≠ none) ∧ sh'.handles = sh.handles ∧
      sh'.sockets = sh.sockets + 1 ∧ sh'.closed = sh.closed := by
  rw [Shared.newAcceptSocket] at h
  split at h
  · cases h
  next c hc =>
    rw [if_pos rfl] at h
    cases h
    exact ⟨acceptsocket_setCell sh addr { c with acceptsocket := some sh.sockets },
      fun _ => live_setCell sh addr _, rfl, rfl, rfl⟩

theorem newAcceptSocket_false (h : sh.newAcceptSocket addr false = some sh') :
    sh'.acceptsocket = Function.update sh.acceptsocket addr none ∧
      (∀ a, sh.heap a ≠ none → sh'.heap a ≠ none) ∧ sh'.handles = sh.handles ∧
      sh'.sockets = sh.sockets ∧ sh'.closed = sh.closed := by
  rw [Shared.newAcceptSocket] at h
  split at h
  · cases h
  next c hc =>
    rw [if_neg Bool.false_ne_true] at h
    cases h
    exact ⟨acceptsocket_setCell sh addr { c with acceptsocket := none },
      fun _ => live_setCell sh addr _, rfl, rfl, rfl⟩

/-- The socket of an io that is closed is no longer there. -/
theorem closeAcceptSocket_eq (h : sh.closeAcceptSocket addr = some sh') :
    sh'.acceptsocket = Function.update sh.acceptsocket addr none ∧
      (∀ a, sh.heap a ≠ none → sh'.heap a ≠ none) ∧ sh'.handles = sh.handles ∧
      sh'.sockets = sh.sockets ∧ sh'.closed = (sh.acceptsocket addr).toList ++ sh.closed := by
  rw [Shared.closeAcceptSocket] at h
  split at h
  · cases h
  next c hc =>
    cases h
    refine ⟨acceptsocket_setCell sh addr { c with acceptsocket := none },
      fun _ => live_setCell sh addr _, rfl, rfl, ?_⟩
    rw [Shared.acceptsocket, hc]
    rfl

end

/-- The part of one thread in the uses of a connection. -/
def Pc.used (i : ℕ) (pc : Pc) : ℕ := if pc.serves i then 1 else 0

theorem uses_cons (sh : Shared) (pc : Pc) (rest : List Pc) (i : ℕ) : uses sh (pc :: rest) i =
    sh.opCount (fun _ key => key = .connect i) + rest.countP (Pc.serves i) + pc.used i := by
  rw [uses, List.countP_cons, Pc.used, Nat.add_assoc]

end AMSServer.IOCPServer
