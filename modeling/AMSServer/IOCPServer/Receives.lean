import AMSServer.IOCPServer.Ownership

/-!
# The receives of a connection

Between two messages a connection waits with one receive. The worker that handles its message owes
it the next one. So a connection has exactly one receive or one worker that owes it, as long as no
step loses or doubles it (`keepsReceive`): a failed or empty completion, a message without `GET` and
a `WSARecv` that fails end the receives of a connection whose socket stays open, and an incomplete
message that is received on leaves two.
-/

namespace AMSServer.IOCPServer

open CRuntime HttpServer Transition

/-! ## Receives -/

/-- The operation is a receive of a connection. -/
def isRecv (h : Handle) (kind : OperationType) (key : Handle) : Bool := kind = .recvPosted ∧ key = h

/-- A thread handles a connection, and owes it a receive. -/
def Pc.handling (h : Handle) : Pc → ℕ
  | got op _ => if isRecv h op.kind op.key then 1 else 0
  | acceptAssoc _ c => if c = h then 1 else 0
  | acceptDerive _ c => if c = h then 1 else 0
  | acceptNewIOData _ c => if c = h then 1 else 0
  | acceptRecv _ c _ => if c = h then 1 else 0
  | doRecv c _ => if c = h then 1 else 0
  | rePost c _ => if c = h then 1 else 0
  | postSend c _ _ => if c = h then 1 else 0
  | removeSent c _ => if c = h then 1 else 0
  | newRecv c => if c = h then 1 else 0
  | postRecv c _ => if c = h then 1 else 0
  | _ => 0

/-- The threads that handle a connection. -/
def State.handled (s : State) (h : Handle) : ℕ := (s.pcs.map (Pc.handling h)).sum

/-- The receives of a connection that are pending or queued. -/
def State.receives (s : State) (h : Handle) : ℕ := s.shared.opCount (isRecv h)

/-- The socket of a connection was closed. -/
def State.socketClosed (s : State) (i : ℕ) : Bool :=
  s.shared.handles[i]?.join.any (· ∈ s.shared.closed)

/-- A connection that no thread handles has its socket closed or exactly one receive. -/
def State.ReceivesOnce (s : State) : Prop :=
  ∀ i < s.shared.handles.length, s.handled (.connect i) = 0 →
    s.socketClosed i = true ∨ s.receives (.connect i) = 1

instance (s : State) : Decidable s.ReceivesOnce :=
  inferInstanceAs (Decidable (∀ i < s.shared.handles.length, s.handled (.connect i) = 0 →
    s.socketClosed i = true ∨ s.receives (.connect i) = 1))

/-- A step of a thread that neither loses nor doubles a receive. -/
def keepsReceive (sh : Shared) (r : Reply) : Pc → Bool
  | .wait =>
    match sh.queue with
    | .io op false _ :: _ => op.kind ≠ .recvPosted
    | _ => true
  | .got op n => op.kind = .recvPosted → n ≠ 0
  | .acceptAssoc _ _ => r.ok
  | .acceptDerive _ _ => r.ok
  | .acceptRecv _ _ _ => r.ok
  | .doRecv _ _ => Http.blank <:+ r.message → "GET".toList <:+: r.message
  | .rePost _ _ => !r.ok
  | .postRecv _ _ => r.ok
  | _ => true

/-- The step of a thread is one of `keepsReceive`. -/
def KeepsReceive (s : State) (a : Action) : Prop :=
  ∀ x ∈ s.acting a, keepsReceive s.shared x.2 x.1 = true

instance (s : State) (a : Action) : Decidable (KeepsReceive s a) :=
  inferInstanceAs (Decidable (∀ x ∈ s.acting a, keepsReceive s.shared x.2 x.1 = true))

/-! ## One step -/

/-- The connections of a handle: one when it was made for one. -/
def Shared.connected (sh : Shared) : Handle → ℕ
  | .listen => 0
  | .connect i => if i < sh.handles.length then 1 else 0

theorem connected_eq {sh sh' : Shared} (hhandles : sh'.handles = sh.handles) (h : Handle) :
    sh'.connected h = sh.connected h := by
  cases h with
  | listen => rfl
  | connect i => rw [Shared.connected, hhandles, Shared.connected]

/-- A new handle is a new connection. -/
theorem connected_append (sh : Shared) (socket : Option Socket) (h : Handle) :
    { sh with handles := sh.handles ++ [socket] }.connected h =
      sh.connected h + if Handle.connect sh.handles.length = h then 1 else 0 := by
  cases h with
  | listen => rfl
  | connect i =>
    simp only [Shared.connected, List.length_append, List.length_singleton, Handle.connect.injEq]
    split_ifs <;> omega

theorem handling_dispatch (h : Handle) (op : Op) (n : ℕ) (operationtype : OperationType) :
    (dispatch op n operationtype).handling h =
      if operationtype = .recvPosted ∧ n ≠ 0 ∧ op.key = h then 1 else 0 := by
  rcases dispatch_cases op n operationtype with ⟨rfl, hd⟩ | ⟨rfl, hn, hd⟩ | ⟨-, hzero, hd⟩
  · rw [hd]
    rfl
  · rw [hd]
    simp [hn, Pc.handling]
  · rw [hd, if_neg fun hrecv => hrecv.2.1 (hzero hrecv.1)]
    rfl

/-- What a complete message without `GET` is not. -/
theorem ne_noGet {r : Reply} {v : Verdict}
    (hget : Http.blank <:+ r.message → "GET".toList <:+: r.message)
    (hv : verdict r.peer r.message = .ok v) : v ≠ .noGet := by
  rintro rfl
  rw [verdict, completeVerdict] at hv
  split_ifs at hv with hlen hblank hline hinfix htoken
  · cases ha : answerText (parseOutcome (scanToken r.message)) with
    | error e => rw [ha] at hv; cases hv
    | ok answer => rw [ha] at hv; cases answer <;> cases hv
  · exact hinfix (hget hblank)
  · cases hv

/-- A step of a thread keeps the receives and the threads that owe one. -/
theorem handling_thread {sh sh' : Shared} {r : Reply} {pc pc' : Pc} (h : Handle)
    (hreads : readsKind .recvPosted sh r pc = true) (hkeeps : keepsReceive sh r pc = true)
    (hmoves : threadStep sh r pc = some (sh', pc')) :
    sh'.opCount (isRecv h) + pc'.handling h + sh.connected h =
      sh.opCount (isRecv h) + pc.handling h + sh'.connected h := by
  cases threadStep_move hmoves with
  | dequeueClose queue hqueue =>
    rw [opCount_dequeue_close (isRecv h) hqueue]
    rfl
  | dequeue op ok n queue hqueue =>
    have hconnected : { sh with queue }.connected h = sh.connected h := connected_eq rfl h
    rw [opCount_dequeue (isRecv h) hqueue, hconnected]
    cases ok with
    | true => simp [Pc.handling]
    | false =>
      rw [keepsReceive, hqueue] at hkeeps
      have hkind : op.kind ≠ .recvPosted := of_decide_eq_true hkeeps
      simp [Pc.handling, isRecv, hkind]
  | got op n =>
    have hread : sh.readType op.addr r.garbage = .recvPosted ↔ op.kind = .recvPosted :=
      of_decide_eq_true hreads
    have hn : op.kind = .recvPosted → n ≠ 0 := of_decide_eq_true hkeeps
    rw [handling_dispatch]
    by_cases hkind : op.kind = .recvPosted
    · simp [hread.mpr hkind, hn hkind, Pc.handling, isRecv, hkind]
    · simp [hread.not.mpr hkind, Pc.handling, isRecv, hkind]
  | doAcceptEx lio c hc =>
    rw [connected_append]
    simp only [Pc.handling]
    change sh.opCount (isRecv h) + _ + _ = sh.opCount (isRecv h) + 0 + _
    omega
  | acceptAssoc lio c =>
    have hr : r.ok = true := hkeeps
    rw [hr]
    rfl
  | acceptDerive lio c =>
    have hr : r.ok = true := hkeeps
    rw [hr]
    rfl
  | acceptNewIOData lio c hnew =>
    rw [(inert_getNewIOData hnew).opCount, connected_eq (inert_getNewIOData hnew).handles]
    rfl
  | acceptRecv lio c cio hpost =>
    have hr : r.ok = true := hkeeps
    rw [opCount_post (isRecv h) hpost, connected_eq (handles_post hpost), hr]
    simp [isRecv, Pc.handling]
  | acceptRemove lio hremove =>
    rw [(inert_removeIOData hremove).opCount, connected_eq (inert_removeIOData hremove).handles]
    rfl
  | newListen hnew =>
    rw [(inert_getNewIOData hnew).opCount, connected_eq (inert_getNewIOData hnew).handles]
    rfl
  | postAcceptEx lio hnew =>
    rw [(inert_newAcceptSocket hnew).opCount, connected_eq (inert_newAcceptSocket hnew).handles]
    cases r.ok <;> rfl
  | callAcceptEx lio hok hpost =>
    rw [opCount_post (isRecv h) hpost, connected_eq (handles_post hpost)]
    simp [isRecv, Pc.handling]
  | failAcceptEx lio hok hpost hclose =>
    rw [(inert_closeAcceptSocket hclose).opCount, opCount_post (isRecv h) hpost,
      connected_eq ((inert_closeAcceptSocket hclose).handles.trans (handles_post hpost))]
    simp [Pc.handling]
  | doRecv c io cell v hcell hv =>
    have hne := ne_noGet (of_decide_eq_true hkeeps) hv
    cases v with
    | noGet => exact absurd rfl hne
    | _ => rfl
  | rePost c io hpost =>
    have hr : r.ok = false := by simpa [keepsReceive] using hkeeps
    rw [opCount_post (isRecv h) hpost, connected_eq (handles_post hpost), hr]
    rfl
  | postSend c io built hpost =>
    rw [opCount_post (isRecv h) hpost, connected_eq (handles_post hpost)]
    cases built && r.ok <;> simp [isRecv, Pc.handling]
  | removeSent c io hremove =>
    rw [(inert_removeIOData hremove).opCount, connected_eq (inert_removeIOData hremove).handles]
    rfl
  | newRecv c hnew =>
    rw [(inert_getNewIOData hnew).opCount, connected_eq (inert_getNewIOData hnew).handles]
    rfl
  | postRecv c io hpost =>
    have hr : r.ok = true := hkeeps
    rw [opCount_post (isRecv h) hpost, connected_eq (handles_post hpost), hr]
    simp [isRecv, Pc.handling]

/-! ## The run -/

/-- **The invariant**: a connection has one receive, or one thread that owes it one. -/
def State.OneReceive (s : State) : Prop :=
  ∀ h, s.receives h + s.handled h = s.shared.connected h

theorem oneReceive_init (threadnum : ℕ) : (init threadnum).OneReceive := by
  intro h
  cases h <;> simp [State.receives, State.handled, init, State.pcs, Main.pc, Pc.handling,
    Shared.opCount, Shared.ops, Shared.connected]

/-- **The step lemma.** -/
theorem State.OneReceive.step {s t : State} {a : Action} (hs : s.OneReceive)
    (hok : ReadsKind .recvPosted s a ∧ KeepsReceive s a) (hstep : IOCPServer.step s a = some t) :
    t.OneReceive := by
  cases step_move hstep with
  | thread r pc pc' rest acts moves before after left =>
    have hreads : readsKind .recvPosted s.shared r pc = true := hok.1 (pc, r) acts
    have hkeeps : keepsReceive s.shared r pc = true := hok.2 (pc, r) acts
    intro h
    have hthread := handling_thread h hreads hkeeps moves
    have hreceives := hs h
    have hsum := sum_pcs (Pc.handling h) before after
    rw [State.receives, State.handled] at hreceives ⊢
    omega
  | kernel i ok n acts completes pcs left =>
    have hhandles := handles_complete completes
    intro h
    rw [State.receives, State.handled, pcs, opCount_complete (isRecv h) completes,
      connected_eq hhandles]
    exact hs h
  | newListen left acts before after =>
    subst after
    intro h
    have hreceives := hs h
    simpa only [State.receives, State.handled, State.pcs, before, Main.pc, List.map_cons,
      List.sum_cons, Pc.handling] using hreceives
  | control queue closed acts shared ops closes pcs left =>
    have hhandles : t.shared.handles = s.shared.handles := by rw [shared]
    intro h
    have hcount : t.shared.opCount (isRecv h) = s.shared.opCount (isRecv h) := by
      rw [shared]
      exact opCount_control (isRecv h) ops
    rw [State.receives, State.handled, pcs, hcount, connected_eq hhandles]
    exact hs h

theorem State.OneReceive.receivesOnce {s : State} (hs : s.OneReceive) : s.ReceivesOnce := by
  intro i hlt hhandled
  have hreceives := hs (.connect i)
  rw [hhandled, Shared.connected, if_pos hlt] at hreceives
  exact Or.inr hreceives

/-- **A connection keeps one receive in every run without a failed or empty completion, a failed
call or a message that loses or doubles it.** -/
theorem receivesOnce_of_keepsReceive {threadnum : ℕ} {run : List Action} {s : State}
    (hreads : Along step (ReadsKind .recvPosted) (init threadnum) run)
    (hkeeps : Along step KeepsReceive (init threadnum) run)
    (h : exec step (init threadnum) run = some s) : s.ReceivesOnce :=
  (invariant (fun _ _ _ => State.OneReceive.step) (oneReceive_init threadnum) (hreads.and hkeeps)
    h).receivesOnce

/-- A request is answered, and another worker reads the packet of the send before its io is deleted.
-/
def servedRun : List Action :=
  connectRun ++ [.kernel 0 true 18] ++ List.replicate 4 (.worker 0 (.fine 1)) ++
    [.kernel 1 true 1500] ++ List.replicate 2 (.worker 1 (.fine 1)) ++
    List.replicate 3 (.worker 0 (.fine 1))

theorem receivesOnce_servedRun : ∃ s, exec step (init 2) servedRun = some s ∧ s.ReceivesOnce := by
  obtain ⟨s, hs⟩ : ∃ s, exec step (init 2) servedRun = some s :=
    Option.isSome_iff_exists.mp (by decide +kernel)
  have hremoves : Along step RemovesUnused (init 2) servedRun := by decide +kernel
  have hkeeps : Along step KeepsReceive (init 2) servedRun := by decide +kernel
  exact ⟨s, hs, receivesOnce_of_keepsReceive (along_readsKind .recvPosted hremoves) hkeeps hs⟩

/-- A worker handles a message up to the end of `DoRecv`. -/
def messageRun (message : Text) (steps : ℕ) : List Action :=
  connectRun ++ [.kernel 0 true message.length] ++
    List.replicate steps (.worker 0 { Reply.fine 3 with message })

theorem not_receivesOnce_post :
    ¬ ∀ threadnum run s, exec step (init threadnum) run = some s → s.ReceivesOnce := by
  intro hall
  let run := messageRun "POST / HTTP/1.1\r\n\r\n".toList 3
  obtain ⟨s, hs⟩ : ∃ s, exec step (init 1) run = some s :=
    Option.isSome_iff_exists.mp (by decide +kernel)
  have hbad : ∀ s ∈ exec step (init 1) run, ¬ s.ReceivesOnce := by decide +kernel
  exact hbad s hs (hall 1 run s hs)

-- an incomplete message leaves two receives
example : ((exec step (init 1) (messageRun "GET / HTTP".toList 6)).map fun s =>
    (s.workers, s.receives (.connect 0))) = some ([.wait], 2) := by decide +kernel

end AMSServer.IOCPServer
