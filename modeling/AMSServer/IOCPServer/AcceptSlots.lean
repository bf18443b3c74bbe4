import AMSServer.IOCPServer.Ownership

/-!
# The accept slots

`Start` posts `MAX_POST_ACCEPT` accepts, and the handler of an accept posts the next one. An accept
slot is an accept that is pending, queued or being handled. As long as the calls of `PostAcceptEx`
succeed, no step adds a slot, and the steps that lose one are the packet of a failed accept, an
association that fails and a `DeriveAcceptEx` that fails (`lostAccepts`): none of these posts an
accept again.
-/

namespace AMSServer.IOCPServer

open Transition

/-! ## Slots -/

/-- The operation is an accept. -/
def isAccept (kind : OperationType) (_key : Handle) : Bool := kind = .acceptPosted

/-- A thread handles an accept, or is about to post one. -/
def Pc.acceptSlots : Pc → ℕ
  | got op _ => if isAccept op.kind op.key then 1 else 0
  | doAcceptEx _ => 1
  | acceptAssoc _ _ => 1
  | acceptDerive _ _ => 1
  | acceptNewIOData _ _ => 1
  | acceptRecv _ _ _ => 1
  | acceptRemove _ => 1
  | newListen => 1
  | postAcceptEx _ => 1
  | callAcceptEx _ => 1
  | _ => 0

/-- The accepts that are pending, queued or being handled. -/
def State.acceptSlots (s : State) : ℕ := s.shared.opCount isAccept + (s.pcs.map Pc.acceptSlots).sum

/-- The slots a thread gives up at its next step. -/
def lostBy (sh : Shared) (r : Reply) : Pc → ℕ
  | .wait =>
    match sh.queue with
    | .io op false _ :: _ => if isAccept op.kind op.key then 1 else 0
    | _ => 0
  | .acceptAssoc _ _ => if r.ok then 0 else 1
  | .acceptDerive _ _ => if r.ok then 0 else 1
  | _ => 0

/-- The slots lost at a step: the packet of a failed accept, a failed association or a failed
`DeriveAcceptEx`. -/
def lostAccepts (s : State) (a : Action) : ℕ :=
  match s.acting a with
  | none => 0
  | some (pc, r) => lostBy s.shared r pc

/-- The calls of `PostAcceptEx` succeed. -/
def postAcceptExOk (r : Reply) : Pc → Bool
  | .postAcceptEx _ => r.ok
  | .callAcceptEx _ => r.ok
  | _ => true

/-- A step at which no call of `PostAcceptEx` fails. -/
def PostAcceptExOk (s : State) (a : Action) : Prop :=
  ∀ x ∈ s.acting a, postAcceptExOk x.2 x.1 = true

instance (s : State) (a : Action) : Decidable (PostAcceptExOk s a) :=
  inferInstanceAs (Decidable (∀ x ∈ s.acting a, postAcceptExOk x.2 x.1 = true))

/-! ## One step -/

theorem acceptSlots_dispatch (op : Op) (n : ℕ) (operationtype : OperationType) :
    (dispatch op n operationtype).acceptSlots = if operationtype = .acceptPosted then 1 else 0 := by
  rcases dispatch_cases op n operationtype with ⟨rfl, h⟩ | ⟨rfl, -, h⟩ | ⟨hne, -, h⟩
  · rw [h]
    rfl
  · rw [h]
    rfl
  · rw [h, if_neg hne]
    rfl

/-- A step of a thread changes the slots by the one it gives up. -/
theorem acceptSlots_thread {sh sh' : Shared} {r : Reply} {pc pc' : Pc}
    (hposts : postAcceptExOk r pc = true) (hreads : readsKind .acceptPosted sh r pc = true)
    (hmoves : threadStep sh r pc = some (sh', pc')) :
    sh'.opCount isAccept + pc'.acceptSlots + lostBy sh r pc =
      sh.opCount isAccept + pc.acceptSlots := by
  cases threadStep_move hmoves with
  | dequeueClose queue hqueue =>
    rw [opCount_dequeue_close isAccept hqueue, lostBy, hqueue]
    rfl
  | dequeue op ok n queue hqueue =>
    rw [opCount_dequeue isAccept hqueue, lostBy, hqueue]
    cases ok <;> simp [Pc.acceptSlots]
  | got op n =>
    have hread : sh.readType op.addr r.garbage = .acceptPosted ↔ op.kind = .acceptPosted :=
      of_decide_eq_true hreads
    rw [acceptSlots_dispatch, if_congr hread rfl rfl]
    simp [lostBy, Pc.acceptSlots, isAccept]
  | doAcceptEx lio c hc => rfl
  | acceptAssoc lio h => cases hr : r.ok <;> simp [Pc.acceptSlots, lostBy, hr]
  | acceptDerive lio h => cases hr : r.ok <;> simp [Pc.acceptSlots, lostBy, hr]
  | acceptNewIOData lio h hnew =>
    rw [(inert_getNewIOData hnew).opCount]
    rfl
  | acceptRecv lio h cio hpost =>
    rw [opCount_post isAccept hpost]
    simp [isAccept, Pc.acceptSlots, lostBy]
  | acceptRemove lio hremove =>
    rw [(inert_removeIOData hremove).opCount]
    rfl
  | newListen hnew =>
    rw [(inert_getNewIOData hnew).opCount]
    rfl
  | postAcceptEx lio hnew =>
    rw [(inert_newAcceptSocket hnew).opCount, if_pos (show r.ok = true from hposts)]
    rfl
  | callAcceptEx lio hok hpost =>
    rw [opCount_post isAccept hpost]
    rfl
  | failAcceptEx lio hok hpost hclose =>
    have hr : r.ok = true := hposts
    rw [hok] at hr
    cases hr
  | doRecv h io c v hc hv => cases v <;> rfl
  | rePost h io hpost =>
    rw [opCount_post isAccept hpost]
    simp [isAccept, Pc.acceptSlots, lostBy]
  | postSend h io built hpost =>
    rw [opCount_post isAccept hpost]
    cases built && r.ok <;> simp [isAccept, Pc.acceptSlots, lostBy]
  | removeSent h io hremove =>
    rw [(inert_removeIOData hremove).opCount]
    rfl
  | newRecv h hnew =>
    rw [(inert_getNewIOData hnew).opCount]
    rfl
  | postRecv h io hpost =>
    rw [opCount_post isAccept hpost]
    simp [isAccept, Pc.acceptSlots, lostBy]

/-- The slots, and the accepts that `Start` has not begun. -/
def State.acceptTotal (s : State) : ℕ := s.acceptSlots + s.main.left

/-- **The step lemma.** -/
theorem acceptTotal_step (s : State) (a : Action) (t : State)
    (hok : PostAcceptExOk s a ∧ ReadsKind .acceptPosted s a) (h : step s a = some t) :
    t.acceptTotal + lostAccepts s a = s.acceptTotal := by
  cases step_move h with
  | thread r pc pc' rest acts moves before after left =>
    have hposts : postAcceptExOk r pc = true := hok.1 (pc, r) acts
    have hreads : readsKind .acceptPosted s.shared r pc = true := hok.2 (pc, r) acts
    have hthread := acceptSlots_thread hposts hreads moves
    have hsum := sum_pcs Pc.acceptSlots before after
    rw [lostAccepts, acts, State.acceptTotal, State.acceptTotal, State.acceptSlots,
      State.acceptSlots, left]
    dsimp only
    omega
  | kernel i ok n acts completes pcs left =>
    subst acts
    rw [State.acceptTotal, State.acceptSlots, pcs, left, opCount_complete isAccept completes]
    rfl
  | newListen left acts before after =>
    subst after
    rw [lostAccepts, acts]
    simp only [State.acceptTotal, State.acceptSlots, State.pcs, before, Main.pc, Main.left,
      List.map_cons, List.sum_cons, Pc.acceptSlots]
    omega
  | control queue closed acts shared ops closes pcs left =>
    have hcount : t.shared.opCount isAccept = s.shared.opCount isAccept := by
      rw [shared]
      exact opCount_control isAccept ops
    rw [lostAccepts, acts, State.acceptTotal, State.acceptTotal, State.acceptSlots,
      State.acceptSlots, pcs, left, hcount]
    rfl

theorem acceptTotal_init (threadnum : ℕ) : (init threadnum).acceptTotal = maxPostAccept := by
  simp [State.acceptTotal, State.acceptSlots, init, State.pcs, Main.pc, Main.left, Pc.acceptSlots,
    Shared.opCount, Shared.ops]

/-- **The slots and the lost slots of a run.** -/
theorem acceptTotal_run {threadnum : ℕ} {run : List Action} {s : State}
    (hposts : Along step PostAcceptExOk (init threadnum) run)
    (hreads : Along step (ReadsKind .acceptPosted) (init threadnum) run)
    (h : exec step (init threadnum) run = some s) :
    s.acceptTotal + total step lostAccepts (init threadnum) run = maxPostAccept := by
  rw [add_total acceptTotal_step (hposts.and hreads) h, acceptTotal_init]

/-- **After `Start`, no accept slot is missing exactly when no accept outcome has lost one.** -/
theorem acceptSlots_eq_iff {threadnum : ℕ} {run : List Action} {s : State}
    (hposts : Along step PostAcceptExOk (init threadnum) run)
    (hreads : Along step (ReadsKind .acceptPosted) (init threadnum) run)
    (h : exec step (init threadnum) run = some s) (hrunning : s.main = .running) :
    s.acceptSlots = maxPostAccept ↔ total step lostAccepts (init threadnum) run = 0 := by
  have hrun := acceptTotal_run hposts hreads h
  have hleft : s.main.left = 0 := by
    rw [hrunning]
    rfl
  rw [State.acceptTotal, hleft] at hrun
  omega

/-- A successful `Start`. -/
def startRun : List Action :=
  (List.range maxPostAccept).flatMap (fun i => List.replicate 4 (.main (.fine i))) ++
    [.main (.fine 0)]

/-- A client connects and its accept is handled. -/
def acceptRun : List Action :=
  startRun ++ [.kernel 0 true 0] ++
    List.replicate 8 (.worker 0 (.fine 100)) ++ List.replicate 3 (.worker 0 (.fine 101))

theorem acceptSlots_acceptRun :
    ∃ s, exec step (init 1) acceptRun = some s ∧ s.acceptSlots = maxPostAccept := by
  obtain ⟨s, hs⟩ : ∃ s, exec step (init 1) acceptRun = some s :=
    Option.isSome_iff_exists.mp (by decide +kernel)
  have hposts : Along step PostAcceptExOk (init 1) acceptRun := by decide +kernel
  have hreads : Along step (ReadsKind .acceptPosted) (init 1) acceptRun := by decide +kernel
  have hrunning : ∀ s ∈ exec step (init 1) acceptRun, s.main = .running := by decide +kernel
  have hlost : total step lostAccepts (init 1) acceptRun = 0 := by decide +kernel
  exact ⟨s, hs, (acceptSlots_eq_iff hposts hreads hs (hrunning s hs)).mpr hlost⟩

/-- The packet of an accept that failed. -/
def failedAcceptRun : List Action := startRun ++ [.kernel 0 false 0, .worker 0 (.fine 0)]

theorem not_acceptSlots_failedAccept :
    ¬ ∀ threadnum run s, Along step PostAcceptExOk (init threadnum) run →
      exec step (init threadnum) run = some s → s.main = .running →
        s.acceptSlots = maxPostAccept := by
  intro hall
  obtain ⟨s, hs⟩ : ∃ s, exec step (init 1) failedAcceptRun = some s :=
    Option.isSome_iff_exists.mp (by decide +kernel)
  have hbad : ∀ s ∈ exec step (init 1) failedAcceptRun,
      s.main = .running ∧ s.acceptSlots ≠ maxPostAccept := by decide +kernel
  have hposts : Along step PostAcceptExOk (init 1) failedAcceptRun := by decide +kernel
  exact (hbad s hs).2 (hall 1 failedAcceptRun s hposts hs (hbad s hs).1)

end AMSServer.IOCPServer
