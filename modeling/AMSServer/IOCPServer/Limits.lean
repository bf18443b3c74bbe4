import AMSServer.IOCPServer.AcceptSlots
import AMSServer.IOCPServer.Receives

/-!
# What no failure increases

Calls of the system may fail at any time. A failure loses an accept or a receive and never makes one
more, so the bounds of the server hold in every run in which packets are read as what they are.

The server never has more than `MAX_POST_ACCEPT` accepts, an accept that is lost is never posted
again, and when all are lost no client is accepted any more (`accepts_bounded`). The messages of a
connection are handled one at a time, exactly in the runs in which no incomplete message is received
on (`serial_iff`).
-/

namespace AMSServer.IOCPServer

open Transition

/-! ## What a step adds -/

section Load

variable (p : OperationType → Handle → Bool) (w : Pc → ℕ)

/-- The operations of a sort, the threads by what they have to do with them, and the iterations of
`Start` that are still to come. -/
def State.load (s : State) : ℕ :=
  s.shared.opCount p + (s.pcs.map w).sum + w .newListen * s.main.left

variable {p w}

/-- **The load of a step is that of its thread.** The other steps change no handle. -/
theorem load_step {s t : State} {a : Action} {before after : ℕ} (hwait : w .wait = 0)
    (hthread : ∀ r pc pc', s.acting a = some (pc, r) →
      threadStep s.shared r pc = some (t.shared, pc') →
        t.shared.opCount p + w pc' + before ≤ s.shared.opCount p + w pc + after)
    (hrest : t.shared.handles = s.shared.handles → before ≤ after)
    (h : step s a = some t) : t.load p w + before ≤ s.load p w + after := by
  cases step_move h with
  | thread r pc pc' rest acts moves perm perm' left =>
    have hload := hthread r pc pc' acts moves
    have hsum := sum_pcs w perm perm'
    rw [State.load, State.load, left]
    omega
  | kernel i ok n acts completes pcs left =>
    have hle := hrest (handles_complete completes)
    rw [State.load, State.load, pcs, left, opCount_complete p completes]
    omega
  | newListen left acts hmain hafter =>
    subst hafter
    have hle := hrest rfl
    simp only [State.load, State.pcs, hmain, Main.pc, Main.left, List.map_cons, List.sum_cons,
      hwait, Nat.mul_succ]
    omega
  | control queue closed acts shared ops closes pcs left =>
    have hle := hrest (by rw [shared])
    have hcount : t.shared.opCount p = s.shared.opCount p := by
      rw [shared]
      exact opCount_control p ops
    rw [State.load, State.load, pcs, left, hcount]
    omega

end Load

/-! ## Accepts -/

/-- A thread never makes an accept more. -/
theorem acceptSlots_thread_le {sh sh' : Shared} {r : Reply} {pc pc' : Pc}
    (hreads : readsKind .acceptPosted sh r pc = true)
    (hmoves : threadStep sh r pc = some (sh', pc')) :
    sh'.opCount isAccept + pc'.acceptSlots ≤ sh.opCount isAccept + pc.acceptSlots := by
  by_cases hposts : postAcceptExOk r pc = true
  · have hthread := acceptSlots_thread hposts hreads hmoves
    omega
  -- a call of `PostAcceptEx` fails
  cases threadStep_move hmoves with
  | postAcceptEx lio hnew =>
    rw [(inert_newAcceptSocket hnew).opCount, if_neg (show ¬ r.ok = true from hposts)]
    exact Nat.le_succ _
  | callAcceptEx lio hok hpost => exact absurd hok hposts
  | failAcceptEx lio hok hpost hclose =>
    rw [(inert_closeAcceptSocket hclose).opCount, opCount_post isAccept hpost]
    exact Nat.le_succ _
  | _ => exact absurd rfl hposts

/-- **The step lemma.** -/
theorem acceptTotal_step_le {s t : State} {a : Action} (hreads : ReadsKind .acceptPosted s a)
    (h : step s a = some t) : t.acceptTotal ≤ s.acceptTotal := by
  have hload : ∀ s : State, s.load isAccept Pc.acceptSlots = s.acceptTotal := by
    intro s
    rw [State.load, State.acceptTotal, State.acceptSlots, Pc.acceptSlots, Nat.one_mul]
  rw [← hload, ← hload]
  exact @load_step isAccept Pc.acceptSlots s t a 0 0 rfl
    (fun r pc pc' acts moves => acceptSlots_thread_le (hreads (pc, r) acts) moves)
    (fun _ => Nat.le_refl 0) h

/-- Only the handler of an accept makes a connection. -/
theorem handles_threadStep {sh sh' : Shared} {r : Reply} {pc pc' : Pc}
    (hmoves : threadStep sh r pc = some (sh', pc')) :
    sh'.handles = sh.handles ∨ pc.acceptSlots = 1 := by
  cases threadStep_move hmoves with
  | doAcceptEx lio c hc => exact Or.inr rfl
  | acceptNewIOData lio h hnew => exact Or.inl (inert_getNewIOData hnew).handles
  | acceptRecv lio h cio hpost => exact Or.inl (handles_post hpost)
  | acceptRemove lio hremove => exact Or.inl (inert_removeIOData hremove).handles
  | newListen hnew => exact Or.inl (inert_getNewIOData hnew).handles
  | postAcceptEx lio hnew => exact Or.inl (inert_newAcceptSocket hnew).handles
  | callAcceptEx lio hok hpost => exact Or.inl (handles_post hpost)
  | failAcceptEx lio hok hpost hclose =>
    exact Or.inl ((inert_closeAcceptSocket hclose).handles.trans (handles_post hpost))
  | rePost h io hpost => exact Or.inl (handles_post hpost)
  | postSend h io built hpost => exact Or.inl (handles_post hpost)
  | removeSent h io hremove => exact Or.inl (inert_removeIOData hremove).handles
  | newRecv h hnew => exact Or.inl (inert_getNewIOData hnew).handles
  | postRecv h io hpost => exact Or.inl (handles_post hpost)
  | _ => exact Or.inl rfl

/-- Without an accept no client is accepted. -/
theorem handles_step {s t : State} {a : Action} (hnone : s.acceptTotal = 0)
    (h : step s a = some t) : t.shared.handles = s.shared.handles := by
  cases step_move h with
  | thread r pc pc' rest acts moves before after left =>
    refine (handles_threadStep moves).resolve_right fun hslot => ?_
    have hsum := (before.map Pc.acceptSlots).sum_nat
    rw [List.map_cons, List.sum_cons, hslot] at hsum
    rw [State.acceptTotal, State.acceptSlots] at hnone
    omega
  | kernel i ok n acts completes pcs left => exact handles_complete completes
  | newListen left acts before after => rw [after]
  | control queue closed acts shared ops closes pcs left => rw [shared]

/-- Along a run, too. -/
theorem acceptTotal_exec_le {s t : State} {run : List Action}
    (hreads : Along step (ReadsKind .acceptPosted) s run) (h : exec step s run = some t) :
    t.acceptTotal ≤ s.acceptTotal :=
  @invariant _ _ step (fun u => u.acceptTotal ≤ s.acceptTotal) _
    (fun _ _ _ hu hok hstep => (acceptTotal_step_le hok hstep).trans hu) _ _ _ (Nat.le_refl _)
    hreads h

/-- **The accepts of the server.** Whatever fails, there are never more than `MAX_POST_ACCEPT`, one
that is lost is never regained, and once none is left no client is accepted any more. -/
theorem accepts_bounded {threadnum : ℕ} {run more : List Action} {s t : State}
    (hremoves : Along step RemovesUnused (init threadnum) (run ++ more))
    (hrun : exec step (init threadnum) run = some s) (hmore : exec step s more = some t) :
    s.acceptTotal ≤ maxPostAccept ∧ t.acceptTotal ≤ s.acceptTotal ∧
      (s.acceptTotal = 0 → t.shared.handles = s.shared.handles) := by
  obtain ⟨hreads, hreads'⟩ := (along_readsKind .acceptPosted hremoves).of_append hrun
  refine ⟨(acceptTotal_exec_le hreads hrun).trans (acceptTotal_init threadnum).le,
    acceptTotal_exec_le hreads' hmore, fun hnone => ?_⟩
  have hkept := @invariant _ _ step
    (fun u => u.acceptTotal = 0 ∧ u.shared.handles = s.shared.handles) _
    (fun u a v hu hok hstep => ⟨Nat.le_zero.mp (hu.1 ▸ acceptTotal_step_le hok hstep),
      (handles_step hu.1 hstep).trans hu.2⟩) _ _ _ ⟨hnone, rfl⟩ hreads' hmore
  exact hkept.2

/-- A server that has started loses an accept. -/
theorem accepts_bounded_failedAccept :
    ∃ s t, exec step (init 1) startRun = some s ∧
      exec step s [.kernel 0 false 0, .worker 0 (.fine 0)] = some t ∧
      s.acceptTotal ≤ maxPostAccept ∧ t.acceptTotal ≤ s.acceptTotal := by
  obtain ⟨s, hs⟩ : ∃ s, exec step (init 1) startRun = some s :=
    Option.isSome_iff_exists.mp (by decide +kernel)
  obtain ⟨t, ht⟩ : ∃ t, exec step s [.kernel 0 false 0, .worker 0 (.fine 0)] = some t := by
    have hall : ∀ s ∈ exec step (init 1) startRun,
        (exec step s [.kernel 0 false 0, .worker 0 (.fine 0)]).isSome := by decide +kernel
    exact Option.isSome_iff_exists.mp (hall s hs)
  have hremoves : Along step RemovesUnused (init 1)
      (startRun ++ [.kernel 0 false 0, .worker 0 (.fine 0)]) := by decide +kernel
  obtain ⟨hmax, hle, -⟩ := accepts_bounded hremoves hs ht
  exact ⟨s, t, hs, ht, hmax, hle⟩

/-! ## One message at a time -/

/-- A connection has one receive, or one thread that handles a message of it, and never more. -/
def State.Serial (s : State) : Prop :=
  ∀ i < s.shared.handles.length, s.receives (.connect i) + s.handled (.connect i) ≤ 1

instance (s : State) : Decidable s.Serial :=
  inferInstanceAs (Decidable (∀ i < s.shared.handles.length, _ ≤ 1))

/-- An incomplete message is not received on. -/
def repostFails (r : Reply) : Pc → Bool
  | .rePost _ _ => !r.ok
  | _ => true

/-- A step at which no incomplete message is received on. -/
def RepostFails (s : State) (a : Action) : Prop := ∀ x ∈ s.acting a, repostFails x.2 x.1 = true

instance (s : State) (a : Action) : Decidable (RepostFails s a) :=
  inferInstanceAs (Decidable (∀ x ∈ s.acting a, repostFails x.2 x.1 = true))

/-- A thread never makes a receive more than its connections. -/
theorem handling_thread_le {sh sh' : Shared} {r : Reply} {pc pc' : Pc} (h : Handle)
    (hreads : readsKind .recvPosted sh r pc = true) (hrepost : repostFails r pc = true)
    (hmoves : threadStep sh r pc = some (sh', pc')) :
    sh'.opCount (isRecv h) + pc'.handling h + sh.connected h ≤
      sh.opCount (isRecv h) + pc.handling h + sh'.connected h := by
  by_cases hkeeps : keepsReceive sh r pc = true
  · exact (handling_thread h hreads hkeeps hmoves).le
  -- a receive is lost
  cases threadStep_move hmoves with
  | dequeueClose queue hqueue =>
    rw [keepsReceive, hqueue] at hkeeps
    exact absurd rfl hkeeps
  | dequeue op ok n queue hqueue =>
    have hconnected : { sh with queue }.connected h = sh.connected h := connected_eq rfl h
    rw [opCount_dequeue (isRecv h) hqueue, hconnected]
    cases ok with
    | true => simp [Pc.handling]
    | false =>
      rw [if_neg Bool.false_ne_true]
      simp only [Pc.handling]
      omega
  | got op n =>
    have hread : sh.readType op.addr r.garbage = .recvPosted ↔ op.kind = .recvPosted :=
      of_decide_eq_true hreads
    have hzero : ¬ (op.kind = .recvPosted → n ≠ 0) := fun hn => hkeeps (decide_eq_true hn)
    obtain ⟨-, hn⟩ := Classical.not_imp.mp hzero
    rw [handling_dispatch, if_neg fun hand => hn hand.2.1]
    omega
  | acceptAssoc lio c =>
    rw [if_neg (show ¬ r.ok = true from hkeeps)]
    simp only [Pc.handling]
    omega
  | acceptDerive lio c =>
    rw [if_neg (show ¬ r.ok = true from hkeeps)]
    simp only [Pc.handling]
    omega
  | acceptRecv lio c cio hpost =>
    have hr : r.ok = false := by simpa [keepsReceive] using hkeeps
    rw [opCount_post (isRecv h) hpost, connected_eq (handles_post hpost), hr]
    simp [Pc.handling]
  | doRecv c io cell v hcell hv => cases v <;> simp [afterRecv, Pc.handling]
  | rePost c io hpost => exact absurd hrepost hkeeps
  | postRecv c io hpost =>
    have hr : r.ok = false := by simpa [keepsReceive] using hkeeps
    rw [opCount_post (isRecv h) hpost, connected_eq (handles_post hpost), hr]
    simp [Pc.handling]
  | _ => exact absurd rfl hkeeps

/-- The receives of a connection and the threads that owe it one are at most one. -/
def State.AtMostOne (s : State) : Prop :=
  ∀ h, s.receives h + s.handled h ≤ s.shared.connected h

theorem State.AtMostOne.serial {s : State} (hs : s.AtMostOne) : s.Serial := by
  intro i hlt
  have hle := hs (.connect i)
  rwa [Shared.connected, if_pos hlt] at hle

/-- **The step lemma.** -/
theorem State.AtMostOne.step {s t : State} {a : Action} (hs : s.AtMostOne)
    (hok : ReadsKind .recvPosted s a ∧ RepostFails s a) (hstep : IOCPServer.step s a = some t) :
    t.AtMostOne := by
  intro h
  have hload : ∀ s : State, s.load (isRecv h) (Pc.handling h) = s.receives h + s.handled h := by
    intro s
    have hzero : Pc.newListen.handling h = 0 := rfl
    rw [State.load, State.receives, State.handled, hzero, Nat.zero_mul, Nat.add_zero]
  have hle := @load_step (isRecv h) (Pc.handling h) s t a (s.shared.connected h)
    (t.shared.connected h) rfl
    (fun r pc pc' acts moves =>
      handling_thread_le h (hok.1 (pc, r) acts) (hok.2 (pc, r) acts) moves)
    (fun hhandles => (connected_eq hhandles h).ge) hstep
  have hbefore := hs h
  rw [hload, hload] at hle
  omega

theorem atMostOne_init (threadnum : ℕ) : (init threadnum).AtMostOne := fun h =>
  (oneReceive_init threadnum h).le

/-- A message that is received on leaves its connection with a receive and a thread. -/
theorem repostFails_of_serial {s : State} {a : Action} (hs : s.AtMostOne) (hsound : s.Sound)
    (ht : ∀ t, IOCPServer.step s a = some t → t.Serial) : RepostFails s a := by
  rintro ⟨pc, r⟩ hacts
  cases pc with
  | rePost c io =>
    cases hr : r.ok with
    | false => simp [repostFails, hr]
    | true =>
      exfalso
      -- the io is there, so the step is possible
      obtain ⟨cell, hcell⟩ := hsound.exists_cell (mem_pcs_of_acting hacts) List.mem_cons_self
      replace hcell : s.shared.heap io = some cell := hcell
      obtain ⟨sh, hpost⟩ : ∃ sh, s.shared.post io .recvPosted c true = some sh := by
        rw [Shared.post, hcell]
        exact ⟨_, rfl⟩
      have hmoves : threadStep s.shared r (.rePost c io) = some (sh, .newRecv c) := by
        rw [threadStep, hr, hpost]
        rfl
      obtain ⟨t, rest, hstep, rfl, before, after⟩ := exists_step_of_acting hacts hmoves
      have hserial := ht t hstep
      have hbefore := (before.map (Pc.handling c)).sum_nat
      have hafter := (after.map (Pc.handling c)).sum_nat
      have hone : Pc.handling c (.rePost c io) = 1 := if_pos rfl
      have hone' : Pc.handling c (.newRecv c) = 1 := if_pos rfl
      have hcount := opCount_post (isRecv c) hpost
      rw [List.map_cons, List.sum_cons, hone] at hbefore
      rw [List.map_cons, List.sum_cons, hone'] at hafter
      rw [if_pos (by simp [isRecv])] at hcount
      have hle := hs c
      rw [State.receives, State.handled] at hle
      cases c with
      | listen =>
        rw [Shared.connected] at hle
        omega
      | connect i =>
        rw [Shared.connected] at hle
        split at hle
        next hlt =>
          have htwo := hserial i (by rwa [handles_post hpost])
          rw [State.receives, State.handled] at htwo
          omega
        · omega
  | _ => rfl

/-- **The messages of a connection are handled one at a time**, in every state on the way, exactly
when no incomplete message is received on. -/
theorem serial_iff {threadnum : ℕ} {run : List Action}
    (hremoves : Along step RemovesUnused (init threadnum) run) :
    (∀ run' s, run' <+: run → exec step (init threadnum) run' = some s → s.Serial) ↔
      Along step RepostFails (init threadnum) run := by
  have hreads := along_readsKind .recvPosted hremoves
  constructor
  · intro h
    exact @along_of_good _ _ step (fun s => s.AtMostOne ∧ s.Sound) State.Serial
      (fun s a => ReadsKind .recvPosted s a ∧ RemovesUnused s a) RepostFails
      (fun _ _ _ hs hsort hok hstep =>
        ⟨hs.1.step ⟨hsort.1, hok⟩ hstep, hs.2.step hsort.2 hstep⟩)
      (fun _ _ hs _ ht => repostFails_of_serial hs.1 hs.2 ht) _ _
      ⟨atMostOne_init threadnum, sound_init threadnum⟩ (hreads.and hremoves) h
  · intro h run' s hpre hrun
    exact (invariant_before (fun _ _ _ => State.AtMostOne.step) (atMostOne_init threadnum)
      (hreads.and h) hpre hrun).serial

theorem serial_iff_servedRun : ∃ s, exec step (init 2) servedRun = some s ∧ s.Serial := by
  obtain ⟨s, hs⟩ : ∃ s, exec step (init 2) servedRun = some s :=
    Option.isSome_iff_exists.mp (by decide +kernel)
  have hremoves : Along step RemovesUnused (init 2) servedRun := by decide +kernel
  exact ⟨s, hs, (serial_iff hremoves).mpr (by decide +kernel) _ s (List.prefix_refl _) hs⟩

end AMSServer.IOCPServer
