import AMSServer.IOCPServer.AcceptSlots

/-!
# The handshake of `Stop`

`Stop` posts one close packet for each worker and waits for all threads. A worker leaves its loop
when it dequeues a close packet, and for nothing else. So the workers in the loop are always as many
as the close packets that are queued or that `Stop` has still to post (`stopHandshake`), in whatever
order they are dequeued among the other packets.
-/

namespace AMSServer.IOCPServer

open Transition

/-- The close packets in the port. -/
def Shared.closes (sh : Shared) : ℕ := sh.queue.count .close

/-- The workers that have not dequeued a close packet. -/
def State.inLoop (s : State) : ℕ := s.workers.countP (· ≠ .exited)

/-- The close packets that are still to be posted: `Stop` posts one for each worker. -/
def State.toPost (s : State) : ℕ :=
  match s.main with
  | .starting _ _ => s.workers.length
  | .running => s.workers.length
  | .stopping left => left
  | .waiting => 0
  | .stopped => 0

/-- `PostQueuedCompletionStatus` succeeds, where it is called. -/
def postsClose (s : State) : Action → Bool
  | .main r =>
    match s.main with
    | .stopping (_ + 1) => r.ok
    | _ => true
  | _ => true

/-- A step at which no close packet fails to be posted. -/
def PostsClose (s : State) (a : Action) : Prop := postsClose s a = true

instance (s : State) (a : Action) : Decidable (PostsClose s a) :=
  inferInstanceAs (Decidable (postsClose s a = true))

/-- A worker dequeues a close packet. -/
def takesClose (w : ℕ) (s : State) : Action → ℕ
  | .worker v _ =>
    if v = w ∧ s.workers[v]? = some .wait ∧ s.shared.queue.head? = some .close then 1 else 0
  | _ => 0

/-! ## One step of a thread -/

theorem dispatch_ne_exited (op : Op) (n : ℕ) (operationtype : OperationType) :
    dispatch op n operationtype ≠ .exited := by
  rcases dispatch_cases op n operationtype with ⟨-, h⟩ | ⟨-, -, h⟩ | ⟨-, -, h⟩
    <;> rw [h] <;> exact Pc.noConfusion

theorem afterRecv_ne_exited (h : Handle) (io : Addr) (v : HttpServer.Verdict) :
    afterRecv h io v ≠ .exited := by
  cases v <;> exact Pc.noConfusion

/-- A thread that has ended does not move. -/
theorem ne_exited_of_threadStep {sh : Shared} {r : Reply} {pc : Pc} {x : Shared × Pc}
    (hmoves : threadStep sh r pc = some x) : pc ≠ .exited := by
  rintro rfl
  cases hmoves

/-- Only the wait for a packet touches the port or ends a thread. -/
theorem queue_threadStep {sh sh' : Shared} {r : Reply} {pc pc' : Pc} (hpc : pc ≠ .wait)
    (hmoves : threadStep sh r pc = some (sh', pc')) :
    sh'.queue = sh.queue ∧ pc' ≠ .exited := by
  cases threadStep_move hmoves with
  | dequeueClose queue hqueue => exact absurd rfl hpc
  | dequeue op ok n queue hqueue => exact absurd rfl hpc
  | got op n => exact ⟨rfl, dispatch_ne_exited _ _ _⟩
  | doAcceptEx lio c hc => exact ⟨rfl, Pc.noConfusion⟩
  | acceptAssoc lio h =>
    refine ⟨rfl, ?_⟩
    split <;> exact Pc.noConfusion
  | acceptDerive lio h =>
    refine ⟨rfl, ?_⟩
    split <;> exact Pc.noConfusion
  | acceptNewIOData lio h hnew => exact ⟨(inert_getNewIOData hnew).queue, Pc.noConfusion⟩
  | acceptRecv lio h cio hpost => exact ⟨queue_post hpost, Pc.noConfusion⟩
  | acceptRemove lio hremove => exact ⟨(inert_removeIOData hremove).queue, Pc.noConfusion⟩
  | newListen hnew => exact ⟨(inert_getNewIOData hnew).queue, Pc.noConfusion⟩
  | postAcceptEx lio hnew =>
    refine ⟨(inert_newAcceptSocket hnew).queue, ?_⟩
    split <;> exact Pc.noConfusion
  | callAcceptEx lio hok hpost => exact ⟨queue_post hpost, Pc.noConfusion⟩
  | failAcceptEx lio hok hpost hclose =>
    exact ⟨(inert_closeAcceptSocket hclose).queue.trans (queue_post hpost), Pc.noConfusion⟩
  | doRecv h io c v hc hv => exact ⟨rfl, afterRecv_ne_exited _ _ _⟩
  | rePost h io hpost => exact ⟨queue_post hpost, Pc.noConfusion⟩
  | postSend h io built hpost =>
    refine ⟨queue_post hpost, ?_⟩
    split <;> exact Pc.noConfusion
  | removeSent h io hremove => exact ⟨(inert_removeIOData hremove).queue, Pc.noConfusion⟩
  | newRecv h hnew => exact ⟨(inert_getNewIOData hnew).queue, Pc.noConfusion⟩
  | postRecv h io hpost => exact ⟨queue_post hpost, Pc.noConfusion⟩

/-- **A thread ends exactly when it dequeues a close packet.** -/
theorem exited_iff {sh sh' : Shared} {r : Reply} {pc pc' : Pc}
    (hmoves : threadStep sh r pc = some (sh', pc')) :
    pc' = .exited ↔ pc = .wait ∧ sh.queue.head? = some .close := by
  by_cases hpc : pc = .wait
  · subst hpc
    rw [and_iff_right rfl]
    cases threadStep_move hmoves with
    | dequeueClose queue hqueue =>
      rw [hqueue]
      exact iff_of_true rfl rfl
    | dequeue op ok n queue hqueue =>
      rw [hqueue]
      refine iff_of_false ?_ (by simp)
      split <;> exact Pc.noConfusion
  · exact iff_of_false (queue_threadStep hpc hmoves).2 fun h => hpc h.1

/-- **A thread that ends takes one close packet**, and no other does. -/
theorem closes_threadStep {sh sh' : Shared} {r : Reply} {pc pc' : Pc}
    (hmoves : threadStep sh r pc = some (sh', pc')) :
    sh'.closes + (if pc' = .exited then 1 else 0) = sh.closes := by
  rw [if_congr (exited_iff hmoves) rfl rfl]
  by_cases hpc : pc = .wait
  · subst hpc
    cases threadStep_move hmoves with
    | dequeueClose queue hqueue => simp [Shared.closes, hqueue]
    | dequeue op ok n queue hqueue => simp [Shared.closes, hqueue]
  · rw [if_neg fun h => hpc h.1, Shared.closes, (queue_threadStep hpc hmoves).1]
    rfl

/-! ## One step of the server -/

/-- The number of workers in the loop is that of the close packets to come, and `Stop` returns when
there are none. -/
structure State.Handshake (s : State) : Prop where
  count : s.inLoop = s.shared.closes + s.toPost
  stopped : s.main = .stopped → s.inLoop = 0

/-- A worker that moves leaves the loop when it ends. -/
theorem inLoop_set {workers : List Pc} {w : ℕ} {pc pc' : Pc} (hw : workers[w]? = some pc)
    (hpc : pc ≠ .exited) :
    (workers.set w pc').countP (· ≠ .exited) + (if pc' = .exited then 1 else 0) =
      workers.countP (· ≠ .exited) := by
  obtain ⟨hlt, rfl⟩ := List.getElem?_eq_some_iff.mp hw
  have hbefore := (List.getElem_cons_eraseIdx_perm hlt).countP_eq (· ≠ Pc.exited)
  have hafter := (List.set_perm_cons_eraseIdx hlt pc').countP_eq (· ≠ Pc.exited)
  rw [List.countP_cons_of_pos (by simpa using hpc)] at hbefore
  rw [List.countP_cons] at hafter
  rw [hafter, ← hbefore]
  by_cases hexit : pc' = .exited <;> simp [hexit]

theorem closes_complete {sh sh' : Shared} {i n : ℕ} {ok : Bool}
    (h : sh.complete i ok n = some sh') : sh'.closes = sh.closes := by
  rw [Shared.complete] at h
  split at h <;> cases h
  simp [Shared.closes]

theorem handshake_init (threadnum : ℕ) : (init threadnum).Handshake where
  count := by simp [init, State.inLoop, Shared.closes, State.toPost, List.countP_replicate]
  stopped h := by cases h

/-- **The step lemma.** -/
theorem State.Handshake.step {s t : State} {a : Action} (hs : s.Handshake) (hok : PostsClose s a)
    (h : IOCPServer.step s a = some t) : t.Handshake := by
  have hcount := hs.count
  cases a with
  | worker w r =>
    obtain ⟨pc, sh, pc', hw, hmoves, rfl⟩ := step_worker h
    have hset := @inLoop_set _ _ _ pc' hw (ne_exited_of_threadStep hmoves)
    have hcloses := closes_threadStep hmoves
    have htoPost : State.toPost { s with shared := sh, workers := s.workers.set w pc' } =
        s.toPost := by
      simp only [State.toPost, List.length_set]
    rw [State.inLoop] at hcount
    refine ⟨?_, fun hstopped => ?_⟩
    · rw [htoPost, State.inLoop]
      dsimp only
      omega
    · have hzero := hs.stopped hstopped
      rw [State.inLoop] at hzero ⊢
      dsimp only
      omega
  | kernel i ok n =>
    obtain ⟨sh, hcompletes, rfl⟩ := Option.map_eq_some_iff.mp h
    refine ⟨?_, hs.stopped⟩
    exact hcount.trans (congrArg (· + s.toPost) (closes_complete hcompletes).symm)
  | main r =>
    rw [State.toPost] at hcount
    cases mainStep_move h with
    | running hmain =>
      rw [hmain] at hcount
      exact ⟨hcount, fun h => by cases h⟩
    | newListen left hmain =>
      rw [hmain] at hcount
      exact ⟨hcount, fun h => by cases h⟩
    | thread left pc pc' hmain hpc hmoves =>
      rw [hmain] at hcount
      refine ⟨?_, fun h => by cases h⟩
      rw [Shared.closes, ← (queue_threadStep hpc hmoves).1] at hcount
      exact hcount
    | waiting hmain =>
      rw [hmain] at hcount
      exact ⟨hcount, fun h => by cases h⟩
    | postClose left hmain =>
      rw [hmain] at hcount
      refine ⟨?_, fun h => by cases h⟩
      have hr : r.ok = true := by
        rw [PostsClose, postsClose, hmain] at hok
        exact hok
      have hcloses : (s.shared.queue ++ [Packet.close]).count Packet.close =
          s.shared.closes + 1 := by
        simp [Shared.closes]
      simp only [State.inLoop, Shared.closes, State.toPost, hr, reduceIte, hcloses] at hcount ⊢
      omega
    | stopped hmain hall =>
      rw [hmain] at hcount
      have hzero : s.inLoop = 0 := by
        rw [State.inLoop, List.countP_eq_zero]
        simpa using hall
      exact ⟨hcount, fun _ => hzero⟩
  | stop =>
    obtain ⟨hmain, rfl⟩ := step_stop h
    refine ⟨?_, fun h => by cases h⟩
    rw [State.toPost, hmain] at hcount
    exact hcount

/-! ## A run -/

/-- The close packet that a worker has still to take. -/
def State.awaits (w : ℕ) (s : State) : ℕ := if s.workers[w]? = some .exited then 0 else 1

theorem awaits_congr {s t : State} (w : ℕ) (h : t.workers = s.workers) :
    t.awaits w = s.awaits w := by
  rw [State.awaits, h, State.awaits]

theorem workers_mainStep {s t : State} {r : Reply} (h : mainStep s r = some t) :
    t.workers = s.workers := by
  cases mainStep_move h <;> rfl

/-- A worker ends at the step at which it takes a close packet. -/
theorem awaits_step (w : ℕ) (s : State) (a : Action) (t : State) (h : step s a = some t) :
    t.awaits w + takesClose w s a = s.awaits w := by
  cases a with
  | worker v r =>
    obtain ⟨pc, sh, pc', hw, hmoves, rfl⟩ := step_worker h
    have hpc := ne_exited_of_threadStep hmoves
    have hexit := exited_iff hmoves
    obtain ⟨hlt, -⟩ := List.getElem?_eq_some_iff.mp hw
    by_cases hv : v = w
    · subst hv
      have hafter : (s.workers.set v pc')[v]? = some pc' := by simp [hlt]
      simp only [State.awaits, takesClose, hafter, hw, Option.some.injEq, true_and, hexit,
        if_neg hpc]
      split_ifs <;> rfl
    · simp [State.awaits, takesClose, hv]
  | kernel i ok n =>
    obtain ⟨sh, -, rfl⟩ := Option.map_eq_some_iff.mp h
    exact awaits_congr w rfl
  | main r => exact awaits_congr w (workers_mainStep h)
  | stop =>
    obtain ⟨-, rfl⟩ := step_stop h
    exact awaits_congr w rfl

/-- **The handshake of `Stop`.** In every state the workers in the loop are as many as the close
packets to come, a worker is out of the loop when it has taken one, and none remains when `Stop`
returns. -/
theorem stopHandshake {threadnum : ℕ} {run : List Action} {s : State}
    (hposts : Along step PostsClose (init threadnum) run)
    (h : exec step (init threadnum) run = some s) :
    s.inLoop = s.shared.closes + s.toPost ∧
      (∀ w < threadnum, total step (takesClose w) (init threadnum) run =
        if s.workers[w]? = some .exited then 1 else 0) ∧
      (s.main = .stopped → s.shared.closes = 0) := by
  have hs : s.Handshake :=
    invariant (fun _ _ _ => State.Handshake.step) (handshake_init threadnum) hposts h
  refine ⟨hs.count, fun w hw => ?_, fun hstopped => ?_⟩
  · have htotal := add_total (fun s a t _ => awaits_step w s a t) hposts h
    have hinit : (init threadnum).awaits w = 1 := by simp [State.awaits, init, hw]
    rw [hinit, State.awaits] at htotal
    split_ifs at htotal ⊢ <;> omega
  · have hcount := hs.count
    rw [hs.stopped hstopped] at hcount
    omega

/-- `Start`, then `Stop` with two workers. -/
def stopRun : List Action :=
  startRun ++ [.stop, .main (.fine 0), .main (.fine 0), .main (.fine 0), .worker 1 (.fine 0),
    .worker 0 (.fine 0), .main (.fine 0)]

theorem stopHandshake_stopRun :
    ∃ s, exec step (init 2) stopRun = some s ∧ s.main = .stopped ∧ s.shared.closes = 0 := by
  obtain ⟨s, hs⟩ : ∃ s, exec step (init 2) stopRun = some s :=
    Option.isSome_iff_exists.mp (by decide +kernel)
  have hposts : Along step PostsClose (init 2) stopRun := by decide +kernel
  have hstopped : ∀ s ∈ exec step (init 2) stopRun, s.main = .stopped := by decide +kernel
  exact ⟨s, hs, hstopped s hs, (stopHandshake hposts hs).2.2 (hstopped s hs)⟩

end AMSServer.IOCPServer
