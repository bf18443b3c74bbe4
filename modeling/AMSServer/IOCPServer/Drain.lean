import AMSServer.IOCPServer.Shutdown

/-!
# Handlers return and `Stop` ends

The handler of a packet takes ten steps at most and then the worker waits for the next packet
(`Pc.rank`). While `PostSend` deletes no io that an operation refers to, a worker in a handler goes
on with whatever comes back to it, whatever the other threads do meanwhile (`handler_returns`). What
comes back is a free address for an allocation and a message that overruns no buffer (`Pc.Takes`).

Once `Stop` has posted its packets, the packets in front of the last of them are what the workers
have left to do; completions that come later are queued behind and never looked at. So the workers
take a bounded number of steps in all, and never have to wait before they are through: `Stop` ends
(`stop_ends`).

Whatever happens, the workers take no more than eleven steps for a packet, and they rest only when
no packet is queued (`workers_rest`).
-/

namespace AMSServer.IOCPServer

open HttpServer Transition

/-! ## Handlers -/

/-- The steps to the end of the handler, at most. -/
def Pc.rank : Pc → ℕ
  | wait => 0
  | exited => 0
  | got _ _ => 10
  | doAcceptEx _ => 9
  | acceptAssoc _ _ => 8
  | acceptDerive _ _ => 7
  | acceptNewIOData _ _ => 6
  | acceptRecv _ _ _ => 5
  | acceptRemove _ => 4
  | newListen => 3
  | postAcceptEx _ => 2
  | callAcceptEx _ => 1
  | doRecv _ _ => 5
  | rePost _ _ => 3
  | postSend _ _ _ => 4
  | removeSent _ _ => 3
  | newRecv _ => 2
  | postRecv _ _ => 1

theorem rank_le (pc : Pc) : pc.rank ≤ 10 := by
  cases pc <;> simp [Pc.rank]

theorem eq_wait_of_rank {pc : Pc} (hrank : pc.rank = 0) (hexit : pc ≠ .exited) : pc = .wait := by
  cases pc with
  | wait => rfl
  | exited => exact absurd rfl hexit
  | _ => cases hrank

/-- **A step of a handler brings it nearer to its end**, and a packet begins one. -/
theorem rank_threadStep {sh sh' : Shared} {r : Reply} {pc pc' : Pc}
    (h : threadStep sh r pc = some (sh', pc')) :
    (pc ≠ .wait → pc'.rank < pc.rank) ∧ pc'.rank ≤ 10 := by
  cases threadStep_move h with
  | dequeueClose queue hqueue => exact ⟨fun hne => absurd rfl hne, Nat.zero_le _⟩
  | dequeue op ok n queue hqueue =>
    refine ⟨fun hne => absurd rfl hne, ?_⟩
    split <;> simp [Pc.rank]
  | got op n =>
    rcases dispatch_cases op n (sh.readType op.addr r.garbage) with
      ⟨-, h⟩ | ⟨-, -, h⟩ | ⟨-, -, h⟩ <;> rw [h] <;> simp [Pc.rank]
  | acceptAssoc lio h => split <;> simp [Pc.rank]
  | acceptDerive lio h => split <;> simp [Pc.rank]
  | postAcceptEx lio hnew => split <;> simp [Pc.rank]
  | doRecv h io c v hc hv => cases v <;> simp [afterRecv, Pc.rank]
  | postSend h io built hpost => split <;> simp [Pc.rank]
  | _ => simp [Pc.rank]

/-- A step of a thread takes a packet or goes on with its handler. -/
theorem packet_or_rank {sh sh' : Shared} {r : Reply} {pc pc' : Pc}
    (h : threadStep sh r pc = some (sh', pc')) :
    (∃ p, sh.queue = p :: sh'.queue ∧ pc'.rank ≤ 10) ∨
      sh'.queue = sh.queue ∧ pc'.rank < pc.rank := by
  obtain ⟨hdown, hle⟩ := rank_threadStep h
  by_cases hwait : pc = .wait
  · subst hwait
    left
    cases threadStep_move h with
    | dequeueClose queue hqueue => exact ⟨_, hqueue, hle⟩
    | dequeue op ok n queue hqueue => exact ⟨_, hqueue, hle⟩
  · exact Or.inr ⟨(queue_threadStep hwait h).1, hdown hwait⟩

/-! ## Room on the heap -/

/-- From some address on the heap is free. -/
def Room (heap : Addr → Option Cell) : Prop := ∃ n, ∀ io, n ≤ io → heap io = none

section Room

variable {sh sh' : Shared} {io : Addr} {key : Handle} {kind : OperationType} {ok : Bool}

theorem Room.update {heap : Addr → Option Cell} (h : Room heap) (io : Addr) (o : Option Cell) :
    Room (Function.update heap io o) := by
  obtain ⟨n, hn⟩ := h
  refine ⟨max n (io + 1), fun io' hio' => ?_⟩
  have hne : io' ≠ io := by
    have hle := (Nat.le_max_right n (io + 1)).trans hio'
    rintro rfl
    exact Nat.not_succ_le_self _ hle
  rw [Function.update_of_ne hne]
  exact hn io' ((Nat.le_max_left _ _).trans hio')

theorem room_getNewIOData (hs : Room sh.heap) (h : sh.getNewIOData io key = some sh') :
    Room sh'.heap := by
  rw [Shared.getNewIOData] at h
  split at h
  · cases h
  · cases h
    exact hs.update _ _

theorem room_removeIOData (hs : Room sh.heap) (h : sh.removeIOData io = some sh') :
    Room sh'.heap := by
  rw [Shared.removeIOData] at h
  split at h
  · cases h
  · cases h
    exact hs.update _ _

theorem room_post (hs : Room sh.heap) (h : sh.post io kind key ok = some sh') :
    Room sh'.heap := by
  rw [Shared.post] at h
  split at h
  · cases h
  · cases ok <;> cases h <;> exact hs.update _ _

theorem room_newAcceptSocket (hs : Room sh.heap) (h : sh.newAcceptSocket io ok = some sh') :
    Room sh'.heap := by
  rw [Shared.newAcceptSocket] at h
  split at h
  · cases h
  · cases ok <;> cases h <;> exact hs.update _ _

theorem room_closeAcceptSocket (hs : Room sh.heap) (h : sh.closeAcceptSocket io = some sh') :
    Room sh'.heap := by
  rw [Shared.closeAcceptSocket] at h
  split at h
  · cases h
  · cases h
    exact hs.update _ _

theorem room_threadStep {r : Reply} {pc pc' : Pc} (hs : Room sh.heap)
    (h : threadStep sh r pc = some (sh', pc')) : Room sh'.heap := by
  cases threadStep_move h with
  | acceptNewIOData lio h hnew => exact room_getNewIOData hs hnew
  | acceptRecv lio h cio hpost => exact room_post hs hpost
  | acceptRemove lio hremove => exact room_removeIOData hs hremove
  | newListen hnew => exact room_getNewIOData hs hnew
  | postAcceptEx lio hnew => exact room_newAcceptSocket hs hnew
  | callAcceptEx lio hok hpost => exact room_post hs hpost
  | failAcceptEx lio hok hpost hclose => exact room_closeAcceptSocket (room_post hs hpost) hclose
  | rePost h io hpost => exact room_post hs hpost
  | postSend h io built hpost => exact room_post hs hpost
  | removeSent h io hremove => exact room_removeIOData hs hremove
  | newRecv h hnew => exact room_getNewIOData hs hnew
  | postRecv h io hpost => exact room_post hs hpost
  | _ => exact hs

end Room

theorem room_step {s t : State} {a : Action} (hs : Room s.shared.heap)
    (h : IOCPServer.step s a = some t) : Room t.shared.heap := by
  cases step_move h with
  | thread r pc pc' rest acts moves before after left => exact room_threadStep hs moves
  | kernel i ok n acts completes pcs left =>
    rw [complete_heap completes]
    exact hs
  | newListen left acts before after =>
    subst after
    exact hs
  | control queue closed acts shared ops closes pcs left =>
    rw [shared]
    exact hs

/-! ## The next step of a handler -/

/-- What comes back to a thread is legal: an allocation gives a free address, and a message is one
that `DoRecv` can handle. Any call of the system may fail or succeed. -/
def Pc.Takes (sh : Shared) (r : Reply) : Pc → Prop
  | acceptNewIOData _ _ => sh.heap r.addr = none
  | newListen => sh.heap r.addr = none
  | newRecv _ => sh.heap r.addr = none
  | doRecv _ _ => ∃ v, verdict r.peer r.message = .ok v
  | _ => True

/-- The message of `Reply.fine` is handled. -/
theorem verdict_fine : ∃ v, verdict localhost "GET / HTTP/1.1\r\n\r\n".toList = .ok v :=
  ⟨_, rfl⟩

/-- Something legal can come back. -/
theorem exists_takes {sh : Shared} (hroom : Room sh.heap) (pc : Pc) : ∃ r, pc.Takes sh r := by
  obtain ⟨n, hn⟩ := hroom
  have hfree := hn n (Nat.le_refl n)
  refine ⟨.fine n, ?_⟩
  cases pc with
  | acceptNewIOData lio h => exact hfree
  | newListen => exact hfree
  | newRecv h => exact hfree
  | doRecv h io => exact verdict_fine
  | _ => trivial

/-- **A handler is never stuck**: its io is there, so it goes on with whatever comes back. -/
theorem exists_threadStep {s : State} (hs : s.Sound) {pc : Pc} {r : Reply} (hpc : pc ∈ s.pcs)
    (hwait : pc ≠ .wait) (hexit : pc ≠ .exited) (htakes : pc.Takes s.shared r) :
    ∃ x, threadStep s.shared r pc = some x := by
  have hlive : ∀ r ∈ pc.refs, ∃ c, s.shared.heap r.addr = some c :=
    fun r hr => hs.exists_cell hpc hr
  cases pc with
  | wait => exact absurd rfl hwait
  | exited => exact absurd rfl hexit
  | got op n => exact ⟨_, rfl⟩
  | acceptAssoc lio h => exact ⟨_, rfl⟩
  | acceptDerive lio h => exact ⟨_, rfl⟩
  | acceptNewIOData lio h =>
    replace htakes : s.shared.heap r.addr = none := htakes
    simp [threadStep, Shared.getNewIOData, htakes]
  | newListen =>
    replace htakes : s.shared.heap r.addr = none := htakes
    simp [threadStep, Shared.getNewIOData, htakes]
  | newRecv h =>
    replace htakes : s.shared.heap r.addr = none := htakes
    simp [threadStep, Shared.getNewIOData, htakes]
  | acceptRecv lio h cio =>
    obtain ⟨c, hc⟩ := hlive _ List.mem_cons_self
    replace hc : s.shared.heap cio = some c := hc
    simp [threadStep, Shared.post, hc]
  | doRecv h io =>
    obtain ⟨c, hc⟩ := hlive _ List.mem_cons_self
    replace hc : s.shared.heap io = some c := hc
    obtain ⟨v, hv⟩ := htakes
    exact ⟨(s.shared, afterRecv h io v), by simp only [threadStep, hc, hv]⟩
  | callAcceptEx lio =>
    obtain ⟨c, hc⟩ := hlive _ List.mem_cons_self
    replace hc : s.shared.heap lio = some c := hc
    cases hok : r.ok <;>
      simp [threadStep, Shared.post, Shared.closeAcceptSocket, Shared.setCell, hc, hok]
  | doAcceptEx lio =>
    obtain ⟨c, hc⟩ := hlive _ List.mem_cons_self
    replace hc : s.shared.heap lio = some c := hc
    simp [threadStep, hc]
  | acceptRemove lio =>
    obtain ⟨c, hc⟩ := hlive _ List.mem_cons_self
    replace hc : s.shared.heap lio = some c := hc
    simp [threadStep, Shared.removeIOData, hc]
  | postAcceptEx lio =>
    obtain ⟨c, hc⟩ := hlive _ List.mem_cons_self
    replace hc : s.shared.heap lio = some c := hc
    cases hok : r.ok <;> simp [threadStep, Shared.newAcceptSocket, hc, hok]
  | rePost h io =>
    obtain ⟨c, hc⟩ := hlive _ List.mem_cons_self
    replace hc : s.shared.heap io = some c := hc
    simp [threadStep, Shared.post, hc]
  | postSend h io built =>
    obtain ⟨c, hc⟩ := hlive _ List.mem_cons_self
    replace hc : s.shared.heap io = some c := hc
    simp [threadStep, Shared.post, hc]
  | removeSent h io =>
    obtain ⟨c, hc⟩ := hlive _ List.mem_cons_self
    replace hc : s.shared.heap io = some c := hc
    simp [threadStep, Shared.removeIOData, hc]
  | postRecv h io =>
    obtain ⟨c, hc⟩ := hlive _ List.mem_cons_self
    replace hc : s.shared.heap io = some c := hc
    simp [threadStep, Shared.post, hc]

theorem exists_dequeue {sh : Shared} {r : Reply} (h : sh.queue ≠ []) :
    ∃ x, threadStep sh r .wait = some x := by
  rw [threadStep]
  split
  · contradiction
  · exact ⟨_, rfl⟩
  · exact ⟨_, rfl⟩

/-- **A worker in a handler can go on, and so can one that waits for a packet that is there**, with
whatever comes back. -/
theorem exists_worker_step {s : State} (hs : s.Sound) {w : ℕ} {pc : Pc} {r : Reply}
    (hw : s.workers[w]? = some pc) (hexit : pc ≠ .exited)
    (hpacket : pc = .wait → s.shared.queue ≠ []) (htakes : pc.Takes s.shared r) :
    ∃ t, step s (.worker w r) = some t := by
  have hmoves : ∃ x, threadStep s.shared r pc = some x := by
    by_cases hwait : pc = .wait
    · obtain ⟨x, hx⟩ := @exists_dequeue s.shared r (hpacket hwait)
      exact ⟨x, hwait ▸ hx⟩
    · have hpc : pc ∈ s.pcs := List.mem_cons_of_mem _ (List.mem_of_getElem? hw)
      exact exists_threadStep hs hpc hwait hexit htakes
  obtain ⟨x, hx⟩ := hmoves
  have hacts : s.acting (.worker w r) = some (pc, r) := by simp [State.acting, hw]
  exact step_of_acting hacts hx

/-- A worker goes on with whatever comes back to it, and something can. -/
def State.GoesOn (s : State) (w : ℕ) (pc : Pc) : Prop :=
  (∃ r, pc.Takes s.shared r) ∧ ∀ r, pc.Takes s.shared r → ∃ t, step s (.worker w r) = some t

theorem State.Sound.goesOn {s : State} (hs : s.Sound) (hroom : Room s.shared.heap) {w : ℕ} {pc : Pc}
    (hw : s.workers[w]? = some pc) (hexit : pc ≠ .exited)
    (hpacket : pc = .wait → s.shared.queue ≠ []) : s.GoesOn w pc :=
  ⟨exists_takes hroom pc, fun _ => exists_worker_step hs hw hexit hpacket⟩

/-- What a sound run keeps, with the room for the next allocation. -/
theorem sound_room_step {s t : State} {a : Action}
    (hs : s.Sound ∧ Room s.shared.heap) (hok : RemovesUnused s a)
    (h : step s a = some t) : t.Sound ∧ Room t.shared.heap :=
  ⟨hs.1.step hok h, room_step hs.2 h⟩

theorem sound_room_init (threadnum : ℕ) :
    (init threadnum).Sound ∧ Room (init threadnum).shared.heap :=
  ⟨sound_init threadnum, 0, fun _ _ => rfl⟩

/-- A worker takes a step. -/
def Action.byWorker (w : ℕ) : Action → Bool
  | worker v _ => v == w
  | _ => false

theorem exists_of_byWorker {a : Action} {w : ℕ} (ha : a.byWorker w = true) :
    ∃ r, a = .worker w r := by
  cases a with
  | worker v r => exact ⟨r, by rw [eq_of_beq ha]⟩
  | _ => cases ha

/-- A step of another thread leaves a worker where it is. -/
theorem workers_other {s t : State} {a : Action} {w : ℕ} (ha : a.byWorker w = false)
    (h : step s a = some t) : t.workers[w]? = s.workers[w]? := by
  cases a with
  | worker v r =>
    obtain ⟨pc, sh, pc', -, -, rfl⟩ := step_worker h
    have hne : v ≠ w := by simpa [Action.byWorker] using ha
    exact List.getElem?_set_ne hne
  | kernel i ok n =>
    obtain ⟨sh, -, rfl⟩ := Option.map_eq_some_iff.mp h
    rfl
  | main r => rw [workers_mainStep h]
  | stop =>
    obtain ⟨-, rfl⟩ := step_stop h
    rfl

/-- A worker in a handler has come back before it has taken the steps that were left. -/
theorem returns_of_rank {s t : State} {w : ℕ} {pc : Pc} {more : List Action}
    (hw : s.workers[w]? = some pc) (hexit : pc ≠ .exited)
    (hrank : pc.rank ≤ more.countP (Action.byWorker w)) (h : exec step s more = some t) :
    ∃ more' u, more' <+: more ∧ exec step s more' = some u ∧ u.workers[w]? = some .wait := by
  induction more generalizing s pc with
  | nil =>
    obtain rfl := eq_wait_of_rank (Nat.le_zero.mp hrank) hexit
    exact ⟨[], s, List.nil_prefix, rfl, hw⟩
  | cons a more ih =>
    by_cases hwait : pc = .wait
    · exact ⟨[], s, List.nil_prefix, rfl, hwait ▸ hw⟩
    obtain ⟨u, hu, hrest⟩ := exec_cons h
    have hnext : ∃ pc', u.workers[w]? = some pc' ∧ pc' ≠ .exited ∧
        pc'.rank ≤ more.countP (Action.byWorker w) := by
      cases ha : a.byWorker w with
      | false =>
        rw [List.countP_cons_of_neg (by simp [ha])] at hrank
        exact ⟨pc, (workers_other ha hu).trans hw, hexit, hrank⟩
      | true =>
        rw [List.countP_cons_of_pos ha] at hrank
        obtain ⟨r, rfl⟩ := exists_of_byWorker ha
        obtain ⟨pc₀, sh, pc', hw₀, hmoves, rfl⟩ := step_worker hu
        cases hw.symm.trans hw₀
        obtain ⟨hlt, -⟩ := List.getElem?_eq_some_iff.mp hw
        have hdown := (rank_threadStep hmoves).1 hwait
        refine ⟨pc', by simp [hlt], (queue_threadStep hwait hmoves).2, by omega⟩
    obtain ⟨pc', hw', hexit', hrank'⟩ := hnext
    obtain ⟨more', v, hpre, hv, hback⟩ := ih hw' hexit' hrank' hrest
    refine ⟨a :: more', v, List.cons_prefix_cons.mpr ⟨rfl, hpre⟩, ?_, hback⟩
    rw [exec, hu]
    exact hv

/-- **Every handler returns.** While `PostSend` deletes no io that an operation refers to, a worker
that is in a handler takes its next step with whatever comes back to it, whatever the other threads
and the system have done; and it is back at the wait after at most ten steps of its own. -/
theorem handler_returns {threadnum w : ℕ} {run : List Action} {s : State} {pc : Pc}
    (hremoves : Along step RemovesUnused (init threadnum) run)
    (hrun : exec step (init threadnum) run = some s) (hw : s.workers[w]? = some pc)
    (hexit : pc ≠ .exited) :
    (pc ≠ .wait → s.GoesOn w pc) ∧
      ∀ more t, exec step s more = some t → 10 ≤ more.countP (Action.byWorker w) →
        ∃ more' u, more' <+: more ∧ exec step s more' = some u ∧ u.workers[w]? = some .wait := by
  obtain ⟨hsound, hroom⟩ :=
    invariant (fun _ _ _ => sound_room_step) (sound_room_init threadnum) hremoves hrun
  refine ⟨fun hwait => ?_, fun more t hmore hcount => ?_⟩
  · exact hsound.goesOn hroom hw hexit fun h => absurd h hwait
  · exact returns_of_rank hw hexit ((rank_le pc).trans hcount) hmore

/-- A worker has a message of the connected client in its hands. -/
def receivingRun : List Action :=
  connectRun ++ [.kernel 0 true 18] ++ List.replicate 2 (.worker 0 (.fine 1))

theorem handler_returns_receiving :
    ∃ s, exec step (init 1) receivingRun = some s ∧ s.GoesOn 0 (.doRecv (.connect 0) 1) := by
  obtain ⟨s, hs⟩ : ∃ s, exec step (init 1) receivingRun = some s :=
    Option.isSome_iff_exists.mp (by decide +kernel)
  have hremoves : Along step RemovesUnused (init 1) receivingRun := by decide +kernel
  have hw : ∀ s ∈ exec step (init 1) receivingRun,
      s.workers[0]? = some (.doRecv (.connect 0) 1) := by decide +kernel
  exact ⟨s, hs, (handler_returns hremoves hs (hw s hs) Pc.noConfusion).1 Pc.noConfusion⟩

/-! ## `Stop` -/

/-- The packets up to the last close packet. -/
def packetsLeft : List Packet → ℕ
  | [] => 0
  | p :: queue => if .close ∈ p :: queue then packetsLeft queue + 1 else 0

theorem packetsLeft_le (queue : List Packet) : packetsLeft queue ≤ queue.length := by
  induction queue with
  | nil => exact Nat.le_refl 0
  | cons p queue ih =>
    rw [packetsLeft]
    split
    · exact Nat.succ_le_succ ih
    · exact Nat.zero_le _

/-- A completion is queued behind the close packets. -/
theorem packetsLeft_concat {p : Packet} (queue : List Packet) (hp : p ≠ .close) :
    packetsLeft (queue ++ [p]) = packetsLeft queue := by
  induction queue with
  | nil =>
    exact if_neg fun h => hp (List.mem_singleton.mp h).symm
  | cons p' queue ih =>
    have hmem : Packet.close ∈ p' :: (queue ++ [p]) ↔ Packet.close ∈ p' :: queue := by
      simp [hp.symm]
    rw [List.cons_append, packetsLeft, packetsLeft, ih, if_congr hmem rfl rfl]

theorem packetsLeft_complete {sh sh' : Shared} {i n : ℕ} {ok : Bool}
    (h : sh.complete i ok n = some sh') : packetsLeft sh'.queue = packetsLeft sh.queue := by
  rw [Shared.complete] at h
  split at h <;> cases h
  exact packetsLeft_concat _ Packet.noConfusion

/-- The steps that are left to the threads once `Stop` waits, at most: eleven for a packet. -/
def State.stepsLeft (s : State) : ℕ :=
  11 * packetsLeft s.shared.queue + (s.workers.map Pc.rank).sum + if s.main = .waiting then 1 else 0

/-- A thread of the server takes a step, and not the system. -/
def Action.byThread : Action → Bool
  | worker _ _ => true
  | main _ => true
  | kernel _ _ _ => false
  | stop => false

/-- `Stop` waits for the threads, or has returned. -/
structure State.Stopping (s : State) : Prop where
  handshake : s.Handshake
  main : s.main = .waiting ∨ s.main = .stopped

theorem State.Stopping.inLoop {s : State} (hs : s.Stopping) : s.inLoop = s.shared.closes := by
  rw [hs.handshake.count, State.toPost]
  rcases hs.main with h | h <;> rw [h] <;> rfl

/-- A worker in the loop finds a packet of those up to the last close packet. -/
theorem State.Stopping.closes_pos {s : State} (hs : s.Stopping) {w : ℕ} {pc : Pc}
    (hw : s.workers[w]? = some pc) (hexit : pc ≠ .exited) : Packet.close ∈ s.shared.queue := by
  have hpos : 0 < s.inLoop :=
    List.countP_pos_iff.mpr ⟨pc, List.mem_of_getElem? hw, by simpa using hexit⟩
  rw [hs.inLoop] at hpos
  exact List.count_pos_iff.mp hpos

/-- A step of a worker uses up a step that is left. -/
theorem stepsLeft_threadStep {sh sh' : Shared} {r : Reply} {pc pc' : Pc}
    (hclose : .close ∈ sh.queue) (hmoves : threadStep sh r pc = some (sh', pc')) :
    11 * packetsLeft sh'.queue + pc'.rank < 11 * packetsLeft sh.queue + pc.rank := by
  rcases packet_or_rank hmoves with ⟨p, hqueue, hle⟩ | ⟨hqueue, hlt⟩
  · rw [hqueue] at hclose ⊢
    rw [packetsLeft, if_pos hclose]
    omega
  · rw [hqueue]
    omega

theorem State.Stopping.step {s t : State} {a : Action} (hs : s.Stopping)
    (h : IOCPServer.step s a = some t) : t.Stopping := by
  have hposts : PostsClose s a := by
    cases a with
    | main r => rcases hs.main with hmain | hmain <;> simp [PostsClose, postsClose, hmain]
    | _ => rfl
  refine ⟨hs.handshake.step hposts h, ?_⟩
  cases a with
  | worker w r =>
    obtain ⟨pc, sh, pc', -, -, rfl⟩ := step_worker h
    exact hs.main
  | kernel i ok n =>
    obtain ⟨sh, -, rfl⟩ := Option.map_eq_some_iff.mp h
    exact hs.main
  | main r =>
    cases mainStep_move h with
    | stopped hmain hall => exact Or.inr rfl
    | _ => rcases hs.main with h | h <;> simp_all
  | stop =>
    obtain ⟨hmain, -⟩ := step_stop h
    rcases hs.main with h | h <;> rw [hmain] at h <;> cases h

/-- **Each step of a thread uses up one of the steps that are left**, and a completion adds none. -/
theorem State.Stopping.stepsLeft_step {s t : State} {a : Action} (hs : s.Stopping)
    (h : IOCPServer.step s a = some t) :
    t.stepsLeft + (if a.byThread then 1 else 0) ≤ s.stepsLeft := by
  cases a with
  | worker w r =>
    obtain ⟨pc, sh, pc', hw, hmoves, rfl⟩ := step_worker h
    obtain ⟨hlt, rfl⟩ := List.getElem?_eq_some_iff.mp hw
    have hsum := sum_pcs Pc.rank (List.getElem_cons_eraseIdx_perm hlt).symm
      (List.set_perm_cons_eraseIdx hlt pc')
    have hdown := stepsLeft_threadStep (hs.closes_pos hw (ne_exited_of_threadStep hmoves)) hmoves
    simp only [State.stepsLeft, Action.byThread, reduceIte]
    omega
  | kernel i ok n =>
    obtain ⟨sh, hcompletes, rfl⟩ := Option.map_eq_some_iff.mp h
    simp [State.stepsLeft, Action.byThread, packetsLeft_complete hcompletes]
  | main r =>
    cases mainStep_move h with
    | stopped hmain hall => simp [State.stepsLeft, Action.byThread, hmain]
    | _ => rcases hs.main with h | h <;> simp_all
  | stop =>
    obtain ⟨hmain, -⟩ := step_stop h
    rcases hs.main with h | h <;> rw [hmain] at h <;> cases h

/-- Along a run, too. -/
theorem State.Stopping.stepsLeft_run {s t : State} {more : List Action} (hs : s.Stopping)
    (h : exec IOCPServer.step s more = some t) :
    t.stepsLeft + more.countP Action.byThread ≤ s.stepsLeft := by
  induction more generalizing s with
  | nil =>
    cases h
    exact Nat.le_refl _
  | cons a more ih =>
    obtain ⟨u, hu, hrest⟩ := exec_cons h
    have hstep := hs.stepsLeft_step hu
    have hrun := ih (hs.step hu) hrest
    rw [List.countP_cons]
    omega

theorem sum_rank_le (workers : List Pc) : (workers.map Pc.rank).sum ≤ 10 * workers.length := by
  induction workers with
  | nil => exact Nat.le_refl 0
  | cons pc workers ih =>
    rw [List.map_cons, List.sum_cons, List.length_cons]
    have hpc := rank_le pc
    omega

theorem stepsLeft_le (s : State) :
    s.stepsLeft ≤ 11 * s.shared.queue.length + 10 * s.workers.length + 1 := by
  have hpackets := packetsLeft_le s.shared.queue
  have hranks := sum_rank_le s.workers
  rw [State.stepsLeft]
  split <;> omega

/-- `Stop` waits. -/
theorem stopping_of_exec {threadnum : ℕ} {run : List Action} {s : State}
    (hposts : Along step PostsClose (init threadnum) run)
    (hrun : exec step (init threadnum) run = some s) (hmain : s.main = .waiting) : s.Stopping :=
  ⟨invariant (fun _ _ _ => State.Handshake.step) (handshake_init threadnum) hposts hrun,
    Or.inl hmain⟩

/-- The threads take at most eleven steps for each queued packet, ten for each worker and the one in
which `Stop` returns. -/
theorem State.Stopping.countP_le {s t : State} {more : List Action} (hs : s.Stopping)
    (h : exec IOCPServer.step s more = some t) : more.countP Action.byThread ≤
      11 * s.shared.queue.length + 10 * s.workers.length + 1 := by
  have hcount := hs.stepsLeft_run h
  have hle := stepsLeft_le s
  omega

/-- Some thread goes on with whatever comes back to it: a worker, or the main thread. -/
def State.Lively (s : State) : Prop :=
  (∃ w pc, s.workers[w]? = some pc ∧ s.GoesOn w pc) ∨ ∀ r, ∃ t, step s (.main r) = some t

/-- **A server that stops is never stuck**: a worker is in a handler and goes on, or finds a packet,
or all have ended and `Stop` returns. -/
theorem State.Stopping.lively {s : State} (hs : s.Stopping) (hsound : s.Sound)
    (hroom : Room s.shared.heap) (hmain : s.main ≠ .stopped) : s.Lively := by
  by_cases hall : ∀ pc ∈ s.workers, pc = .exited
  · have hwaiting := hs.main.resolve_right hmain
    exact Or.inr fun r => ⟨_, by rw [IOCPServer.step, mainStep, hwaiting, if_pos hall]⟩
  obtain ⟨pc, hpc, hexit⟩ : ∃ pc ∈ s.workers, pc ≠ .exited := by
    simpa only [not_forall, exists_prop] using hall
  obtain ⟨w, hlt, rfl⟩ := List.getElem_of_mem hpc
  have hw : s.workers[w]? = some s.workers[w] := List.getElem?_eq_getElem hlt
  exact Or.inl ⟨w, _, hw, hsound.goesOn hroom hw hexit fun _ =>
    List.ne_nil_of_mem (hs.closes_pos hw hexit)⟩

/-- It goes on until `Stop` has returned, if no io is deleted that an operation refers to. -/
theorem State.Stopping.lively_after {threadnum : ℕ} {run more : List Action} {s t : State}
    (hs : s.Stopping) (hrun : exec IOCPServer.step (init threadnum) run = some s)
    (hremoves : Along IOCPServer.step RemovesUnused (init threadnum) (run ++ more))
    (hmore : exec IOCPServer.step s more = some t) : t.main = .stopped ∨ t.Lively := by
  have ht : t.Stopping := invariant_always (fun _ _ _ => State.Stopping.step) hs hmore
  have hall : exec IOCPServer.step (init threadnum) (run ++ more) = some t := by
    rw [exec_append, hrun]
    exact hmore
  obtain ⟨hsound, hroom⟩ :=
    invariant (fun _ _ _ => sound_room_step) (sound_room_init threadnum) hremoves hall
  exact or_iff_not_imp_left.mpr fun hstopped => ht.lively hsound hroom hstopped

/-- **`Stop` ends.** Once it waits, with its close packets posted, the threads take at most eleven
steps for each queued packet, ten for each worker and the one in which `Stop` returns, whatever
completes meanwhile; and as long as no io is deleted that an operation refers to, one of them goes
on with whatever comes back to it until `Stop` has returned. -/
theorem stop_ends {threadnum : ℕ} {run more : List Action} {s t : State}
    (hposts : Along step PostsClose (init threadnum) run)
    (hrun : exec step (init threadnum) run = some s) (hmain : s.main = .waiting)
    (hremoves : Along step RemovesUnused (init threadnum) (run ++ more))
    (hmore : exec step s more = some t) :
    more.countP Action.byThread ≤ 11 * s.shared.queue.length + 10 * s.workers.length + 1 ∧
      (t.main = .stopped ∨ t.Lively) := by
  have hs := stopping_of_exec hposts hrun hmain
  exact ⟨hs.countP_le hmore, hs.lively_after hrun hremoves hmore⟩

/-- `Start`, and `Stop` up to its wait, with two workers. -/
def waitingRun : List Action :=
  startRun ++ [.stop, .main (.fine 0), .main (.fine 0), .main (.fine 0)]

theorem stop_ends_waiting :
    ∃ s t, exec step (init 2) waitingRun = some s ∧ exec step s [.worker 1 (.fine 0)] = some t ∧
      (t.main = .stopped ∨ t.Lively) := by
  obtain ⟨s, hs⟩ : ∃ s, exec step (init 2) waitingRun = some s :=
    Option.isSome_iff_exists.mp (by decide +kernel)
  obtain ⟨t, ht⟩ : ∃ t, exec step s [.worker 1 (.fine 0)] = some t := by
    have hall : ∀ s ∈ exec step (init 2) waitingRun,
        (exec step s [.worker 1 (.fine 0)]).isSome := by decide +kernel
    exact Option.isSome_iff_exists.mp (hall s hs)
  have hposts : Along step PostsClose (init 2) waitingRun := by decide +kernel
  have hmain : ∀ s ∈ exec step (init 2) waitingRun, s.main = .waiting := by decide +kernel
  have hremoves : Along step RemovesUnused (init 2) (waitingRun ++ [.worker 1 (.fine 0)]) := by
    decide +kernel
  exact ⟨s, t, hs, ht, (stop_ends hposts hs (hmain s hs) hremoves ht).2⟩

/-! ## Work and rest -/

/-- A worker takes a step. -/
def Action.ofWorker : Action → Bool
  | worker _ _ => true
  | _ => false

/-- The system completes an operation. -/
def Action.completes : Action → Bool
  | kernel _ _ _ => true
  | _ => false

/-- The steps that the workers still owe to the packets that are there or that `Stop` posts. -/
def State.work (s : State) : ℕ :=
  11 * (s.shared.queue.length + s.toPost) + (s.workers.map Pc.rank).sum

theorem work_threadStep {sh sh' : Shared} {r : Reply} {pc pc' : Pc}
    (hmoves : threadStep sh r pc = some (sh', pc')) :
    11 * sh'.queue.length + pc'.rank < 11 * sh.queue.length + pc.rank := by
  rcases packet_or_rank hmoves with ⟨p, hqueue, hle⟩ | ⟨hqueue, hlt⟩
  · rw [hqueue, List.length_cons]
    omega
  · rw [hqueue]
    omega

/-- A step of the main thread makes no work: `Stop` posts the packets it is to post. -/
theorem work_mainStep {s t : State} {r : Reply} (h : mainStep s r = some t) : t.work ≤ s.work := by
  cases mainStep_move h with
  | running hmain => simp [State.work, State.toPost, hmain]
  | newListen left hmain => simp [State.work, State.toPost, hmain]
  | thread left pc pc' hmain hpc hmoves =>
    simp [State.work, State.toPost, hmain, (queue_threadStep hpc hmoves).1]
  | waiting hmain => simp [State.work, State.toPost, hmain]
  | postClose left hmain =>
    simp only [State.work, State.toPost, hmain]
    split
    · rw [List.length_append, List.length_singleton]
      omega
    · omega
  | stopped hmain hall => simp [State.work, State.toPost, hmain]

/-- **Each step of a worker does some of the work**, and a completion makes eleven steps of it. -/
theorem work_step {s t : State} {a : Action} (h : step s a = some t) :
    t.work + (if a.ofWorker then 1 else 0) ≤ s.work + 11 * if a.completes then 1 else 0 := by
  cases a with
  | worker w r =>
    obtain ⟨pc, sh, pc', hw, hmoves, rfl⟩ := step_worker h
    obtain ⟨hlt, rfl⟩ := List.getElem?_eq_some_iff.mp hw
    have hsum := sum_pcs Pc.rank (List.getElem_cons_eraseIdx_perm hlt).symm
      (List.set_perm_cons_eraseIdx hlt pc')
    have hdown := work_threadStep hmoves
    have htoPost : State.toPost { s with shared := sh, workers := s.workers.set w pc' } =
        s.toPost := by
      simp only [State.toPost, List.length_set]
    simp only [State.work, htoPost, Action.ofWorker, Action.completes, reduceIte,
      Bool.false_eq_true]
    omega
  | kernel i ok n =>
    obtain ⟨sh, hcompletes, rfl⟩ := Option.map_eq_some_iff.mp h
    rw [Shared.complete] at hcompletes
    split at hcompletes
    · cases hcompletes
    · cases hcompletes
      simp only [State.work, State.toPost, Action.ofWorker, Action.completes, reduceIte,
        Bool.false_eq_true, List.length_append, List.length_singleton]
      omega
  | main r => exact work_mainStep h
  | stop =>
    obtain ⟨hmain, rfl⟩ := step_stop h
    simp [State.work, State.toPost, hmain, Action.ofWorker, Action.completes]

/-- Along a run, too. -/
theorem work_run {s t : State} {run : List Action} (h : exec step s run = some t) :
    t.work + run.countP Action.ofWorker ≤ s.work + 11 * run.countP Action.completes := by
  induction run generalizing s with
  | nil =>
    cases h
    exact Nat.le_refl _
  | cons a run ih =>
    obtain ⟨u, hu, hrest⟩ := exec_cons h
    have hstep := work_step hu
    have hrun := ih hrest
    rw [List.countP_cons, List.countP_cons]
    omega

theorem work_init (threadnum : ℕ) : (init threadnum).work = 11 * threadnum := by
  simp [State.work, State.toPost, init, Pc.rank]

/-- **The workers work for packets and rest without them.** In any run they take eleven steps at
most for each completion and each close packet. And as long as no io is deleted that an operation
refers to, a server in which each worker is stuck with something legal that comes back to it has
none in a handler, and no packet queued unless all workers have ended. -/
theorem workers_rest {threadnum : ℕ} {run : List Action} {s : State}
    (hrun : exec step (init threadnum) run = some s) :
    run.countP Action.ofWorker + 11 * s.shared.queue.length ≤
        11 * (run.countP Action.completes + threadnum) ∧
      (Along step RemovesUnused (init threadnum) run →
        (∀ w pc, s.workers[w]? = some pc → ∃ r, pc.Takes s.shared r ∧ step s (.worker w r) = none) →
        (∀ pc ∈ s.workers, pc = .wait ∨ pc = .exited) ∧
          (s.shared.queue = [] ∨ ∀ pc ∈ s.workers, pc = .exited)) := by
  constructor
  · have hwork := work_run hrun
    rw [work_init, State.work] at hwork
    omega
  intro hremoves hstuck
  have hsound : s.Sound :=
    invariant (fun _ _ _ => State.Sound.step) (sound_init threadnum) hremoves hrun
  have hplace : ∀ pc ∈ s.workers, pc ≠ .exited → pc = .wait ∧ s.shared.queue = [] := by
    intro pc hpc hexit
    obtain ⟨w, hlt, rfl⟩ := List.getElem_of_mem hpc
    have hw : s.workers[w]? = some s.workers[w] := List.getElem?_eq_getElem hlt
    obtain ⟨r, htakes, hnone⟩ := hstuck w _ hw
    by_contra hne
    obtain ⟨t, ht⟩ :=
      exists_worker_step hsound hw hexit (fun hwait hqueue => hne ⟨hwait, hqueue⟩) htakes
    rw [hnone] at ht
    cases ht
  constructor
  · intro pc hpc
    exact or_iff_not_imp_right.mpr fun hexit => (hplace pc hpc hexit).1
  · by_contra hne
    obtain ⟨hqueue, hall⟩ := not_or.mp hne
    exact hall fun pc hpc => not_not.mp fun hexit => hqueue (hplace pc hpc hexit).2

/-- After the client has connected the worker rests. -/
theorem workers_rest_connect :
    ∃ s, exec step (init 1) connectRun = some s ∧
      connectRun.countP Action.ofWorker + 11 * s.shared.queue.length ≤
        11 * (connectRun.countP Action.completes + 1) ∧
      (∀ pc ∈ s.workers, pc = .wait ∨ pc = .exited) ∧
      (s.shared.queue = [] ∨ ∀ pc ∈ s.workers, pc = .exited) := by
  obtain ⟨s, hs⟩ : ∃ s, exec step (init 1) connectRun = some s :=
    Option.isSome_iff_exists.mp (by decide +kernel)
  have hremoves : Along step RemovesUnused (init 1) connectRun := by decide +kernel
  have hrests : ∀ s ∈ exec step (init 1) connectRun,
      s.workers = [.wait] ∧ s.shared.queue = [] := by decide +kernel
  obtain ⟨hworkers, hqueue⟩ := hrests s hs
  have hstuck : ∀ w pc, s.workers[w]? = some pc →
      ∃ r, pc.Takes s.shared r ∧ step s (.worker w r) = none := by
    intro w pc hw
    have hpc : pc = .wait := by
      have hmem := List.mem_of_getElem? hw
      rw [hworkers] at hmem
      exact List.mem_singleton.mp hmem
    subst hpc
    exact ⟨.fine 0, trivial, by simp only [step, hw, threadStep, hqueue, Option.map_none]⟩
  obtain ⟨hcount, hrest⟩ := workers_rest hs
  exact ⟨s, hs, hcount, hrest hremoves hstuck⟩

end AMSServer.IOCPServer
