import AMSServer.IOCPServer.SocketMoves

/-!
# The sockets of a run

A step of a thread takes away at most the use of a connection that it drops (`uses_thread`), and
keeps the invariant (`Kept.thread`); so do the other steps of the server. Hence the sockets are
conserved in every run whose steps all keep them (`conserved_of_keepsSockets`).
-/

namespace AMSServer.IOCPServer

open HttpServer Transition

/-! ## The uses of a connection -/

/-- The `switch` takes up an operation of a connection or drops it. -/
theorem used_dispatch {op : Op} {operationtype : OperationType} (i n : ℕ)
    (hne : operationtype ≠ .acceptPosted) (hdispatch : dispatch op n operationtype ≠ .wait) :
    (dispatch op n operationtype).used i = (Pc.got op n).used i := by
  rcases dispatch_cases op n operationtype with ⟨haccept, -⟩ | ⟨-, -, hrecv⟩ | ⟨-, -, hwait⟩
  · exact absurd haccept hne
  · rw [hrecv]
    rfl
  · exact absurd hwait hdispatch

/-- A step of a thread takes away the use that it drops, and no other one. -/
theorem uses_thread {sh sh' : Shared} {r : Reply} {pc pc' : Pc} (i : ℕ)
    (hreads : readsKind .acceptPosted sh r pc = true) (hstage : pc.Stage sh)
    (hmoves : threadStep sh r pc = some (sh', pc')) :
    sh.opCount (fun _ key => key = .connect i) + pc.used i ≤
      sh'.opCount (fun _ key => key = .connect i) + pc'.used i +
        if pc.drops sh r = some (.connect i) then 1 else 0 := by
  cases threadStep_move hmoves with
  | dequeueClose queue hqueue =>
    rw [opCount_dequeue_close _ hqueue]
    simp [Pc.used, Pc.serves, Pc.handle?]
  | dequeue op ok n queue hqueue =>
    rw [opCount_dequeue _ hqueue, Pc.drops, hqueue]
    cases ok <;> simp [Pc.used, Pc.serves, Pc.handle?]
  | got op n =>
    have hread : sh.readType op.addr r.garbage = .acceptPosted ↔ op.kind = .acceptPosted :=
      of_decide_eq_true hreads
    by_cases hkind : op.kind = .acceptPosted
    · have hkey : op.key = .listen := (hstage hkind).1
      have hzero : (Pc.got op n).used i = 0 := by simp [Pc.used, Pc.serves, Pc.handle?, hkey]
      omega
    · rw [Pc.drops]
      split_ifs with hdispatch hkey hkey
      · simp only [Pc.used]
        split <;> omega
      · have hserves : (Pc.got op n).serves i = false := by
          simpa [Pc.serves, Pc.handle?] using hkey
        simp [Pc.used, hserves]
      · cases hkey
      · rw [used_dispatch i n (hread.not.mpr hkind) hdispatch]
        omega
  | doAcceptEx lio c hc => exact Nat.le_add_right _ _
  | acceptAssoc lio h =>
    have hzero : (Pc.acceptAssoc lio h).used i = 0 := rfl
    omega
  | acceptDerive lio h =>
    have hzero : (Pc.acceptDerive lio h).used i = 0 := rfl
    omega
  | acceptNewIOData lio h hnew =>
    rw [(inert_getNewIOData hnew).opCount]
    exact Nat.le_add_right _ _
  | acceptRecv lio h cio hpost =>
    have hcount := opCount_post (fun _ key => key = .connect i) hpost
    have hzero : (Pc.acceptRecv lio h cio).used i = 0 := rfl
    omega
  | acceptRemove lio hremove =>
    rw [(inert_removeIOData hremove).opCount]
    exact Nat.le_add_right _ _
  | newListen hnew =>
    rw [(inert_getNewIOData hnew).opCount]
    exact Nat.le_add_right _ _
  | postAcceptEx lio hnew =>
    rw [(inert_newAcceptSocket hnew).opCount]
    have hzero : (Pc.postAcceptEx lio).used i = 0 := rfl
    omega
  | callAcceptEx lio hok hpost =>
    have hcount := opCount_post (fun _ key => key = .connect i) hpost
    have hzero : (Pc.callAcceptEx lio).used i = 0 := rfl
    omega
  | failAcceptEx lio hok hpost hclose =>
    have hcount := opCount_post (fun _ key => key = .connect i) hpost
    have hzero : (Pc.callAcceptEx lio).used i = 0 := rfl
    rw [(inert_closeAcceptSocket hclose).opCount]
    omega
  | doRecv h io c v hc hv =>
    cases v with
    | noGet =>
      by_cases hh : h = .connect i <;> simp [Pc.drops, hv, Pc.used, Pc.serves, Pc.handle?,
        afterRecv, hh]
    | _ => exact Nat.le_add_right _ _
  | rePost h io hpost =>
    have hcount := opCount_post (fun _ key => key = .connect i) hpost
    have hused : (Pc.newRecv h).used i = (Pc.rePost h io).used i := rfl
    omega
  | postSend h io built hpost =>
    have hcount := opCount_post (fun _ key => key = .connect i) hpost
    have hused : (if built && r.ok then Pc.removeSent h io else Pc.newRecv h).used i =
        (Pc.postSend h io built).used i := by
      split <;> rfl
    omega
  | removeSent h io hremove =>
    rw [(inert_removeIOData hremove).opCount]
    exact Nat.le_add_right _ _
  | newRecv h hnew =>
    rw [(inert_getNewIOData hnew).opCount]
    exact Nat.le_add_right _ _
  | postRecv h io hpost =>
    rw [opCount_post (fun _ key => key = .connect i) hpost]
    by_cases hh : h = .connect i <;> cases hok : r.ok <;>
      simp [Pc.drops, Pc.used, Pc.serves, Pc.handle?, hh, hok]

/-! ## A step of a thread -/

section

variable {sh sh' : Shared} {pc pc' : Pc} {rest : List Pc}

/-- The uses that the next step of a thread may take away are spare. -/
theorem uses_pos {r : Reply} (hs : Kept sh (pc :: rest))
    (hreads : readsKind .acceptPosted sh r pc = true)
    (hdrops : ∀ h ∈ pc.drops sh r, spare sh (pc :: rest) h = true)
    (hmoves : threadStep sh r pc = some (sh', pc')) (i : ℕ) (hi : 0 < uses sh (pc :: rest) i) :
    0 < uses sh' (pc' :: rest) i := by
  have hthread := uses_thread i hreads (hs.pc pc List.mem_cons_self) hmoves
  by_cases hdrop : pc.drops sh r = some (.connect i)
  · have hspare : 1 < uses sh (pc :: rest) i := of_decide_eq_true (hdrops _ hdrop)
    rw [if_pos hdrop] at hthread
    rw [uses_cons] at hspare ⊢
    omega
  · rw [if_neg hdrop] at hthread
    rw [uses_cons] at hi ⊢
    omega

/-- **A step of a thread keeps the invariant.** -/
theorem Kept.thread {r : Reply} (hs : Kept sh (pc :: rest))
    (hreads : readsKind .acceptPosted sh r pc = true)
    (hremoves : ∀ io ∈ pc.removes, io ∉ accepts sh (pc :: rest))
    (hdrops : ∀ h ∈ pc.drops sh r, spare sh (pc :: rest) h = true)
    (hmoves : threadStep sh r pc = some (sh', pc')) : Kept sh' (pc' :: rest) := by
  have huses := uses_pos hs hreads hdrops hmoves
  have hstage := hs.pc pc List.mem_cons_self
  cases threadStep_move hmoves with
  | dequeueClose queue hqueue =>
    have hops : Shared.ops { sh with queue } = sh.ops := by
      rw [Shared.ops, Shared.ops, hqueue, List.filterMap_cons_none rfl]
    refine hs.calm ⟨⟨rfl, fun _ => id, rfl, rfl, rfl⟩, fun f pcs => ?_, fun op hop => ?_⟩ huses
      rfl rfl trivial
    · rw [acceptIos, hops]
      exact .refl _
    · exact Or.inl (hops ▸ hop)
  | dequeue op ok n queue hqueue =>
    cases ok with
    | true => exact hs.dequeue hqueue huses rfl rfl id
    | false =>
      have hkind : op.kind ≠ .acceptPosted := by
        intro hkind
        have hmem : op ∈ sh.ops := by
          rw [Shared.ops, hqueue]
          exact List.mem_append_right _ List.mem_cons_self
        have hspare := hdrops op.key (by rw [Pc.drops, hqueue]; rfl)
        rw [(hs.op op hmem hkind).1] at hspare
        cases hspare
      have hnil : op.accepts = [] := if_neg hkind
      exact hs.dequeue hqueue huses hnil.symm hnil.symm fun _ => trivial
  | got op n =>
    have hread : sh.readType op.addr r.garbage = .acceptPosted ↔ op.kind = .acceptPosted :=
      of_decide_eq_true hreads
    have hnone (hkind : op.kind ≠ .acceptPosted) : (Pc.got op n).holds = [] := if_neg hkind
    rcases dispatch_cases op n (sh.readType op.addr r.garbage) with
      ⟨haccept, hdispatch⟩ | ⟨hrecv, -, hdispatch⟩ | ⟨hne, -, hdispatch⟩
    · have hkind := hread.mp haccept
      have hone : (Pc.got op n).holds = [op.addr] := if_pos hkind
      rw [hdispatch] at huses ⊢
      exact hs.calm (.refl sh) huses hone.symm hone.symm (hstage hkind).2
    · have hnil := hnone (hread.not.mp (by rw [hrecv]; decide))
      rw [hdispatch] at huses ⊢
      exact hs.calm (.refl sh) huses hnil.symm hnil.symm trivial
    · have hnil := hnone (hread.not.mp hne)
      rw [hdispatch] at huses ⊢
      exact hs.calm (.refl sh) huses hnil.symm hnil.symm trivial
  | doAcceptEx lio c hc =>
    have hsocket : c.acceptsocket = sh.acceptsocket lio := by rw [Shared.acceptsocket, hc]; rfl
    rw [hsocket]
    exact hs.doAcceptEx
  | acceptAssoc lio h =>
    cases hok : r.ok with
    | true =>
      rw [hok] at huses
      exact hs.calm (.refl sh) huses rfl rfl hstage
    | false => cases hdrops .listen (by rw [Pc.drops, hok]; rfl)
  | acceptDerive lio h =>
    cases hok : r.ok with
    | true =>
      rw [hok] at huses
      exact hs.calm (.refl sh) huses rfl rfl hstage
    | false => cases hdrops .listen (by rw [Pc.drops, hok]; rfl)
  | acceptNewIOData lio h hnew =>
    have hsame := sameSockets_getNewIOData hnew
    exact hs.calm (calm_getNewIOData hnew) huses rfl rfl
      (Moved.congr hstage (by rw [hsame.acceptsocket]) hsame.handles)
  | acceptRecv lio h cio hpost =>
    cases hok : r.ok with
    | true =>
      rw [hok] at hpost
      exact hs.acceptRecv hpost huses
    | false => cases hdrops .listen (by rw [Pc.drops, hok]; rfl)
  | acceptRemove lio hremove =>
    exact hs.removeIOData hremove (hs.notMem List.mem_cons_self) rfl rfl trivial huses
  | newListen hnew => exact hs.newListen hnew
  | postAcceptEx lio hnew =>
    cases hok : r.ok with
    | true =>
      rw [hok] at hnew
      exact hs.newAcceptSocket hnew
    | false =>
      rw [hok] at hnew huses
      obtain ⟨haccept, hlive, hhandles, hsockets, hclosed⟩ := newAcceptSocket_false hnew
      exact hs.forget (inert_newAcceptSocket hnew).ops haccept (fun a _ => hlive a) hhandles
        hsockets (by rw [hclosed]; exact List.Subset.refl _) (hs.notMem List.mem_cons_self) rfl
        trivial huses fun _ ha => absurd ha List.not_mem_nil
  | callAcceptEx lio hok hpost => exact hs.callAcceptEx hpost huses
  | failAcceptEx lio hok hpost hclose => exact hs.failAcceptEx hpost hclose huses
  | doRecv h io c v hc hv =>
    cases v with
    | noGet => exact hs.calm (.refl sh) huses rfl rfl trivial
    | incomplete => exact hs.calm (.refl sh) huses rfl rfl trivial
    | unanswered => exact hs.calm (.refl sh) huses rfl rfl trivial
    | answered payload => exact hs.calm (.refl sh) huses rfl rfl trivial
  | rePost h io hpost =>
    exact hs.calm (calm_post (fun _ => by decide) hpost) huses rfl rfl trivial
  | postSend h io built hpost =>
    cases hok : built && r.ok with
    | true =>
      rw [hok] at hpost huses
      exact hs.calm (calm_post (fun _ => by decide) hpost) huses rfl rfl trivial
    | false =>
      rw [hok] at hpost huses
      exact hs.calm (calm_post (fun _ => by decide) hpost) huses rfl rfl trivial
  | removeSent h io hremove =>
    exact hs.removeIOData hremove (hremoves io rfl) rfl rfl trivial huses
  | newRecv h hnew => exact hs.calm (calm_getNewIOData hnew) huses rfl rfl trivial
  | postRecv h io hpost =>
    exact hs.calm (calm_post (fun _ => by decide) hpost) huses rfl rfl trivial

end

/-! ## The run -/

/-- **The invariant of the server.** Once `Stop` has returned nothing is left to move. -/
structure State.Keeping (s : State) : Prop where
  kept : Kept s.shared s.pcs
  stopped : s.main = .stopped → s.shared.ops = [] ∧ ∀ pc ∈ s.workers, pc = .exited

theorem pc_init {threadnum : ℕ} {pc : Pc} (hpc : pc ∈ (init threadnum).pcs) : pc = .wait := by
  rcases List.mem_cons.mp hpc with rfl | hpc
  · rfl
  · exact (List.mem_replicate.mp hpc).2

theorem accepts_init (threadnum : ℕ) :
    accepts (init threadnum).shared (init threadnum).pcs = [] := by
  rw [accepts, acceptIos, List.append_eq_nil_iff, List.flatMap_eq_nil_iff]
  refine ⟨fun pc hpc => ?_, rfl⟩
  rw [pc_init hpc]
  rfl

theorem kept_init (threadnum : ℕ) : Kept (init threadnum).shared (init threadnum).pcs where
  nodup := by
    rw [accepts_init]
    exact List.nodup_nil
  live a h := by
    rw [accepts_init] at h
    cases h
  once a b k h := by cases h
  bound a k h := by cases h
  handle_once i j k h := by cases h
  handle_bound k h := by cases h
  pc pc hpc := by
    rw [pc_init hpc]
    trivial
  op op hop := by cases hop
  held k hk hpos := by
    have hone : k < 1 := hk
    omega

theorem keeping_init (threadnum : ℕ) : (init threadnum).Keeping :=
  ⟨kept_init threadnum, fun h => by cases h⟩

theorem uses_perm (sh : Shared) {pcs pcs' : List Pc} (h : pcs.Perm pcs') (i : ℕ) :
    uses sh pcs i = uses sh pcs' i := by
  rw [uses, uses, h.countP_eq]

theorem spare_perm (sh : Shared) {pcs pcs' : List Pc} (h : pcs.Perm pcs') (c : Handle) :
    spare sh pcs c = spare sh pcs' c := by
  cases c with
  | listen => rfl
  | connect i => rw [spare, spare, uses_perm sh h]

/-- **The step lemma.** -/
theorem State.Keeping.kept_step {s t : State} {a : Action} (hs : s.Keeping)
    (hok : KeepsSockets s a) (hstep : IOCPServer.step s a = some t) : Kept t.shared t.pcs := by
  cases step_move hstep with
  | thread r pc pc' rest acts moves before after left =>
    refine ((hs.kept.perm before).thread (hok.reads _ acts) (fun io hio hmem => ?_)
      (fun h hh => ?_) moves).perm after.symm
    · exact hok.removes _ acts io hio ((acceptIos_perm _ before (.refl _)).mem_iff.mpr hmem)
    · rw [← spare_perm s.shared before]
      exact hok.drops _ acts h hh
  | kernel i ok n acts completes pcs left =>
    obtain ⟨haccept, -, hhandles, hsockets, hclosed⟩ := sameSockets_complete completes
    rw [pcs]
    exact hs.kept.shared haccept (complete_heap completes) hhandles hsockets
      (by rw [hclosed]; exact List.Subset.refl _) (complete_ops completes)
  | newListen left acts before after =>
    subst after
    have hs' : Kept s.shared (.wait :: s.workers) := by
      have hkept := hs.kept
      rwa [State.pcs, before] at hkept
    refine hs'.calm (.refl _) (fun i hi => ?_) rfl rfl trivial
    rw [uses_cons] at hi ⊢
    exact hi
  | control queue closed acts shared ops closes pcs left =>
    rw [pcs, shared]
    refine hs.kept.shared rfl rfl rfl rfl closes ?_
    rw [Shared.ops, Shared.ops, ops]

theorem State.Keeping.step {s t : State} {a : Action} (hs : s.Keeping) (hok : KeepsSockets s a)
    (hstep : IOCPServer.step s a = some t) : t.Keeping := by
  refine ⟨hs.kept_step hok hstep, fun hmain => ?_⟩
  cases a with
  | worker w r =>
    obtain ⟨pc, sh, pc', hw, hmoves, rfl⟩ := step_worker hstep
    obtain rfl := (hs.stopped hmain).2 pc (List.mem_of_getElem? hw)
    cases hmoves
  | kernel i ok n =>
    obtain ⟨sh, hcompletes, rfl⟩ := Option.map_eq_some_iff.mp hstep
    have hpending : s.shared.pending = [] := (List.append_eq_nil_iff.mp (hs.stopped hmain).1).1
    rw [Shared.complete, hpending] at hcompletes
    cases hcompletes
  | main r =>
    cases mainStep_move hstep with
    | stopped hwaiting hexited => exact ⟨hok.stops hwaiting, hexited⟩
    | _ => cases hmain
  | stop =>
    obtain ⟨-, rfl⟩ := step_stop hstep
    cases hmain

theorem State.Keeping.conserved {s : State} (hs : s.Keeping) : s.Conserved where
  held k hk hpos := by
    rcases hs.kept.held k hk hpos with hclosed | ⟨a, ha, hsocket⟩ | ⟨i, hi, huses⟩
    · exact Or.inl hclosed
    · exact Or.inr (Or.inl (List.mem_map.mpr ⟨a, holds_subset ha, hsocket⟩))
    · refine Or.inr (Or.inr ⟨i, (List.getElem?_eq_some_iff.mp hi).1, hi, huses, fun j _ hj => ?_⟩)
      exact hs.kept.handle_once j i k hj hi
  stopped hmain k hk hpos := by
    obtain ⟨hops, hexited⟩ := hs.stopped hmain
    have hpcs : ∀ pc ∈ s.pcs, pc.holds = [] ∧ ∀ i, pc.serves i = false := by
      intro pc hpc
      rcases List.mem_cons.mp hpc with rfl | hpc
      · rw [hmain]
        exact ⟨rfl, fun _ => rfl⟩
      · rw [hexited pc hpc]
        exact ⟨rfl, fun _ => rfl⟩
    rcases hs.kept.held k hk hpos with hclosed | ⟨a, ha, -⟩ | ⟨i, -, huses⟩
    · exact hclosed
    · rw [acceptIos, hops] at ha
      rcases List.mem_append.mp ha with ha | ha
      · obtain ⟨pc, hpc, ha⟩ := List.mem_flatMap.mp ha
        rw [(hpcs pc hpc).1] at ha
        cases ha
      · cases ha
    · have hzero : s.pcs.countP (Pc.serves i) = 0 :=
        List.countP_eq_zero.mpr fun pc hpc => by simp [(hpcs pc hpc).2 i]
      rw [uses, Shared.opCount, hops, hzero] at huses
      cases huses

/-- **The sockets are conserved in every run whose steps keep them.** -/
theorem conserved_of_keepsSockets {threadnum : ℕ} {run : List Action} {s : State}
    (hok : Along step KeepsSockets (init threadnum) run)
    (h : exec step (init threadnum) run = some s) : s.Conserved :=
  (invariant (fun _ _ _ => State.Keeping.step) (keeping_init threadnum) hok h).conserved

/-- A `Start` whose `AcceptEx` fail, and `Stop` with one worker. -/
def refusedRun : List Action :=
  (List.range maxPostAccept).flatMap (fun i =>
    List.replicate 3 (.main (.fine i)) ++ [.main { Reply.fine i with ok := false }]) ++
  [.main (.fine 0), .stop, .main (.fine 0), .main (.fine 0), .worker 0 (.fine 0), .main (.fine 0)]

/-- A send that completes late, and a `Stop` that returns. -/
theorem conserved_lateSend_refused :
    (∃ s, exec step (init 1) lateSendRun = some s ∧ s.Conserved) ∧
      ∃ s, exec step (init 1) refusedRun = some s ∧ s.main = .stopped ∧ s.Conserved := by
  constructor
  · obtain ⟨s, hs⟩ : ∃ s, exec step (init 1) lateSendRun = some s :=
      Option.isSome_iff_exists.mp (by decide +kernel)
    have hok : Along step KeepsSockets (init 1) lateSendRun := by decide +kernel
    exact ⟨s, hs, conserved_of_keepsSockets hok hs⟩
  · obtain ⟨s, hs⟩ : ∃ s, exec step (init 1) refusedRun = some s :=
      Option.isSome_iff_exists.mp (by decide +kernel)
    have hok : Along step KeepsSockets (init 1) refusedRun := by decide +kernel
    have hstopped : ∀ s ∈ exec step (init 1) refusedRun, s.main = .stopped := by decide +kernel
    exact ⟨s, hs, hstopped s hs, conserved_of_keepsSockets hok hs⟩

theorem not_conserved_left :
    ¬ ∀ threadnum run s, exec step (init threadnum) run = some s → s.Conserved := by
  intro hall
  obtain ⟨s, hs⟩ : ∃ s, exec step (init 1) leftRun = some s :=
    Option.isSome_iff_exists.mp (by decide +kernel)
  have hbad : ∀ s ∈ exec step (init 1) leftRun, ¬ ∀ k < s.shared.sockets, 0 < k →
      k ∈ s.shared.closed ∨ some k ∈ (accepts s.shared s.pcs).map s.shared.acceptsocket ∨
        Connected s.shared s.pcs k := by
    decide +kernel
  exact hbad s hs (hall 1 leftRun s hs).held

end AMSServer.IOCPServer
