import AMSServer.Foundations.Ledger
import AMSServer.IOCPServer.Operations

/-!
# The io of an operation

Every overlapped operation should refer to the io it was posted with until its packet is read
(`State.Settled`). The ledger of the server has one reference for each operation that is pending,
queued or just dequeued, and one for each io that a thread works on. A thread that posts an
operation passes its reference on; `PostSend` alone keeps the right to delete, and uses it while the
system still has the send.

The ledger stays sound as long as `RemoveIOData` finds no operation with its io (`RemovesUnused`),
and exactly then the operations keep their io.
-/

namespace AMSServer.IOCPServer

open HttpServer Transition
open Ledger (Ref Sound)

/-! ## The operations -/

/-- The operation whose packet a thread has dequeued and not looked at yet. -/
def Pc.ops : Pc → List Op
  | got op _ => [op]
  | _ => []

def State.ops (s : State) : List Op := s.shared.ops ++ s.pcs.flatMap Pc.ops

/-- The io is the one of the operation: the same allocation, the type it was posted with, and made
by the handle that is the completion key. -/
def Op.Agrees (op : Op) (c : Cell) : Prop :=
  c.gen = op.gen ∧ c.operationtype = op.kind ∧ c.owner = op.key

instance (op : Op) (c : Cell) : Decidable (op.Agrees c) := inferInstanceAs (Decidable (_ ∧ _))

/-- Every operation finds its io. -/
def State.Settled (s : State) : Prop :=
  ∀ op ∈ s.ops, ∃ c ∈ s.shared.heap op.addr, op.Agrees c

instance (s : State) : Decidable s.Settled :=
  inferInstanceAs (Decidable (∀ op ∈ s.ops, ∃ c ∈ s.shared.heap op.addr, op.Agrees c))

/-- The io a thread deletes next because its send was posted. -/
def Pc.removes : Pc → Option Addr
  | removeSent _ io => some io
  | _ => none

/-- `PostSend` deletes no io that an operation still refers to. -/
def RemovesUnused (s : State) (a : Action) : Prop :=
  ∀ x ∈ s.acting a, ∀ op ∈ s.ops, x.1.removes ≠ some op.addr

instance (s : State) (a : Action) : Decidable (RemovesUnused s a) :=
  inferInstanceAs (Decidable (∀ x ∈ s.acting a, ∀ op ∈ s.ops, x.1.removes ≠ some op.addr))

/-! ## The ledger -/

/-- An operation uses its io, and but for a send it will be the one to hand it on. -/
def Op.ref (op : Op) : Ref Addr Cell := ⟨op.addr, true, op.kind != .sendPosted, op.Agrees⟩

/-- An io that a thread works on. -/
def working (io : Addr) : Ref Addr Cell := ⟨io, true, true, fun _ => True⟩

/-- An io of a handle, that a thread works on. -/
def workingFor (h : Handle) (io : Addr) : Ref Addr Cell := ⟨io, true, true, fun c => c.owner = h⟩

/-- An io that a thread may only delete. -/
def removing (io : Addr) : Ref Addr Cell := ⟨io, false, true, fun _ => True⟩

/-- The references of a thread. -/
def Pc.refs : Pc → List (Ref Addr Cell)
  | wait => []
  | exited => []
  | got op _ => [op.ref]
  | doAcceptEx lio => [working lio]
  | acceptAssoc lio _ => [working lio]
  | acceptDerive lio _ => [working lio]
  | acceptNewIOData lio _ => [working lio]
  | acceptRecv lio h cio => [workingFor h cio, working lio]
  | acceptRemove lio => [working lio]
  | newListen => []
  | postAcceptEx lio => [workingFor .listen lio]
  | callAcceptEx lio => [workingFor .listen lio]
  | doRecv h io => [workingFor h io]
  | rePost h io => [workingFor h io]
  | postSend h io _ => [workingFor h io]
  | removeSent _ io => [removing io]
  | newRecv _ => []
  | postRecv h io => [workingFor h io]

/-- The ledger of some references next to those of the operations is sound. -/
def Held (sh : Shared) (refs : List (Ref Addr Cell)) : Prop :=
  Sound sh.heap (refs ++ sh.ops.map Op.ref)

namespace Held

variable {sh sh' : Shared} {refs refs' : List (Ref Addr Cell)} {io : Addr} {h : Handle}

theorem perm (hs : Held sh refs) (hp : refs.Perm refs') : Held sh refs' :=
  Sound.perm hs (hp.append_right _)

theorem tail {r : Ref Addr Cell} (hs : Held sh (r :: refs)) : Held sh refs :=
  Sound.tail hs

/-- Only the heap and the operations matter. -/
theorem congr (hs : Held sh refs) (hheap : sh'.heap = sh.heap) (hops : sh'.ops.Perm sh.ops) :
    Held sh' refs := by
  rw [Held, hheap]
  exact Sound.perm hs (.append_left _ (hops.map _).symm)

/-- The reference of an operation may be counted on either side. -/
theorem of_op {op : Op} {ops : List Op} (hops : sh.ops.Perm (op :: ops))
    (hs : Sound sh.heap (op.ref :: (refs ++ ops.map Op.ref))) : Held sh refs :=
  hs.perm (List.perm_middle.symm.trans (.append_left _ (hops.map _).symm))

theorem to_op {op : Op} {ops : List Op} (hops : sh.ops.Perm (op :: ops)) (hs : Held sh refs) :
    Sound sh.heap (op.ref :: (refs ++ ops.map Op.ref)) :=
  Sound.perm hs ((List.Perm.append_left _ (hops.map _)).trans List.perm_middle)

/-- A thread works on the io of an operation that it has dequeued. -/
theorem work {op : Op} (hs : Held sh (op.ref :: refs)) (hkind : op.kind ≠ .sendPosted) :
    Held sh (workingFor op.key op.addr :: refs) := by
  refine Sound.replace hs rfl (fun _ => rfl) (fun _ => ?_) (Or.inl rfl) fun c _ hc => hc.2.2
  simp [Op.ref, hkind]

/-- The handle of an io no longer matters. -/
theorem forget (hs : Held sh (workingFor h io :: refs)) : Held sh (working io :: refs) :=
  Sound.replace hs rfl id id (Or.inl rfl) fun _ _ _ => trivial

/-- The owner of an io that a thread works on. -/
theorem owner {c : Cell} (hs : Held sh (workingFor h io :: refs)) (hc : sh.heap io = some c) :
    c.owner = h := by
  obtain ⟨c', hc', howner⟩ := hs.live (workingFor h io) List.mem_cons_self
  obtain rfl : c = c' := Option.some.inj (hc.symm.trans hc')
  exact howner

/-- A write that keeps the owner, by the thread that works on the io. -/
theorem setCell {c c' : Cell} (hs : Held sh (workingFor h io :: refs)) (hc : sh.heap io = some c)
    (howner : c'.owner = c.owner) : Held (sh.setCell io c') (workingFor h io :: refs) :=
  Sound.write hs rfl rfl (howner.trans (hs.owner hc))

theorem getNewIOData (hs : Held sh refs) (hnew : sh.getNewIOData io h = some sh') :
    Held sh' (workingFor h io :: refs) := by
  rw [Shared.getNewIOData] at hnew
  split at hnew
  · cases hnew
  next hfree =>
    cases hnew
    exact Sound.alloc (r := workingFor h io) hs hfree rfl (Or.inl rfl)

theorem removeIOData {r : Ref Addr Cell} (hs : Held sh (r :: refs)) (ho : r.owns = true)
    (hunused : ∀ r' ∈ refs ++ sh.ops.map Op.ref, r'.owns = false → r'.addr ≠ r.addr)
    (hremove : sh.removeIOData r.addr = some sh') : Held sh' refs := by
  rw [Shared.removeIOData] at hremove
  split at hremove
  · cases hremove
  · cases hremove
    exact Sound.free hs ho hunused

/-- A call that fails leaves the io with the thread. -/
theorem post_false {kind : OperationType} (hs : Held sh (workingFor h io :: refs))
    (hpost : sh.post io kind h false = some sh') : Held sh' (workingFor h io :: refs) := by
  rw [Shared.post] at hpost
  split at hpost
  · cases hpost
  next c hc =>
    cases hpost
    exact hs.setCell hc rfl

/-- A call that succeeds passes the use of the io on to the operation, with the right to delete it
unless the operation is a send. -/
theorem post_true {kind : OperationType} (hs : Held sh (workingFor h io :: refs))
    (hpost : sh.post io kind h true = some sh') :
    if kind = .sendPosted then Held sh' (removing io :: refs) else Held sh' refs := by
  rw [Shared.post] at hpost
  split at hpost
  · cases hpost
  next c hc =>
    simp only [reduceIte] at hpost
    cases hpost
    have howner : c.owner = h := hs.owner hc
    have hset : Held (sh.setCell io { c with operationtype := kind }) (workingFor h io :: refs) :=
      hs.setCell hc rfl
    have hagrees : ∀ d, (sh.setCell io { c with operationtype := kind }).heap io = some d →
        Op.Agrees ⟨io, c.gen, kind, h⟩ d := by
      intro d hd
      obtain rfl := Option.some.inj ((Function.update_self io _ sh.heap).symm.trans hd)
      exact ⟨rfl, rfl, howner⟩
    have hops : ((sh.pending ++ [Op.mk io c.gen kind h]) ++ sh.queue.filterMap Packet.op?).Perm
        (Op.mk io c.gen kind h :: sh.ops) := by
      simp [Shared.ops]
    split_ifs with hkind
    · refine of_op hops (Sound.split hset rfl rfl ⟨rfl, rfl, ?_⟩ ⟨rfl, rfl, rfl⟩ ?_)
      · simp [Op.ref, hkind]
      · exact fun d hd _ => ⟨hagrees d hd, trivial⟩
    · refine of_op hops (Sound.replace hset rfl (fun _ => rfl) (fun _ => rfl) (Or.inl rfl) ?_)
      exact fun d hd _ => hagrees d hd

/-- The system takes an io to receive or to accept on, or leaves it with the thread, which drops it.
-/
theorem post {kind : OperationType} {ok : Bool} (hs : Held sh (workingFor h io :: refs))
    (hkind : kind ≠ .sendPosted) (hpost : sh.post io kind h ok = some sh') : Held sh' refs := by
  cases ok with
  | false => exact (hs.post_false hpost).tail
  | true => simpa [hkind] using hs.post_true hpost

theorem newAcceptSocket {ok : Bool} (hs : Held sh (workingFor h io :: refs))
    (hnew : sh.newAcceptSocket io ok = some sh') : Held sh' (workingFor h io :: refs) := by
  rw [Shared.newAcceptSocket] at hnew
  split at hnew
  · cases hnew
  next c hc =>
    split at hnew <;> cases hnew
    · exact hs.setCell hc rfl
    · exact hs.setCell hc rfl

theorem closeAcceptSocket (hs : Held sh (workingFor h io :: refs))
    (hclose : sh.closeAcceptSocket io = some sh') : Held sh' (workingFor h io :: refs) := by
  rw [Shared.closeAcceptSocket] at hclose
  split at hclose
  · cases hclose
  next c hc =>
    cases hclose
    exact hs.setCell hc rfl

end Held

/-! ## What a thread keeps -/

/-- The `operationtype` that is read is the one of the operation. -/
theorem Held.readType {sh : Shared} {refs : List (Ref Addr Cell)} {op : Op}
    (hs : Held sh (op.ref :: refs)) (garbage : OperationType) :
    sh.readType op.addr garbage = op.kind := by
  obtain ⟨c, hc, hagrees⟩ := hs.live op.ref List.mem_cons_self
  change sh.heap op.addr = some c at hc
  rw [Shared.readType, hc]
  exact hagrees.2.1

/-- The `switch` hands the io to the handler of its type, and drops the one of a send. -/
theorem Held.dispatch {sh : Shared} {refs : List (Ref Addr Cell)} {op : Op} {n : ℕ}
    (hs : Held sh (op.ref :: refs)) : Held sh ((dispatch op n op.kind).refs ++ refs) := by
  rcases dispatch_cases op n op.kind with ⟨hkind, h⟩ | ⟨hkind, -, h⟩ | ⟨-, -, h⟩
  · rw [h]
    exact (hs.work (by simp [hkind])).forget
  · rw [h]
    exact hs.work (by simp [hkind])
  · rw [h]
    exact hs.tail

theorem Held.thread {sh sh' : Shared} {r : Reply} {pc pc' : Pc} {refs : List (Ref Addr Cell)}
    (hs : Held sh (pc.refs ++ refs))
    (hremoves : ∀ io, pc.removes = some io →
      ∀ r ∈ refs ++ sh.ops.map Op.ref, r.owns = false → r.addr ≠ io)
    (hmoves : threadStep sh r pc = some (sh', pc')) : Held sh' (pc'.refs ++ refs) := by
  cases threadStep_move hmoves with
  | dequeueClose queue hqueue =>
    refine hs.congr rfl ?_
    rw [Shared.ops, Shared.ops, hqueue, List.filterMap_cons_none rfl]
  | dequeue op ok n queue hqueue =>
    have hops : sh.ops.Perm (op :: { sh with queue }.ops) := by
      rw [Shared.ops, hqueue]
      exact List.perm_middle
    have hdequeued : Held { sh with queue } (op.ref :: refs) := by
      have hsound := to_op hops hs
      exact hsound
    cases ok with
    | true => exact hdequeued
    | false => exact hdequeued.tail
  | got op n =>
    have hs : Held sh (op.ref :: refs) := hs
    rw [hs.readType]
    exact hs.dispatch
  | doAcceptEx lio c hc => exact hs.congr rfl (List.Perm.refl _)
  | acceptAssoc lio h =>
    cases r.ok with
    | true => exact hs
    | false => exact hs.tail
  | acceptDerive lio h =>
    cases r.ok with
    | true => exact hs
    | false => exact hs.tail
  | acceptNewIOData lio h hnew => exact hs.getNewIOData hnew
  | acceptRecv lio h cio hpost => exact hs.post (by decide) hpost
  | acceptRemove lio hremove =>
    refine hs.removeIOData rfl (fun r' hr' _ => ?_) hremove
    exact Sound.addr_ne hs rfl rfl hr'
  | newListen hnew => exact hs.getNewIOData hnew
  | postAcceptEx lio hnew =>
    have hs' := hs.newAcceptSocket hnew
    cases r.ok with
    | true => exact hs'
    | false => exact hs'.tail
  | callAcceptEx lio hok hpost => exact hs.post (by decide) hpost
  | failAcceptEx lio hok hpost hclose =>
    exact ((hs.post_false hpost).closeAcceptSocket hclose).tail
  | doRecv h io c v hc hv =>
    cases v with
    | noGet => exact hs.tail
    | incomplete => exact hs
    | unanswered => exact hs
    | answered payload => exact hs
  | rePost h io hpost => exact hs.post (by decide) hpost
  | postSend h io built hpost =>
    cases hok : built && r.ok with
    | true =>
      rw [hok] at hpost
      have hsent := hs.post_true hpost
      rw [if_pos rfl] at hsent
      exact hsent
    | false =>
      rw [hok] at hpost
      exact (hs.post_false hpost).tail
  | removeSent h io hremove => exact hs.removeIOData rfl (hremoves io rfl) hremove
  | newRecv h hnew => exact hs.getNewIOData hnew
  | postRecv h io hpost => exact hs.post (by decide) hpost

/-! ## What the server keeps -/

/-- The ledger of the server is sound. -/
def State.Sound (s : State) : Prop := Held s.shared (s.pcs.flatMap Pc.refs)

theorem sound_init (threadnum : ℕ) : (init threadnum).Sound := by
  have hrefs : (init threadnum).pcs.flatMap Pc.refs = [] := by
    simp [init, State.pcs, Main.pc, Pc.refs]
  rw [State.Sound, hrefs]
  exact Ledger.Sound.nil

theorem ref_of_mem_ops {s : State} {op : Op} (h : op ∈ s.ops) :
    op.ref ∈ s.pcs.flatMap Pc.refs ++ s.shared.ops.map Op.ref := by
  rcases List.mem_append.mp h with hop | hop
  · exact List.mem_append_right _ (List.mem_map_of_mem hop)
  · obtain ⟨pc, hpc, hop⟩ := List.mem_flatMap.mp hop
    refine List.mem_append_left _ (List.mem_flatMap.mpr ⟨pc, hpc, ?_⟩)
    cases pc with
    | got op' n =>
      obtain rfl := List.mem_singleton.mp hop
      exact List.mem_singleton.mpr rfl
    | _ => cases hop

/-- What a thread may not own, an operation refers to. -/
theorem mem_ops_of_ref {s : State} {r : Ref Addr Cell}
    (h : r ∈ s.pcs.flatMap Pc.refs ++ s.shared.ops.map Op.ref) (ho : r.owns = false) :
    ∃ op ∈ s.ops, op.addr = r.addr := by
  rcases List.mem_append.mp h with hr | hr
  · obtain ⟨pc, hpc, hr⟩ := List.mem_flatMap.mp hr
    cases pc with
    | got op n =>
      obtain rfl := List.mem_singleton.mp hr
      exact ⟨op, List.mem_append_right _
        (List.mem_flatMap.mpr ⟨_, hpc, List.mem_singleton.mpr rfl⟩), rfl⟩
    | acceptRecv lio h cio =>
      rcases List.mem_cons.mp hr with rfl | hr
      · cases ho
      · obtain rfl := List.mem_singleton.mp hr
        cases ho
    | wait | exited | newListen | newRecv _ => cases hr
    | _ =>
      obtain rfl := List.mem_singleton.mp hr
      cases ho
  · obtain ⟨op, hop, rfl⟩ := List.mem_map.mp hr
    exact ⟨op, List.mem_append_left _ hop, rfl⟩

/-- **The step lemma.** -/
theorem State.Sound.step {s t : State} {a : Action} (hs : s.Sound) (hok : RemovesUnused s a)
    (h : IOCPServer.step s a = some t) : t.Sound := by
  cases step_move h with
  | thread r pc pc' rest acts moves before after left =>
    have hheld : Held s.shared (pc.refs ++ rest.flatMap Pc.refs) :=
      hs.perm (before.flatMap_right _)
    refine (hheld.thread (fun io hio r' hr' ho => ?_) moves).perm (after.flatMap_right _).symm
    have hmem : r' ∈ s.pcs.flatMap Pc.refs ++ s.shared.ops.map Op.ref := by
      apply ((before.flatMap_right _).append_right _).mem_iff.mpr
      rw [List.flatMap_cons, List.append_assoc]
      exact List.mem_append_right _ hr'
    obtain ⟨op, hop, haddr⟩ := mem_ops_of_ref hmem ho
    have hne := hok (pc, r) acts op hop
    rw [← haddr]
    rintro rfl
    exact hne hio
  | kernel i ok n acts completes pcs left =>
    rw [State.Sound, pcs]
    exact hs.congr (complete_heap completes) (complete_ops completes)
  | newListen left acts before after =>
    subst after
    simpa [State.Sound, State.pcs, before, Main.pc, Pc.refs] using hs
  | control queue closed acts shared ops closes pcs left =>
    rw [State.Sound, pcs, shared]
    refine hs.congr rfl ?_
    simp only [Shared.ops, ops]
    exact List.Perm.refl _

/-- Under a sound ledger a thread finds the io it refers to. -/
theorem State.Sound.exists_cell {s : State} (hs : s.Sound) {pc : Pc} (hpc : pc ∈ s.pcs)
    {r : Ref Addr Cell} (hr : r ∈ pc.refs) : ∃ c, s.shared.heap r.addr = some c := by
  obtain ⟨c, hc, -⟩ := hs.live r (List.mem_append_left _ (List.mem_flatMap.mpr ⟨pc, hpc, hr⟩))
  exact ⟨c, hc⟩

/-- Under a sound ledger every operation finds its io. -/
theorem State.Sound.settled {s : State} (hs : s.Sound) : s.Settled := by
  intro op hop
  obtain ⟨c, hc, hagrees⟩ := hs.live op.ref (ref_of_mem_ops hop)
  exact ⟨c, hc, hagrees⟩

/-- Under a sound ledger a packet is read as the operation it is of. -/
theorem State.Sound.readType {s : State} (hs : s.Sound) {a : Action} {op : Op} {n : ℕ} {r : Reply}
    (acts : s.acting a = some (.got op n, r)) : s.shared.readType op.addr r.garbage = op.kind := by
  have hmem : op ∈ s.ops := by
    refine List.mem_append_right _ (List.mem_flatMap.mpr ⟨.got op n, mem_pcs_of_acting acts, ?_⟩)
    exact List.mem_singleton.mpr rfl
  obtain ⟨c, hc, hagrees⟩ := hs.settled op hmem
  rw [Shared.readType, Option.mem_def.mp hc]
  exact hagrees.2.1

/-- Deleting an io that an operation refers to leaves the operation without it. -/
theorem removesUnused_of_settled {s : State} {a : Action} (hs : s.Settled)
    (ht : ∀ t, IOCPServer.step s a = some t → t.Settled) : RemovesUnused s a := by
  rintro ⟨pc, r⟩ hacts op hop hremoves
  cases pc with
  | removeSent h io =>
    obtain rfl : io = op.addr := Option.some.inj hremoves
    obtain ⟨c, hc, -⟩ := hs op hop
    have hmoves : threadStep s.shared r (.removeSent h op.addr) =
        some ({ s.shared with heap := Function.update s.shared.heap op.addr none },
          .newRecv h) := by
      rw [threadStep, Shared.removeIOData, Option.mem_def.mp hc]
      rfl
    obtain ⟨t, hstep⟩ := step_of_acting hacts hmoves
    cases step_move hstep with
    | thread r' pc pc' rest acts moves before after left =>
      cases hacts.symm.trans acts
      obtain ⟨hshared, rfl⟩ := Prod.mk.inj (Option.some.inj (hmoves.symm.trans moves))
      have hmem : op ∈ t.ops := by
        rcases List.mem_append.mp hop with hop | hop
        · exact List.mem_append_left _ (hshared ▸ hop)
        · exact List.mem_append_right _
            ((after.flatMap_right _).mem_iff.mpr ((before.flatMap_right _).mem_iff.mp hop))
      obtain ⟨c', hc', -⟩ := ht t hstep op hmem
      rw [← hshared] at hc'
      cases (Function.update_self op.addr none s.shared.heap).symm.trans hc'
    | kernel i ok n acts completes pcs left =>
      subst acts
      cases hacts
    | newListen left acts before after => cases hacts.symm.trans acts
    | control queue closed acts shared ops closes pcs left => cases hacts.symm.trans acts
  | _ => cases hremoves

/-- A packet is read as an operation of a kind when it is one. -/
def readsKind (kind : OperationType) (sh : Shared) (r : Reply) : Pc → Bool
  | .got op _ => sh.readType op.addr r.garbage = kind ↔ op.kind = kind
  | _ => true

/-- A step at which nothing is taken for an operation of a kind that is none, or the other way
round. -/
def ReadsKind (kind : OperationType) (s : State) (a : Action) : Prop :=
  ∀ x ∈ s.acting a, readsKind kind s.shared x.2 x.1 = true

instance (kind : OperationType) (s : State) (a : Action) : Decidable (ReadsKind kind s a) :=
  inferInstanceAs (Decidable (∀ x ∈ s.acting a, readsKind kind s.shared x.2 x.1 = true))

/-- Every packet is read as what it is while `PostSend` deletes no io that an operation refers to.
-/
theorem along_readsKind (kind : OperationType) {threadnum : ℕ} {run : List Action}
    (h : Along step RemovesUnused (init threadnum) run) :
    Along step (ReadsKind kind) (init threadnum) run := by
  refine h.of_invariant (fun _ _ _ => State.Sound.step) (fun s a hs => ?_) (sound_init threadnum)
  rintro ⟨pc, r⟩ acts
  cases pc with
  | got op n =>
    rw [readsKind, hs.readType acts]
    exact decide_eq_true Iff.rfl
  | _ => rfl

/-- **The operations keep their io exactly when `PostSend` deletes none that an operation refers
to.** -/
theorem settled_iff (threadnum : ℕ) (run : List Action) :
    (∀ run' s, run' <+: run → exec step (init threadnum) run' = some s → s.Settled) ↔
      Along step RemovesUnused (init threadnum) run := by
  constructor
  · intro h
    exact along_of_prefix (fun _ _ => removesUnused_of_settled) h
  · intro h run' s hpre hrun
    exact (invariant_before (fun _ _ _ => State.Sound.step) (sound_init threadnum) h hpre
      hrun).settled

/-! ## A send that completes late -/

/-- Calls succeed, an allocation returns `addr`, and a message is a plain request. -/
def Reply.fine (addr : Addr) : Reply :=
  ⟨true, addr, localhost, "GET / HTTP/1.1\r\n\r\n".toList, .nullPosted⟩

/-- The first `PostAcceptEx` of `Start`, and a client that connects. -/
def connectRun : List Action :=
  List.replicate 4 (.main (.fine 0)) ++ [.kernel 0 true 0] ++
    List.replicate 8 (.worker 0 (.fine 1)) ++ List.replicate 3 (.worker 0 (.fine 2))

/-- The client leaves. -/
def leftRun : List Action :=
  connectRun ++ [.kernel 0 true 0] ++ List.replicate 2 (.worker 0 (.fine 3))

/-- A request is answered, the new io has the address of the deleted one, and then the send
completes. -/
def lateSendRun : List Action :=
  connectRun ++ [.kernel 0 true 18] ++ List.replicate 7 (.worker 0 (.fine 1)) ++
    [.kernel 1 true 1500]

theorem not_settled_lateSend :
    ¬ ∀ threadnum run s, exec step (init threadnum) run = some s → s.Settled := by
  intro hall
  obtain ⟨s, hs⟩ : ∃ s, exec step (init 1) lateSendRun = some s :=
    Option.isSome_iff_exists.mp (by decide +kernel)
  have hbad : ∀ s ∈ exec step (init 1) lateSendRun, ¬ s.Settled := by decide +kernel
  exact hbad s hs (hall 1 lateSendRun s hs)

-- the send is taken for a receive
example : ((exec step (init 1) (lateSendRun ++ List.replicate 2 (.worker 0 (.fine 2)))).map
    State.workers) = some [.doRecv (.connect 0) 1] := by decide +kernel

end AMSServer.IOCPServer
