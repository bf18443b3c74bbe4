import AMSServer.IOCPServer.Ownership

/-!
# The io that nobody has

Every `PerIOData` that was allocated and not deleted should be in use (`State.NoLeak`): a thread
works on it, or exactly one operation that is pending or queued has it.

The ledger of this module differs from that of the operations in one point. `PostSend` deletes the
io of its send itself, so the thread keeps the reference and the send has none. The ledger is exact
as long as no step drops an io (`keepsIo`). All the steps that drop one are failures: a completion
that failed or is empty, a call of the system that fails, a message without `GET`, and an answer
that cannot be built.
-/

namespace AMSServer.IOCPServer

open HttpServer Transition
open Ledger (Ref Exact)

/-! ## Who has an io -/

/-- The reference of an operation that will hand its io on. -/
def Op.owned (op : Op) : List (Ref Addr Cell) := if op.kind = .sendPosted then [] else [op.ref]

/-- The io that a thread has to free or to post. -/
def Pc.held : Pc → List (Ref Addr Cell)
  | got op _ => op.owned
  | removeSent _ io => [working io]
  | pc => pc.refs

/-- The io that a thread works on. -/
def Pc.ios (pc : Pc) : List Addr := pc.held.map Ref.addr

/-- **Every io is in use**: it is in the hands of a thread, or of exactly one operation. -/
def State.NoLeak (s : State) : Prop :=
  ∀ a c, s.shared.heap a = some c → a ∈ s.pcs.flatMap Pc.ios ∨
    s.shared.ops.countP (fun op => op.addr = a ∧ op.gen = c.gen) = 1

/-- A step of a thread that drops no io. -/
def keepsIo (sh : Shared) (r : Reply) : Pc → Bool
  | .wait =>
    match sh.queue with
    | .io op false _ :: _ => op.kind = .sendPosted
    | _ => true
  | .got op n => dispatch op n (sh.readType op.addr r.garbage) = .wait ↔ op.kind = .sendPosted
  | .acceptAssoc _ _ => r.ok
  | .acceptDerive _ _ => r.ok
  | .acceptRecv _ _ _ => r.ok
  | .postAcceptEx _ => r.ok
  | .callAcceptEx _ => r.ok
  | .doRecv _ _ => verdict r.peer r.message ≠ .ok .noGet
  | .rePost _ _ => r.ok
  | .postSend _ _ built => built && r.ok
  | .postRecv _ _ => r.ok
  | _ => true

/-- **A step that drops no io.** -/
def KeepsIo (s : State) (a : Action) : Prop := ∀ x ∈ s.acting a, keepsIo s.shared x.2 x.1 = true

instance (s : State) (a : Action) : Decidable (KeepsIo s a) :=
  inferInstanceAs (Decidable (∀ x ∈ s.acting a, keepsIo s.shared x.2 x.1 = true))

/-! ## The ledger -/

/-- The ledger of some references next to those of the operations is exact. -/
def Tight (sh : Shared) (refs : List (Ref Addr Cell)) : Prop :=
  Exact sh.heap (refs ++ sh.ops.flatMap Op.owned)

namespace Tight

variable {sh sh' : Shared} {refs refs' : List (Ref Addr Cell)} {io : Addr} {h : Handle}

theorem perm (hs : Tight sh refs) (hp : refs.Perm refs') : Tight sh refs' :=
  Exact.perm hs (hp.append_right _)

theorem congr (hs : Tight sh refs) (hheap : sh'.heap = sh.heap) (hops : sh'.ops.Perm sh.ops) :
    Tight sh' refs := by
  rw [Tight, hheap]
  exact Exact.perm hs (.append_left _ (hops.flatMap_right _).symm)

/-- The reference of an operation may be counted on either side. -/
theorem of_op {op : Op} {ops : List Op} (hops : sh.ops.Perm (op :: ops))
    (hs : Exact sh.heap (op.owned ++ (refs ++ ops.flatMap Op.owned))) : Tight sh refs := by
  refine Exact.perm hs (.trans ?_ (.append_left _ (hops.flatMap_right _).symm))
  rw [List.flatMap_cons]
  exact List.perm_append_comm_assoc _ _ _

theorem to_op {op : Op} {ops : List Op} (hops : sh.ops.Perm (op :: ops)) (hs : Tight sh refs) :
    Exact sh.heap (op.owned ++ (refs ++ ops.flatMap Op.owned)) := by
  refine Exact.perm hs ((List.Perm.append_left _ (hops.flatMap_right _)).trans ?_)
  rw [List.flatMap_cons]
  exact List.perm_append_comm_assoc _ _ _

/-- A thread works on the io of an operation that it has dequeued. -/
theorem work {op : Op} (hs : Tight sh (op.owned ++ refs)) (hkind : op.kind ≠ .sendPosted) :
    Tight sh (workingFor op.key op.addr :: refs) := by
  rw [Op.owned, if_neg hkind] at hs
  refine Exact.replace hs rfl (fun _ => rfl) (fun _ => ?_) (Or.inl rfl) fun c _ hc => hc.2.2
  simp [Op.ref, hkind]

/-- The handle of an io no longer matters. -/
theorem forget (hs : Tight sh (workingFor h io :: refs)) : Tight sh (working io :: refs) :=
  Exact.replace hs rfl id id (Or.inl rfl) fun _ _ _ => trivial

theorem owner {c : Cell} (hs : Tight sh (workingFor h io :: refs)) (hc : sh.heap io = some c) :
    c.owner = h := by
  obtain ⟨c', hc', howner⟩ := hs.live (workingFor h io) List.mem_cons_self
  obtain rfl : c = c' := Option.some.inj (hc.symm.trans hc')
  exact howner

theorem setCell {c c' : Cell} (hs : Tight sh (workingFor h io :: refs)) (hc : sh.heap io = some c)
    (howner : c'.owner = c.owner) : Tight (sh.setCell io c') (workingFor h io :: refs) :=
  Exact.write hs rfl rfl (howner.trans (hs.owner hc))

theorem getNewIOData (hs : Tight sh refs) (hnew : sh.getNewIOData io h = some sh') :
    Tight sh' (workingFor h io :: refs) := by
  rw [Shared.getNewIOData] at hnew
  split at hnew
  · cases hnew
  next hfree =>
    cases hnew
    exact Exact.alloc (r := workingFor h io) hs hfree rfl (Or.inl rfl)

theorem removeIOData (hs : Tight sh (working io :: refs))
    (hremove : sh.removeIOData io = some sh') : Tight sh' refs := by
  rw [Shared.removeIOData] at hremove
  split at hremove
  · cases hremove
  · cases hremove
    exact Exact.free hs rfl rfl

theorem newAcceptSocket {ok : Bool} (hs : Tight sh (workingFor h io :: refs))
    (hnew : sh.newAcceptSocket io ok = some sh') : Tight sh' (workingFor h io :: refs) := by
  rw [Shared.newAcceptSocket] at hnew
  split at hnew
  · cases hnew
  next c hc =>
    split at hnew <;> cases hnew
    · exact hs.setCell hc rfl
    · exact hs.setCell hc rfl

/-- A call that succeeds passes the io on to its operation, and a send leaves it with the thread. -/
theorem post {kind : OperationType} (hs : Tight sh (workingFor h io :: refs))
    (hpost : sh.post io kind h true = some sh') :
    Tight sh' (if kind = .sendPosted then working io :: refs else refs) := by
  rw [Shared.post] at hpost
  split at hpost
  · cases hpost
  next c hc =>
    simp only [reduceIte] at hpost
    cases hpost
    have howner : c.owner = h := hs.owner hc
    have hset : Tight (sh.setCell io { c with operationtype := kind }) (workingFor h io :: refs) :=
      hs.setCell hc rfl
    have hops : ((sh.pending ++ [Op.mk io c.gen kind h]) ++ sh.queue.filterMap Packet.op?).Perm
        (Op.mk io c.gen kind h :: sh.ops) := by
      simp [Shared.ops]
    refine of_op hops ?_
    split_ifs with hkind
    · rw [Op.owned, if_pos hkind]
      exact hset.forget
    · rw [Op.owned, if_neg hkind]
      refine Exact.replace hset rfl (fun _ => rfl) (fun _ => rfl) (Or.inl rfl) fun d hd _ => ?_
      obtain rfl := Option.some.inj ((Function.update_self io _ sh.heap).symm.trans hd)
      exact ⟨rfl, rfl, howner⟩

/-- The `operationtype` of an operation that has its io is read as it is. -/
theorem readType {op : Op} (hs : Tight sh (op.owned ++ refs)) (hkind : op.kind ≠ .sendPosted)
    (garbage : OperationType) : sh.readType op.addr garbage = op.kind := by
  rw [Op.owned, if_neg hkind] at hs
  obtain ⟨c, hc, hagrees⟩ := hs.live op.ref List.mem_cons_self
  change sh.heap op.addr = some c at hc
  rw [Shared.readType, hc]
  exact hagrees.2.1

/-- The `switch` hands on the io of an operation that has it. -/
theorem dispatch {op : Op} {n : ℕ} (hs : Tight sh (op.owned ++ refs)) (garbage : OperationType)
    (hkeeps : dispatch op n (sh.readType op.addr garbage) = .wait ↔ op.kind = .sendPosted) :
    Tight sh ((dispatch op n (sh.readType op.addr garbage)).held ++ refs) := by
  by_cases hkind : op.kind = .sendPosted
  · rw [hkeeps.mpr hkind]
    rwa [Op.owned, if_pos hkind] at hs
  · have hdispatch := hkeeps.not.mpr hkind
    rw [hs.readType hkind] at hdispatch ⊢
    rcases dispatch_cases op n op.kind with ⟨-, h⟩ | ⟨-, -, h⟩ | ⟨-, -, h⟩
    · rw [h]
      exact (hs.work hkind).forget
    · rw [h]
      exact hs.work hkind
    · exact absurd h hdispatch

/-- **A step of a thread that drops no io keeps the ledger exact.** -/
theorem thread {r : Reply} {pc pc' : Pc} (hs : Tight sh (pc.held ++ refs))
    (hkeeps : keepsIo sh r pc = true) (hmoves : threadStep sh r pc = some (sh', pc')) :
    Tight sh' (pc'.held ++ refs) := by
  cases threadStep_move hmoves with
  | dequeueClose queue hqueue =>
    refine hs.congr rfl ?_
    rw [Shared.ops, Shared.ops, hqueue, List.filterMap_cons_none rfl]
  | dequeue op ok n queue hqueue =>
    have hops : sh.ops.Perm (op :: Shared.ops { sh with queue }) := by
      rw [Shared.ops, hqueue]
      exact List.perm_middle
    have hexact := to_op hops hs
    have hdequeued : Tight { sh with queue } (op.owned ++ refs) := by
      rw [Tight, List.append_assoc]
      exact hexact
    cases ok with
    | true => exact hdequeued
    | false =>
      rw [keepsIo, hqueue] at hkeeps
      have hkind : op.kind = .sendPosted := of_decide_eq_true hkeeps
      rwa [Op.owned, if_pos hkind] at hdequeued
  | got op n => exact hs.dispatch r.garbage (of_decide_eq_true hkeeps)
  | doAcceptEx lio c hc => exact hs.congr rfl (List.Perm.refl _)
  | acceptAssoc lio h =>
    have hr : r.ok = true := hkeeps
    rw [hr]
    exact hs
  | acceptDerive lio h =>
    have hr : r.ok = true := hkeeps
    rw [hr]
    exact hs
  | acceptNewIOData lio h hnew => exact hs.getNewIOData hnew
  | acceptRecv lio h cio hpost =>
    have hr : r.ok = true := hkeeps
    rw [hr] at hpost
    exact hs.post hpost
  | acceptRemove lio hremove => exact hs.removeIOData hremove
  | newListen hnew => exact hs.getNewIOData hnew
  | postAcceptEx lio hnew =>
    have hr : r.ok = true := hkeeps
    rw [hr]
    exact hs.newAcceptSocket hnew
  | callAcceptEx lio hok hpost => exact hs.post hpost
  | failAcceptEx lio hok hpost hclose =>
    have hr : r.ok = true := hkeeps
    rw [hok] at hr
    cases hr
  | doRecv h io c v hc hv =>
    cases v with
    | noGet => exact absurd hv (of_decide_eq_true hkeeps)
    | incomplete => exact hs
    | unanswered => exact hs
    | answered payload => exact hs
  | rePost h io hpost =>
    have hr : r.ok = true := hkeeps
    rw [hr] at hpost
    exact hs.post hpost
  | postSend h io built hpost =>
    have hr : (built && r.ok) = true := hkeeps
    rw [hr] at hpost ⊢
    exact hs.post hpost
  | removeSent h io hremove => exact hs.removeIOData hremove
  | newRecv h hnew => exact hs.getNewIOData hnew
  | postRecv h io hpost =>
    have hr : r.ok = true := hkeeps
    rw [hr] at hpost
    exact hs.post hpost

end Tight

/-! ## The allocation of an io -/

/-- The number of the allocation at an address. -/
def Shared.genAt (sh : Shared) (addr : Addr) : Option ℕ := (sh.heap addr).map Cell.gen

/-- What a step of a thread does to the allocations: a new one gets a new number, and a new
operation is one with an io that is there. A thread that has posted a send deletes its io next. -/
structure Ages (sh sh' : Shared) (pc pc' : Pc) : Prop where
  allocated : sh.allocated ≤ sh'.allocated
  gen : ∀ a g, sh'.genAt a = some g → sh.genAt a = some g ∨ g = sh.allocated ∧ g < sh'.allocated
  op : ∀ op ∈ sh'.ops, op ∈ sh.ops ∨ sh.genAt op.addr = some op.gen ∧
    (op.kind = .sendPosted → pc'.removes = some op.addr)
  removed : ∀ a, pc.removes = some a → sh'.genAt a = none

section

variable {sh sh' : Shared} {addr : Addr} {kind : OperationType} {key : Handle} {ok : Bool}
  {pc pc' : Pc}

theorem genAt_setCell {c : Cell} (h : sh.genAt addr = some c.gen) :
    (sh.setCell addr c).genAt = sh.genAt := by
  funext a
  by_cases ha : a = addr
  · subst ha
    rw [h]
    simp [Shared.genAt, Shared.setCell]
  · simp [Shared.genAt, Shared.setCell, ha]

theorem genAt_post (h : sh.post addr kind key ok = some sh') :
    sh'.genAt = sh.genAt ∧ sh'.allocated = sh.allocated ∧
      ∀ op ∈ sh'.ops, op ∈ sh.ops ∨
        ok = true ∧ op.kind = kind ∧ op.addr = addr ∧ sh.genAt addr = some op.gen := by
  rw [Shared.post] at h
  split at h
  · cases h
  next c hc =>
    have hgen : sh.genAt addr = some c.gen := by rw [Shared.genAt, hc]; rfl
    have hset : (sh.setCell addr { c with operationtype := kind }).genAt = sh.genAt :=
      genAt_setCell hgen
    cases ok with
    | false =>
      cases h
      exact ⟨hset, rfl, fun op hop => Or.inl hop⟩
    | true =>
      simp only [reduceIte] at h
      cases h
      refine ⟨hset, rfl, fun op hop => ?_⟩
      change op ∈ (sh.pending ++ [_]) ++ sh.queue.filterMap Packet.op? at hop
      rw [List.append_assoc] at hop
      rcases List.mem_append.mp hop with hop | hop
      · exact Or.inl (List.mem_append_left _ hop)
      · rcases List.mem_append.mp hop with hop | hop
        · obtain rfl := List.mem_singleton.mp hop
          exact Or.inr ⟨rfl, rfl, rfl, hgen⟩
        · exact Or.inl (List.mem_append_right _ hop)

theorem genAt_newAcceptSocket (h : sh.newAcceptSocket addr ok = some sh') :
    sh'.genAt = sh.genAt ∧ sh'.allocated = sh.allocated := by
  rw [Shared.newAcceptSocket] at h
  split at h
  · cases h
  next c hc =>
    have hgen : sh.genAt addr = some c.gen := by rw [Shared.genAt, hc]; rfl
    split at h <;> cases h
    · exact ⟨genAt_setCell (c := { c with acceptsocket := some sh.sockets }) hgen, rfl⟩
    · exact ⟨genAt_setCell (c := { c with acceptsocket := none }) hgen, rfl⟩

theorem genAt_closeAcceptSocket (h : sh.closeAcceptSocket addr = some sh') :
    sh'.genAt = sh.genAt ∧ sh'.allocated = sh.allocated := by
  rw [Shared.closeAcceptSocket] at h
  split at h
  · cases h
  next c hc =>
    have hgen : sh.genAt addr = some c.gen := by rw [Shared.genAt, hc]; rfl
    cases h
    exact ⟨genAt_setCell (c := { c with acceptsocket := none }) hgen, rfl⟩

/-- A step without an allocation, a deletion or a new operation. -/
theorem Ages.quiet (hgen : sh'.genAt = sh.genAt) (hallocated : sh'.allocated = sh.allocated)
    (hops : sh'.ops ⊆ sh.ops) (hpc : pc.removes = none) : Ages sh sh' pc pc' where
  allocated := Nat.le_of_eq hallocated.symm
  gen a g h := Or.inl (hgen ▸ h)
  op op h := Or.inl (hops h)
  removed a h := by
    rw [hpc] at h
    cases h

theorem Ages.post (h : sh.post addr kind key ok = some sh')
    (hsend : ok = true → kind = .sendPosted → pc'.removes = some addr) (hpc : pc.removes = none) :
    Ages sh sh' pc pc' := by
  obtain ⟨hgen, hallocated, hops⟩ := genAt_post h
  refine ⟨Nat.le_of_eq hallocated.symm, fun a g h => Or.inl (hgen ▸ h), fun op hop => ?_,
    fun a h => ?_⟩
  · rcases hops op hop with hop | ⟨hok, hkind, haddr, hgen⟩
    · exact Or.inl hop
    · refine Or.inr ⟨haddr ▸ hgen, fun hk => ?_⟩
      rw [haddr]
      exact hsend hok (hkind ▸ hk)
  · rw [hpc] at h
    cases h

theorem Ages.getNewIOData (h : sh.getNewIOData addr key = some sh') (hpc : pc.removes = none) :
    Ages sh sh' pc pc' := by
  rw [Shared.getNewIOData] at h
  split at h
  · cases h
  · cases h
    refine ⟨Nat.le_succ _, fun a g hg => ?_, fun op hop => Or.inl hop, fun a ha => ?_⟩
    · by_cases heq : a = addr
      · subst heq
        simp only [Shared.genAt, Shared.setCell, Function.update_self, Option.map_some,
          Option.some.injEq] at hg
        exact Or.inr ⟨hg.symm, hg ▸ Nat.lt_succ_self _⟩
      · simp only [Shared.genAt, Shared.setCell, Function.update_of_ne heq] at hg
        exact Or.inl hg
    · rw [hpc] at ha
      cases ha

theorem Ages.removeIOData (h : sh.removeIOData addr = some sh')
    (hpc : ∀ a, pc.removes = some a → a = addr) : Ages sh sh' pc pc' := by
  rw [Shared.removeIOData] at h
  split at h
  · cases h
  · cases h
    refine ⟨Nat.le_refl _, fun a g hg => ?_, fun op hop => Or.inl hop, fun a ha => ?_⟩
    · by_cases heq : a = addr
      · subst heq
        simp only [Shared.genAt, Function.update_self, Option.map_none] at hg
        cases hg
      · simp only [Shared.genAt, Function.update_of_ne heq] at hg
        exact Or.inl hg
    · rw [hpc a ha]
      simp [Shared.genAt]

end

theorem ages_thread {sh sh' : Shared} {r : Reply} {pc pc' : Pc}
    (hmoves : threadStep sh r pc = some (sh', pc')) : Ages sh sh' pc pc' := by
  cases threadStep_move hmoves with
  | dequeueClose queue hqueue =>
    refine .quiet rfl rfl ?_ rfl
    rw [Shared.ops, Shared.ops, hqueue, List.filterMap_cons_none rfl]
    exact List.Subset.refl _
  | dequeue op ok n queue hqueue =>
    refine .quiet rfl rfl (fun x hx => ?_) rfl
    rw [Shared.ops, hqueue]
    exact List.perm_middle.symm.subset (List.mem_cons_of_mem _ hx)
  | got op n => exact .quiet rfl rfl (List.Subset.refl _) rfl
  | doAcceptEx lio c hc => exact .quiet rfl rfl (List.Subset.refl _) rfl
  | acceptAssoc lio h => exact .quiet rfl rfl (List.Subset.refl _) rfl
  | acceptDerive lio h => exact .quiet rfl rfl (List.Subset.refl _) rfl
  | acceptNewIOData lio h hnew => exact .getNewIOData hnew rfl
  | acceptRecv lio h cio hpost => exact .post hpost (fun _ hkind => by cases hkind) rfl
  | acceptRemove lio hremove => exact .removeIOData hremove fun a ha => by cases ha
  | newListen hnew => exact .getNewIOData hnew rfl
  | postAcceptEx lio hnew =>
    obtain ⟨hgen, hallocated⟩ := genAt_newAcceptSocket hnew
    refine .quiet hgen hallocated ?_ rfl
    rw [(inert_newAcceptSocket hnew).ops]
    exact List.Subset.refl _
  | callAcceptEx lio hok hpost => exact .post hpost (fun _ hkind => by cases hkind) rfl
  | failAcceptEx lio hok hpost hclose =>
    obtain ⟨hgen, hallocated, hops⟩ := genAt_post hpost
    obtain ⟨hgen', hallocated'⟩ := genAt_closeAcceptSocket hclose
    refine .quiet (hgen'.trans hgen) (hallocated'.trans hallocated) (fun op hop => ?_) rfl
    rw [(inert_closeAcceptSocket hclose).ops] at hop
    rcases hops op hop with hop | ⟨htrue, -⟩
    · exact hop
    · cases htrue
  | doRecv h io c v hc hv => exact .quiet rfl rfl (List.Subset.refl _) rfl
  | rePost h io hpost => exact .post hpost (fun _ hkind => by cases hkind) rfl
  | postSend h io built hpost => exact .post hpost (fun hok _ => by rw [if_pos hok]; rfl) rfl
  | removeSent h io hremove =>
    exact .removeIOData hremove fun a ha => (Option.some.inj ha).symm
  | newRecv h hnew => exact .getNewIOData hnew rfl
  | postRecv h io hpost => exact .post hpost (fun _ hkind => by cases hkind) rfl

/-- **The numbers of the allocations.** An io that has the number of a send is about to be deleted
by the thread that posted the send. -/
structure Aged (sh : Shared) (pcs : List Pc) : Prop where
  op : ∀ op ∈ sh.ops, op.gen < sh.allocated
  cell : ∀ a g, sh.genAt a = some g → g < sh.allocated
  sent : ∀ op ∈ sh.ops, op.kind = .sendPosted → sh.genAt op.addr = some op.gen →
    ∃ pc ∈ pcs, pc.removes = some op.addr

theorem Aged.thread {sh sh' : Shared} {pc pc' : Pc} {rest : List Pc} (hs : Aged sh (pc :: rest))
    (h : Ages sh sh' pc pc') : Aged sh' (pc' :: rest) where
  op op hop := by
    rcases h.op op hop with hop | ⟨hgen, -⟩
    · exact Nat.lt_of_lt_of_le (hs.op op hop) h.allocated
    · exact Nat.lt_of_lt_of_le (hs.cell _ _ hgen) h.allocated
  cell a g hg := by
    rcases h.gen a g hg with hg | ⟨-, hlt⟩
    · exact Nat.lt_of_lt_of_le (hs.cell a g hg) h.allocated
    · exact hlt
  sent op hop hkind hgen := by
    rcases h.op op hop with hop | ⟨-, hremoves⟩
    · have hbefore : sh.genAt op.addr = some op.gen := by
        rcases h.gen _ _ hgen with hbefore | ⟨heq, -⟩
        · exact hbefore
        · exact absurd heq (Nat.ne_of_lt (hs.op op hop))
      obtain ⟨x, hx, hremoves⟩ := hs.sent op hop hkind hbefore
      rcases List.mem_cons.mp hx with rfl | hx
      · rw [h.removed _ hremoves] at hgen
        cases hgen
      · exact ⟨x, List.mem_cons_of_mem _ hx, hremoves⟩
    · exact ⟨pc', List.mem_cons_self, hremoves hkind⟩

theorem Aged.congr {sh sh' : Shared} {pcs pcs' : List Pc} (hs : Aged sh pcs)
    (hheap : sh'.heap = sh.heap) (hallocated : sh'.allocated = sh.allocated)
    (hops : sh'.ops.Perm sh.ops) (hpcs : pcs.Perm pcs') : Aged sh' pcs' := by
  have hgen : sh'.genAt = sh.genAt := by
    funext a
    rw [Shared.genAt, hheap, Shared.genAt]
  refine ⟨fun op hop => ?_, fun a g hg => ?_, fun op hop hkind hg => ?_⟩
  · rw [hallocated]
    exact hs.op op (hops.mem_iff.mp hop)
  · rw [hallocated]
    exact hs.cell a g (hgen ▸ hg)
  · obtain ⟨pc, hpc, hremoves⟩ := hs.sent op (hops.mem_iff.mp hop) hkind (hgen ▸ hg)
    exact ⟨pc, hpcs.mem_iff.mp hpc, hremoves⟩

theorem allocated_complete {sh sh' : Shared} {i n : ℕ} {ok : Bool}
    (h : sh.complete i ok n = some sh') : sh'.allocated = sh.allocated := by
  rw [Shared.complete] at h
  split at h <;> cases h
  rfl

/-! ## The run -/

/-- **The invariant of the server.** -/
structure State.Exact (s : State) : Prop where
  tight : Tight s.shared (s.pcs.flatMap Pc.held)
  aged : Aged s.shared s.pcs

theorem exact_init (threadnum : ℕ) : (init threadnum).Exact := by
  have hrefs : (init threadnum).pcs.flatMap Pc.held = [] := by
    simp [init, State.pcs, Main.pc, Pc.held, Pc.refs]
  refine ⟨?_, ?_⟩
  · rw [hrefs]
    exact Ledger.Exact.nil
  · exact ⟨fun op h => absurd h List.not_mem_nil, fun a g h => (by cases h),
      fun op h => absurd h List.not_mem_nil⟩

/-- **The step lemma.** -/
theorem State.Exact.step {s t : State} {a : Action} (hs : s.Exact) (hok : KeepsIo s a)
    (h : IOCPServer.step s a = some t) : t.Exact := by
  cases step_move h with
  | thread r pc pc' rest acts moves before after left =>
    have htight : Tight s.shared (pc.held ++ rest.flatMap Pc.held) :=
      hs.tight.perm (before.flatMap_right _)
    have haged : Aged s.shared (pc :: rest) := hs.aged.congr rfl rfl (.refl _) before
    exact ⟨(htight.thread (hok _ acts) moves).perm (after.flatMap_right _).symm,
      (haged.thread (ages_thread moves)).congr rfl rfl (.refl _) after.symm⟩
  | kernel i ok n acts completes pcs left =>
    refine ⟨?_, ?_⟩
    · rw [pcs]
      exact hs.tight.congr (complete_heap completes) (complete_ops completes)
    · exact hs.aged.congr (complete_heap completes) (allocated_complete completes)
        (complete_ops completes) (.of_eq pcs.symm)
  | newListen left acts before after =>
    subst after
    have htight := hs.tight
    have haged := hs.aged
    rw [State.pcs, before] at htight haged
    exact ⟨htight, haged.thread (.quiet rfl rfl (List.Subset.refl _) rfl)⟩
  | control queue closed acts shared ops closes pcs left =>
    have hops : t.shared.ops = s.shared.ops := by
      rw [shared, Shared.ops, Shared.ops, ops]
    have hheap : t.shared.heap = s.shared.heap := by rw [shared]
    refine ⟨?_, ?_⟩
    · rw [pcs]
      exact hs.tight.congr hheap (.of_eq hops)
    · exact hs.aged.congr hheap (by rw [shared]) (.of_eq hops) (.of_eq pcs.symm)

/-- The operations with an io, none of them a send, are as many as its references. -/
theorem countP_owned_le {a : Addr} {g : ℕ} {ops : List Op}
    (h : ∀ op ∈ ops, op.addr = a ∧ op.gen = g → op.kind ≠ .sendPosted) :
    ops.countP (fun op => op.addr = a ∧ op.gen = g) ≤
      (ops.flatMap Op.owned).countP (Ref.usesAt a) := by
  induction ops with
  | nil => exact Nat.le_refl _
  | cons op ops ih =>
    have hrest := ih fun x hx => h x (List.mem_cons_of_mem _ hx)
    rw [List.flatMap_cons, List.countP_append, List.countP_cons]
    split
    next hop =>
      have hop : op.addr = a ∧ op.gen = g := of_decide_eq_true hop
      have hone : op.owned.countP (Ref.usesAt a) = 1 := by
        simp [Op.owned, h op List.mem_cons_self hop, Ref.usesAt, Op.ref, hop.1]
      omega
    · omega

/-- An exact ledger has no leak. -/
theorem State.Exact.noLeak {s : State} (hs : s.Exact) : s.NoLeak := by
  intro a c hc
  by_cases hios : a ∈ s.pcs.flatMap Pc.ios
  · exact Or.inl hios
  right
  obtain ⟨r, hr, haddr⟩ := hs.tight.found a (by rw [hc]; exact Option.some_ne_none c)
  have hthreads {pc : Pc} (hpc : pc ∈ s.pcs) {x : Ref Addr Cell} (hx : x ∈ pc.held) :
      x.addr ≠ a := by
    rintro rfl
    exact hios (List.mem_flatMap.mpr ⟨pc, hpc, List.mem_map_of_mem hx⟩)
  obtain ⟨op, hop, hgen⟩ : ∃ op ∈ s.shared.ops, op.addr = a ∧ op.gen = c.gen := by
    rcases List.mem_append.mp hr with hheld | howned
    · obtain ⟨pc, hpc, hheld⟩ := List.mem_flatMap.mp hheld
      exact absurd haddr (hthreads hpc hheld)
    · obtain ⟨op, hop, howned⟩ := List.mem_flatMap.mp howned
      obtain ⟨c', hc', hneeds⟩ := hs.tight.live r hr
      rw [Op.owned] at howned
      split at howned
      · cases howned
      · obtain rfl := List.mem_singleton.mp howned
        rw [haddr, hc] at hc'
        cases hc'
        exact ⟨op, hop, haddr, hneeds.1.symm⟩
  have hkind : ∀ x ∈ s.shared.ops, x.addr = a ∧ x.gen = c.gen → x.kind ≠ .sendPosted := by
    rintro x hx ⟨rfl, hg⟩ hk
    have hgenAt : s.shared.genAt x.addr = some x.gen := by
      rw [Shared.genAt, hc, hg]
      rfl
    obtain ⟨pc, hpc, hremoves⟩ := hs.aged.sent x hx hk hgenAt
    cases pc with
    | removeSent h io =>
      cases hremoves
      exact hthreads hpc List.mem_cons_self rfl
    | _ => cases hremoves
  have hle := countP_owned_le hkind
  have honce := hs.tight.used_once a
  rw [List.countP_append] at honce
  have hpos : 0 < s.shared.ops.countP fun x => x.addr = a ∧ x.gen = c.gen :=
    List.countP_pos_iff.mpr ⟨op, hop, decide_eq_true hgen⟩
  omega

/-- **No io is leaked in a run whose steps drop none.** -/
theorem noLeak_of_keepsIo {threadnum : ℕ} {run : List Action} {s : State}
    (hok : Along step KeepsIo (init threadnum) run)
    (h : exec step (init threadnum) run = some s) : s.NoLeak :=
  (invariant (fun _ _ _ => State.Exact.step) (exact_init threadnum) hok h).noLeak

theorem noLeak_lateSend : ∃ s, exec step (init 1) lateSendRun = some s ∧ s.NoLeak := by
  obtain ⟨s, hs⟩ : ∃ s, exec step (init 1) lateSendRun = some s :=
    Option.isSome_iff_exists.mp (by decide +kernel)
  have hok : Along step KeepsIo (init 1) lateSendRun := by decide +kernel
  exact ⟨s, hs, noLeak_of_keepsIo hok hs⟩

theorem not_noLeak_left :
    ¬ ∀ threadnum run s, exec step (init threadnum) run = some s → s.NoLeak := by
  intro hall
  obtain ⟨s, hs⟩ : ∃ s, exec step (init 1) leftRun = some s :=
    Option.isSome_iff_exists.mp (by decide +kernel)
  have hbad : ∀ s ∈ exec step (init 1) leftRun, ∃ c ∈ s.shared.heap 1,
      ¬ (1 ∈ s.pcs.flatMap Pc.ios ∨
        s.shared.ops.countP (fun op => op.addr = 1 ∧ op.gen = c.gen) = 1) := by
    decide +kernel
  obtain ⟨c, hc, hlost⟩ := hbad s hs
  exact hlost (hall 1 leftRun s hs 1 c hc)

end AMSServer.IOCPServer
