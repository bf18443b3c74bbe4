import AMSServer.IOCPServer.Sockets

/-!
# How sockets move

The invariant behind the conservation of sockets (`Kept`), as a fact about the shared state and the
places of the threads, and one rule for each way in which the calls of the threads change it: most
calls concern no accept (`Kept.calm`), and the others begin an accept, give it a socket, hand the
socket to a connection or end the accept.
-/

namespace AMSServer.IOCPServer

open HttpServer

/-! ## Where an accept stands -/

/-- Where the accept of an operation stands: its socket is not that of a connection yet. -/
def Offered (sh : Shared) (addr : Addr) : Prop :=
  ∃ k, sh.acceptsocket addr = some k ∧ some k ∉ sh.handles

/-- The socket of an accept is that of a connection as well. -/
def Moved (sh : Shared) (addr : Addr) (h : Handle) : Prop :=
  ∃ i k, h = .connect i ∧ sh.acceptsocket addr = some k ∧ sh.handles[i]? = some (some k)

/-- An accept is an operation of the listening socket, with a socket to accept on. -/
def Op.Stage (sh : Shared) (op : Op) : Prop :=
  op.kind = .acceptPosted → op.key = .listen ∧ Offered sh op.addr

/-- Where the socket of a thread's accept is. -/
def Pc.Stage (sh : Shared) : Pc → Prop
  | got op _ => op.Stage sh
  | doAcceptEx lio => Offered sh lio
  | acceptAssoc lio h => Moved sh lio h
  | acceptDerive lio h => Moved sh lio h
  | acceptNewIOData lio h => Moved sh lio h
  | acceptRecv lio h _ => Moved sh lio h
  | callAcceptEx lio => Offered sh lio
  | _ => True

/-! ## What the server keeps -/

/-- A socket is closed, or one that is accepted on, or that of a connection with an operation. -/
def Answered (sh : Shared) (pcs : List Pc) (k : Socket) : Prop :=
  k ∈ sh.closed ∨ (∃ a ∈ acceptIos Pc.holds sh pcs, sh.acceptsocket a = some k) ∨
    ∃ i, sh.handles[i]? = some (some k) ∧ 0 < uses sh pcs i

/-- **The invariant.** No io is that of two accepts, no socket is in two io or in two handles, the
accepts stand where they should, and every socket is answered for. -/
structure Kept (sh : Shared) (pcs : List Pc) : Prop where
  nodup : (accepts sh pcs).Nodup
  live : ∀ a ∈ accepts sh pcs, sh.heap a ≠ none
  once : ∀ a b k, sh.acceptsocket a = some k → sh.acceptsocket b = some k → a = b
  bound : ∀ a k, sh.acceptsocket a = some k → k < sh.sockets
  handle_once : ∀ (i j : ℕ) (k : Socket), sh.handles[i]? = some (some k) →
    sh.handles[j]? = some (some k) → i = j
  handle_bound : ∀ k, some k ∈ sh.handles → k < sh.sockets
  pc : ∀ pc ∈ pcs, pc.Stage sh
  op : ∀ op ∈ sh.ops, op.Stage sh
  held : ∀ k < sh.sockets, 0 < k → Answered sh pcs k

theorem holds_subset_accepts (pc : Pc) : pc.holds ⊆ pc.accepts := by
  cases pc with
  | acceptRemove lio => exact List.nil_subset _
  | postAcceptEx lio => exact List.nil_subset _
  | _ => exact List.Subset.refl _

section

variable {sh sh' : Shared} {pc pc' : Pc} {pcs pcs' rest : List Pc} {k : Socket}

theorem acceptIos_perm (f : Pc → List Addr) (hpcs : pcs.Perm pcs') (hops : sh.ops.Perm sh'.ops) :
    (acceptIos f sh pcs).Perm (acceptIos f sh' pcs') :=
  (hpcs.flatMap_right f).append (hops.flatMap_right _)

/-- What a thread accepts on is the io of an accept. -/
theorem holds_subset : acceptIos Pc.holds sh pcs ⊆ accepts sh pcs := by
  intro a ha
  rcases List.mem_append.mp ha with ha | ha
  · obtain ⟨x, hx, ha⟩ := List.mem_flatMap.mp ha
    exact List.mem_append_left _ (List.mem_flatMap.mpr ⟨x, hx, holds_subset_accepts x ha⟩)
  · exact List.mem_append_right _ ha

theorem acceptIos_cons (f : Pc → List Addr) (sh : Shared) (pc : Pc) (rest : List Pc) :
    acceptIos f sh (pc :: rest) = f pc ++ acceptIos f sh rest := by
  rw [acceptIos, acceptIos, List.flatMap_cons, List.append_assoc]

/-- One more operation. -/
theorem acceptIos_ops {f : Pc → List Addr} {op : Op} (hops : sh'.ops.Perm (op :: sh.ops)) :
    (acceptIos f sh' pcs).Perm (op.accepts ++ acceptIos f sh pcs) := by
  refine ((hops.flatMap_right Op.accepts).append_left _).trans ?_
  rw [List.flatMap_cons, acceptIos]
  exact List.perm_append_comm_assoc _ _ _

theorem Answered.perm (h : Answered sh pcs k) (hpcs : pcs.Perm pcs') : Answered sh pcs' k := by
  rcases h with hclosed | ⟨a, ha, hsocket⟩ | ⟨i, hi, huses⟩
  · exact Or.inl hclosed
  · exact Or.inr (Or.inl ⟨a, (acceptIos_perm _ hpcs (.refl _)).mem_iff.mp ha, hsocket⟩)
  · refine Or.inr (Or.inr ⟨i, hi, ?_⟩)
    rwa [uses, hpcs.countP_eq] at huses

theorem Kept.perm (h : Kept sh pcs) (hpcs : pcs.Perm pcs') : Kept sh pcs' where
  nodup := (acceptIos_perm Pc.accepts hpcs (.refl _)).nodup_iff.mp h.nodup
  live a ha := h.live a ((acceptIos_perm Pc.accepts hpcs (.refl _)).mem_iff.mpr ha)
  once := h.once
  bound := h.bound
  handle_once := h.handle_once
  handle_bound := h.handle_bound
  pc pc hpc := h.pc pc (hpcs.mem_iff.mpr hpc)
  op := h.op
  held k hk hpos := (h.held k hk hpos).perm hpcs

/-- The stages look at the sockets of the accepts only. -/
theorem Offered.congr {a : Addr} (h : Offered sh a) (ha : sh'.acceptsocket a = sh.acceptsocket a)
    (hhandles : sh'.handles = sh.handles) : Offered sh' a := by
  obtain ⟨k, hk, hnot⟩ := h
  exact ⟨k, ha.trans hk, hhandles ▸ hnot⟩

theorem Moved.congr {a : Addr} {h : Handle} (hm : Moved sh a h)
    (ha : sh'.acceptsocket a = sh.acceptsocket a) (hhandles : sh'.handles = sh.handles) :
    Moved sh' a h := by
  obtain ⟨i, k, rfl, hk, hi⟩ := hm
  exact ⟨i, k, rfl, ha.trans hk, hhandles ▸ hi⟩

theorem Op.Stage.mono {op : Op} (h : op.Stage sh)
    (hoffered : ∀ a ∈ op.accepts, Offered sh a → Offered sh' a) : op.Stage sh' := by
  intro hkind
  obtain ⟨hkey, ha⟩ := h hkind
  refine ⟨hkey, hoffered _ ?_ ha⟩
  simp [Op.accepts, hkind]

/-- The stage of a thread depends on its accept only. -/
theorem Pc.Stage.mono (h : pc.Stage sh)
    (hoffered : ∀ a ∈ pc.accepts, Offered sh a → Offered sh' a)
    (hmoved : ∀ a ∈ pc.accepts, ∀ c, Moved sh a c → Moved sh' a c) : pc.Stage sh' := by
  cases pc with
  | got op n => exact Op.Stage.mono h hoffered
  | doAcceptEx lio => exact hoffered lio List.mem_cons_self h
  | acceptAssoc lio c => exact hmoved lio List.mem_cons_self c h
  | acceptDerive lio c => exact hmoved lio List.mem_cons_self c h
  | acceptNewIOData lio c => exact hmoved lio List.mem_cons_self c h
  | acceptRecv lio c cio => exact hmoved lio List.mem_cons_self c h
  | callAcceptEx lio => exact hoffered lio List.mem_cons_self h
  | _ => trivial

/-- **A move that changes no handle**: the accepts after it are among those before, and stand where
they stood. -/
theorem Kept.move (hs : Kept sh (pc :: rest))
    (hsub : (accepts sh' (pc' :: rest)).Subperm (accepts sh (pc :: rest)))
    (hlive : ∀ a ∈ accepts sh' (pc' :: rest), sh.heap a ≠ none → sh'.heap a ≠ none)
    (hsame : ∀ a ∈ accepts sh' (pc' :: rest), sh'.acceptsocket a = sh.acceptsocket a)
    (hle : ∀ a k, sh'.acceptsocket a = some k → sh.acceptsocket a = some k)
    (hhandles : sh'.handles = sh.handles) (hsockets : sh'.sockets = sh.sockets)
    (hpc : pc'.Stage sh') (hop : ∀ op ∈ sh'.ops, op ∈ sh.ops ∨ op.Stage sh')
    (hheld : ∀ k, Answered sh (pc :: rest) k → Answered sh' (pc' :: rest) k) :
    Kept sh' (pc' :: rest) where
  nodup := by
    obtain ⟨l, hperm, hsublist⟩ := hsub
    exact hperm.nodup_iff.mp (hsublist.nodup hs.nodup)
  live a ha := hlive a ha (hs.live a (hsub.subset ha))
  once a b k ha hb := hs.once a b k (hle a k ha) (hle b k hb)
  bound a k ha := hsockets ▸ hs.bound a k (hle a k ha)
  handle_once := hhandles ▸ hs.handle_once
  handle_bound := by
    rw [hhandles, hsockets]
    exact hs.handle_bound
  pc := by
    intro x hx
    rcases List.mem_cons.mp hx with rfl | hrest
    · exact hpc
    · have hmem : ∀ a ∈ x.accepts, a ∈ accepts sh' (pc' :: rest) := fun a ha =>
        List.mem_append_left _ (List.mem_flatMap.mpr ⟨x, hx, ha⟩)
      apply (hs.pc x (List.mem_cons_of_mem _ hrest)).mono
      · exact fun a ha hoffered => hoffered.congr (hsame a (hmem a ha)) hhandles
      · exact fun a ha c hmoved => hmoved.congr (hsame a (hmem a ha)) hhandles
  op := by
    intro op hmem
    rcases hop op hmem with hold | hstage
    · refine (hs.op op hold).mono fun a ha hoffered => hoffered.congr (hsame a ?_) hhandles
      exact List.mem_append_right _ (List.mem_flatMap.mpr ⟨op, hmem, ha⟩)
    · exact hstage
  held k hk hpos := hheld k (hs.held k (hsockets ▸ hk) hpos)

theorem Answered.move (h : Answered sh (pc :: rest) k) (hclosed : sh.closed ⊆ sh'.closed)
    (hhandles : sh'.handles = sh.handles)
    (huses : ∀ i, 0 < uses sh (pc :: rest) i → 0 < uses sh' (pc' :: rest) i)
    (hholds : ∀ a ∈ acceptIos Pc.holds sh (pc :: rest), sh.acceptsocket a = some k →
      Answered sh' (pc' :: rest) k) : Answered sh' (pc' :: rest) k := by
  rcases h with hk | ⟨a, ha, hsocket⟩ | ⟨i, hi, hused⟩
  · exact Or.inl (hclosed hk)
  · exact hholds a ha hsocket
  · exact Or.inr (Or.inr ⟨i, hhandles ▸ hi, huses i hused⟩)

/-- A call that moves no socket, when the accepts are the same after it. -/
theorem Kept.same (hs : Kept sh (pc :: rest)) (hsame : sh.SameSockets sh')
    (huses : ∀ i, 0 < uses sh (pc :: rest) i → 0 < uses sh' (pc' :: rest) i)
    (haccepts : (accepts sh' (pc' :: rest)).Perm (accepts sh (pc :: rest)))
    (hholds : acceptIos Pc.holds sh (pc :: rest) ⊆ acceptIos Pc.holds sh' (pc' :: rest))
    (hpc : pc'.Stage sh') (hop : ∀ op ∈ sh'.ops, op ∈ sh.ops ∨ op.Stage sh') :
    Kept sh' (pc' :: rest) := by
  refine hs.move haccepts.subperm (fun a _ => hsame.live a) (fun a _ => by rw [hsame.acceptsocket])
    (fun a k ha => by rwa [hsame.acceptsocket] at ha) hsame.handles hsame.sockets hpc hop
    fun k hk => ?_
  refine hk.move (by rw [hsame.closed]; exact List.Subset.refl _) hsame.handles huses
    fun a ha hsocket => ?_
  exact Or.inr (Or.inl ⟨a, hholds ha, by rw [hsame.acceptsocket]; exact hsocket⟩)

/-- A call that concerns no accept. -/
structure Shared.Calm (sh sh' : Shared) : Prop where
  sockets : sh.SameSockets sh'
  ios : ∀ f pcs, (acceptIos f sh' pcs).Perm (acceptIos f sh pcs)
  op : ∀ op ∈ sh'.ops, op ∈ sh.ops ∨ op.Stage sh'

theorem Shared.Calm.refl (sh : Shared) : sh.Calm sh :=
  ⟨⟨rfl, fun _ => id, rfl, rfl, rfl⟩, fun _ _ => .refl _, fun _ => Or.inl⟩

theorem calm_getNewIOData {addr : Addr} {key : Handle}
    (h : sh.getNewIOData addr key = some sh') : sh.Calm sh' := by
  have hops := (inert_getNewIOData h).ops
  refine ⟨sameSockets_getNewIOData h, fun f pcs => ?_, fun op hop => Or.inl (hops ▸ hop)⟩
  rw [acceptIos, hops]
  exact .refl _

theorem calm_post {addr : Addr} {kind : OperationType} {key : Handle} {ok : Bool}
    (hkind : ok = true → kind ≠ .acceptPosted) (h : sh.post addr kind key ok = some sh') :
    sh.Calm sh' := by
  obtain ⟨gen, hops⟩ := ops_post h
  cases ok with
  | false =>
    exact ⟨sameSockets_post h, fun f pcs => acceptIos_perm f (.refl _) hops,
      fun op hop => Or.inl (hops.mem_iff.mp hop)⟩
  | true =>
    refine ⟨sameSockets_post h, fun f pcs => ?_, fun op hop => ?_⟩
    · have hperm : (acceptIos f sh' pcs).Perm _ := acceptIos_ops hops
      simpa [Op.accepts, hkind rfl] using hperm
    · rcases List.mem_cons.mp (hops.mem_iff.mp hop) with rfl | hop
      · exact Or.inr fun hk => absurd hk (hkind rfl)
      · exact Or.inl hop

/-- A call that concerns no accept, by a thread whose accept stays the same. -/
theorem Kept.calm (hs : Kept sh (pc :: rest)) (hcalm : sh.Calm sh')
    (huses : ∀ i, 0 < uses sh (pc :: rest) i → 0 < uses sh' (pc' :: rest) i)
    (haccepts : pc'.accepts = pc.accepts) (hholds : pc'.holds = pc.holds) (hpc : pc'.Stage sh') :
    Kept sh' (pc' :: rest) := by
  refine hs.same hcalm.sockets huses ?_ ?_ hpc hcalm.op
  · rw [accepts, accepts, acceptIos_cons, acceptIos_cons, haccepts]
    exact (hcalm.ios _ _).append_left _
  · rw [acceptIos_cons, acceptIos_cons, hholds]
    exact ((hcalm.ios _ _).append_left _).symm.subset

/-- A packet is dequeued, by a thread that takes up the accept or has none to take up. -/
theorem Kept.dequeue {op : Op} {ok : Bool} {n : ℕ} {queue : List Packet}
    (hs : Kept sh (.wait :: rest)) (hqueue : sh.queue = .io op ok n :: queue)
    (huses : ∀ i, 0 < uses sh (.wait :: rest) i → 0 < uses { sh with queue } (pc' :: rest) i)
    (haccepts : pc'.accepts = op.accepts) (hholds : pc'.holds = op.accepts)
    (hpc : op.Stage sh → pc'.Stage { sh with queue }) : Kept { sh with queue } (pc' :: rest) := by
  have hops : sh.ops.Perm (op :: Shared.ops { sh with queue }) := by
    rw [Shared.ops, hqueue]
    exact List.perm_middle
  have hmem : op ∈ sh.ops := hops.mem_iff.mpr List.mem_cons_self
  refine hs.same ⟨rfl, fun _ => id, rfl, rfl, rfl⟩ huses ?_ ?_ (hpc (hs.op op hmem))
    fun x hx => Or.inl (hops.mem_iff.mpr (List.mem_cons_of_mem _ hx))
  · rw [accepts, accepts, acceptIos_cons, acceptIos_cons, haccepts]
    exact (acceptIos_ops hops).symm
  · rw [acceptIos_cons, acceptIos_cons, hholds]
    exact (acceptIos_ops hops).subset

/-- An accept ends, and the socket of its io is closed or is that of a connection. -/
theorem Kept.forget {addr : Addr} (hs : Kept sh (pc :: rest)) (hops : sh'.ops = sh.ops)
    (haccept : sh'.acceptsocket = Function.update sh.acceptsocket addr none)
    (hlive : ∀ a, a ≠ addr → sh.heap a ≠ none → sh'.heap a ≠ none)
    (hhandles : sh'.handles = sh.handles) (hsockets : sh'.sockets = sh.sockets)
    (hclosed : sh.closed ⊆ sh'.closed) (haddr : addr ∉ accepts sh rest) (hpc : pc'.accepts = [])
    (hstage : pc'.Stage sh')
    (huses : ∀ i, 0 < uses sh (pc :: rest) i → 0 < uses sh' (pc' :: rest) i)
    (hholds : ∀ a ∈ pc.holds, ∀ k, sh.acceptsocket a = some k → k ∈ sh'.closed) :
    Kept sh' (pc' :: rest) := by
  have hios (f : Pc → List Addr) : acceptIos f sh' rest = acceptIos f sh rest := by
    rw [acceptIos, acceptIos, hops]
  have hrest : accepts sh' (pc' :: rest) = accepts sh rest := by
    rw [accepts, acceptIos_cons, hpc, List.nil_append, hios]
    rfl
  have hne : ∀ a ∈ accepts sh' (pc' :: rest), a ≠ addr := by
    rintro a ha rfl
    exact haddr (hrest ▸ ha)
  refine hs.move ?_ (fun a ha => hlive a (hne a ha)) (fun a ha => ?_) (fun a k ha => ?_) hhandles
    hsockets hstage (fun op hop => Or.inl (hops ▸ hop)) fun k hk => ?_
  · rw [hrest, accepts, accepts, acceptIos_cons]
    exact (List.sublist_append_right _ _).subperm
  · rw [haccept, Function.update_of_ne (hne a ha)]
  · rw [haccept] at ha
    by_cases heq : a = addr
    · rw [heq, Function.update_self] at ha
      cases ha
    · rwa [Function.update_of_ne heq] at ha
  · refine hk.move hclosed hhandles huses fun a ha hsocket => ?_
    rw [acceptIos_cons] at ha
    rcases List.mem_append.mp ha with ha | ha
    · exact Or.inl (hholds a ha k hsocket)
    · have hmem : a ∈ acceptIos Pc.holds sh' (pc' :: rest) := by
        rw [acceptIos_cons, hios]
        exact List.mem_append_right _ ha
      refine Or.inr (Or.inl ⟨a, hmem, ?_⟩)
      rw [haccept, Function.update_of_ne, hsocket]
      rintro rfl
      exact haddr (holds_subset ha)

/-- A thread's accept is no accept of the others. -/
theorem Kept.notMem (hs : Kept sh (pc :: rest)) {a : Addr} (ha : a ∈ pc.accepts) :
    a ∉ accepts sh rest := by
  have hnodup := hs.nodup
  rw [accepts, acceptIos_cons] at hnodup
  exact fun hmem => (List.nodup_append.mp hnodup).2.2 a ha a hmem rfl

theorem mem_accepts_pc {x : Pc} {a : Addr} (hx : x ∈ pcs) (ha : a ∈ x.accepts) :
    a ∈ accepts sh pcs :=
  List.mem_append_left _ (List.mem_flatMap.mpr ⟨x, hx, ha⟩)

theorem mem_accepts_op {op : Op} {a : Addr} (hop : op ∈ sh.ops) (ha : a ∈ op.accepts) :
    a ∈ accepts sh pcs :=
  List.mem_append_right _ (List.mem_flatMap.mpr ⟨op, hop, ha⟩)

theorem getElem?_concat_eq_some {l : List (Option Socket)} {i : ℕ} {socket : Option Socket}
    (h : (l ++ [socket])[i]? = some (some k)) :
    l[i]? = some (some k) ∨ i = l.length ∧ socket = some k := by
  rcases Nat.lt_trichotomy i l.length with hlt | rfl | hgt
  · rw [List.getElem?_append_left hlt] at h
    exact Or.inl h
  · rw [List.getElem?_concat_length] at h
    exact Or.inr ⟨rfl, Option.some.inj h⟩
  · rw [List.getElem?_eq_none (by rw [List.length_append, List.length_singleton]; omega)] at h
    cases h

/-- `DoAcceptEx` makes a handle with the socket of the accept. -/
theorem Kept.doAcceptEx {lio : Addr} (hs : Kept sh (.doAcceptEx lio :: rest)) :
    Kept { sh with handles := sh.handles ++ [sh.acceptsocket lio] }
      (.acceptAssoc lio (.connect sh.handles.length) :: rest) := by
  obtain ⟨k, hk, hnew⟩ : Offered sh lio := hs.pc _ List.mem_cons_self
  have hold {i : ℕ} {k' : Socket} (hi : sh.handles[i]? = some (some k')) :
      (sh.handles ++ [some k])[i]? = some (some k') := by
    rwa [List.getElem?_append_left (List.getElem?_eq_some_iff.mp hi).1]
  have hnot {i : ℕ} : sh.handles[i]? ≠ some (some k) := fun hi =>
    hnew (List.mem_of_getElem? hi)
  have hoffered {a : Addr} (hne : a ≠ lio) (ha : Offered sh a) :
      Offered { sh with handles := sh.handles ++ [some k] } a := by
    obtain ⟨k', hk', hnot'⟩ := ha
    refine ⟨k', hk', fun hmem => ?_⟩
    rcases List.mem_append.mp hmem with hmem | hmem
    · exact hnot' hmem
    · cases List.mem_singleton.mp hmem
      exact hne (hs.once a lio k hk' hk)
  have hmoved {a : Addr} {c : Handle} (ha : Moved sh a c) :
      Moved { sh with handles := sh.handles ++ [some k] } a c := by
    obtain ⟨i, k', rfl, hk', hi⟩ := ha
    exact ⟨i, k', rfl, hk', hold hi⟩
  have hothers : lio ∉ accepts sh rest := Kept.notMem hs (List.mem_singleton_self lio)
  rw [hk]
  refine ⟨hs.nodup, hs.live, hs.once, hs.bound, ?_, ?_, ?_, ?_, ?_⟩
  · intro i j k' hi hj
    rcases getElem?_concat_eq_some hi with hi | ⟨hi, heq⟩
    · rcases getElem?_concat_eq_some hj with hj | ⟨-, heq⟩
      · exact hs.handle_once i j k' hi hj
      · exact absurd (heq ▸ hi) hnot
    · rcases getElem?_concat_eq_some hj with hj | ⟨hj, -⟩
      · exact absurd (heq ▸ hj) hnot
      · exact hi.trans hj.symm
  · intro k' hmem
    rcases List.mem_append.mp hmem with hmem | hmem
    · exact hs.handle_bound k' hmem
    · cases List.mem_singleton.mp hmem
      exact hs.bound lio k hk
  · intro x hx
    rcases List.mem_cons.mp hx with rfl | hrest
    · exact ⟨_, k, rfl, hk, List.getElem?_concat_length⟩
    · refine (hs.pc x (List.mem_cons_of_mem _ hrest)).mono (fun a ha => hoffered ?_)
        fun a _ c => hmoved
      rintro rfl
      exact hothers (mem_accepts_pc hrest ha)
  · intro op hop
    refine (hs.op op hop).mono fun a ha => hoffered ?_
    rintro rfl
    exact hothers (mem_accepts_op hop ha)
  · intro k' hlt hpos
    rcases hs.held k' hlt hpos with hclosed | hheld | ⟨i, hi, huses⟩
    · exact Or.inl hclosed
    · exact Or.inr (Or.inl hheld)
    · exact Or.inr (Or.inr ⟨i, hold hi, huses⟩)

/-- A new io for an accept. -/
theorem Kept.newListen {addr : Addr} (hs : Kept sh (.newListen :: rest))
    (hnew : sh.getNewIOData addr .listen = some sh') : Kept sh' (.postAcceptEx addr :: rest) := by
  obtain ⟨haccept, hlive, hhandles, hsockets, hclosed⟩ := sameSockets_getNewIOData hnew
  have hops : sh'.ops = sh.ops := (inert_getNewIOData hnew).ops
  obtain ⟨hfree, haddr⟩ := live_getNewIOData hnew
  have hios :
      accepts sh' (.postAcceptEx addr :: rest) = addr :: accepts sh (.newListen :: rest) := by
    rw [accepts, accepts, acceptIos_cons, acceptIos_cons, acceptIos, hops]
    rfl
  have hoffered {a : Addr} (ha : Offered sh a) : Offered sh' a :=
    ha.congr (by rw [haccept]) hhandles
  have hmoved {a : Addr} {c : Handle} (ha : Moved sh a c) : Moved sh' a c :=
    ha.congr (by rw [haccept]) hhandles
  refine ⟨?_, ?_, ?_, ?_, ?_, ?_, ?_, ?_, ?_⟩
  · rw [hios, List.nodup_cons]
    exact ⟨fun hmem => hs.live addr hmem hfree, hs.nodup⟩
  · intro a ha
    rw [hios] at ha
    rcases List.mem_cons.mp ha with rfl | ha
    · exact haddr
    · exact hlive a (hs.live a ha)
  · rw [haccept]
    exact hs.once
  · rw [haccept, hsockets]
    exact hs.bound
  · rw [hhandles]
    exact hs.handle_once
  · rw [hhandles, hsockets]
    exact hs.handle_bound
  · intro x hx
    rcases List.mem_cons.mp hx with rfl | hx
    · trivial
    · exact (hs.pc x (List.mem_cons_of_mem _ hx)).mono (fun a _ => hoffered) fun a _ c => hmoved
  · intro op hop
    exact (hs.op op (hops ▸ hop)).mono fun a _ => hoffered
  · intro k hk hpos
    rw [hsockets] at hk
    refine (hs.held k hk hpos).move (by rw [hclosed]; exact List.Subset.refl _) hhandles
      (fun i hi => ?_) fun a ha hsocket => ?_
    · rw [uses_cons, (inert_getNewIOData hnew).opCount]
      rwa [uses_cons] at hi
    · refine Or.inr (Or.inl ⟨a, ?_, by rw [haccept]; exact hsocket⟩)
      rw [acceptIos, hops]
      exact ha

/-- `WSASocket` -/
theorem Kept.newAcceptSocket {lio : Addr} (hs : Kept sh (.postAcceptEx lio :: rest))
    (hnew : sh.newAcceptSocket lio true = some sh') : Kept sh' (.callAcceptEx lio :: rest) := by
  obtain ⟨haccept, hlive, hhandles, hsockets, hclosed⟩ := newAcceptSocket_true hnew
  have hops : sh'.ops = sh.ops := (inert_newAcceptSocket hnew).ops
  have hothers : lio ∉ accepts sh rest := Kept.notMem hs (List.mem_singleton_self lio)
  have hios : accepts sh' (.callAcceptEx lio :: rest) = accepts sh (.postAcceptEx lio :: rest) := by
    rw [accepts, accepts, acceptIos_cons, acceptIos_cons, acceptIos, hops]
    rfl
  have hself : sh'.acceptsocket lio = some sh.sockets := by rw [haccept, Function.update_self]
  have hother {a : Addr} (hne : a ≠ lio) : sh'.acceptsocket a = sh.acceptsocket a := by
    rw [haccept, Function.update_of_ne hne]
  have hbound {a : Addr} {k : Socket} (ha : sh'.acceptsocket a = some k) :
      a = lio ∧ k = sh.sockets ∨ a ≠ lio ∧ sh.acceptsocket a = some k ∧ k < sh.sockets := by
    by_cases hne : a = lio
    · subst hne
      exact Or.inl ⟨rfl, (Option.some.inj (hself.symm.trans ha)).symm⟩
    · rw [hother hne] at ha
      exact Or.inr ⟨hne, ha, hs.bound a k ha⟩
  refine ⟨hios ▸ hs.nodup, fun a ha => hlive a (hs.live a (hios ▸ ha)), ?_, ?_, ?_, ?_, ?_, ?_, ?_⟩
  · intro a b k ha hb
    rcases hbound ha with ⟨rfl, rfl⟩ | ⟨-, ha, hlt⟩
    · rcases hbound hb with ⟨rfl, -⟩ | ⟨-, -, hlt⟩
      · rfl
      · exact absurd hlt (Nat.lt_irrefl _)
    · rcases hbound hb with ⟨-, rfl⟩ | ⟨-, hb, -⟩
      · exact absurd hlt (Nat.lt_irrefl _)
      · exact hs.once a b k ha hb
  · intro a k ha
    rw [hsockets]
    rcases hbound ha with ⟨-, rfl⟩ | ⟨-, -, hlt⟩
    · exact Nat.lt_succ_self _
    · exact Nat.lt_succ_of_lt hlt
  · rw [hhandles]
    exact hs.handle_once
  · rw [hhandles, hsockets]
    exact fun k hk => Nat.lt_succ_of_lt (hs.handle_bound k hk)
  · intro x hx
    rcases List.mem_cons.mp hx with rfl | hrest
    · refine ⟨sh.sockets, hself, fun hmem => ?_⟩
      rw [hhandles] at hmem
      exact Nat.lt_irrefl _ (hs.handle_bound _ hmem)
    · have hne : ∀ a ∈ x.accepts, a ≠ lio := by
        rintro a ha rfl
        exact hothers (mem_accepts_pc hrest ha)
      apply (hs.pc x (List.mem_cons_of_mem _ hrest)).mono
      · exact fun a ha hoffered => hoffered.congr (hother (hne a ha)) hhandles
      · exact fun a ha c hmoved => hmoved.congr (hother (hne a ha)) hhandles
  · intro op hop
    rw [hops] at hop
    refine (hs.op op hop).mono fun a ha hoffered => hoffered.congr (hother ?_) hhandles
    rintro rfl
    exact hothers (mem_accepts_op hop ha)
  · intro k hk hpos
    rw [hsockets] at hk
    have hholds : acceptIos Pc.holds sh' (.callAcceptEx lio :: rest) =
        lio :: acceptIos Pc.holds sh (.postAcceptEx lio :: rest) := by
      rw [acceptIos_cons, acceptIos_cons, acceptIos, hops]
      rfl
    rcases Nat.lt_succ_iff_lt_or_eq.mp hk with hlt | rfl
    · refine (hs.held k hlt hpos).move (by rw [hclosed]; exact List.Subset.refl _) hhandles
        (fun i hi => ?_) fun a ha hsocket => ?_
      · rw [uses_cons, (inert_newAcceptSocket hnew).opCount]
        rwa [uses_cons] at hi
      · by_cases hne : a = lio
        · subst hne
          have hmem : a ∈ acceptIos Pc.holds sh rest := ha
          exact absurd (holds_subset hmem) hothers
        · refine Or.inr (Or.inl ⟨a, hholds ▸ List.mem_cons_of_mem _ ha, ?_⟩)
          rw [hother hne, hsocket]
    · exact Or.inr (Or.inl ⟨lio, hholds ▸ List.mem_cons_self, hself⟩)

/-- The socket of an accept moves to its connection, with the first receive. -/
theorem Kept.acceptRecv {lio cio : Addr} {h : Handle} (hs : Kept sh (.acceptRecv lio h cio :: rest))
    (hpost : sh.post cio .recvPosted h true = some sh')
    (huses : ∀ i, 0 < uses sh (.acceptRecv lio h cio :: rest) i →
      0 < uses sh' (.acceptRemove lio :: rest) i) : Kept sh' (.acceptRemove lio :: rest) := by
  obtain ⟨⟨haccept, hlive, hhandles, hsockets, hclosed⟩, hios, hop⟩ :=
    calm_post (fun _ => by decide) hpost
  obtain ⟨i, k', rfl, hlio, hi⟩ : Moved sh lio h := hs.pc _ List.mem_cons_self
  have haccepts : (accepts sh' (.acceptRemove lio :: rest)).Perm
      (accepts sh (.acceptRecv lio (.connect i) cio :: rest)) := by
    rw [accepts, accepts, acceptIos_cons, acceptIos_cons]
    exact (hios _ _).append_left _
  refine hs.move haccepts.subperm (fun a _ => hlive a) (fun a _ => by rw [haccept])
    (fun a k ha => by rwa [haccept] at ha) hhandles hsockets trivial hop fun k hk => ?_
  refine hk.move (by rw [hclosed]; exact List.Subset.refl _) hhandles huses fun a ha hsocket => ?_
  rw [acceptIos_cons] at ha
  rcases List.mem_append.mp ha with ha | ha
  · obtain rfl := List.mem_singleton.mp ha
    obtain rfl : k' = k := Option.some.inj (hlio.symm.trans hsocket)
    refine Or.inr (Or.inr ⟨i, hhandles ▸ hi, ?_⟩)
    rw [uses_cons, opCount_post _ hpost, if_pos (by simp)]
    omega
  · refine Or.inr (Or.inl ⟨a, ?_, by rw [haccept]; exact hsocket⟩)
    rw [acceptIos_cons]
    exact (hios _ _).symm.subset ha

/-- `AcceptEx` takes the io. -/
theorem Kept.callAcceptEx {lio : Addr} (hs : Kept sh (.callAcceptEx lio :: rest))
    (hpost : sh.post lio .acceptPosted .listen true = some sh')
    (huses : ∀ i, 0 < uses sh (.callAcceptEx lio :: rest) i → 0 < uses sh' (.wait :: rest) i) :
    Kept sh' (.wait :: rest) := by
  have hsame := sameSockets_post hpost
  obtain ⟨gen, hops⟩ := ops_post hpost
  have hios (f : Pc → List Addr) : (acceptIos f sh' rest).Perm (lio :: acceptIos f sh rest) :=
    acceptIos_ops hops
  refine hs.same hsame huses ?_ ?_ trivial fun op hop => ?_
  · rw [accepts, accepts, acceptIos_cons, acceptIos_cons]
    exact hios _
  · rw [acceptIos_cons, acceptIos_cons]
    exact (hios _).symm.subset
  · rcases List.mem_cons.mp (hops.mem_iff.mp hop) with rfl | hop
    · have hoffered : Offered sh lio := hs.pc _ List.mem_cons_self
      exact Or.inr fun _ => ⟨rfl, hoffered.congr (by rw [hsame.acceptsocket]) hsame.handles⟩
    · exact Or.inl hop

/-- `AcceptEx` fails, and the socket of the io is closed. -/
theorem Kept.failAcceptEx {lio : Addr} {sh₁ : Shared} (hs : Kept sh (.callAcceptEx lio :: rest))
    (hpost : sh.post lio .acceptPosted .listen false = some sh₁)
    (hclose : sh₁.closeAcceptSocket lio = some sh')
    (huses : ∀ i, 0 < uses sh (.callAcceptEx lio :: rest) i → 0 < uses sh' (.wait :: rest) i) :
    Kept sh' (.wait :: rest) := by
  have hsame := sameSockets_post hpost
  have hcount (i : ℕ) :
      uses sh₁ (.callAcceptEx lio :: rest) i = uses sh (.callAcceptEx lio :: rest) i := by
    rw [uses, uses, opCount_post _ hpost]
    rfl
  have hs₁ : Kept sh₁ (.callAcceptEx lio :: rest) :=
    hs.calm (calm_post (fun hok => by cases hok) hpost) (fun i hi => by rwa [hcount]) rfl rfl
      (Offered.congr (hs.pc _ List.mem_cons_self) (by rw [hsame.acceptsocket]) hsame.handles)
  obtain ⟨haccept, hlive, hhandles, hsockets, hclosed⟩ := closeAcceptSocket_eq hclose
  refine hs₁.forget (inert_closeAcceptSocket hclose).ops haccept (fun a _ => hlive a) hhandles
    hsockets ?_ (hs₁.notMem List.mem_cons_self) rfl trivial
    (fun i hi => huses i (by rwa [hcount] at hi)) fun a ha k hk => ?_
  · rw [hclosed]
    exact List.subset_append_right _ _
  · obtain rfl := List.mem_singleton.mp ha
    rw [hclosed, hk]
    exact List.mem_cons_self

/-- The io of a thread is deleted, which accepts on no socket any more. -/
theorem Kept.removeIOData {addr : Addr} (hs : Kept sh (pc :: rest))
    (hremove : sh.removeIOData addr = some sh') (haddr : addr ∉ accepts sh rest)
    (hholds : pc.holds = []) (hpc : pc'.accepts = []) (hstage : pc'.Stage sh')
    (huses : ∀ i, 0 < uses sh (pc :: rest) i → 0 < uses sh' (pc' :: rest) i) :
    Kept sh' (pc' :: rest) := by
  obtain ⟨hhandles, hsockets, hclosed⟩ := rest_removeIOData hremove
  apply hs.forget (inert_removeIOData hremove).ops (acceptsocket_removeIOData hremove)
    (fun a ha => live_removeIOData hremove ha) hhandles hsockets _ haddr hpc hstage huses
  · rw [hholds]
    exact fun a ha => absurd ha List.not_mem_nil
  · rw [hclosed]
    exact List.Subset.refl _

/-- What concerns no thread: no socket moves, and some may be closed. -/
theorem Kept.shared (hs : Kept sh pcs) (haccept : sh'.acceptsocket = sh.acceptsocket)
    (hheap : sh'.heap = sh.heap) (hhandles : sh'.handles = sh.handles)
    (hsockets : sh'.sockets = sh.sockets) (hclosed : sh.closed ⊆ sh'.closed)
    (hops : sh'.ops.Perm sh.ops) : Kept sh' pcs := by
  have hios (f : Pc → List Addr) : (acceptIos f sh' pcs).Perm (acceptIos f sh pcs) :=
    acceptIos_perm f (.refl _) hops
  have hoffered {a : Addr} (ha : Offered sh a) : Offered sh' a :=
    ha.congr (by rw [haccept]) hhandles
  have hmoved {a : Addr} {c : Handle} (ha : Moved sh a c) : Moved sh' a c :=
    ha.congr (by rw [haccept]) hhandles
  refine ⟨(hios _).nodup_iff.mpr hs.nodup, fun a ha => ?_, haccept ▸ hs.once, ?_, ?_, ?_,
    fun x hx => ?_, fun op hop => ?_, fun k hk hpos => ?_⟩
  · rw [hheap]
    exact hs.live a ((hios _).mem_iff.mp ha)
  · rw [haccept, hsockets]
    exact hs.bound
  · rw [hhandles]
    exact hs.handle_once
  · rw [hhandles, hsockets]
    exact hs.handle_bound
  · exact (hs.pc x hx).mono (fun a _ => hoffered) fun a _ c => hmoved
  · exact (hs.op op (hops.mem_iff.mp hop)).mono fun a _ => hoffered
  · rw [hsockets] at hk
    rcases hs.held k hk hpos with hk | ⟨a, ha, hsocket⟩ | ⟨i, hi, huses⟩
    · exact Or.inl (hclosed hk)
    · exact Or.inr (Or.inl ⟨a, (hios _).mem_iff.mpr ha, by rw [haccept]; exact hsocket⟩)
    · refine Or.inr (Or.inr ⟨i, hhandles ▸ hi, ?_⟩)
      have hcount := hops.countP_eq fun op => decide (op.key = .connect i)
      rw [uses, Shared.opCount] at huses ⊢
      rwa [hcount]

end

end AMSServer.IOCPServer
