import AMSServer.Foundations.Transition
import AMSServer.HttpServer.Answer
import Mathlib.Algebra.GroupWithZero.Nat
import Mathlib.Data.List.Perm.Basic
import Mathlib.Logic.Function.Basic

/-!
# `IOCPServer`

The class `IOCPServer` (`IOCPServer.h`, `IOCPServer.cpp`) with the `DoRecv` and `PostSend` of
`HttpServer`, as a machine: the main thread in `Start` and `Stop`, the workers in `WorkerThread`,
the system that completes operations, and what they share. A thread does one call of the system or
one use of the heap at a step, and any thread may take the next one.

A message reaches `DoRecv` from outside, and `HttpServer.verdict` says what `DoRecv` makes of it;
the buffers are left out here. An address that is freed may be handed out again. Using a freed io
has no next step, except that a worker may read anything from it as the `operationtype`; neither has
a message that overruns a buffer. `WorkerThread` reads the `operationtype` in the test for an empty
completion and again in its `switch`; it is read once here, which makes no difference while the io
is there, as only its possessor writes to it. What the system makes of the descriptor with which an
incomplete message is received on is left open: the call may fail or succeed.

`DeriveAcceptEx` is virtual, so it may fail. The main thread is past `InitializeIOCP`,
`InitializeSocket` and `GetAcceptExFuction`.
-/

namespace AMSServer.IOCPServer

open CRuntime HttpServer

/-- `MAX_POST_ACCEPT` -/
def maxPostAccept : ℕ := 100

/-! ## The heap, the operations and the port -/

/-- The address of a `PerIOData`. -/
abbrev Addr := ℕ

/-- A `SocketHandle`, which no thread deletes: the one of the listening socket, or that of a
connection. -/
inductive Handle
  | listen
  | connect (i : ℕ)
  deriving DecidableEq

/-- The listening socket is the first one. -/
abbrev Socket := ℕ

/-- A `PerIOData`, with the number of its allocation and the handle that made it. -/
structure Cell where
  operationtype : OperationType
  acceptsocket : Option Socket
  gen : ℕ
  owner : Handle
  deriving DecidableEq

/-- An overlapped operation: the io it was posted with, the kind it was posted as, and the
completion key of its socket. -/
structure Op where
  addr : Addr
  gen : ℕ
  kind : OperationType
  key : Handle
  deriving DecidableEq

/-- A packet in the completion port. -/
inductive Packet
  | io (op : Op) (ok : Bool) (bytestransfered : ℕ)
  | close
  deriving DecidableEq

/-- What the threads and the system share. -/
structure Shared where
  heap : Addr → Option Cell
  allocated : ℕ
  pending : List Op
  queue : List Packet
  /-- The `ssocket` of each connection. -/
  handles : List (Option Socket)
  sockets : ℕ
  closed : List Socket

namespace Shared

def setCell (sh : Shared) (addr : Addr) (c : Cell) : Shared :=
  { sh with heap := Function.update sh.heap addr (some c) }

/-- `SocketHandle::GetNewIOData`, at a free address. -/
def getNewIOData (sh : Shared) (addr : Addr) (owner : Handle) : Option Shared :=
  match sh.heap addr with
  | some _ => none
  | none => some { sh.setCell addr ⟨.nullPosted, none, sh.allocated, owner⟩ with
      allocated := sh.allocated + 1 }

/-- `SocketHandle::RemoveIOData` -/
def removeIOData (sh : Shared) (addr : Addr) : Option Shared :=
  match sh.heap addr with
  | none => none
  | some _ => some { sh with heap := Function.update sh.heap addr none }

/-- Set the `operationtype` of an io and hand it to the system, which accepts it or not. -/
def post (sh : Shared) (addr : Addr) (kind : OperationType) (key : Handle) (ok : Bool) :
    Option Shared :=
  match sh.heap addr with
  | none => none
  | some c =>
    let sh := sh.setCell addr { c with operationtype := kind }
    some (if ok then { sh with pending := sh.pending ++ [⟨addr, c.gen, kind, key⟩] } else sh)

/-- `WSASocket`, into `acceptsocket`. -/
def newAcceptSocket (sh : Shared) (addr : Addr) (ok : Bool) : Option Shared :=
  match sh.heap addr with
  | none => none
  | some c =>
    if ok then
      some { sh.setCell addr { c with acceptsocket := some sh.sockets } with
        sockets := sh.sockets + 1 }
    else some (sh.setCell addr { c with acceptsocket := none })

/-- `closesocket` of `acceptsocket`. -/
def closeAcceptSocket (sh : Shared) (addr : Addr) : Option Shared :=
  match sh.heap addr with
  | none => none
  | some c => some { sh.setCell addr { c with acceptsocket := none } with
      closed := c.acceptsocket.toList ++ sh.closed }

/-- The system completes a pending operation. -/
def complete (sh : Shared) (i : ℕ) (ok : Bool) (bytestransfered : ℕ) : Option Shared :=
  match sh.pending[i]? with
  | none => none
  | some op => some { sh with
      pending := sh.pending.eraseIdx i
      queue := sh.queue ++ [.io op ok bytestransfered] }

end Shared

/-! ## A thread -/

/-- Where a thread is: the next call, and the local variables that are still used. -/
inductive Pc
  /-- `GetQueuedCompletionStatus` -/
  | wait
  | exited
  /-- The packet was dequeued; its `operationtype` is read next. -/
  | got (op : Op) (bytestransfered : ℕ)
  /-- `DoAcceptEx`: `new SocketHandle` -/
  | doAcceptEx (listeniodata : Addr)
  /-- `CreateIoCompletionPort` -/
  | acceptAssoc (listeniodata : Addr) (connecthandle : Handle)
  /-- `DeriveAcceptEx` -/
  | acceptDerive (listeniodata : Addr) (connecthandle : Handle)
  | acceptNewIOData (listeniodata : Addr) (connecthandle : Handle)
  /-- `PostRecv` -/
  | acceptRecv (listeniodata : Addr) (connecthandle : Handle) (connectiodata : Addr)
  | acceptRemove (listeniodata : Addr)
  /-- A new io for `PostAcceptEx`, in `DoAcceptEx` and in `Start`. -/
  | newListen
  /-- `PostAcceptEx`: `WSASocket` -/
  | postAcceptEx (listeniodata : Addr)
  /-- `AcceptEx` -/
  | callAcceptEx (listeniodata : Addr)
  /-- `DoRecv`: the message is examined. -/
  | doRecv (connecthandle : Handle) (connectiodata : Addr)
  /-- `PostRecv` of the io of an incomplete message -/
  | rePost (connecthandle : Handle) (connectiodata : Addr)
  /-- `PostSend`, where `BuildSend` returns `built`. -/
  | postSend (connecthandle : Handle) (connectiodata : Addr) (built : Bool)
  | removeSent (connecthandle : Handle) (connectiodata : Addr)
  | newRecv (connecthandle : Handle)
  /-- `PostRecv` of a new io -/
  | postRecv (connecthandle : Handle) (connectiodata : Addr)
  deriving DecidableEq

/-- What comes back from outside: the result of a call, an address for an allocation, the message in
a buffer and who sent it, and what a freed io reads as. -/
structure Reply where
  ok : Bool
  addr : Addr
  peer : SockAddrIn
  message : Text
  garbage : OperationType

/-- The `switch` of `WorkerThread`, and the test before it. -/
def dispatch (op : Op) (bytestransfered : ℕ) (operationtype : OperationType) : Pc :=
  if bytestransfered = 0 ∧ (operationtype = .recvPosted ∨ operationtype = .sendPosted) then .wait
  else
    match operationtype with
    | .acceptPosted => .doAcceptEx op.addr
    | .recvPosted => .doRecv op.key op.addr
    | .sendPosted => .wait
    | .nullPosted => .wait

theorem dispatch_cases (op : Op) (n : ℕ) (operationtype : OperationType) :
    (operationtype = .acceptPosted ∧ dispatch op n operationtype = .doAcceptEx op.addr) ∨
      (operationtype = .recvPosted ∧ n ≠ 0 ∧
        dispatch op n operationtype = .doRecv op.key op.addr) ∨
      (operationtype ≠ .acceptPosted ∧ (operationtype = .recvPosted → n = 0) ∧
        dispatch op n operationtype = .wait) := by
  unfold dispatch
  cases operationtype with
  | acceptPosted => exact Or.inl ⟨rfl, if_neg (by simp)⟩
  | recvPosted =>
    by_cases hn : n = 0
    · exact Or.inr (Or.inr ⟨by simp, fun _ => hn, if_pos ⟨hn, Or.inl rfl⟩⟩)
    · exact Or.inr (Or.inl ⟨rfl, hn, if_neg fun h => hn h.1⟩)
  | sendPosted =>
    refine Or.inr (Or.inr ⟨by simp, by simp, ?_⟩)
    split <;> rfl
  | nullPosted => exact Or.inr (Or.inr ⟨by simp, by simp, if_neg (by simp)⟩)

/-- The branches of `HttpServer::DoRecv`. -/
def afterRecv (h : Handle) (io : Addr) : Verdict → Pc
  | .noGet => .wait
  | .incomplete => .rePost h io
  | .unanswered => .postSend h io false
  | .answered _ => .postSend h io true

/-- The `operationtype` that is read at an address. -/
def Shared.readType (sh : Shared) (addr : Addr) (garbage : OperationType) : OperationType :=
  match sh.heap addr with
  | none => garbage
  | some c => c.operationtype

/-- One step of a thread. -/
def threadStep (sh : Shared) (r : Reply) : Pc → Option (Shared × Pc)
  | .wait =>
    match sh.queue with
    | [] => none
    | .close :: queue => some ({ sh with queue }, .exited)
    | .io op ok n :: queue => some ({ sh with queue }, if ok then .got op n else .wait)
  | .exited => none
  | .got op n => some (sh, dispatch op n (sh.readType op.addr r.garbage))
  | .doAcceptEx lio =>
    match sh.heap lio with
    | none => none
    | some c => some ({ sh with handles := sh.handles ++ [c.acceptsocket] },
        .acceptAssoc lio (.connect sh.handles.length))
  | .acceptAssoc lio h => some (sh, if r.ok then .acceptDerive lio h else .wait)
  | .acceptDerive lio h => some (sh, if r.ok then .acceptNewIOData lio h else .wait)
  | .acceptNewIOData lio h =>
    (sh.getNewIOData r.addr h).map fun sh => (sh, .acceptRecv lio h r.addr)
  | .acceptRecv lio h cio =>
    (sh.post cio .recvPosted h r.ok).map fun sh => (sh, .acceptRemove lio)
  | .acceptRemove lio => (sh.removeIOData lio).map fun sh => (sh, .newListen)
  | .newListen => (sh.getNewIOData r.addr Handle.listen).map fun sh => (sh, .postAcceptEx r.addr)
  | .postAcceptEx lio =>
    (sh.newAcceptSocket lio r.ok).map fun sh => (sh, if r.ok then .callAcceptEx lio else .wait)
  | .callAcceptEx lio =>
    match sh.post lio .acceptPosted Handle.listen r.ok with
    | none => none
    | some sh =>
      if r.ok then some (sh, .wait) else (sh.closeAcceptSocket lio).map fun sh => (sh, .wait)
  | .doRecv h io =>
    match sh.heap io, verdict r.peer r.message with
    | some _, .ok v => some (sh, afterRecv h io v)
    | _, _ => none
  | .rePost h io => (sh.post io .recvPosted h r.ok).map fun sh => (sh, .newRecv h)
  | .postSend h io built =>
    (sh.post io .sendPosted h (built && r.ok)).map fun sh =>
      (sh, if built && r.ok then .removeSent h io else .newRecv h)
  | .removeSent h io => (sh.removeIOData io).map fun sh => (sh, .newRecv h)
  | .newRecv h => (sh.getNewIOData r.addr h).map fun sh => (sh, .postRecv h r.addr)
  | .postRecv h io => (sh.post io .recvPosted h r.ok).map fun sh => (sh, .wait)

/-- What a step of a thread does, by where the thread is. -/
inductive ThreadMove (sh : Shared) (r : Reply) : Pc → Shared → Pc → Prop
  | dequeueClose (queue : List Packet) (hqueue : sh.queue = .close :: queue) :
      ThreadMove sh r .wait { sh with queue } .exited
  | dequeue (op : Op) (ok : Bool) (n : ℕ) (queue : List Packet)
      (hqueue : sh.queue = .io op ok n :: queue) :
      ThreadMove sh r .wait { sh with queue } (if ok then .got op n else .wait)
  | got (op : Op) (n : ℕ) :
      ThreadMove sh r (.got op n) sh (dispatch op n (sh.readType op.addr r.garbage))
  | doAcceptEx (lio : Addr) (c : Cell) (hc : sh.heap lio = some c) :
      ThreadMove sh r (.doAcceptEx lio) { sh with handles := sh.handles ++ [c.acceptsocket] }
        (.acceptAssoc lio (.connect sh.handles.length))
  | acceptAssoc (lio : Addr) (h : Handle) :
      ThreadMove sh r (.acceptAssoc lio h) sh (if r.ok then .acceptDerive lio h else .wait)
  | acceptDerive (lio : Addr) (h : Handle) :
      ThreadMove sh r (.acceptDerive lio h) sh (if r.ok then .acceptNewIOData lio h else .wait)
  | acceptNewIOData (lio : Addr) (h : Handle) {sh' : Shared}
      (hnew : sh.getNewIOData r.addr h = some sh') :
      ThreadMove sh r (.acceptNewIOData lio h) sh' (.acceptRecv lio h r.addr)
  | acceptRecv (lio : Addr) (h : Handle) (cio : Addr) {sh' : Shared}
      (hpost : sh.post cio .recvPosted h r.ok = some sh') :
      ThreadMove sh r (.acceptRecv lio h cio) sh' (.acceptRemove lio)
  | acceptRemove (lio : Addr) {sh' : Shared} (hremove : sh.removeIOData lio = some sh') :
      ThreadMove sh r (.acceptRemove lio) sh' .newListen
  | newListen {sh' : Shared} (hnew : sh.getNewIOData r.addr .listen = some sh') :
      ThreadMove sh r .newListen sh' (.postAcceptEx r.addr)
  | postAcceptEx (lio : Addr) {sh' : Shared} (hnew : sh.newAcceptSocket lio r.ok = some sh') :
      ThreadMove sh r (.postAcceptEx lio) sh' (if r.ok then .callAcceptEx lio else .wait)
  | callAcceptEx (lio : Addr) {sh' : Shared} (hok : r.ok = true)
      (hpost : sh.post lio .acceptPosted .listen true = some sh') :
      ThreadMove sh r (.callAcceptEx lio) sh' .wait
  | failAcceptEx (lio : Addr) {sh₁ sh' : Shared} (hok : r.ok = false)
      (hpost : sh.post lio .acceptPosted .listen false = some sh₁)
      (hclose : sh₁.closeAcceptSocket lio = some sh') :
      ThreadMove sh r (.callAcceptEx lio) sh' .wait
  | doRecv (h : Handle) (io : Addr) (c : Cell) (v : Verdict) (hc : sh.heap io = some c)
      (hv : verdict r.peer r.message = .ok v) :
      ThreadMove sh r (.doRecv h io) sh (afterRecv h io v)
  | rePost (h : Handle) (io : Addr) {sh' : Shared}
      (hpost : sh.post io .recvPosted h r.ok = some sh') :
      ThreadMove sh r (.rePost h io) sh' (.newRecv h)
  | postSend (h : Handle) (io : Addr) (built : Bool) {sh' : Shared}
      (hpost : sh.post io .sendPosted h (built && r.ok) = some sh') :
      ThreadMove sh r (.postSend h io built) sh'
        (if built && r.ok then .removeSent h io else .newRecv h)
  | removeSent (h : Handle) (io : Addr) {sh' : Shared} (hremove : sh.removeIOData io = some sh') :
      ThreadMove sh r (.removeSent h io) sh' (.newRecv h)
  | newRecv (h : Handle) {sh' : Shared} (hnew : sh.getNewIOData r.addr h = some sh') :
      ThreadMove sh r (.newRecv h) sh' (.postRecv h r.addr)
  | postRecv (h : Handle) (io : Addr) {sh' : Shared}
      (hpost : sh.post io .recvPosted h r.ok = some sh') :
      ThreadMove sh r (.postRecv h io) sh' .wait

theorem threadStep_move {sh sh' : Shared} {r : Reply} {pc pc' : Pc}
    (h : threadStep sh r pc = some (sh', pc')) : ThreadMove sh r pc sh' pc' := by
  cases pc with
  | wait =>
    rw [threadStep] at h
    split at h
    · cases h
    next queue hqueue =>
      cases h
      exact .dequeueClose queue hqueue
    next op ok n queue hqueue =>
      cases h
      exact .dequeue op ok n queue hqueue
  | exited => cases h
  | got op n =>
    cases h
    exact .got op n
  | doAcceptEx lio =>
    rw [threadStep] at h
    split at h
    · cases h
    next c hc =>
      cases h
      exact .doAcceptEx lio c hc
  | acceptAssoc lio c =>
    cases h
    exact .acceptAssoc lio c
  | acceptDerive lio c =>
    cases h
    exact .acceptDerive lio c
  | acceptNewIOData lio c =>
    obtain ⟨sh₁, hnew, heq⟩ := Option.map_eq_some_iff.mp h
    cases heq
    exact .acceptNewIOData lio c hnew
  | acceptRecv lio c cio =>
    obtain ⟨sh₁, hpost, heq⟩ := Option.map_eq_some_iff.mp h
    cases heq
    exact .acceptRecv lio c cio hpost
  | acceptRemove lio =>
    obtain ⟨sh₁, hremove, heq⟩ := Option.map_eq_some_iff.mp h
    cases heq
    exact .acceptRemove lio hremove
  | newListen =>
    obtain ⟨sh₁, hnew, heq⟩ := Option.map_eq_some_iff.mp h
    cases heq
    exact .newListen hnew
  | postAcceptEx lio =>
    obtain ⟨sh₁, hnew, heq⟩ := Option.map_eq_some_iff.mp h
    cases heq
    exact .postAcceptEx lio hnew
  | callAcceptEx lio =>
    rw [threadStep] at h
    split at h
    · cases h
    next sh₁ hpost =>
      cases hok : r.ok with
      | true =>
        rw [hok] at h hpost
        cases h
        exact .callAcceptEx lio hok hpost
      | false =>
        rw [hok] at h hpost
        obtain ⟨sh₂, hclose, heq⟩ := Option.map_eq_some_iff.mp h
        cases heq
        exact .failAcceptEx lio hok hpost hclose
  | doRecv c io =>
    rw [threadStep] at h
    split at h
    next cell v hcell hv =>
      cases h
      exact .doRecv c io cell v hcell hv
    · cases h
  | rePost c io =>
    obtain ⟨sh₁, hpost, heq⟩ := Option.map_eq_some_iff.mp h
    cases heq
    exact .rePost c io hpost
  | postSend c io built =>
    obtain ⟨sh₁, hpost, heq⟩ := Option.map_eq_some_iff.mp h
    cases heq
    exact .postSend c io built hpost
  | removeSent c io =>
    obtain ⟨sh₁, hremove, heq⟩ := Option.map_eq_some_iff.mp h
    cases heq
    exact .removeSent c io hremove
  | newRecv c =>
    obtain ⟨sh₁, hnew, heq⟩ := Option.map_eq_some_iff.mp h
    cases heq
    exact .newRecv c hnew
  | postRecv c io =>
    obtain ⟨sh₁, hpost, heq⟩ := Option.map_eq_some_iff.mp h
    cases heq
    exact .postRecv c io hpost

/-! ## The server -/

/-- The main thread. -/
inductive Main
  /-- The loop of `Start`: the iterations left after the one at `pc`. -/
  | starting (left : ℕ) (pc : Pc)
  | running
  /-- The loop of `Stop`: the packets left to post. -/
  | stopping (left : ℕ)
  /-- `WaitForMultipleObjects` -/
  | waiting
  | stopped
  deriving DecidableEq

/-- Where the main thread is in the code it shares with the workers. -/
def Main.pc : Main → Pc
  | starting _ pc => pc
  | _ => .wait

structure State where
  shared : Shared
  workers : List Pc
  main : Main

/-- Where the threads are. -/
def State.pcs (s : State) : List Pc := s.main.pc :: s.workers

inductive Action
  /-- A worker takes a step. -/
  | worker (w : ℕ) (r : Reply)
  /-- The system completes a pending operation. -/
  | kernel (i : ℕ) (ok : Bool) (bytestransfered : ℕ)
  /-- The main thread takes a step. -/
  | main (r : Reply)
  /-- `Stop` is called. -/
  | stop

/-- The server with its workers before the first `PostAcceptEx`. -/
def init (threadnum : ℕ) : State where
  shared := ⟨fun _ => none, 0, [], [], [], 1, []⟩
  workers := List.replicate threadnum .wait
  main := .starting maxPostAccept .wait

/-- One step of the main thread. -/
def mainStep (s : State) (r : Reply) : Option State :=
  match s.main with
  | .starting 0 .wait => some { s with main := .running }
  | .starting (left + 1) .wait => some { s with main := .starting left .newListen }
  | .starting left pc =>
    (threadStep s.shared r pc).map fun (sh, pc) =>
      { s with shared := sh, main := .starting left pc }
  | .running => none
  | .stopping 0 => some { s with main := .waiting }
  | .stopping (left + 1) =>
    let queue := if r.ok then s.shared.queue ++ [.close] else s.shared.queue
    some { s with shared := { s.shared with queue }, main := .stopping left }
  | .waiting =>
    if ∀ pc ∈ s.workers, pc = .exited then
      some { s with
        shared := { s.shared with closed := 0 :: s.shared.closed }
        main := .stopped }
    else none
  | .stopped => none

/-- One step of the server. -/
def step (s : State) : Action → Option State
  | .worker w r =>
    match s.workers[w]? with
    | none => none
    | some pc =>
      (threadStep s.shared r pc).map fun (sh, pc) =>
        { s with shared := sh, workers := s.workers.set w pc }
  | .kernel i ok n => (s.shared.complete i ok n).map fun sh => { s with shared := sh }
  | .main r => mainStep s r
  | .stop => if s.main = .running then some { s with main := .stopping s.workers.length } else none

/-! ## What a step does -/

/-- What a step of the main thread does, by where it is. -/
inductive MainMove (s : State) (r : Reply) : State → Prop
  | running (hmain : s.main = .starting 0 .wait) : MainMove s r { s with main := .running }
  | newListen (left : ℕ) (hmain : s.main = .starting (left + 1) .wait) :
      MainMove s r { s with main := .starting left .newListen }
  | thread (left : ℕ) (pc pc' : Pc) {sh : Shared} (hmain : s.main = .starting left pc)
      (hpc : pc ≠ .wait) (hmoves : threadStep s.shared r pc = some (sh, pc')) :
      MainMove s r { s with shared := sh, main := .starting left pc' }
  | waiting (hmain : s.main = .stopping 0) : MainMove s r { s with main := .waiting }
  | postClose (left : ℕ) (hmain : s.main = .stopping (left + 1)) :
      MainMove s r { s with
        shared := { s.shared with
          queue := if r.ok then s.shared.queue ++ [.close] else s.shared.queue }
        main := .stopping left }
  | stopped (hmain : s.main = .waiting) (hall : ∀ pc ∈ s.workers, pc = .exited) :
      MainMove s r { s with
        shared := { s.shared with closed := 0 :: s.shared.closed }
        main := .stopped }

theorem mainStep_move {s t : State} {r : Reply} (h : mainStep s r = some t) : MainMove s r t := by
  rw [mainStep] at h
  split at h
  next hmain =>
    cases h
    exact .running hmain
  next left hmain =>
    cases h
    exact .newListen left hmain
  next left pc hne hne' hmain =>
    obtain ⟨⟨sh, pc'⟩, hmoves, rfl⟩ := Option.map_eq_some_iff.mp h
    refine .thread left pc pc' hmain ?_ hmoves
    rintro rfl
    cases left with
    | zero => exact hne rfl rfl
    | succ left => exact hne' left rfl rfl
  · cases h
  next hmain =>
    cases h
    exact .waiting hmain
  next left hmain =>
    cases h
    exact .postClose left hmain
  next hmain =>
    split at h
    next hall =>
      cases h
      exact .stopped hmain hall
    · cases h
  · cases h

theorem step_worker {s t : State} {w : ℕ} {r : Reply} (h : step s (.worker w r) = some t) :
    ∃ pc sh pc', s.workers[w]? = some pc ∧ threadStep s.shared r pc = some (sh, pc') ∧
      t = { s with shared := sh, workers := s.workers.set w pc' } := by
  rw [step] at h
  split at h
  · cases h
  next pc hw =>
    obtain ⟨⟨sh, pc'⟩, hmoves, rfl⟩ := Option.map_eq_some_iff.mp h
    exact ⟨pc, sh, pc', hw, hmoves, rfl⟩

theorem step_stop {s t : State} (h : step s .stop = some t) :
    s.main = .running ∧ t = { s with main := .stopping s.workers.length } := by
  rw [step] at h
  split at h
  next hmain => exact ⟨hmain, (Option.some.inj h).symm⟩
  · cases h

/-- The iterations of the loop of `Start` that are still to come. -/
def Main.left : Main → ℕ
  | starting left _ => left
  | _ => 0

/-- The thread of `threadStep` that an action moves, and what comes back to it. -/
def State.acting (s : State) : Action → Option (Pc × Reply)
  | .worker w r => s.workers[w]?.map fun pc => (pc, r)
  | .main r => if s.main.pc = .wait then none else some (s.main.pc, r)
  | .kernel _ _ _ => none
  | .stop => none

/-- The operation of a packet. -/
def Packet.op? : Packet → Option Op
  | io op _ _ => some op
  | close => none

/-- What a step does: a thread moves, the system completes an operation, `Start` begins an
iteration, or the main thread does something that concerns no operation. -/
inductive Move (s : State) (a : Action) (t : State) : Prop
  | thread (r : Reply) (pc pc' : Pc) (rest : List Pc)
      (acts : s.acting a = some (pc, r))
      (moves : threadStep s.shared r pc = some (t.shared, pc'))
      (before : s.pcs.Perm (pc :: rest)) (after : t.pcs.Perm (pc' :: rest))
      (left : t.main.left = s.main.left)
  | kernel (i : ℕ) (ok : Bool) (n : ℕ) (acts : a = .kernel i ok n)
      (completes : s.shared.complete i ok n = some t.shared)
      (pcs : t.pcs = s.pcs) (left : t.main.left = s.main.left)
  | newListen (left : ℕ) (acts : s.acting a = none) (before : s.main = .starting (left + 1) .wait)
      (after : t = { s with main := .starting left .newListen })
  | control (queue : List Packet) (closed : List Socket) (acts : s.acting a = none)
      (shared : t.shared = { s.shared with queue, closed })
      (ops : queue.filterMap Packet.op? = s.shared.queue.filterMap Packet.op?)
      (closes : s.shared.closed ⊆ closed)
      (pcs : t.pcs = s.pcs) (left : t.main.left = s.main.left)

theorem step_move {s t : State} {a : Action} (h : step s a = some t) : Move s a t := by
  cases a with
  | worker w r =>
    obtain ⟨pc, sh, pc', hw, hmoves, rfl⟩ := step_worker h
    obtain ⟨hlt, hpc⟩ := List.getElem?_eq_some_iff.mp hw
    refine .thread r pc pc' (s.main.pc :: s.workers.eraseIdx w) (by simp [State.acting, hw])
      hmoves ?_ ?_ rfl
    · refine .trans (.cons _ ?_) (.swap _ _ _)
      exact hpc ▸ (List.getElem_cons_eraseIdx_perm hlt).symm
    · exact .trans (.cons _ (List.set_perm_cons_eraseIdx hlt pc')) (.swap _ _ _)
  | kernel i ok n =>
    obtain ⟨sh, hcompletes, rfl⟩ := Option.map_eq_some_iff.mp h
    exact .kernel i ok n rfl hcompletes rfl rfl
  | main r =>
    cases mainStep_move h with
    | running hmain =>
      refine .control _ _ ?_ rfl rfl (List.Subset.refl _) ?_ ?_
        <;> simp [State.acting, State.pcs, hmain, Main.pc, Main.left]
    | newListen left hmain =>
      exact .newListen left (by simp [State.acting, hmain, Main.pc]) hmain rfl
    | thread left pc pc' hmain hpc hmoves =>
      refine .thread r pc pc' s.workers (by simp [State.acting, hmain, Main.pc, hpc]) hmoves ?_ ?_
        ?_
        <;> simp [State.pcs, hmain, Main.pc, Main.left]
    | waiting hmain =>
      refine .control _ _ ?_ rfl rfl (List.Subset.refl _) ?_ ?_
        <;> simp [State.acting, State.pcs, hmain, Main.pc, Main.left]
    | postClose left hmain =>
      refine .control _ _ ?_ rfl ?_ (List.Subset.refl _) ?_ ?_
      case refine_2 => cases r.ok <;> simp [Packet.op?]
      all_goals simp [State.acting, State.pcs, hmain, Main.pc, Main.left]
    | stopped hmain hall =>
      refine .control _ _ ?_ rfl rfl (List.subset_cons_self _ _) ?_ ?_
        <;> simp [State.acting, State.pcs, hmain, Main.pc, Main.left]
  | stop =>
    obtain ⟨hmain, rfl⟩ := step_stop h
    refine .control _ _ ?_ rfl rfl (List.Subset.refl _) ?_ ?_
      <;> simp [State.acting, State.pcs, hmain, Main.pc, Main.left]

theorem mem_pcs_of_acting {s : State} {a : Action} {pc : Pc} {r : Reply}
    (acts : s.acting a = some (pc, r)) : pc ∈ s.pcs := by
  cases a with
  | worker w r =>
    obtain ⟨pc, hw, heq⟩ := Option.map_eq_some_iff.mp acts
    cases heq
    exact List.mem_cons_of_mem _ (List.mem_of_getElem? hw)
  | main r =>
    rw [State.acting] at acts
    split_ifs at acts
    cases acts
    exact List.mem_cons_self
  | kernel i ok n => cases acts
  | stop => cases acts

theorem mainStep_starting {s : State} {left : ℕ} {pc : Pc} (r : Reply)
    (hmain : s.main = .starting left pc) (hpc : pc ≠ .wait) :
    mainStep s r = (threadStep s.shared r pc).map fun (sh, pc) =>
      { s with shared := sh, main := .starting left pc } := by
  cases pc with
  | wait => exact absurd rfl hpc
  | _ => simp only [mainStep, hmain]

/-- A thread that can move gives a step. -/
theorem step_of_acting {s : State} {a : Action} {r : Reply} {pc : Pc} {x : Shared × Pc}
    (acts : s.acting a = some (pc, r)) (moves : threadStep s.shared r pc = some x) :
    ∃ t, step s a = some t := by
  cases a with
  | worker w r =>
    obtain ⟨pc, hw, heq⟩ := Option.map_eq_some_iff.mp acts
    cases heq
    simp [step, hw, moves]
  | main r =>
    rw [State.acting] at acts
    split_ifs at acts with hpc
    cases acts
    cases hmain : s.main with
    | starting left pc =>
      rw [hmain] at hpc moves
      have hmoves : threadStep s.shared r pc = some x := moves
      exact ⟨_, (mainStep_starting r hmain hpc).trans (by rw [hmoves]; rfl)⟩
    | _ => exact absurd (by rw [hmain]; rfl) hpc
  | kernel i ok n => cases acts
  | stop => cases acts

/-- The step of a thread that can move, and what it leaves of the others. -/
theorem exists_step_of_acting {s : State} {a : Action} {r : Reply} {pc pc' : Pc} {sh : Shared}
    (acts : s.acting a = some (pc, r)) (moves : threadStep s.shared r pc = some (sh, pc')) :
    ∃ t rest, step s a = some t ∧ t.shared = sh ∧ s.pcs.Perm (pc :: rest) ∧
      t.pcs.Perm (pc' :: rest) := by
  obtain ⟨t, ht⟩ := step_of_acting acts moves
  cases step_move ht with
  | thread r₁ pc₁ pc₁' rest acts₁ moves₁ before after left =>
    cases acts.symm.trans acts₁
    obtain ⟨hshared, rfl⟩ := Prod.mk.inj (Option.some.inj (moves.symm.trans moves₁))
    exact ⟨t, rest, ht, hshared.symm, before, after⟩
  | kernel i ok n acts₁ completes pcs left =>
    subst acts₁
    cases acts
  | newListen left acts₁ before after => cases acts.symm.trans acts₁
  | control queue closed acts₁ shared ops closes pcs left => cases acts.symm.trans acts₁

end AMSServer.IOCPServer
