import AMSServer.Foundations.Transition
import Mathlib.Data.List.Range

/-!
# Starting and stopping

`IOCPServer::Start` and `IOCPServer::Stop` (`IOCPServer.cpp`) by the kernel objects they open and
close: the completion port, the worker threads and the listening socket. A kernel object is the
number it was created with, so a handle that was closed names nothing that is opened later. The
accepts that a successful `Start` posts are left out here.

A worker waits on the port that it was started with, and `Stop` ends the workers that wait on the
port it posts to. The threads of `InitializeIOCP` are created.

A `Start` that fails after the port was created leaves the port open and the workers running
(`failedStart_leaks`). A later `Start` makes the server forget them, and no `Stop` ends them.
-/

namespace AMSServer.Lifecycle

/-- `MAX_THREAD_NUM` -/
def maxThreadNum : ℕ := 8

/-! ## Kernel objects -/

inductive Kind
  | thread
  | port
  | socket
  deriving DecidableEq

/-- What the server does to a kernel object, and the marks of a successful `Start` and of a call of
`Stop`. -/
inductive Call
  | opened (kind : Kind) (id : ℕ)
  /-- `CloseHandle` or `closesocket`, with `none` for `NULL` and `INVALID_SOCKET`. -/
  | closed (kind : Kind) (handle : Option ℕ)
  | started
  | stop
  deriving DecidableEq

/-- A thread that is running, and the port it waits on. -/
structure Worker where
  thread : ℕ
  port : ℕ
  deriving DecidableEq

/-- The members of `IOCPServer` that name kernel objects, the threads that are running, and what has
been done so far. -/
structure Server where
  completeport : Option ℕ
  /-- `threadhandle`, by its first `threadnum` entries -/
  threadhandle : List ℕ
  /-- `listenhandle->ssocket` -/
  ssocket : Option ℕ
  workers : List Worker
  created : ℕ
  log : List Call
  deriving DecidableEq

namespace Server

/-- `IOCPServer::IOCPServer` -/
def new : Server := ⟨none, [], none, [], 0, []⟩

def call (s : Server) (c : Call) : Server := { s with log := s.log ++ [c] }

/-! ## `Start` -/

/-- The call of `Start` that fails. -/
inductive Failure
  | completeport
  | wsaSocket
  | associate
  | setsockopt
  | bind
  | listen
  | acceptEx
  | getAcceptExSockaddrs
  deriving DecidableEq

/-- The number of workers on a machine with some processors -/
def threadnum (processors : ℕ) : ℕ :=
  if processors < maxThreadNum then processors else maxThreadNum

/-- `IOCPServer::InitializeIOCP` on a machine with some processors -/
def initializeIOCP (processors : ℕ) (failure : Option Failure) (s : Server) : Bool × Server :=
  if failure = some .completeport then (false, { s with completeport := none })
  else
    let port := s.created
    let threadhandle := List.range' (port + 1) (threadnum processors)
    (true, { s with
      completeport := some port
      threadhandle
      workers := s.workers ++ threadhandle.map fun thread => ⟨thread, port⟩
      created := port + 1 + threadnum processors
      log := s.log ++ .opened .port port :: threadhandle.map (.opened .thread) })

/-- `IOCPServer::InitializeSocket` -/
def initializeSocket (failure : Option Failure) (s : Server) : Bool × Server :=
  if failure = some .wsaSocket then (false, { s with ssocket := none })
  else
    let s := { s.call (.opened .socket s.created) with
      ssocket := some s.created
      created := s.created + 1 }
    if failure = some .associate then (false, s)
    else if failure = some .setsockopt then (false, s.call (.closed .socket s.ssocket))
    else if failure = some .bind then (false, s.call (.closed .socket s.ssocket))
    else if failure = some .listen then (false, s.call (.closed .socket s.ssocket))
    else (true, s)

/-- `IOCPServer::GetAcceptExFuction` -/
def getAcceptExFuction (failure : Option Failure) (s : Server) : Bool × Server :=
  if s.ssocket = none then (false, s)
  else if failure = some .acceptEx then (false, s)
  else if failure = some .getAcceptExSockaddrs then (false, s)
  else (true, s)

/-- `IOCPServer::Start` -/
def start (processors : ℕ) (failure : Option Failure) (s : Server) : Bool × Server :=
  let (ok, s) := s.initializeIOCP processors failure
  if ok = false then (false, s)
  else
    let (ok, s) := s.initializeSocket failure
    if ok = false then (false, s)
    else
      let (ok, s) := s.getAcceptExFuction failure
      if ok = false then (false, s) else (true, s.call .started)

/-! ## `Stop` -/

/-- `WaitForMultipleObjects` returns: the threads that are waited for have the port that the close
packets go to. -/
def waitReturns (s : Server) : Bool :=
  s.workers.all fun w => w.thread ∉ s.threadhandle ∨ some w.port = s.completeport

/-- `IOCPServer::Stop`, when it returns -/
def stop (s : Server) : Option Server :=
  if s.waitReturns then
    some { s with
      workers := s.workers.filter fun w => some w.port ≠ s.completeport
      log := s.log ++ .stop :: s.threadhandle.map (fun thread => .closed .thread (some thread)) ++
        [.closed .socket s.ssocket, .closed .port s.completeport] }
  else none

/-- `SocketHandle::~SocketHandle` of the listening socket, in `IOCPServer::~IOCPServer` -/
def destroy (s : Server) : Server :=
  if s.ssocket = none then s
  else { s.call (.closed .socket s.ssocket) with ssocket := none }

/-! ## What a `Start` leaves -/

/-- The server after `InitializeIOCP`. -/
def launched (processors : ℕ) (s : Server) : Server :=
  (s.initializeIOCP processors none).2

/-- The server after `WSASocket`. -/
def withSocket (s : Server) : Server := (s.initializeSocket none).2

/-- **What a `Start` leaves**, by the call that fails once the port is created: only the failures
between `setsockopt` and `listen` close anything, and that is the listening socket. -/
theorem start_eq (processors : ℕ) (failure : Option Failure) (s : Server) :
    s.start processors failure =
      match failure with
      | none => (true, (s.launched processors).withSocket.call .started)
      | some .completeport => (false, { s with completeport := none })
      | some .wsaSocket => (false, { s.launched processors with ssocket := none })
      | some .setsockopt | some .bind | some .listen =>
        (false, (s.launched processors).withSocket.call
          (.closed .socket (some (s.launched processors).created)))
      | some .associate | some .acceptEx | some .getAcceptExSockaddrs =>
        (false, (s.launched processors).withSocket) := by
  cases failure with
  | none => rfl
  | some f => cases f <;> rfl

/-- `Start` returns `FALSE` exactly when one of its calls fails. -/
theorem start_fst (processors : ℕ) (failure : Option Failure) (s : Server) :
    (s.start processors failure).1 = failure.isNone := by
  rw [start_eq]
  cases failure with
  | none => rfl
  | some f => cases f <;> rfl

end Server

/-! ## The objects so far -/

/-- The object of a call. -/
def Call.id? : Call → Option ℕ
  | opened _ id => some id
  | closed _ handle => handle
  | started => none
  | stop => none

namespace Server

/-- The objects that the members name. -/
def names (s : Server) : List ℕ := s.completeport.toList ++ s.threadhandle ++ s.ssocket.toList

/-- Everything named was created before. -/
structure Fresh (s : Server) : Prop where
  log : ∀ c ∈ s.log, ∀ id ∈ c.id?, id < s.created
  names : ∀ id ∈ s.names, id < s.created
  workers : ∀ w ∈ s.workers, w.port < s.created ∧ w.thread < s.created

variable {s : Server}

theorem fresh_new : new.Fresh :=
  ⟨by simp [new], by simp [new, Server.names], by simp [new]⟩

/-- A member may stop naming its object. -/
theorem Fresh.congr {t : Server} (hs : s.Fresh) (hlog : t.log = s.log)
    (hcreated : t.created = s.created) (hworkers : t.workers = s.workers)
    (hnames : t.names ⊆ s.names) : t.Fresh where
  log := by
    rw [hlog, hcreated]
    exact hs.log
  names := by
    rw [hcreated]
    exact fun id hid => hs.names id (hnames hid)
  workers := by
    rw [hworkers, hcreated]
    exact hs.workers

theorem Fresh.call (hs : s.Fresh) {c : Call} (hc : ∀ id ∈ c.id?, id < s.created) :
    (s.call c).Fresh where
  log c' hc' := by
    rcases List.mem_append.mp hc' with hc' | hc'
    · exact hs.log c' hc'
    · obtain rfl := List.mem_singleton.mp hc'
      exact hc
  names := hs.names
  workers := hs.workers

theorem Fresh.launched (hs : s.Fresh) (processors : ℕ) : (s.launched processors).Fresh where
  log c hc id hid := by
    have hlog := hs.log c
    rcases List.mem_append.mp hc with hc | hc
    · have hlt := hlog hc id hid
      change id < s.created + 1 + threadnum processors
      omega
    change id < s.created + 1 + threadnum processors
    rcases List.mem_cons.mp hc with rfl | hc
    · cases hid
      omega
    · obtain ⟨thread, hthread, rfl⟩ := List.mem_map.mp hc
      cases hid
      exact (List.mem_range'_1.mp hthread).2
  names id hid := by
    have hnames := hs.names id
    change id ∈ [s.created] ++ List.range' (s.created + 1) (threadnum processors) ++
      s.ssocket.toList at hid
    change id < s.created + 1 + threadnum processors
    simp only [List.mem_append, List.mem_singleton, List.mem_range'_1] at hid
    rcases hid with (rfl | hid) | hid
    · omega
    · exact hid.2
    · have hlt := hnames (List.mem_append_right _ hid)
      omega
  workers w hw := by
    change w.port < s.created + 1 + threadnum processors ∧
      w.thread < s.created + 1 + threadnum processors
    rcases List.mem_append.mp hw with hw | hw
    · have hlt := hs.workers w hw
      omega
    · obtain ⟨thread, hthread, rfl⟩ := List.mem_map.mp hw
      have hlt := (List.mem_range'_1.mp hthread).2
      constructor
      · change s.created < _
        omega
      · exact hlt

theorem Fresh.withSocket (hs : s.Fresh) : s.withSocket.Fresh where
  log c hc id hid := by
    change id < s.created + 1
    rcases List.mem_append.mp hc with hc | hc
    · have hlt := hs.log c hc id hid
      omega
    · obtain rfl := List.mem_singleton.mp hc
      cases hid
      exact Nat.lt_succ_self _
  names id hid := by
    change id ∈ s.completeport.toList ++ s.threadhandle ++ [s.created] at hid
    change id < s.created + 1
    rcases List.mem_append.mp hid with hid | hid
    · have hlt := hs.names id (List.mem_append_left _ hid)
      omega
    · obtain rfl := List.mem_singleton.mp hid
      exact Nat.lt_succ_self _
  workers w hw := ⟨Nat.lt_succ_of_lt (hs.workers w hw).1, Nat.lt_succ_of_lt (hs.workers w hw).2⟩

/-- **`Start` keeps the numbers apart**, whatever fails. -/
theorem Fresh.start (hs : s.Fresh) (processors : ℕ) (failure : Option Failure) :
    (s.start processors failure).2.Fresh := by
  have hlaunched := hs.launched processors
  have hsocket := hlaunched.withSocket
  have hclosed : ((s.launched processors).withSocket.call
      (.closed .socket (some (s.launched processors).created))).Fresh := by
    apply hsocket.call
    intro id hid
    cases hid
    exact Nat.lt_succ_self _
  rw [start_eq]
  cases failure with
  | none => exact hsocket.call nofun
  | some f =>
    cases f with
    | completeport =>
      change Server.Fresh { s with completeport := none }
      refine hs.congr rfl rfl rfl ?_
      simp [Server.names]
    | wsaSocket =>
      change Server.Fresh { s.launched processors with ssocket := none }
      refine hlaunched.congr rfl rfl rfl ?_
      simp [Server.names]
    | setsockopt => exact hclosed
    | bind => exact hclosed
    | listen => exact hclosed
    | associate => exact hsocket
    | acceptEx => exact hsocket
    | getAcceptExSockaddrs => exact hsocket

/-- `Stop` names only what the members name. -/
theorem Fresh.stop {t : Server} (hs : s.Fresh) (h : s.stop = some t) : t.Fresh := by
  rw [Server.stop] at h
  split at h
  · cases h
    refine ⟨fun c hc id hid => ?_, hs.names, fun w hw => hs.workers w (List.mem_filter.mp hw).1⟩
    change id < s.created
    simp only [List.append_assoc, List.cons_append, List.mem_append, List.mem_cons, List.mem_map,
      List.not_mem_nil, or_false] at hc
    rcases hc with hc | rfl | ⟨thread, hthread, rfl⟩ | rfl | rfl
    · exact hs.log c hc id hid
    · cases hid
    · cases hid
      exact hs.names _ (List.mem_append_left _ (List.mem_append_right _ hthread))
    · exact hs.names id (List.mem_append_right _ (Option.mem_toList.mpr hid))
    · exact hs.names id (List.mem_append_left _
        (List.mem_append_left _ (Option.mem_toList.mpr hid)))
  · cases h

end Server

/-! ## Histories of the server -/

/-- A call of `Start`, with its failure, or of `Stop`. -/
inductive Event
  | start (failure : Option Server.Failure)
  | stop
  deriving DecidableEq

/-- The server after a call that returns. -/
def step (processors : ℕ) (s : Server) : Event → Option Server
  | .start failure => some (s.start processors failure).2
  | .stop => s.stop

open Transition

variable {processors : ℕ} {s t : Server}

/-- Every call keeps the numbers apart. -/
theorem Server.Fresh.step (hs : s.Fresh) {e : Event} (h : step processors s e = some t) :
    t.Fresh := by
  cases e with
  | start failure =>
    cases h
    exact hs.start processors failure
  | stop => exact hs.stop h

theorem fresh_of_exec {events : List Event} (hs : s.Fresh)
    (h : exec (step processors) s events = some t) : t.Fresh :=
  invariant_always (fun _ _ _ hs h => hs.step h) hs h

/-! ## What a failed `Start` leaves -/

/-- The object was opened and not closed. -/
def IsOpen (log : List Call) (kind : Kind) (id : ℕ) : Prop :=
  .opened kind id ∈ log ∧ .closed kind (some id) ∉ log

instance (log : List Call) (kind : Kind) (id : ℕ) : Decidable (IsOpen log kind id) :=
  inferInstanceAs (Decidable (_ ∧ _))

theorem IsOpen.append {log calls : List Call} {kind : Kind} {id : ℕ} (h : IsOpen log kind id)
    (hcalls : .closed kind (some id) ∉ calls) : IsOpen (log ++ calls) kind id :=
  ⟨List.mem_append_left _ h.1, fun hc => (List.mem_append.mp hc).elim h.2 hcalls⟩

namespace Server

/-- **The server before it is started**: no worker runs, no port and no listening socket is open,
and `ssocket` names no closed socket. -/
structure Idle (s : Server) : Prop where
  workers : s.workers = []
  port : ∀ id, ¬ IsOpen s.log .port id
  socket : ∀ id, ¬ IsOpen s.log .socket id
  ssocket : ∀ id ∈ s.ssocket, .closed .socket (some id) ∉ s.log

/-- A worker that `Stop` does not end. -/
def Stranded (s : Server) : Prop := ∃ w ∈ s.workers, some w.port ≠ s.completeport

/-- A `Start` that creates its port closes no port, the new one included. -/
theorem start_log (processors : ℕ) {failure : Option Failure} (s : Server)
    (h : failure ≠ some .completeport) :
    ∃ calls, (s.start processors failure).2.log = s.log ++ .opened .port s.created :: calls ∧
      ∀ id, .closed .port id ∉ calls := by
  have hlaunched : (s.launched processors).log = s.log ++ .opened .port s.created ::
      (List.range' (s.created + 1) (threadnum processors)).map (.opened .thread) := rfl
  have hsocket : (s.launched processors).withSocket.log = s.log ++ .opened .port s.created ::
      ((List.range' (s.created + 1) (threadnum processors)).map (.opened .thread) ++
        [.opened .socket (s.launched processors).created]) := by
    change (s.launched processors).log ++ _ = _
    rw [hlaunched, List.append_assoc, List.cons_append]
  have hcall (c : Call) : ((s.launched processors).withSocket.call c).log =
      s.log ++ .opened .port s.created ::
        ((List.range' (s.created + 1) (threadnum processors)).map (.opened .thread) ++
          [.opened .socket (s.launched processors).created, c]) := by
    change (s.launched processors).withSocket.log ++ _ = _
    simp [hsocket]
  rw [start_eq]
  cases failure with
  | none => exact ⟨_, hcall _, by simp⟩
  | some f =>
    cases f with
    | completeport => exact absurd rfl h
    | wsaSocket => exact ⟨_, hlaunched, by simp⟩
    | setsockopt => exact ⟨_, hcall _, by simp⟩
    | bind => exact ⟨_, hcall _, by simp⟩
    | listen => exact ⟨_, hcall _, by simp⟩
    | associate => exact ⟨_, hsocket, by simp⟩
    | acceptEx => exact ⟨_, hsocket, by simp⟩
    | getAcceptExSockaddrs => exact ⟨_, hsocket, by simp⟩

/-- The port that a `Start` creates stays open when the `Start` fails. -/
theorem Fresh.isOpen_port (hs : s.Fresh) (processors : ℕ) {failure : Option Failure}
    (h : failure ≠ some .completeport) :
    IsOpen (s.start processors failure).2.log .port s.created := by
  obtain ⟨calls, hlog, hcalls⟩ := s.start_log processors h
  rw [IsOpen, hlog]
  refine ⟨by simp, fun hclosed => ?_⟩
  rcases List.mem_append.mp hclosed with hclosed | hclosed
  · have hlt := hs.log _ hclosed s.created rfl
    omega
  · rcases List.mem_cons.mp hclosed with hclosed | hclosed
    · cases hclosed
    · exact hcalls _ hclosed

/-- The workers and the port of a `Start` that creates its port. -/
theorem start_launches (processors : ℕ) {failure : Option Failure} (s : Server)
    (h : failure ≠ some .completeport) :
    (s.start processors failure).2.workers = (s.launched processors).workers ∧
      (s.start processors failure).2.threadhandle = (s.launched processors).threadhandle ∧
      (s.start processors failure).2.completeport = some s.created := by
  rw [start_eq]
  cases failure with
  | none => exact ⟨rfl, rfl, rfl⟩
  | some f =>
    cases f with
    | completeport => exact absurd rfl h
    | _ => exact ⟨rfl, rfl, rfl⟩

theorem threadnum_pos (h : processors ≠ 0) : 0 < threadnum processors := by
  rw [threadnum, maxThreadNum]
  split
  · exact Nat.pos_of_ne_zero h
  · exact Nat.zero_lt_succ 7

/-- A worker waits on the port that a `Start` creates. -/
theorem exists_worker (hprocessors : processors ≠ 0) {failure : Option Failure}
    (h : failure ≠ some .completeport) :
    ∃ w ∈ (s.start processors failure).2.workers, w.port = s.created := by
  rw [(s.start_launches processors h).1]
  refine ⟨⟨s.created + 1, s.created⟩, List.mem_append_right _ (List.mem_map.mpr ?_), rfl⟩
  exact ⟨_, List.mem_range'_1.mpr ⟨Nat.le_refl _, by have := threadnum_pos hprocessors; omega⟩, rfl⟩

/-- A `Start` after which workers of another port are left makes the server forget them. -/
theorem Fresh.stranded (hs : s.Fresh) (hworkers : s.workers ≠ []) (processors : ℕ)
    (failure : Option Failure) : (s.start processors failure).2.Stranded := by
  obtain ⟨w, hw⟩ := List.exists_mem_of_ne_nil _ hworkers
  by_cases h : failure = some .completeport
  · subst h
    exact ⟨w, hw, by simp [start_eq]⟩
  · obtain ⟨hworkers, -, hport⟩ := s.start_launches processors h
    refine ⟨w, by rw [hworkers]; exact List.mem_append_left _ hw, ?_⟩
    rw [hport]
    have hlt := (hs.workers w hw).1
    simp only [ne_eq, Option.some.injEq]
    omega

/-- **No call ends a stranded worker.** -/
theorem Stranded.step (h : s.Stranded) (hs : s.Fresh) {e : Event}
    (hstep : Lifecycle.step processors s e = some t) : t.Stranded := by
  obtain ⟨w, hw, hport⟩ := h
  cases e with
  | start failure =>
    cases hstep
    exact hs.stranded (List.ne_nil_of_mem hw) processors failure
  | stop =>
    change s.stop = some t at hstep
    rw [Server.stop] at hstep
    split at hstep
    · cases hstep
      exact ⟨w, List.mem_filter.mpr ⟨hw, decide_eq_true hport⟩, hport⟩
    · cases hstep

/-- `Stop` returns after a successful `Start`. -/
theorem Fresh.stop_start (hs : s.Fresh) (processors : ℕ) :
    ∃ t, (s.start processors none).2.stop = some t := by
  have hreturns : (s.start processors none).2.waitReturns = true := by
    obtain ⟨hworkers, hthreads, hport⟩ := @start_launches processors none s nofun
    rw [waitReturns, hworkers, hthreads, hport, List.all_eq_true]
    intro w hw
    rw [decide_eq_true_iff]
    rcases List.mem_append.mp hw with hw | hw
    · left
      intro hmem
      have hlt := (hs.workers w hw).2
      have hle := (List.mem_range'_1.mp hmem).1
      omega
    · obtain ⟨thread, -, rfl⟩ := List.mem_map.mp hw
      exact Or.inr rfl
  rw [Server.stop, if_pos hreturns]
  exact ⟨_, rfl⟩

end Server

theorem stranded_of_exec {events : List Event} (hs : s.Fresh) (hstranded : s.Stranded)
    (h : exec (step processors) s events = some t) : t.Stranded := by
  induction events generalizing s with
  | nil =>
    cases h
    exact hstranded
  | cons e events ih =>
    obtain ⟨u, hu, hrest⟩ := exec_cons h
    exact ih (hs.step hu) (hstranded.step hs hu) hrest

/-- Attempts in a row end with one. -/
theorem exists_last {failures : List Server.Failure} (hfailures : failures ≠ [])
    (hs : s.Fresh) (h : exec (step processors) s (failures.map fun f => .start (some f)) = some t) :
    ∃ u : Server, u.Fresh ∧ ∃ f ∈ failures, t = (u.start processors (some f)).2 := by
  induction failures generalizing s with
  | nil => exact absurd rfl hfailures
  | cons f failures ih =>
    obtain ⟨u, hu, hrest⟩ := exec_cons h
    cases hu
    by_cases hlast : failures = []
    · subst hlast
      cases hrest
      exact ⟨s, hs, f, List.mem_singleton_self f, rfl⟩
    · obtain ⟨u, hu, g, hg, rfl⟩ := ih hlast (hs.start processors (some f)) hrest
      exact ⟨u, hu, g, List.mem_cons_of_mem f hg, rfl⟩

/-- **A failed `Start` leaks.** After attempts that fail once their ports were created the server is
never as it was before, and the `Stop` that follows a successful `Start` leaves workers running that
nothing ends any more. -/
theorem failedStart_leaks {before : List Event} {failures : List Server.Failure}
    (hbefore : exec (step processors) .new before = some s) (hfailures : failures ≠ [])
    (hcreated : ∀ f ∈ failures, f ≠ .completeport)
    (hattempts : exec (step processors) s (failures.map fun f => .start (some f)) = some t) :
    ¬ t.Idle ∧ (processors ≠ 0 → ∃ u, exec (step processors) t [.start none, .stop] = some u ∧
      ∀ later v, exec (step processors) u later = some v → v.workers ≠ []) := by
  have hs : s.Fresh := fresh_of_exec Server.fresh_new hbefore
  have ht : t.Fresh := fresh_of_exec hs hattempts
  obtain ⟨last, hlast, f, hf, rfl⟩ := exists_last hfailures hs hattempts
  have hport : some f ≠ some Server.Failure.completeport := fun h =>
    hcreated f hf (Option.some.inj h)
  refine ⟨fun hidle => hidle.port _ (hlast.isOpen_port processors hport), fun hprocessors => ?_⟩
  obtain ⟨w, hw, -⟩ := Server.exists_worker (s := last) hprocessors hport
  obtain ⟨u, hu⟩ := ht.stop_start processors
  have hstranded : u.Stranded := by
    have h := ht.stranded (List.ne_nil_of_mem hw) processors none
    exact h.step (ht.start processors none) (show step processors _ .stop = some u from hu)
  have hu' : exec (step processors) (last.start processors (some f)).2 [.start none, .stop] =
      some u := by
    simp only [exec, step, hu]
  refine ⟨u, hu', fun later v hv => ?_⟩
  have hlater := stranded_of_exec (fresh_of_exec ht hu') hstranded hv
  obtain ⟨w, hw, -⟩ := hlater
  exact List.ne_nil_of_mem hw

/-- The listening port is busy twice, and then it is not. -/
def busyRetry : List Event := [.start (some .bind), .start (some .bind), .start none, .stop]

/-- Two attempts meet a busy port. -/
theorem failedStart_leaks_busy :
    ¬ ((Server.new.start 2 (some .bind)).2.start 2 (some .bind)).2.Idle ∧
      ((2 : ℕ) ≠ 0 → ∃ u, exec (step 2) ((Server.new.start 2 (some .bind)).2.start 2
          (some .bind)).2 [.start none, .stop] = some u ∧
        ∀ later v, exec (step 2) u later = some v → v.workers ≠ []) :=
  @failedStart_leaks 2 _ _ [] [.bind, .bind] rfl (by simp) (by simp) rfl

/-- The workers of a busy port run on after a later `Stop`. -/
theorem not_idle_busyPort :
    ¬ (Server.new.start 2 (some .bind)).2.Idle ∧
      (exec (step 2) .new busyRetry).map Server.workers =
        some [⟨1, 0⟩, ⟨2, 0⟩, ⟨5, 4⟩, ⟨6, 4⟩] := by
  refine ⟨fun hidle => ?_, by decide⟩
  have hworkers := hidle.workers
  cases hworkers

end AMSServer.Lifecycle
