import AMSServer.IOCPServer.Drain
import AMSServer.IOCPServer.Lifecycle

/-!
# `Stop` in both models

`Lifecycle` has `Stop` as one step on the kernel objects. The machine has the packets it posts, the
workers that take them, and the wait. The machine of a server has a worker for each thread that
waits on the port of the server (`machine`), and where its workers are says which threads run
(`running`).

With all close packets posted, the threads of the server run until `Stop` is called, and once it has
returned those run that `Lifecycle.Server.stop` leaves (`stop_agrees`).
-/

namespace AMSServer.IOCPServer

open Lifecycle (Server Worker)
open Transition

/-! ## The machine of a server -/

/-- The threads that wait on the port of the server. -/
def onPort (server : Server) : List Worker :=
  server.workers.filter fun w => some w.port = server.completeport

/-- The machine of a server, before the first `PostAcceptEx`. -/
def machine (server : Server) : State := init (onPort server).length

/-- The threads that run, with those on the port of the server where the machine has them. -/
def running (server : Server) (s : State) : List Worker :=
  (((onPort server).zip s.workers).filter fun x => x.2 ≠ .exited).map Prod.fst ++
    server.workers.filter fun w => ¬ some w.port = server.completeport

theorem length_workers_step {s t : State} {a : Action} (h : step s a = some t) :
    t.workers.length = s.workers.length := by
  cases a with
  | worker w r =>
    obtain ⟨pc, sh, pc', -, -, rfl⟩ := step_worker h
    exact List.length_set
  | kernel i ok n =>
    obtain ⟨sh, -, rfl⟩ := Option.map_eq_some_iff.mp h
    rfl
  | main r => rw [workers_mainStep h]
  | stop =>
    obtain ⟨-, rfl⟩ := step_stop h
    rfl

/-- The machine keeps its workers. -/
theorem length_workers {server : Server} {run : List Action} {s : State}
    (h : exec step (machine server) run = some s) :
    s.workers.length = (onPort server).length := by
  have hkeep : ∀ (s : State) (a : Action) (t : State), s.workers.length = (onPort server).length →
      step s a = some t → t.workers.length = (onPort server).length :=
    fun _ _ _ hs hstep => (length_workers_step hstep).trans hs
  exact invariant_always hkeep List.length_replicate h

/-! ## The same threads -/

/-- All threads run while the server does. -/
theorem running_perm {server : Server} {s : State} (hs : s.Handshake)
    (hlength : s.workers.length = (onPort server).length) (hmain : s.main = .running) :
    (running server s).Perm server.workers := by
  have hcount : s.inLoop = s.shared.closes + s.workers.length := by
    rw [hs.count, State.toPost, hmain]
  have hle : s.inLoop ≤ s.workers.length := List.countP_le_length
  have hall : ∀ pc ∈ s.workers, pc ≠ .exited := by
    have heq : s.inLoop = s.workers.length := by omega
    simpa using List.countP_eq_length.mp heq
  have hzip : ((onPort server).zip s.workers).filter (fun x => x.2 ≠ .exited) =
      (onPort server).zip s.workers := by
    refine List.filter_eq_self.mpr fun x hx => decide_eq_true ?_
    exact hall x.2 (List.of_mem_zip hx).2
  rw [running, hzip, List.map_fst_zip hlength.ge]
  simpa [onPort] using List.filter_append_perm
    (fun w : Worker => decide (some w.port = server.completeport)) server.workers

/-- When `Stop` has returned, the threads on other ports run. -/
theorem running_of_stopped (server : Server) {s : State} (hs : s.Handshake)
    (hmain : s.main = .stopped) :
    running server s = server.workers.filter fun w => ¬ some w.port = server.completeport := by
  have hnone : ∀ pc ∈ s.workers, pc = .exited := by
    simpa using List.countP_eq_zero.mp (hs.stopped hmain)
  have hzip : ((onPort server).zip s.workers).filter (fun x => x.2 ≠ .exited) = [] := by
    refine List.filter_eq_nil_iff.mpr fun x hx => ?_
    simpa using hnone x.2 (List.of_mem_zip hx).2
  rw [running, hzip, List.map_nil, List.nil_append]

/-- **The two models agree.** With all close packets posted, the threads of the server run while it
does, and when `Stop` has returned those run that `Lifecycle` leaves. -/
theorem stop_agrees {server server' : Server} (hstop : server.stop = some server')
    {run : List Action} {s : State} (hposts : Along step PostsClose (machine server) run)
    (h : exec step (machine server) run = some s) :
    (s.main = .running → (running server s).Perm server.workers) ∧
      (s.main = .stopped → running server s = server'.workers) := by
  have hs : s.Handshake :=
    invariant (fun _ _ _ => State.Handshake.step) (handshake_init _) hposts h
  refine ⟨running_perm hs (length_workers h), fun hmain => ?_⟩
  rw [running_of_stopped server hs hmain]
  rw [Server.stop] at hstop
  split at hstop
  · cases hstop
    rfl
  · cases hstop

end AMSServer.IOCPServer
