import AMSServer.IOCPServer.Basic
import Mathlib.Data.List.Count

/-!
# The operations of the server

The operations that are pending or queued, and what the functions that the threads call make of
them: only posting adds one, only dequeuing takes one away, and a completion moves one to the queue.
-/

namespace AMSServer.IOCPServer

/-- The operations that are pending or queued. -/
def Shared.ops (sh : Shared) : List Op := sh.pending ++ sh.queue.filterMap Packet.op?

/-- How many of them have the kind and the key. -/
def Shared.opCount (sh : Shared) (p : OperationType → Handle → Bool) : ℕ :=
  sh.ops.countP fun op => p op.kind op.key

theorem complete_heap {sh sh' : Shared} {i n : ℕ} {ok : Bool} (h : sh.complete i ok n = some sh') :
    sh'.heap = sh.heap := by
  rw [Shared.complete] at h
  split at h <;> cases h
  rfl

/-- A completion changes no operation. -/
theorem complete_ops {sh sh' : Shared} {i n : ℕ} {ok : Bool} (h : sh.complete i ok n = some sh') :
    sh'.ops.Perm sh.ops := by
  rw [Shared.complete] at h
  split at h
  · cases h
  next op hop =>
    cases h
    obtain ⟨hlt, hop⟩ := List.getElem?_eq_some_iff.mp hop
    have hpending : (op :: sh.pending.eraseIdx i).Perm sh.pending :=
      hop ▸ List.getElem_cons_eraseIdx_perm hlt
    have hqueue : (sh.queue ++ [Packet.io op ok n]).filterMap Packet.op?
        = sh.queue.filterMap Packet.op? ++ [op] := by
      rw [List.filterMap_append]
      rfl
    rw [Shared.ops, hqueue, ← List.append_assoc]
    exact (List.perm_append_singleton op _).trans (hpending.append_right _)

section

variable {sh sh' : Shared} {addr : Addr} {kind : OperationType} {key : Handle} {ok : Bool}
  (p : OperationType → Handle → Bool)

theorem opCount_complete {i n : ℕ} (h : sh.complete i ok n = some sh') :
    sh'.opCount p = sh.opCount p :=
  (complete_ops h).countP_eq _

/-- A call that concerns no operation and no handle. -/
structure Shared.Inert (sh sh' : Shared) : Prop where
  pending : sh'.pending = sh.pending
  queue : sh'.queue = sh.queue
  handles : sh'.handles = sh.handles

theorem Shared.Inert.ops (h : sh.Inert sh') : sh'.ops = sh.ops := by
  rw [Shared.ops, h.pending, h.queue]
  rfl

theorem Shared.Inert.opCount (h : sh.Inert sh') : sh'.opCount p = sh.opCount p := by
  rw [Shared.opCount, Shared.ops, h.pending, h.queue]
  rfl

theorem inert_getNewIOData (h : sh.getNewIOData addr key = some sh') : sh.Inert sh' := by
  rw [Shared.getNewIOData] at h
  split at h <;> cases h
  exact ⟨rfl, rfl, rfl⟩

theorem inert_removeIOData (h : sh.removeIOData addr = some sh') : sh.Inert sh' := by
  rw [Shared.removeIOData] at h
  split at h <;> cases h
  exact ⟨rfl, rfl, rfl⟩

theorem inert_newAcceptSocket (h : sh.newAcceptSocket addr ok = some sh') : sh.Inert sh' := by
  rw [Shared.newAcceptSocket] at h
  split at h
  · cases h
  · split at h <;> cases h <;> exact ⟨rfl, rfl, rfl⟩

theorem inert_closeAcceptSocket (h : sh.closeAcceptSocket addr = some sh') : sh.Inert sh' := by
  rw [Shared.closeAcceptSocket] at h
  split at h <;> cases h
  exact ⟨rfl, rfl, rfl⟩

theorem handles_complete {i n : ℕ} (h : sh.complete i ok n = some sh') :
    sh'.handles = sh.handles := by
  rw [Shared.complete] at h
  split at h <;> cases h
  rfl

theorem handles_post (h : sh.post addr kind key ok = some sh') : sh'.handles = sh.handles := by
  rw [Shared.post] at h
  split at h
  · cases h
  · cases ok <;> cases h <;> rfl

theorem queue_post (h : sh.post addr kind key ok = some sh') : sh'.queue = sh.queue := by
  rw [Shared.post] at h
  split at h
  · cases h
  · cases ok <;> cases h <;> rfl

/-- **Posting adds the operation that the system accepts.** -/
theorem opCount_post (h : sh.post addr kind key ok = some sh') :
    sh'.opCount p = sh.opCount p + if ok && p kind key then 1 else 0 := by
  rw [Shared.post] at h
  split at h
  · cases h
  cases ok with
  | false =>
    cases h
    rfl
  | true =>
    simp only [reduceIte] at h
    cases h
    simp only [Shared.opCount, Shared.ops, Shared.setCell, List.countP_append,
      List.countP_singleton, Bool.true_and]
    omega

/-- Dequeuing takes the operation away. -/
theorem opCount_dequeue {op : Op} {n : ℕ} {queue : List Packet}
    (h : sh.queue = .io op ok n :: queue) :
    sh.opCount p = { sh with queue }.opCount p + if p op.kind op.key then 1 else 0 := by
  have hops : sh.queue.filterMap Packet.op? = op :: queue.filterMap Packet.op? := by
    rw [h]
    rfl
  simp only [Shared.opCount, Shared.ops, hops, List.countP_append, List.countP_cons]
  omega

/-- Packets without an operation, and closed sockets, do not count. -/
theorem opCount_control {queue : List Packet} {closed : List Socket}
    (h : queue.filterMap Packet.op? = sh.queue.filterMap Packet.op?) :
    { sh with queue, closed }.opCount p = sh.opCount p := by
  simp only [Shared.opCount, Shared.ops, h]

theorem opCount_dequeue_close {queue : List Packet} (h : sh.queue = .close :: queue) :
    sh.opCount p = { sh with queue }.opCount p := by
  have hops : sh.queue.filterMap Packet.op? = queue.filterMap Packet.op? := by
    rw [h]
    rfl
  simp only [Shared.opCount, Shared.ops, hops]

end

/-- A thread that moves changes a sum over the threads by its own part. -/
theorem sum_pcs {pcs pcs' rest : List Pc} {pc pc' : Pc} (w : Pc → ℕ)
    (before : pcs.Perm (pc :: rest))
    (after : pcs'.Perm (pc' :: rest)) : (pcs'.map w).sum + w pc = (pcs.map w).sum + w pc' := by
  rw [(before.map w).sum_nat, (after.map w).sum_nat, List.map_cons, List.map_cons, List.sum_cons,
    List.sum_cons]
  omega

end AMSServer.IOCPServer
