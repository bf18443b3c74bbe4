import AMSServer.IOCPServer.Ownership

/-!
# Who possesses an io

The server has no lock for a `PerIOData`: a worker writes into its io while the system fills another
and other workers go on with theirs. The system possesses an io while an operation with it is
pending or queued, and a thread from the packet to the next post that is accepted. The post hands
the io over, also where the code still touches it: `PostSend` reads the buffer for the log and
deletes the io after `WSASend` has taken it, which is no possession but what endangers it.

No io has two possessors, and none that is possessed is free, exactly in the runs in which
`PostSend` deletes no io that an operation refers to (`exclusive_iff`).
-/

namespace AMSServer.IOCPServer

open Transition
open Ledger (Ref)

/-- The io that a thread possesses: it got them by a packet or from the heap, and has not handed
them to the system, deleted or dropped them. -/
def Pc.possesses : Pc → List Addr
  | wait => []
  | exited => []
  | got op _ => [op.addr]
  | doAcceptEx lio => [lio]
  | acceptAssoc lio _ => [lio]
  | acceptDerive lio _ => [lio]
  | acceptNewIOData lio _ => [lio]
  | acceptRecv lio _ cio => [cio, lio]
  | acceptRemove lio => [lio]
  | newListen => []
  | postAcceptEx lio => [lio]
  | callAcceptEx lio => [lio]
  | doRecv _ io => [io]
  | rePost _ io => [io]
  | postSend _ io _ => [io]
  -- `WSASend` has taken the io, although the thread still reads and deletes it
  | removeSent _ _ => []
  | newRecv _ => []
  | postRecv _ io => [io]

/-- All io that are possessed: by the threads, and by the system. -/
def State.possessed (s : State) : List Addr :=
  s.pcs.flatMap Pc.possesses ++ s.shared.ops.map Op.addr

/-- **Every io has one possessor at most**, and it is there. -/
def State.Exclusive (s : State) : Prop :=
  s.possessed.Nodup ∧ ∀ io ∈ s.possessed, s.shared.heap io ≠ none

instance (s : State) : Decidable s.Exclusive := inferInstanceAs (Decidable (_ ∧ _))

/-! ## From the ledger -/

/-- The objects that some references use. -/
def used (refs : List (Ref Addr Cell)) : List Addr := (refs.filter Ref.uses).map Ref.addr

theorem used_append (refs refs' : List (Ref Addr Cell)) :
    used (refs ++ refs') = used refs ++ used refs' := by
  simp [used]

/-- A thread possesses the io that its references use. -/
theorem used_refs (pc : Pc) : used pc.refs = pc.possesses := by
  cases pc <;> rfl

theorem used_flatMap_refs (pcs : List Pc) :
    used (pcs.flatMap Pc.refs) = pcs.flatMap Pc.possesses := by
  induction pcs with
  | nil => rfl
  | cons pc pcs ih => rw [List.flatMap_cons, used_append, ih, used_refs, List.flatMap_cons]

theorem used_map_ref (ops : List Op) : used (ops.map Op.ref) = ops.map Op.addr := by
  induction ops with
  | nil => rfl
  | cons op ops ih =>
    rw [List.map_cons, List.map_cons, ← ih]
    rfl

theorem count_used (refs : List (Ref Addr Cell)) (io : Addr) :
    (used refs).count io = refs.countP (Ref.usesAt io) := by
  induction refs with
  | nil => rfl
  | cons r refs ih =>
    rw [← List.singleton_append, used_append, List.count_append, ih, List.countP_append]
    congr 1
    cases hu : r.uses <;> by_cases ha : r.addr = io <;> simp [used, Ref.usesAt, hu, ha]

/-- **A sound ledger gives every io one possessor.** -/
theorem State.Sound.exclusive {s : State} (hs : s.Sound) : s.Exclusive := by
  have hposs : s.possessed = used (s.pcs.flatMap Pc.refs ++ s.shared.ops.map Op.ref) := by
    rw [used_append, used_flatMap_refs, used_map_ref]
    rfl
  constructor
  · rw [hposs, List.nodup_iff_count]
    intro io
    rw [count_used]
    exact hs.used_once io
  · intro io hio
    rw [hposs] at hio
    obtain ⟨r, hr, rfl⟩ := List.mem_map.mp hio
    obtain ⟨c, hc, -⟩ := hs.live r (List.mem_filter.mp hr).1
    rw [hc]
    exact Option.some_ne_none c

theorem addr_mem_possessed {s : State} {op : Op} (h : op ∈ s.ops) : op.addr ∈ s.possessed := by
  rcases List.mem_append.mp h with hop | hop
  · exact List.mem_append_right _ (List.mem_map_of_mem hop)
  · obtain ⟨pc, hpc, hop⟩ := List.mem_flatMap.mp hop
    refine List.mem_append_left _ (List.mem_flatMap.mpr ⟨pc, hpc, ?_⟩)
    cases pc with
    | got op' n =>
      obtain rfl := List.mem_singleton.mp hop
      exact List.mem_singleton.mpr rfl
    | _ => cases hop

/-! ## Back to the condition -/

/-- Deleting an io that is possessed leaves its possessor with what is free. -/
theorem removesUnused_of_exclusive {s : State} {a : Action} (hs : s.Exclusive)
    (ht : ∀ t, IOCPServer.step s a = some t → t.Exclusive) : RemovesUnused s a := by
  rintro ⟨pc, r⟩ hacts op hop hremoves
  cases pc with
  | removeSent h io =>
    obtain rfl : io = op.addr := Option.some.inj hremoves
    have hposs := addr_mem_possessed hop
    obtain ⟨c, hc⟩ := Option.ne_none_iff_exists'.mp (hs.2 _ hposs)
    have hmoves : threadStep s.shared r (.removeSent h op.addr) =
        some ({ s.shared with heap := Function.update s.shared.heap op.addr none },
          .newRecv h) := by
      rw [threadStep, Shared.removeIOData, hc]
      rfl
    obtain ⟨t, rest, hstep, hshared, before, after⟩ := exists_step_of_acting hacts hmoves
    have hmem : op.addr ∈ t.possessed := by
      rcases List.mem_append.mp hposs with hio | hio
      · exact List.mem_append_left _
          ((after.flatMap_right _).mem_iff.mpr ((before.flatMap_right _).mem_iff.mp hio))
      · exact List.mem_append_right _ (hshared ▸ hio)
    refine (ht t hstep).2 _ hmem ?_
    rw [hshared]
    exact Function.update_self _ _ _
  | _ => cases hremoves

/-- **One possessor for every io.** In every state on the way no io has two possessors, nor is one
possessed and free, exactly when `PostSend` deletes no io that an operation refers to. -/
theorem exclusive_iff (threadnum : ℕ) (run : List Action) :
    (∀ run' s, run' <+: run → exec step (init threadnum) run' = some s → s.Exclusive) ↔
      Along step RemovesUnused (init threadnum) run := by
  constructor
  · intro h
    exact along_of_prefix (fun _ _ => removesUnused_of_exclusive) h
  · intro h run' s hpre hrun
    exact (invariant_before (fun _ _ _ => State.Sound.step) (sound_init threadnum) h hpre
      hrun).exclusive

end AMSServer.IOCPServer
