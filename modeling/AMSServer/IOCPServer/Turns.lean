import AMSServer.Foundations.History
import AMSServer.HttpServer.Exchange
import AMSServer.IOCPServer.Drain
import AMSServer.IOCPServer.Limits

/-!
# Answers in their turn

A response does not name its request, so a client takes the first response for the answer to its
first request. The workers keep this order without a queue: the one that examines a message posts
the answer before it takes another packet, and until it is done no other worker has a message of the
connection. So every `PostSend` follows the message it answers, as long as no incomplete message is
received on, and what is sent on a connection answers its messages in their order
(`answers_in_turn`). Where the messages are requests that mean some values, the client is told what
its values call for, whatever the threads do (`replies_in_turn`).
-/

namespace AMSServer.IOCPServer

open CRuntime HttpServer History Transition

/-! ## The journal -/

/-- What a worker does that the answers depend on. -/
inductive Deed
  /-- `DoRecv` has examined a message. -/
  | examined (message : Text) (v : Verdict)
  /-- `PostSend` has returned: the response is handed to the system, or not. -/
  | posted (sent : Bool)

structure Entry where
  handle : Handle
  worker : ℕ
  deed : Deed

/-- What a step adds to the journal. -/
def entries (s : State) : Action → List Entry
  | .worker w r =>
    match s.workers[w]? with
    | some (.doRecv h _) =>
      match verdict r.peer r.message with
      | .ok v => [⟨h, w, .examined r.message v⟩]
      | .error _ => []
    | some (.postSend h _ built) => [⟨h, w, .posted (built && r.ok)⟩]
    | _ => []
  | _ => []

/-- The last entry of a sort. -/
def latest (p : Entry → Bool) (journal : List Entry) : Option Entry := journal.reverse.find? p

theorem latest_concat (p : Entry → Bool) (journal : List Entry) (e : Entry) :
    latest p (journal ++ [e]) = if p e then some e else latest p journal := by
  simp [latest, List.find?_cons]
  cases p e <;> rfl

/-- The last entry about a connection. -/
def latestOn (h : Handle) (journal : List Entry) : Option Entry :=
  latest (fun e => e.handle = h) journal

/-- The last entry of a worker. -/
def latestBy (w : ℕ) (journal : List Entry) : Option Entry :=
  latest (fun e => e.worker = w) journal

theorem latestOn_concat (h : Handle) (journal : List Entry) (e : Entry) :
    latestOn h (journal ++ [e]) = if e.handle = h then some e else latestOn h journal := by
  simp [latestOn, latest_concat]

theorem latestBy_concat (w : ℕ) (journal : List Entry) (e : Entry) :
    latestBy w (journal ++ [e]) = if e.worker = w then some e else latestBy w journal := by
  simp [latestBy, latest_concat]

/-- The result of `BuildSend` for a message that is complete and has a `GET`. -/
def builtOf : Verdict → Option Bool
  | .noGet => none
  | .incomplete => none
  | .unanswered => some false
  | .answered _ => some true

/-- **An entry in its turn.** What is posted on a connection is the answer to the message that the
same worker has examined last, and nothing happened on the connection since; and no message is
examined while an answer is outstanding. -/
def InTurn (before : List Entry) : Entry → Prop
  | ⟨h, w, .posted sent⟩ => ∃ m v, latestOn h before = some ⟨h, w, .examined m v⟩ ∧
      latestBy w before = some ⟨h, w, .examined m v⟩ ∧
        ∃ built, builtOf v = some built ∧ (sent = true → built = true)
  | ⟨h, _, .examined _ _⟩ => ∀ w m v, latestOn h before = some ⟨h, w, .examined m v⟩ →
      builtOf v = none

/-! ## What is sent -/

/-- The payload of an answered message. -/
def payloadOf : Verdict → Option Text
  | .answered payload => some payload
  | _ => none

/-- The payload that a worker has in its hands. -/
def payloadBy (w : ℕ) (journal : List Entry) : Option Text :=
  match latestBy w journal with
  | some ⟨_, _, .examined _ v⟩ => payloadOf v
  | _ => none

/-- The payload that an entry sends on a connection. -/
def Entry.sends (h : Handle) (before : List Entry) (e : Entry) : List Text :=
  match e.deed with
  | .posted true => if e.handle = h then (payloadBy e.worker before).toList else []
  | _ => []

/-- The payloads that are sent on a connection. -/
def sentOn (h : Handle) : List Entry → List Entry → List Text
  | _, [] => []
  | before, e :: es => e.sends h before ++ sentOn h (before ++ [e]) es

/-- The payload that an entry calls for on a connection. -/
def Entry.answers (h : Handle) (e : Entry) : Option Text :=
  match e.deed with
  | .examined _ v => if e.handle = h then payloadOf v else none
  | _ => none

/-- The answers to the messages of a connection. -/
def answersOn (h : Handle) (journal : List Entry) : List Text := journal.filterMap (Entry.answers h)

theorem sentOn_append (h : Handle) (before es es' : List Entry) :
    sentOn h before (es ++ es') = sentOn h before es ++ sentOn h (before ++ es) es' := by
  induction es generalizing before with
  | nil => simp [sentOn]
  | cons e es ih =>
    rw [List.cons_append, sentOn, sentOn, ih, List.append_assoc, List.append_assoc,
      List.singleton_append]

theorem sentOn_concat (h : Handle) (es : List Entry) (e : Entry) :
    sentOn h [] (es ++ [e]) = sentOn h [] es ++ e.sends h es := by
  rw [sentOn_append, sentOn, sentOn, List.nil_append, List.append_nil]

/-- The answer that a connection still waits for. -/
def owedOn (h : Handle) (journal : List Entry) : Option Text :=
  match latestOn h journal with
  | some ⟨_, _, .examined _ v⟩ => payloadOf v
  | _ => none

theorem handle_of_latestOn {h : Handle} {journal : List Entry} {e : Entry}
    (he : latestOn h journal = some e) : e.handle = h := by
  simpa using List.find?_some he

theorem Entry.sends_of_ne {h : Handle} {e : Entry} (before : List Entry) (hne : e.handle ≠ h) :
    e.sends h before = [] := by
  rw [Entry.sends]
  split
  · exact if_neg hne
  · rfl

theorem Entry.answers_of_ne {h : Handle} {e : Entry} (hne : e.handle ≠ h) : e.answers h = none := by
  rw [Entry.answers]
  split
  · exact if_neg hne
  · rfl

/-- Nothing is owed on a connection when a message is examined in turn. -/
theorem owedOn_of_examined {journal : List Entry} {h : Handle} {w : ℕ} {m : Text}
    {v : Verdict} (hturn : InTurn journal ⟨h, w, .examined m v⟩) : owedOn h journal = none := by
  rw [owedOn]
  split
  next c u m' v' hlatest =>
    obtain rfl : c = h := handle_of_latestOn hlatest
    have hnone := hturn u m' v' hlatest
    cases v' with
    | answered payload => cases hnone
    | _ => rfl
  · rfl

/-- **What is sent in turn answers the messages in their order**, and an answer that is still owed
comes after it. -/
theorem sentOn_sublist {journal : List Entry} (hturn : Each InTurn [] journal) (h : Handle) :
    (sentOn h [] journal ++ (owedOn h journal).toList).Sublist (answersOn h journal) := by
  induction journal using List.reverseRecOn with
  | nil => exact List.Sublist.refl _
  | append_singleton journal e ih =>
    rw [each_append, each_singleton, List.nil_append] at hturn
    obtain ⟨hbefore, he⟩ := hturn
    replace ih := ih hbefore
    have hanswers : answersOn h (journal ++ [e]) = answersOn h journal ++ (e.answers h).toList := by
      rw [answersOn, List.filterMap_append, ← answersOn]
      cases ha : e.answers h <;> simp [ha]
    rw [sentOn_concat, hanswers, owedOn, latestOn_concat]
    by_cases hh : e.handle = h
    · rw [if_pos hh]
      obtain ⟨c, w, d⟩ := e
      obtain rfl : c = h := hh
      cases d with
      | examined m v =>
        rw [owedOn_of_examined he, Option.toList_none, List.append_nil] at ih
        have hcalls : Entry.answers c ⟨c, w, .examined m v⟩ = payloadOf v := if_pos rfl
        have hsends : Entry.sends c journal ⟨c, w, .examined m v⟩ = [] := rfl
        rw [hcalls, hsends, List.append_nil]
        exact ih.append_right _
      | posted sent =>
        obtain ⟨m, v, hon, hby, -⟩ := he
        have howed : owedOn c journal = payloadOf v := by rw [owedOn, hon]
        have hpayload : payloadBy w journal = payloadOf v := by rw [payloadBy, hby]
        have hcalls : Entry.answers c ⟨c, w, .posted sent⟩ = none := rfl
        rw [howed] at ih
        rw [hcalls]
        simp only [Option.toList_none, List.append_nil]
        cases sent with
        | true =>
          have hsends : Entry.sends c journal ⟨c, w, .posted true⟩ = (payloadOf v).toList := by
            rw [Entry.sends, ← hpayload]
            exact if_pos rfl
          rw [hsends]
          exact ih
        | false =>
          have hsends : Entry.sends c journal ⟨c, w, .posted false⟩ = [] := rfl
          rw [hsends, List.append_nil]
          exact (List.sublist_append_left _ _).trans ih
    · rw [if_neg hh, Entry.sends_of_ne journal hh, Entry.answers_of_ne hh, Option.toList_none,
        List.append_nil, List.append_nil]
      exact ih

/-! ## The workers and the journal -/

/-- The connection on which a thread is about to post, and the result of `BuildSend`. -/
def Pc.posting : Pc → Option (Handle × Bool)
  | postSend h _ built => some (h, built)
  | _ => none

/-- What the workers are about to post. -/
def State.posting (s : State) (w : ℕ) : Option (Handle × Bool) := s.workers[w]?.bind Pc.posting

/-- A journal in turn. The answers that are outstanding are those that the workers are about to
post. -/
structure InOrder (posting : ℕ → Option (Handle × Bool)) (journal : List Entry) : Prop where
  each : Each InTurn [] journal
  examined : ∀ w h built, posting w = some (h, built) →
    ∃ m v, latestOn h journal = some ⟨h, w, .examined m v⟩ ∧
      latestBy w journal = some ⟨h, w, .examined m v⟩ ∧ builtOf v = some built
  outstanding : ∀ h w m v built, latestOn h journal = some ⟨h, w, .examined m v⟩ →
    builtOf v = some built → posting w = some (h, built)

section InOrder

variable {posting : ℕ → Option (Handle × Bool)} {journal : List Entry} {h : Handle} {w : ℕ}

/-- A message is examined on a connection on which nobody is about to post. -/
theorem InOrder.examines (hj : InOrder posting journal) (m : Text) (v : Verdict)
    (hfree : ∀ u built, posting u ≠ some (h, built)) (hw : posting w = none) :
    InOrder (Function.update posting w ((builtOf v).map fun built => (h, built)))
      (journal ++ [⟨h, w, .examined m v⟩]) where
  each := by
    rw [each_append, each_singleton]
    refine ⟨hj.each, fun u m' v' hlatest => ?_⟩
    cases hv : builtOf v' with
    | none => rfl
    | some built => exact absurd (hj.outstanding h u m' v' built hlatest hv) (hfree u built)
  examined := by
    intro u c built hu
    rw [latestOn_concat, latestBy_concat]
    by_cases huw : u = w
    · subst huw
      rw [Function.update_self] at hu
      obtain ⟨built', hv, heq⟩ := Option.map_eq_some_iff.mp hu
      obtain ⟨rfl, rfl⟩ := Prod.mk.inj heq
      exact ⟨m, v, if_pos rfl, if_pos rfl, hv⟩
    · rw [Function.update_of_ne huw] at hu
      have hne : h ≠ c := by
        rintro rfl
        exact hfree u built hu
      rw [if_neg hne, if_neg (Ne.symm huw)]
      exact hj.examined u c built hu
  outstanding := by
    intro c u m' v' built hlatest hv
    rw [latestOn_concat] at hlatest
    split at hlatest
    · obtain ⟨rfl, rfl, hdeed⟩ := Entry.mk.inj (Option.some.inj hlatest)
      obtain ⟨rfl, rfl⟩ := Deed.examined.inj hdeed
      rw [Function.update_self, hv]
      rfl
    · have hu := hj.outstanding c u m' v' built hlatest hv
      rw [Function.update_of_ne, hu]
      rintro rfl
      rw [hw] at hu
      cases hu

/-- A worker posts, and no other one is about to post on the connection. -/
theorem InOrder.posts {built sent : Bool} (hj : InOrder posting journal)
    (hw : posting w = some (h, built)) (hother : ∀ u built, posting u = some (h, built) → u = w)
    (hsent : sent = true → built = true) :
    InOrder (Function.update posting w none) (journal ++ [⟨h, w, .posted sent⟩]) where
  each := by
    rw [each_append, each_singleton]
    obtain ⟨m, v, hon, hby, hv⟩ := hj.examined w h built hw
    exact ⟨hj.each, m, v, hon, hby, built, hv, hsent⟩
  examined := by
    intro u c built' hu
    have huw : u ≠ w := by
      rintro rfl
      rw [Function.update_self] at hu
      cases hu
    rw [Function.update_of_ne huw] at hu
    have hne : h ≠ c := by
      rintro rfl
      exact huw (hother u built' hu)
    rw [latestOn_concat, latestBy_concat, if_neg hne, if_neg (Ne.symm huw)]
    exact hj.examined u c built' hu
  outstanding := by
    intro c u m v built' hlatest hv
    rw [latestOn_concat] at hlatest
    split at hlatest
    · cases hlatest
    next hne =>
      have hu := hj.outstanding c u m v built' hlatest hv
      rw [Function.update_of_ne, hu]
      rintro rfl
      rw [hw] at hu
      exact hne (Prod.mk.inj (Option.some.inj hu)).1

end InOrder

/-! ## One step -/

/-- What a step means for the journal. -/
inductive JournalMove (s : State) (a : Action) (t : State) : Prop
  | quiet (adds : entries s a = []) (posting : t.posting = s.posting)
  | examines (h : Handle) (io : Addr) (w : ℕ) (m : Text) (v : Verdict)
      (examining : s.workers[w]? = some (.doRecv h io))
      (adds : entries s a = [⟨h, w, .examined m v⟩])
      (posting : t.posting = Function.update s.posting w ((builtOf v).map fun built => (h, built)))
  | posts (h : Handle) (io : Addr) (w : ℕ) (built sent : Bool)
      (posts : s.workers[w]? = some (.postSend h io built))
      (adds : entries s a = [⟨h, w, .posted sent⟩]) (sends : sent = true → built = true)
      (posting : t.posting = Function.update s.posting w none)

/-- A thread comes to `PostSend` from `DoRecv` alone. -/
theorem posting_threadStep {sh sh' : Shared} {r : Reply} {pc pc' : Pc}
    (hpc : ∀ h io, pc ≠ .doRecv h io) (hmoves : threadStep sh r pc = some (sh', pc')) :
    pc'.posting = none := by
  cases threadStep_move hmoves with
  | dequeue op ok n queue hqueue => cases ok <;> rfl
  | got op n =>
    rcases dispatch_cases op n (sh.readType op.addr r.garbage) with
      ⟨-, hd⟩ | ⟨-, -, hd⟩ | ⟨-, -, hd⟩ <;> rw [hd] <;> rfl
  | acceptAssoc lio c => cases r.ok <;> rfl
  | acceptDerive lio c => cases r.ok <;> rfl
  | postAcceptEx lio hnew => cases r.ok <;> rfl
  | doRecv h io c v hc hv => exact absurd rfl (hpc h io)
  | postSend h io built hpost => cases built && r.ok <;> rfl
  | _ => rfl

theorem posting_set {s : State} {w : ℕ} {pc pc' : Pc} {sh : Shared}
    (hw : s.workers[w]? = some pc) :
    { s with shared := sh, workers := s.workers.set w pc' }.posting =
      Function.update s.posting w pc'.posting := by
  obtain ⟨hlt, -⟩ := List.getElem?_eq_some_iff.mp hw
  funext u
  by_cases huw : u = w
  · subst huw
    rw [Function.update_self, State.posting]
    simp [hlt]
  · rw [Function.update_of_ne huw, State.posting, State.posting]
    simp only
    rw [List.getElem?_set_ne (Ne.symm huw)]

theorem posting_of_workers {s t : State} (h : t.workers = s.workers) : t.posting = s.posting := by
  funext w
  rw [State.posting, State.posting, h]

theorem journal_move {s t : State} {a : Action} (h : step s a = some t) : JournalMove s a t := by
  cases a with
  | worker w r =>
    obtain ⟨pc, sh, pc', hw, hmoves, rfl⟩ := step_worker h
    have hset := @posting_set s w pc pc' sh hw
    have hquiet : (∀ h io, pc ≠ .doRecv h io) → (∀ h io built, pc ≠ .postSend h io built) →
        JournalMove s (.worker w r) { s with shared := sh, workers := s.workers.set w pc' } := by
      intro hrecv hpost
      have hpc : pc.posting = none := by
        cases pc with
        | postSend h io built => exact absurd rfl (hpost h io built)
        | _ => rfl
      refine .quiet ?_ ?_
      · rw [entries, hw]
        cases pc with
        | doRecv h io => exact absurd rfl (hrecv h io)
        | postSend h io built => exact absurd rfl (hpost h io built)
        | _ => rfl
      · rw [hset, posting_threadStep hrecv hmoves, ← hpc]
        have hself : pc.posting = s.posting w := by rw [State.posting, hw]; rfl
        rw [hself, Function.update_eq_self]
    cases pc with
    | doRecv c io =>
      cases threadStep_move hmoves with
      | doRecv _ _ cell v hcell hv =>
        refine .examines c io w r.message v hw (by simp [entries, hw, hv]) ?_
        rw [hset]
        cases v <;> rfl
    | postSend c io built =>
      refine .posts c io w built (built && r.ok) hw (by simp [entries, hw]) ?_ ?_
      · exact fun hand => (Bool.and_eq_true _ _ ▸ hand).1
      · rw [hset, posting_threadStep (by simp) hmoves]
    | _ => exact hquiet (by simp) (by simp)
  | kernel i ok n =>
    obtain ⟨sh, -, rfl⟩ := Option.map_eq_some_iff.mp h
    exact .quiet rfl rfl
  | main r => exact .quiet rfl (posting_of_workers (workers_mainStep h))
  | stop =>
    obtain ⟨-, rfl⟩ := step_stop h
    exact .quiet rfl rfl

/-- At most one worker has a message of a connection. -/
theorem State.AtMostOne.eq_worker {s : State} (hs : s.AtMostOne) {h : Handle} {u w : ℕ}
    {pc pc' : Pc} (hu : s.workers[u]? = some pc) (hw : s.workers[w]? = some pc')
    (hpc : pc.handling h = 1) (hpc' : pc'.handling h = 1) : u = w := by
  by_contra hne
  have hle := hs h
  have hconnected : s.shared.connected h ≤ 1 := by
    cases h with
    | listen => exact Nat.zero_le 1
    | connect i =>
      rw [Shared.connected]
      split_ifs <;> omega
  obtain ⟨hlt, hget⟩ := List.getElem?_eq_some_iff.mp hw
  have hperm := ((List.getElem_cons_eraseIdx_perm hlt).map (Pc.handling h)).sum_nat
  have hmem : pc ∈ s.workers.eraseIdx w :=
    List.mem_eraseIdx_iff_getElem?.mpr ⟨u, hne, hu⟩
  have hperm' := ((List.perm_cons_erase hmem).map (Pc.handling h)).sum_nat
  rw [List.map_cons, List.sum_cons, hget, hpc'] at hperm
  rw [List.map_cons, List.sum_cons, hpc] at hperm'
  rw [State.handled, State.pcs, List.map_cons, List.sum_cons] at hle
  omega

theorem exists_of_posting {s : State} {w : ℕ} {h : Handle} {built : Bool}
    (hw : s.posting w = some (h, built)) : ∃ io, s.workers[w]? = some (.postSend h io built) := by
  obtain ⟨pc, hpc, hposting⟩ := Option.bind_eq_some_iff.mp hw
  cases pc with
  | postSend c io built' =>
    cases hposting
    exact ⟨io, hpc⟩
  | _ => cases hposting

/-- **The step lemma.** -/
theorem InOrder.step {s t : State} {a : Action} {journal : List Entry}
    (hj : InOrder s.posting journal) (hs : s.AtMostOne) (hstep : IOCPServer.step s a = some t) :
    InOrder t.posting (journal ++ entries s a) := by
  cases journal_move hstep with
  | quiet adds posting =>
    rw [adds, posting, List.append_nil]
    exact hj
  | examines h io w m v examining adds posting =>
    rw [adds, posting]
    have hnone : s.posting w = none := by
      rw [State.posting, examining]
      rfl
    refine hj.examines m v (fun u built hu => ?_) hnone
    obtain ⟨io', hpost⟩ := exists_of_posting hu
    obtain rfl := hs.eq_worker hpost examining (if_pos rfl) (if_pos rfl)
    rw [hnone] at hu
    cases hu
  | posts h io w built sent posts adds sends posting =>
    rw [adds, posting]
    have hw : s.posting w = some (h, built) := by
      rw [State.posting, posts]
      rfl
    refine hj.posts hw (fun u built' hu => ?_) sends
    obtain ⟨io', hpost⟩ := exists_of_posting hu
    exact hs.eq_worker hpost posts (if_pos rfl) (if_pos rfl)

theorem inOrder_init (threadnum : ℕ) : InOrder (init threadnum).posting [] where
  each := trivial
  examined w h built hw := by
    obtain ⟨io, hio⟩ := exists_of_posting hw
    cases List.eq_of_mem_replicate (List.mem_of_getElem? hio)
  outstanding h w m v built hlatest := by cases hlatest

/-- Along a run the journal is in turn. -/
theorem inTurn_run {threadnum : ℕ} {run : List Action} {s : State}
    (hremoves : Along step RemovesUnused (init threadnum) run)
    (hrepost : Along step RepostFails (init threadnum) run)
    (hrun : exec step (init threadnum) run = some s) :
    Each InTurn [] (observe step entries (init threadnum) run) := by
  have hreads := along_readsKind .recvPosted hremoves
  exact (@invariant_observed _ _ step _ entries
    (fun s journal => s.AtMostOne ∧ InOrder s.posting journal) _
    (fun _ _ _ _ hs hok hstep => ⟨hs.1.step hok hstep, hs.2.step hs.1 hstep⟩) _ _ _ _
    ⟨atMostOne_init threadnum, inOrder_init threadnum⟩ (hreads.and hrepost) hrun).2.each

/-- **Answers in their turn.** Along a run in which no incomplete message is received on, whatever
is posted on a connection answers the message examined last on it, and the same worker examined it;
so what has been sent answers the messages in their order, each once at most. -/
theorem answers_in_turn {threadnum : ℕ} {run : List Action} {s : State}
    (hremoves : Along step RemovesUnused (init threadnum) run)
    (hrepost : Along step RepostFails (init threadnum) run)
    (hrun : exec step (init threadnum) run = some s) :
    let journal := observe step entries (init threadnum) run
    Each InTurn [] journal ∧ ∀ h, (sentOn h [] journal).Sublist (answersOn h journal) := by
  have hturn := inTurn_run hremoves hrepost hrun
  exact ⟨hturn, fun h => (List.sublist_append_left _ _).trans (sentOn_sublist hturn h)⟩

/-- Two requests on a connection: the first is handled by one worker and the second by the other,
and each takes the packet of the other's send. -/
def talkRun (first second : Text) : List Action :=
  connectRun ++ [.kernel 0 true first.length] ++
    List.replicate 4 (.worker 0 { Reply.fine 1 with message := first }) ++
    [.kernel 1 true 1500] ++ List.replicate 2 (.worker 1 (.fine 1)) ++
    List.replicate 3 (.worker 0 (.fine 1)) ++ [.kernel 1 true second.length] ++
    List.replicate 4 (.worker 1 { Reply.fine 1 with message := second }) ++
    [.kernel 1 true 1500] ++ List.replicate 2 (.worker 0 (.fine 1)) ++
    List.replicate 3 (.worker 1 (.fine 1))

theorem answers_in_turn_talk :
    ∃ s, exec step (init 2) (talkRun boxAsk.text sumAsk.text) = some s ∧
      Each InTurn [] (observe step entries (init 2) (talkRun boxAsk.text sumAsk.text)) ∧
      (sentOn (.connect 0) [] (observe step entries (init 2)
        (talkRun boxAsk.text sumAsk.text))).Sublist
          (answersOn (.connect 0) (observe step entries (init 2)
            (talkRun boxAsk.text sumAsk.text))) := by
  obtain ⟨s, hs⟩ : ∃ s, exec step (init 2) (talkRun boxAsk.text sumAsk.text) = some s :=
    Option.isSome_iff_exists.mp (by decide +kernel)
  have hremoves : Along step RemovesUnused (init 2) (talkRun boxAsk.text sumAsk.text) := by
    decide +kernel
  have hrepost : Along step RepostFails (init 2) (talkRun boxAsk.text sumAsk.text) := by
    decide +kernel
  generalize talkRun boxAsk.text sumAsk.text = run at hs hremoves hrepost ⊢
  obtain ⟨hturn, hsent⟩ := answers_in_turn hremoves hrepost hs
  exact ⟨s, hs, hturn, hsent (.connect 0)⟩

/-! ## What the clients are told -/

/-- The message that an entry examines on a connection. -/
def Entry.message (h : Handle) (e : Entry) : Option Text :=
  match e.deed with
  | .examined m _ => if e.handle = h then some m else none
  | _ => none

/-- The messages that are examined on a connection. -/
def messagesOn (h : Handle) (journal : List Entry) : List Text :=
  journal.filterMap (Entry.message h)

/-- The verdict of an entry is the one about its message. -/
def Entry.Genuine (e : Entry) : Prop :=
  ∀ m v, e.deed = .examined m v → ∃ peer, verdict peer m = .ok v

theorem genuine_entries (s : State) (a : Action) : ∀ e ∈ entries s a, e.Genuine := by
  intro e he m v hdeed
  cases a with
  | worker w r =>
    rw [entries] at he
    split at he
    next h io hw =>
      split at he
      next v' hv =>
        obtain rfl := List.mem_singleton.mp he
        obtain ⟨rfl, rfl⟩ := Deed.examined.inj hdeed
        exact ⟨r.peer, hv⟩
      · cases he
    next h io built hw =>
      obtain rfl := List.mem_singleton.mp he
      cases hdeed
    · cases he
  | _ => cases he

/-- A request that is examined without a fault is answered by its reply. -/
theorem payloadOf_ask {a : Ask} {peer : SockAddrIn} {v : Verdict}
    (hv : verdict peer a.text = .ok v) : payloadOf v = some a.reply.text := by
  rw [a.verdict_text] at hv
  split at hv
  · cases hv
    rfl
  · cases hv

theorem answersOn_asks {h : Handle} {journal : List Entry} (hgenuine : ∀ e ∈ journal, e.Genuine)
    {asks : List Ask} (hasks : messagesOn h journal = asks.map Ask.text) :
    answersOn h journal = asks.map fun a => a.reply.text := by
  induction journal generalizing asks with
  | nil =>
    obtain rfl := List.map_eq_nil_iff.mp hasks.symm
    rfl
  | cons e journal ih =>
    have hrest := fun e he => hgenuine e (List.mem_cons_of_mem _ he)
    have hother : e.message h = none → e.answers h = none →
        answersOn h (e :: journal) = asks.map fun a => a.reply.text := by
      intro hmessage hanswers
      rw [messagesOn, List.filterMap_cons_none hmessage] at hasks
      rw [answersOn, List.filterMap_cons_none hanswers]
      exact ih hrest hasks
    obtain ⟨c, w, d⟩ := e
    cases d with
    | posted sent => exact hother rfl rfl
    | examined m v =>
      by_cases hc : c = h
      · have hmessage : Entry.message h ⟨c, w, .examined m v⟩ = some m := if_pos hc
        rw [messagesOn, List.filterMap_cons_some hmessage] at hasks
        obtain ⟨a, asks', rfl, rfl, htail⟩ := List.map_eq_cons_iff.mp hasks.symm
        obtain ⟨peer, hv⟩ := hgenuine _ List.mem_cons_self _ _ rfl
        have hanswers : Entry.answers h ⟨c, w, .examined a.text v⟩ = some a.reply.text :=
          (if_pos hc).trans (payloadOf_ask hv)
        rw [answersOn, List.filterMap_cons_some hanswers, List.map_cons]
        exact congrArg _ (ih hrest htail.symm)
      · exact hother (if_neg hc) (if_neg hc)

/-- **What a client is told.** Along such a run, when the messages examined on a connection are
requests that mean some values, what is sent on it are the replies that the values call for, in the
order of the requests. -/
theorem replies_in_turn {threadnum : ℕ} {run : List Action} {s : State}
    (hremoves : Along step RemovesUnused (init threadnum) run)
    (hrepost : Along step RepostFails (init threadnum) run)
    (hrun : exec step (init threadnum) run = some s) (h : Handle) (asks : List Ask)
    (hasks : messagesOn h (observe step entries (init threadnum) run) = asks.map Ask.text) :
    (sentOn h [] (observe step entries (init threadnum) run)).Sublist
      (asks.map fun a => a.reply.text) := by
  have hgenuine := @forall_mem_observe _ _ step _ _ _ genuine_entries (init threadnum) run
  have hturn := inTurn_run hremoves hrepost hrun
  have hsent := (List.sublist_append_left _ _).trans (sentOn_sublist hturn h)
  rwa [answersOn_asks hgenuine hasks] at hsent

theorem replies_in_turn_talk :
    ∃ s, exec step (init 2) (talkRun boxAsk.text sumAsk.text) = some s ∧
      (sentOn (.connect 0) [] (observe step entries (init 2)
        (talkRun boxAsk.text sumAsk.text))).Sublist [boxAsk.reply.text, sumAsk.reply.text] := by
  obtain ⟨s, hs⟩ : ∃ s, exec step (init 2) (talkRun boxAsk.text sumAsk.text) = some s :=
    Option.isSome_iff_exists.mp (by decide +kernel)
  have hremoves : Along step RemovesUnused (init 2) (talkRun boxAsk.text sumAsk.text) := by
    decide +kernel
  have hrepost : Along step RepostFails (init 2) (talkRun boxAsk.text sumAsk.text) := by
    decide +kernel
  have hasks : messagesOn (.connect 0)
      (observe step entries (init 2) (talkRun boxAsk.text sumAsk.text)) =
        [boxAsk.text, sumAsk.text] := by
    decide +kernel
  exact ⟨s, hs, replies_in_turn hremoves hrepost hs (.connect 0) [boxAsk, sumAsk] hasks⟩

example : sentOn (.connect 0) [] (observe step entries (init 2)
    (talkRun boxAsk.text sumAsk.text)) = [boxAsk.reply.text, sumAsk.reply.text] := by
  decide +kernel

end AMSServer.IOCPServer
