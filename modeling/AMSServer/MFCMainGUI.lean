import AMSServer.Foundations.CRuntime.Text
import AMSServer.Foundations.History
import AMSServer.IOCPServer.Lifecycle

/-!
# The dialog

`MFCMainGUI` (`MFCMainGUI.cpp`): the buttons that start and stop the server, the submission of a
file, and the end of the dialog. `WellUsed` says of the calls so far that every handle was closed
after it was opened and at most once, and that `Stop` ran on a started server only.

The window's close button stops the server whether it runs or not, and `Stop` leaves the number of
the closed listening socket in `ssocket`, where the destructor finds it. The calls are well used
exactly as long as the window is not closed on a stopped server and nothing is destroyed
(`wellUsed_iff`).
-/

namespace AMSServer.MFCMainGUI

open CRuntime Lifecycle Transition

/-! ## The dialog and its messages -/

inductive Phase
  | shown
  /-- `EndDialog` was called. -/
  | closed
  | destroyed
  deriving DecidableEq

structure Gui where
  server : Server
  serverruning : Bool
  startEnabled : Bool
  stopEnabled : Bool
  phase : Phase
  deriving DecidableEq

/-- `MFCMainGUI::MFCMainGUI` and `MFCMainGUI::OnInitDialog` -/
def Gui.new : Gui := ⟨.new, false, true, false, .shown⟩

/-- What reaches the dialog. A message that may start the server says what fails there. -/
inductive Message
  | start (failure : Option Server.Failure)
  | stop
  /-- The submit button, with the texts of the three edit controls. -/
  | submit (projectid vendorid csvfilepath : Text) (failure : Option Server.Failure)
  /-- `SC_CLOSE` -/
  | close
  | destroy
  deriving DecidableEq

/-- Every `Start` of the message succeeds. -/
def Message.Succeeds : Message → Prop
  | start failure => failure = none
  | submit _ _ _ failure => failure = none
  | _ => True

instance : DecidablePred Message.Succeeds
  | .start failure => inferInstanceAs (Decidable (failure = none))
  | .submit _ _ _ failure => inferInstanceAs (Decidable (failure = none))
  | .stop | .close | .destroy => inferInstanceAs (Decidable True)

/-- `MFCMainGUI::VerifyCsvFile` -/
def verifyCsvFile (csvfilepath : Text) : Bool :=
  (csvfilepath.drop (csvfilepath.length - 4)).map Char.toLower = ".csv".toList

variable (processors : ℕ)

/-- `MFCMainGUI::StartServer` -/
def startServer (failure : Option Server.Failure) (g : Gui) : Gui :=
  let (ok, server) := g.server.start processors failure
  if ok = false then { g with server }
  else { g with server, serverruning := true, startEnabled := false, stopEnabled := true }

/-- `MFCMainGUI::StopServer` -/
def stopServer (g : Gui) : Option Gui :=
  match g.server.stop with
  | none => none
  | some server => some { g with
    server, serverruning := false, startEnabled := true, stopEnabled := false }

/-- `MFCMainGUI::SubmitSqlData` -/
def submitSqlData (projectid vendorid csvfilepath : Text) (failure : Option Server.Failure)
    (g : Gui) : Option Gui :=
  if projectid = [] then some g
  else if vendorid = [] then some g
  else if csvfilepath = [] then some g
  else if verifyCsvFile csvfilepath = false then some g
  else if g.serverruning then
    match stopServer g with
    | none => none
    | some g => some (startServer processors failure g)
  else some g

/-- The dialog after a message that it lets through: a button only when it is enabled, and the
messages of the window while the window is shown. -/
def step (g : Gui) : Message → Option Gui
  | .start failure =>
    if g.phase = .shown ∧ g.startEnabled then some (startServer processors failure g) else none
  | .stop => if g.phase = .shown ∧ g.stopEnabled then stopServer g else none
  | .submit projectid vendorid csvfilepath failure =>
    if g.phase = .shown then submitSqlData processors projectid vendorid csvfilepath failure g
    else none
  | .close =>
    if g.phase = .shown then (stopServer g).map fun g => { g with phase := .closed } else none
  | .destroy =>
    if g.phase = .closed then some { g with server := g.server.destroy, phase := .destroyed }
    else none

/-! ## Well used handles -/

/-- The last mark is that of a `Start`. -/
def started (log : List Call) : Bool :=
  log.foldl (fun b c => match c with
    | .started => true
    | .stop => false
    | _ => b) false

/-- **A call after others.** A handle is closed only if it is open, and `Stop` runs on a started
server. -/
def FineCall (before : List Call) : Call → Prop
  | .closed kind handle => ∃ id ∈ handle, IsOpen before kind id
  | .stop => started before = true
  | .opened _ _ | .started => True

/-- **Every handle is closed at most once and only after it was opened**, and `Stop` runs only on a
started server. -/
def WellUsed (log : List Call) : Prop := History.Each FineCall [] log

instance (before : List Call) : DecidablePred (FineCall before)
  | .closed kind handle => inferInstanceAs (Decidable (∃ id ∈ handle, IsOpen before kind id))
  | .stop => inferInstanceAs (Decidable (started before = true))
  | .opened _ _ | .started => inferInstanceAs (Decidable True)

instance : DecidablePred WellUsed := fun log =>
  inferInstanceAs (Decidable (History.Each FineCall [] log))

/-- What is well used is opened before it is closed, and not closed again. -/
theorem WellUsed.closed_once {log before after : List Call} (h : WellUsed log) {kind : Kind}
    {handle : Option ℕ} (hlog : log = before ++ .closed kind handle :: after) :
    ∃ id ∈ handle, .opened kind id ∈ before ∧ .closed kind (some id) ∉ before ++ after := by
  have heach := History.each_nil_iff.mp h
  obtain ⟨id, hid, hopened, hbefore⟩ : FineCall before (.closed kind handle) :=
    heach before _ after hlog
  obtain rfl : handle = some id := hid
  refine ⟨id, rfl, hopened, fun hmem => ?_⟩
  rcases List.mem_append.mp hmem with hmem | hmem
  · exact hbefore hmem
  · obtain ⟨middle, later, rfl⟩ := List.append_of_mem hmem
    have hagain : log = (before ++ .closed kind (some id) :: middle) ++
        .closed kind (some id) :: later := by
      rw [hlog, List.append_assoc, List.cons_append]
    obtain ⟨id', hid', -, hclosed⟩ : FineCall _ (.closed kind (some id)) := heach _ _ _ hagain
    obtain rfl : id = id' := Option.some.inj hid'
    exact hclosed (List.mem_append_right _ List.mem_cons_self)

/-- Opening is always fine. -/
theorem each_opened {before calls : List Call}
    (h : ∀ c ∈ calls, (∃ kind id, c = .opened kind id) ∨ c = .started) :
    History.Each FineCall before calls := by
  induction calls generalizing before with
  | nil => trivial
  | cons c calls ih =>
    refine ⟨?_, ih fun c' hc' => h c' (List.mem_cons_of_mem c hc')⟩
    rcases h c List.mem_cons_self with ⟨kind, id, rfl⟩ | rfl
    · trivial
    · trivial

/-- Closing different open handles is fine. -/
theorem each_closed {before : List Call} {kind : Kind} {ids : List ℕ} (hids : ids.Nodup)
    (h : ∀ id ∈ ids, IsOpen before kind id) :
    History.Each FineCall before (ids.map fun id => .closed kind (some id)) := by
  induction ids generalizing before with
  | nil => trivial
  | cons id ids ih =>
    obtain ⟨hid, hids⟩ := List.nodup_cons.mp hids
    refine ⟨⟨id, rfl, h id List.mem_cons_self⟩, ih hids fun id' hid' => ?_⟩
    apply (h id' (List.mem_cons_of_mem id hid')).append
    rw [List.mem_singleton]
    intro heq
    cases heq
    exact hid hid'

/-- Calls without a mark. -/
theorem started_append {log calls : List Call} (h : Call.started ∉ calls ∧ Call.stop ∉ calls) :
    started (log ++ calls) = started log := by
  rw [started, List.foldl_append]
  change calls.foldl _ (started log) = started log
  induction calls with
  | nil => rfl
  | cons c calls ih =>
    obtain ⟨hstarted, hstop⟩ := h
    cases c with
    | started => exact absurd List.mem_cons_self hstarted
    | stop => exact absurd List.mem_cons_self hstop
    | opened kind id =>
      exact ih ⟨fun h => hstarted (List.mem_cons_of_mem _ h),
        fun h => hstop (List.mem_cons_of_mem _ h)⟩
    | closed kind handle =>
      exact ih ⟨fun h => hstarted (List.mem_cons_of_mem _ h),
        fun h => hstop (List.mem_cons_of_mem _ h)⟩

/-! ## A started server -/

/-- **A started server**: its members name open objects. -/
structure Holds (s : Server) : Prop where
  port : ∃ id, s.completeport = some id ∧ IsOpen s.log .port id
  socket : ∃ id, s.ssocket = some id ∧ IsOpen s.log .socket id
  nodup : s.threadhandle.Nodup
  thread : ∀ id ∈ s.threadhandle, IsOpen s.log .thread id

variable {processors} {s t : Server} {g u : Gui}

/-- The calls of a successful `Start`. -/
theorem start_none_log (s : Server) : (s.start processors none).2.log = s.log ++
    (.opened .port s.created ::
      ((List.range' (s.created + 1) (Server.threadnum processors)).map (.opened .thread) ++
        [.opened .socket (s.created + 1 + Server.threadnum processors), .started])) := by
  change s.log ++ _ ++ [_] ++ [_] = _
  simp only [List.append_assoc, List.cons_append, List.nil_append]

theorem holds_start (hs : s.Fresh) : Holds (s.start processors none).2 := by
  have hnew (kind : Kind) (id : ℕ) (hid : s.created ≤ id) : .closed kind (some id) ∉ s.log := by
    intro hc
    have hlt := hs.log _ hc id rfl
    omega
  refine ⟨⟨s.created, rfl, ?_⟩, ⟨s.created + 1 + Server.threadnum processors, rfl, ?_⟩,
    List.nodup_range', fun id hid => ?_⟩
  · rw [start_none_log]
    refine ⟨by simp, fun hc => ?_⟩
    rcases List.mem_append.mp hc with hc | hc
    · exact hnew _ _ (Nat.le_refl _) hc
    · simp at hc
  · rw [start_none_log]
    refine ⟨by simp, fun hc => ?_⟩
    rcases List.mem_append.mp hc with hc | hc
    · exact hnew _ _ (by omega) hc
    · simp at hc
  · obtain ⟨hle, hlt⟩ := List.mem_range'_1.mp hid
    rw [start_none_log]
    refine ⟨by simp; omega, fun hc => ?_⟩
    rcases List.mem_append.mp hc with hc | hc
    · exact hnew _ _ (by omega) hc
    · simp at hc

/-- A successful `Start` opens and marks. -/
theorem wellUsed_start (h : WellUsed s.log) : WellUsed (s.start processors none).2.log := by
  rw [start_none_log, WellUsed, History.each_append]
  refine ⟨h, each_opened fun c hc => ?_⟩
  simp only [List.mem_cons, List.mem_append, List.mem_map, List.not_mem_nil, or_false] at hc
  rcases hc with rfl | ⟨id, -, rfl⟩ | rfl | rfl
  · exact Or.inl ⟨_, _, rfl⟩
  · exact Or.inl ⟨_, _, rfl⟩
  · exact Or.inl ⟨_, _, rfl⟩
  · exact Or.inr rfl

theorem started_start (s : Server) : started (s.start processors none).2.log = true := by
  change started (_ ++ [Call.started]) = true
  rw [started, List.foldl_append]
  rfl

/-- What a `Stop` that returns does. -/
theorem stop_eq (h : s.stop = some t) :
    t.log = s.log ++ (.stop :: (s.threadhandle.map (fun id => .closed .thread (some id)) ++
        [.closed .socket s.ssocket, .closed .port s.completeport])) ∧ t.ssocket = s.ssocket := by
  rw [Server.stop] at h
  split at h
  · cases h
    exact ⟨by simp, rfl⟩
  · cases h

/-- **`Stop` on a started server** closes what is open. -/
theorem wellUsed_stop (h : WellUsed s.log) (hs : Holds s) (hstarted : started s.log = true)
    (hstop : s.stop = some t) : WellUsed t.log := by
  obtain ⟨port, hport, hportOpen⟩ := hs.port
  obtain ⟨socket, hsocket, hsocketOpen⟩ := hs.socket
  rw [(stop_eq hstop).1, hport, hsocket, WellUsed, History.each_append]
  refine ⟨h, hstarted, ?_⟩
  rw [History.each_append]
  refine ⟨each_closed hs.nodup fun id hid => (hs.thread id hid).append (by simp), ?_⟩
  refine ⟨⟨socket, rfl, ?_⟩, ⟨port, rfl, ?_⟩, trivial⟩
  · exact (hsocketOpen.append (by simp)).append (by simp)
  · exact ((hportOpen.append (by simp)).append (by simp)).append (by simp)

theorem started_stop (hstop : s.stop = some t) : started t.log = false := by
  rw [(stop_eq hstop).1, ← List.singleton_append, ← List.append_assoc, started_append (by simp),
    started, List.foldl_append]
  rfl

/-! ## What the messages keep -/

/-- **The dialog as long as everything is well used.** The buttons and `serverruning` agree with
the last mark, and once the window is closed `ssocket` names a closed socket. -/
structure Inv (g : Gui) : Prop where
  fresh : g.server.Fresh
  used : WellUsed g.server.log
  mark : started g.server.log = g.serverruning
  start : g.startEnabled = !g.serverruning
  stop : g.stopEnabled = g.serverruning
  holds : g.serverruning = true → Holds g.server
  closed : g.phase ≠ .shown → ∃ id, g.server.ssocket = some id ∧ .closed .socket (some id) ∈
    g.server.log

/-- **The exact condition on a message**: the window is closed on a started server only, and
nothing is destroyed. -/
def Fine (g : Gui) : Message → Prop
  | .close => g.serverruning = true
  | .destroy => False
  | .start _ | .stop | .submit _ _ _ _ => True

instance (g : Gui) : DecidablePred (Fine g)
  | .close => inferInstanceAs (Decidable (g.serverruning = true))
  | .destroy => inferInstanceAs (Decidable False)
  | .start _ | .stop | .submit _ _ _ _ => inferInstanceAs (Decidable True)

theorem inv_new : Inv .new :=
  ⟨Server.fresh_new, trivial, rfl, rfl, rfl, by simp [Gui.new], fun h => absurd rfl h⟩

/-- A `Start` that succeeds, on a dialog that is shown. -/
theorem Inv.startServer (h : Inv g) (hshown : g.phase = .shown) :
    Inv (startServer processors none g) where
  fresh := h.fresh.start processors none
  used := wellUsed_start h.used
  mark := started_start _
  start := rfl
  stop := rfl
  holds _ := holds_start h.fresh
  closed hne := absurd hshown hne

/-- A `Stop` on a started server. The socket it closes stays in `ssocket`. -/
theorem Inv.stopServer (h : Inv g) (hruning : g.serverruning = true)
    (hstop : stopServer g = some u) :
    Inv u ∧ u.phase = g.phase ∧
      ∃ id, u.server.ssocket = some id ∧ .closed .socket (some id) ∈ u.server.log := by
  rw [MFCMainGUI.stopServer] at hstop
  cases hs : g.server.stop with
  | none =>
    rw [hs] at hstop
    cases hstop
  | some server =>
    rw [hs] at hstop
    cases hstop
    obtain ⟨hlog, hssocket⟩ := stop_eq hs
    obtain ⟨socket, hsocket, -⟩ := (h.holds hruning).socket
    have hclosed : ∃ id, server.ssocket = some id ∧ .closed .socket (some id) ∈ server.log := by
      refine ⟨socket, hssocket.trans hsocket, ?_⟩
      rw [hlog, hsocket]
      simp
    refine ⟨⟨h.fresh.stop hs, ?_, started_stop hs, rfl, rfl, nofun, fun _ => hclosed⟩, rfl,
      hclosed⟩
    exact wellUsed_stop h.used (h.holds hruning) (h.mark.trans hruning) hs

/-- **A fine message keeps the invariant.** -/
theorem Inv.step {m : Message} (h : Inv g) (hsucceeds : m.Succeeds) (hfine : Fine g m)
    (hstep : step processors g m = some u) : Inv u := by
  cases m with
  | start failure =>
    obtain rfl : failure = none := hsucceeds
    obtain ⟨⟨hshown, -⟩, hu⟩ := Option.ite_none_right_eq_some.mp hstep
    cases hu
    exact h.startServer hshown
  | stop =>
    obtain ⟨⟨-, henabled⟩, hu⟩ := Option.ite_none_right_eq_some.mp hstep
    exact (h.stopServer (h.stop ▸ henabled) hu).1
  | submit projectid vendorid csvfilepath failure =>
    obtain rfl : failure = none := hsucceeds
    obtain ⟨hshown, hu⟩ := Option.ite_none_right_eq_some.mp hstep
    rw [submitSqlData] at hu
    split_ifs at hu with _ _ _ _ hruning
    · cases hu; exact h
    · cases hu; exact h
    · cases hu; exact h
    · cases hu; exact h
    · cases hstop : MFCMainGUI.stopServer g with
      | none =>
        rw [hstop] at hu
        cases hu
      | some v =>
        rw [hstop] at hu
        cases hu
        obtain ⟨hv, hphase, -⟩ := h.stopServer hruning hstop
        exact hv.startServer (hphase.trans hshown)
    · cases hu; exact h
  | close =>
    obtain ⟨-, hu⟩ := Option.ite_none_right_eq_some.mp hstep
    obtain ⟨v, hv, rfl⟩ := Option.map_eq_some_iff.mp hu
    obtain ⟨⟨hfresh, hused, hmark, hstart, hstop, hholds, -⟩, -, hclosed⟩ := h.stopServer hfine hv
    exact ⟨hfresh, hused, hmark, hstart, hstop, hholds, fun _ => hclosed⟩
  | destroy => exact hfine.elim

/-! ## Calls are not taken back -/

theorem start_prefix (failure : Option Server.Failure) (s : Server) :
    s.log <+: (s.start processors failure).2.log := by
  by_cases h : failure = some .completeport
  · subst h
    exact List.prefix_rfl
  · obtain ⟨calls, hlog, -⟩ := s.start_log processors h
    rw [hlog]
    exact List.prefix_append _ _

theorem prefix_startServer (failure : Option Server.Failure) (g : Gui) :
    g.server.log <+: (startServer processors failure g).server.log := by
  have hserver : (startServer processors failure g).server =
      (g.server.start processors failure).2 := by
    rw [startServer]
    obtain ⟨ok, server⟩ := g.server.start processors failure
    cases ok with
    | false => rfl
    | true => rfl
  rw [hserver]
  exact start_prefix failure g.server

theorem prefix_stopServer (h : stopServer g = some u) : g.server.log <+: u.server.log := by
  rw [stopServer] at h
  cases hs : g.server.stop with
  | none =>
    rw [hs] at h
    cases h
  | some server =>
    rw [hs] at h
    cases h
    change g.server.log <+: server.log
    rw [(stop_eq hs).1]
    exact List.prefix_append _ _

theorem prefix_step {m : Message} (h : step processors g m = some u) :
    g.server.log <+: u.server.log := by
  cases m with
  | start failure =>
    obtain ⟨-, hu⟩ := Option.ite_none_right_eq_some.mp h
    cases hu
    exact prefix_startServer failure g
  | stop => exact prefix_stopServer (Option.ite_none_right_eq_some.mp h).2
  | submit projectid vendorid csvfilepath failure =>
    obtain ⟨-, hu⟩ := Option.ite_none_right_eq_some.mp h
    rw [submitSqlData] at hu
    split_ifs at hu
    · cases hu; exact List.prefix_rfl
    · cases hu; exact List.prefix_rfl
    · cases hu; exact List.prefix_rfl
    · cases hu; exact List.prefix_rfl
    · cases hstop : stopServer g with
      | none =>
        rw [hstop] at hu
        cases hu
      | some v =>
        rw [hstop] at hu
        cases hu
        exact (prefix_stopServer hstop).trans (prefix_startServer failure v)
    · cases hu; exact List.prefix_rfl
  | close =>
    obtain ⟨-, hu⟩ := Option.ite_none_right_eq_some.mp h
    obtain ⟨v, hv, rfl⟩ := Option.map_eq_some_iff.mp hu
    have hpre := prefix_stopServer hv
    exact hpre
  | destroy =>
    obtain ⟨-, hu⟩ := Option.ite_none_right_eq_some.mp h
    cases hu
    change g.server.log <+: g.server.destroy.log
    rw [Server.destroy]
    split
    · exact List.prefix_rfl
    · exact List.prefix_append _ _

theorem WellUsed.of_prefix {log log' : List Call} (h : WellUsed log') (hpre : log <+: log') :
    WellUsed log := by
  obtain ⟨calls, rfl⟩ := hpre
  exact (History.each_append.mp h).1

/-! ## The exact condition -/

/-- A message that leaves everything well used is fine: closing the window of a stopped server stops
it again, and the destructor closes the socket that was closed last. -/
theorem Inv.fine {m : Message} (h : Inv g) (hstep : MFCMainGUI.step processors g m = some u)
    (hused : WellUsed u.server.log) : Fine g m := by
  cases m with
  | close =>
    obtain ⟨-, hu⟩ := Option.ite_none_right_eq_some.mp hstep
    obtain ⟨v, hv, rfl⟩ := Option.map_eq_some_iff.mp hu
    rw [MFCMainGUI.stopServer] at hv
    cases hs : g.server.stop with
    | none =>
      rw [hs] at hv
      cases hv
    | some server =>
      rw [hs] at hv
      cases hv
      change WellUsed server.log at hused
      rw [(stop_eq hs).1, WellUsed, History.each_append] at hused
      have hstarted : started g.server.log = true := hused.2.1
      exact h.mark.symm.trans hstarted
  | destroy =>
    obtain ⟨hphase, hu⟩ := Option.ite_none_right_eq_some.mp hstep
    cases hu
    obtain ⟨id, hssocket, hclosed⟩ := h.closed (by rw [hphase]; intro hc; cases hc)
    change WellUsed g.server.destroy.log at hused
    rw [Server.destroy, if_neg (by rw [hssocket]; intro hc; cases hc)] at hused
    change WellUsed (g.server.log ++ [Call.closed .socket g.server.ssocket]) at hused
    rw [hssocket, WellUsed, History.each_append, History.each_singleton] at hused
    obtain ⟨id', hid', -, hopen⟩ := hused.2
    cases hid'
    exact hopen hclosed
  | start failure => trivial
  | stop => trivial
  | submit projectid vendorid csvfilepath failure => trivial

/-- **When every handle is well used**: exactly in the runs that close the window, if at all, on a
started server, and that do not destroy the dialog and its server. -/
theorem wellUsed_iff {messages : List Message} (hsucceed : ∀ m ∈ messages, m.Succeeds)
    (h : exec (step processors) .new messages = some u) :
    WellUsed u.server.log ↔ Along (step processors) Fine .new messages := by
  refine @good_iff_along _ _ (step processors) Inv (fun g => WellUsed g.server.log)
    (fun _ m => m.Succeeds) Fine (fun _ _ _ hg hm hfine hs => hg.step hm hfine hs)
    (fun _ hg => hg.used) (fun _ _ _ hg _ hs hused => hg.fine hs hused)
    (fun _ _ _ hs hused => hused.of_prefix (prefix_step hs)) _ _ _ inv_new ?_ h
  exact along_of_forall hsucceed

/-- A session: the server is started, a file is submitted, and the window is closed. -/
def session : List Message :=
  [.start none, .submit "p".toList "v".toList "a.CSV".toList none, .close]

/-- Everything is well used until the dialog of the session is destroyed. -/
theorem wellUsed_session : (∀ m ∈ session, m.Succeeds) ∧ ∃ u,
    exec (step 2) .new session = some u ∧
      (WellUsed u.server.log ↔ Along (step 2) Fine .new session) ∧ WellUsed u.server.log := by
  refine ⟨by decide, _, rfl, @wellUsed_iff 2 _ session (by decide) rfl,
    by decide⟩

/-- The destructor closes the listening socket a second time. -/
theorem not_wellUsed_destroyed : (∀ m ∈ session ++ [.destroy], m.Succeeds) ∧ ∃ u,
    exec (step 2) .new (session ++ [.destroy]) = some u ∧ ¬ WellUsed u.server.log :=
  ⟨by decide, _, rfl, by decide⟩

end AMSServer.MFCMainGUI
