import AMSServer.Foundations.Registry
import AMSServer.IOCPServer.Stop
import AMSServer.MFCMainGUI

/-!
# A session

The main thread from `_tmain` (`AMSServer.cpp`) through `MFCAPP::InitInstance` (`MFCAPP.cpp`): the
login dialog (`MFCLoginGUI.cpp`), the main dialog, and the deletion of what was made. The three
classes with a singleton pointer, `FileLog`, `HeapProtectMutex` and `IOCPServer`, have an object
each, at whatever address.

The main dialog has no default button and its `OnOk` is not the `OnOK` of `CDialog`, so the Enter
key closes it without `StopServer`. The pointers that the main thread follows are always those of
its own objects (`singletons_live`). The workers that run under the dialog have ended when it is
destroyed exactly in the sessions that start the server, and close the dialog with Enter, only while
no worker runs (`workers_end_iff`).
-/

namespace AMSServer.MFCAPP

open CRuntime Lifecycle MFCMainGUI Transition

/-! ## The main thread -/

abbrev Addr := ℕ

/-- Where `_tmain` is. -/
inductive Phase
  | started
  /-- `logingui.DoModal` -/
  | login
  /-- `maingui.DoModal` and its destructor -/
  | maingui
  /-- `InitInstance` has returned: `delete heapmutex` is next. -/
  | left
  /-- `delete filelog` is next. -/
  | mutexDeleted
  | returned
  deriving DecidableEq

/-- The main thread: the main dialog, the objects of the three classes, and the pointers that it
keeps itself. -/
structure Session where
  phase : Phase
  gui : Gui
  filelogs : Registry Addr
  heapmutexes : Registry Addr
  servers : Registry Addr
  filelog : Addr
  heapmutex : Addr
  server : Addr

/-- Before `_tmain`. -/
def Session.init : Session := ⟨.started, .new, .empty, .empty, .empty, 0, 0, 0⟩

/-- What happens in a session. -/
inductive Event
  /-- `new FileLog`, `new HeapProtectMutex` at some addresses, and what `AfxWinInit` returns -/
  | startUp (filelog heapmutex : Addr) (winInit : Bool)
  /-- The login button, and the address of the server if one is made. -/
  | login (username passwd : Text) (server : Addr)
  /-- `SC_CLOSE` of the login dialog -/
  | closeLogin
  | gui (m : Message)
  /-- The Enter key in the main dialog: `CDialog::OnOK` -/
  | enter
  | deleteMutex
  | deleteLog

variable (processors : ℕ)

/-- The main thread after an event that can happen. -/
def step (s : Session) : Event → Option Session
  | .startUp filelog heapmutex winInit =>
    if s.phase = .started then do
      let filelogs ← s.filelogs.construct filelog
      let heapmutexes ← s.heapmutexes.construct heapmutex
      return { s with
        filelogs, heapmutexes, filelog, heapmutex, phase := if winInit then .login else .returned }
    else none
  | .login username passwd server =>
    if s.phase = .login then
      if username = [] then some s
      else if passwd = [] then some s
      else do
        let servers ← s.servers.construct server
        return { s with servers, server, phase := .maingui }
    else none
  | .closeLogin => if s.phase = .login then some { s with phase := .left } else none
  | .gui .destroy =>
    if s.phase = .maingui then do
      let gui ← MFCMainGUI.step processors s.gui .destroy
      let servers ← s.servers.destruct s.server
      return { s with gui, servers, phase := .left }
    else none
  | .gui m =>
    if s.phase = .maingui then do
      let gui ← MFCMainGUI.step processors s.gui m
      return { s with gui }
    else none
  | .enter =>
    if s.phase = .maingui ∧ s.gui.phase = .shown then
      some { s with gui := { s.gui with phase := .closed } }
    else none
  | .deleteMutex =>
    if s.phase = .left then do
      let heapmutexes ← s.heapmutexes.destruct s.heapmutex
      return { s with heapmutexes, phase := .mutexDeleted }
    else none
  | .deleteLog =>
    if s.phase = .mutexDeleted then do
      let filelogs ← s.filelogs.destruct s.filelog
      return { s with filelogs, phase := .returned }
    else none

/-! ## What an event does -/

variable {processors} {g u : Gui} {s t : Session}

/-- What a message of the main dialog does to its server and its window. -/
inductive GuiMove (processors : ℕ) (g : Gui) : Message → Gui → Prop
  | keep (projectid vendorid csvfilepath : Text) (failure : Option Server.Failure)
      (hshown : g.phase = .shown) :
      GuiMove processors g (.submit projectid vendorid csvfilepath failure) g
  | start (failure : Option Server.Failure) (u : Gui) (hshown : g.phase = .shown)
      (hserver : u.server = (g.server.start processors failure).2) (hphase : u.phase = .shown) :
      GuiMove processors g (.start failure) u
  | stop (u : Gui) (hshown : g.phase = .shown) (hstop : g.server.stop = some u.server)
      (hphase : u.phase = .shown) : GuiMove processors g .stop u
  | restart (projectid vendorid csvfilepath : Text) (failure : Option Server.Failure)
      (server : Server) (u : Gui) (hshown : g.phase = .shown) (hstop : g.server.stop = some server)
      (hserver : u.server = (server.start processors failure).2) (hphase : u.phase = .shown) :
      GuiMove processors g (.submit projectid vendorid csvfilepath failure) u
  | close (u : Gui) (hshown : g.phase = .shown) (hstop : g.server.stop = some u.server)
      (hphase : u.phase = .closed) : GuiMove processors g .close u
  | destroy (u : Gui) (hclosed : g.phase = .closed)
      (hworkers : u.server.workers = g.server.workers)
      (hport : u.server.completeport = g.server.completeport) (hphase : u.phase = .destroyed) :
      GuiMove processors g .destroy u

theorem startServer_server (failure : Option Server.Failure) (g : Gui) :
    (startServer processors failure g).server = (g.server.start processors failure).2 ∧
      (startServer processors failure g).phase = g.phase := by
  rw [startServer]
  obtain ⟨ok, server⟩ := g.server.start processors failure
  cases ok with
  | false => exact ⟨rfl, rfl⟩
  | true => exact ⟨rfl, rfl⟩

theorem stopServer_server (h : stopServer g = some u) :
    g.server.stop = some u.server ∧ u.phase = g.phase := by
  rw [stopServer] at h
  split at h
  · cases h
  next server hs =>
    cases h
    exact ⟨hs, rfl⟩

theorem gui_move {m : Message} (h : MFCMainGUI.step processors g m = some u) :
    GuiMove processors g m u := by
  cases m with
  | start failure =>
    obtain ⟨⟨hshown, -⟩, hu⟩ := Option.ite_none_right_eq_some.mp h
    cases hu
    obtain ⟨hserver, hphase⟩ := @startServer_server processors failure g
    exact .start failure _ hshown hserver (hphase.trans hshown)
  | stop =>
    obtain ⟨⟨hshown, -⟩, hu⟩ := Option.ite_none_right_eq_some.mp h
    obtain ⟨hstop, hphase⟩ := stopServer_server hu
    exact .stop u hshown hstop (hphase.trans hshown)
  | submit projectid vendorid csvfilepath failure =>
    obtain ⟨hshown, hu⟩ := Option.ite_none_right_eq_some.mp h
    rw [submitSqlData] at hu
    split_ifs at hu
    · cases hu; exact .keep _ _ _ _ hshown
    · cases hu; exact .keep _ _ _ _ hshown
    · cases hu; exact .keep _ _ _ _ hshown
    · cases hu; exact .keep _ _ _ _ hshown
    · cases hv : stopServer g with
      | none =>
        rw [hv] at hu
        cases hu
      | some v =>
        rw [hv] at hu
        cases hu
        obtain ⟨hstop, hphase⟩ := stopServer_server hv
        obtain ⟨hserver, hphase'⟩ := @startServer_server processors failure v
        exact .restart _ _ _ failure v.server _ hshown hstop hserver
          (hphase'.trans (hphase.trans hshown))
    · cases hu; exact .keep _ _ _ _ hshown
  | close =>
    obtain ⟨hshown, hu⟩ := Option.ite_none_right_eq_some.mp h
    obtain ⟨v, hv, rfl⟩ := Option.map_eq_some_iff.mp hu
    exact .close _ hshown (stopServer_server hv).1 rfl
  | destroy =>
    obtain ⟨hclosed, hu⟩ := Option.ite_none_right_eq_some.mp h
    cases hu
    refine .destroy _ hclosed ?_ ?_ rfl
    · change g.server.destroy.workers = g.server.workers
      rw [Server.destroy]
      split <;> rfl
    · change g.server.destroy.completeport = g.server.completeport
      rw [Server.destroy]
      split <;> rfl

/-- What an event does. -/
inductive Move (processors : ℕ) (s : Session) : Event → Session → Prop
  | startUp (filelog heapmutex : Addr) (winInit : Bool) (filelogs heapmutexes : Registry Addr)
      (hphase : s.phase = .started) (hlog : s.filelogs.construct filelog = some filelogs)
      (hmutex : s.heapmutexes.construct heapmutex = some heapmutexes) :
      Move processors s (.startUp filelog heapmutex winInit) { s with
        filelogs, heapmutexes, filelog, heapmutex, phase := if winInit then .login else .returned }
  | refuse (username passwd : Text) (server : Addr) (hphase : s.phase = .login)
      (hempty : username = [] ∨ passwd = []) :
      Move processors s (.login username passwd server) s
  | login (username passwd : Text) (server : Addr) (servers : Registry Addr)
      (hphase : s.phase = .login) (husername : username ≠ []) (hpasswd : passwd ≠ [])
      (hserver : s.servers.construct server = some servers) :
      Move processors s (.login username passwd server) { s with
        servers, server, phase := .maingui }
  | closeLogin (hphase : s.phase = .login) : Move processors s .closeLogin { s with phase := .left }
  | gui (m : Message) (gui : Gui) (hphase : s.phase = .maingui) (hm : m ≠ .destroy)
      (hgui : GuiMove processors s.gui m gui) : Move processors s (.gui m) { s with gui }
  | destroy (gui : Gui) (servers : Registry Addr) (hphase : s.phase = .maingui)
      (hgui : GuiMove processors s.gui .destroy gui)
      (hserver : s.servers.destruct s.server = some servers) :
      Move processors s (.gui .destroy) { s with gui, servers, phase := .left }
  | enter (hphase : s.phase = .maingui) (hshown : s.gui.phase = .shown) :
      Move processors s .enter { s with gui := { s.gui with phase := .closed } }
  | deleteMutex (heapmutexes : Registry Addr) (hphase : s.phase = .left)
      (hmutex : s.heapmutexes.destruct s.heapmutex = some heapmutexes) :
      Move processors s .deleteMutex { s with heapmutexes, phase := .mutexDeleted }
  | deleteLog (filelogs : Registry Addr) (hphase : s.phase = .mutexDeleted)
      (hlog : s.filelogs.destruct s.filelog = some filelogs) :
      Move processors s .deleteLog { s with filelogs, phase := .returned }

theorem step_move {e : Event} (h : step processors s e = some t) : Move processors s e t := by
  cases e with
  | startUp filelog heapmutex winInit =>
    obtain ⟨hphase, h⟩ := Option.ite_none_right_eq_some.mp h
    obtain ⟨filelogs, hlog, h⟩ := Option.bind_eq_some_iff.mp h
    obtain ⟨heapmutexes, hmutex, h⟩ := Option.bind_eq_some_iff.mp h
    cases h
    exact .startUp filelog heapmutex winInit filelogs heapmutexes hphase hlog hmutex
  | login username passwd server =>
    obtain ⟨hphase, h⟩ := Option.ite_none_right_eq_some.mp h
    split_ifs at h with husername hpasswd
    · cases h
      exact .refuse _ _ _ hphase (Or.inl husername)
    · cases h
      exact .refuse _ _ _ hphase (Or.inr hpasswd)
    · obtain ⟨servers, hserver, h⟩ := Option.bind_eq_some_iff.mp h
      cases h
      exact .login _ _ _ servers hphase husername hpasswd hserver
  | closeLogin =>
    obtain ⟨hphase, h⟩ := Option.ite_none_right_eq_some.mp h
    cases h
    exact .closeLogin hphase
  | gui m =>
    by_cases hm : m = .destroy
    · subst hm
      obtain ⟨hphase, h⟩ := Option.ite_none_right_eq_some.mp h
      obtain ⟨gui, hgui, h⟩ := Option.bind_eq_some_iff.mp h
      obtain ⟨servers, hserver, h⟩ := Option.bind_eq_some_iff.mp h
      cases h
      exact .destroy gui servers hphase (gui_move hgui) hserver
    · have h' : (if s.phase = .maingui then do
          let gui ← MFCMainGUI.step processors s.gui m
          return { s with gui } else none) = some t := by
        cases m with
        | destroy => exact absurd rfl hm
        | _ => exact h
      obtain ⟨hphase, h'⟩ := Option.ite_none_right_eq_some.mp h'
      obtain ⟨gui, hgui, h'⟩ := Option.bind_eq_some_iff.mp h'
      cases h'
      exact .gui m gui hphase hm (gui_move hgui)
  | enter =>
    obtain ⟨⟨hphase, hshown⟩, h⟩ := Option.ite_none_right_eq_some.mp h
    cases h
    exact .enter hphase hshown
  | deleteMutex =>
    obtain ⟨hphase, h⟩ := Option.ite_none_right_eq_some.mp h
    obtain ⟨heapmutexes, hmutex, h⟩ := Option.bind_eq_some_iff.mp h
    cases h
    exact .deleteMutex heapmutexes hphase hmutex
  | deleteLog =>
    obtain ⟨hphase, h⟩ := Option.ite_none_right_eq_some.mp h
    obtain ⟨filelogs, hlog, h⟩ := Option.bind_eq_some_iff.mp h
    cases h
    exact .deleteLog filelogs hphase hlog

/-! ## The singleton pointers -/

/-- **Every class has the object that the main thread made**, while the main thread is where it
follows the pointer of the class. -/
structure Live (s : Session) : Prop where
  filelogs : s.phase ∈ [.login, .maingui, .left, .mutexDeleted] →
    s.filelogs = .alone s.filelog
  heapmutexes : s.phase ∈ [.login, .maingui, .left] → s.heapmutexes = .alone s.heapmutex
  servers : s.phase = .maingui → s.servers = .alone s.server
  none : s.phase = .started → s.filelogs = .empty ∧ s.heapmutexes = .empty
  noServer : s.phase ≠ .maingui → s.servers = .empty

theorem live_init : Live .init := by
  constructor <;> simp [Session.init]

theorem Live.step (hs : Live s) {e : Event} (h : MFCAPP.step processors s e = some t) :
    Live t := by
  cases step_move h with
  | startUp filelog heapmutex winInit filelogs heapmutexes hphase hlog hmutex =>
    obtain ⟨h1, h2⟩ := hs.none hphase
    rw [h1, Registry.construct_empty] at hlog
    rw [h2, Registry.construct_empty] at hmutex
    cases hlog
    cases hmutex
    have h3 := hs.noServer (by simp [hphase])
    cases winInit with
    | true => constructor <;> simp [h3]
    | false => constructor <;> simp [h3]
  | refuse username passwd server hphase hempty => exact hs
  | login username passwd server servers hphase husername hpasswd hserver =>
    rw [hs.noServer (by simp [hphase]), Registry.construct_empty] at hserver
    cases hserver
    have h1 := hs.filelogs (by simp [hphase])
    have h2 := hs.heapmutexes (by simp [hphase])
    constructor <;> simp [h1, h2]
  | closeLogin hphase =>
    have h1 := hs.filelogs (by simp [hphase])
    have h2 := hs.heapmutexes (by simp [hphase])
    have h3 := hs.noServer (by simp [hphase])
    constructor <;> simp [h1, h2, h3]
  | gui m gui hphase hm hgui => exact ⟨hs.1, hs.2, hs.3, hs.4, hs.5⟩
  | destroy gui servers hphase hgui hserver =>
    rw [hs.servers hphase, Registry.destruct_alone] at hserver
    cases hserver
    have h1 := hs.filelogs (by simp [hphase])
    have h2 := hs.heapmutexes (by simp [hphase])
    constructor <;> simp [h1, h2]
  | enter hphase hshown => exact ⟨hs.1, hs.2, hs.3, hs.4, hs.5⟩
  | deleteMutex heapmutexes hphase hmutex =>
    have h1 := hs.filelogs (by simp [hphase])
    have h3 := hs.noServer (by simp [hphase])
    constructor <;> simp [h1, h3]
  | deleteLog filelogs hphase hlog =>
    have h3 := hs.noServer (by simp [hphase])
    constructor <;> simp [h3]

/-! ## The workers -/

/-- The workers wait on the current port, and none is left once the main dialog is closed. -/
structure Tidy (s : Session) : Prop where
  port : ∀ w ∈ s.gui.server.workers, some w.port = s.gui.server.completeport
  closed : s.gui.phase ≠ .shown → s.gui.server.workers = []

/-- The threads that run, if any do, are those of `threadhandle`. -/
def Waited (server : Server) : Prop :=
  server.workers = [] ∨ server.workers.map Worker.thread = server.threadhandle

/-- Kernel objects are numbered apart as long as the dialog may start the server, and `Stop` waits
for the threads that run. -/
structure Inv (s : Session) : Prop extends Tidy s where
  waited : Waited s.gui.server
  fresh : s.gui.phase = .shown → s.gui.server.Fresh
  new : s.phase ≠ .maingui → s.gui.phase = .shown → s.gui = .new

/-- **The exact condition on an event**: the start button, and the Enter key, only while no worker
runs. -/
def Fine (s : Session) : Event → Prop
  | .gui (.start _) => s.gui.server.workers = []
  | .enter => s.gui.server.workers = []
  | _ => True

instance (s : Session) : DecidablePred (Fine s)
  | .gui (.start _) => inferInstanceAs (Decidable (s.gui.server.workers = []))
  | .enter => inferInstanceAs (Decidable (s.gui.server.workers = []))
  | .gui .stop | .gui (.submit _ _ _ _) | .gui .close | .gui .destroy => isTrue trivial
  | .startUp _ _ _ | .login _ _ _ | .closeLogin | .deleteMutex | .deleteLog => isTrue trivial

theorem inv_init : Inv .init := by
  refine ⟨⟨?_, ?_⟩, Or.inl rfl, fun _ => Server.fresh_new, fun _ _ => rfl⟩ <;> simp [Session.init,
    Gui.new, Server.new]

/-- `Stop` ends the workers of the current port. -/
theorem stop_workers {s t : Server} (h : s.stop = some t) :
    t.workers = s.workers.filter (fun w => some w.port ≠ s.completeport) ∧
      t.completeport = s.completeport := by
  rw [Server.stop] at h
  split at h
  · cases h
    exact ⟨rfl, rfl⟩
  · cases h

theorem start_port {s : Server} (h : s.workers = []) (failure : Option Server.Failure) :
    ∀ w ∈ (s.start processors failure).2.workers,
      some w.port = (s.start processors failure).2.completeport := by
  intro w hw
  by_cases hf : failure = some .completeport
  · subst hf
    rw [Server.start_eq] at hw
    change w ∈ s.workers at hw
    rw [h] at hw
    cases hw
  · obtain ⟨hworkers, -, hport⟩ := s.start_launches processors hf
    rw [hworkers] at hw
    rw [hport]
    rcases List.mem_append.mp hw with hw | hw
    · rw [h] at hw
      cases hw
    · obtain ⟨thread, -, rfl⟩ := List.mem_map.mp hw
      rfl

/-- A `Start` that finds no worker running leaves those of its own threads. -/
theorem start_waited {s : Server} (h : s.workers = []) (failure : Option Server.Failure) :
    Waited (s.start processors failure).2 := by
  by_cases hf : failure = some .completeport
  · subst hf
    rw [Server.start_eq]
    exact Or.inl h
  · obtain ⟨hworkers, hthreads, -⟩ := s.start_launches processors hf
    refine Or.inr ?_
    rw [hworkers, hthreads]
    change (s.workers ++ _).map Worker.thread = _
    rw [h, List.nil_append, List.map_map]
    exact List.map_id _

/-- In a tidy session `Stop` ends all workers. -/
theorem Tidy.stop (hs : Tidy s) {server : Server} (h : s.gui.server.stop = some server) :
    server.workers = [] := by
  rw [(stop_workers h).1, List.filter_eq_nil_iff]
  intro w hw
  simp [hs.port w hw]

/-- **A message keeps the main dialog tidy**, if it is fine. -/
theorem Inv.gui (hs : Inv s) {m : Message} (hphase : s.phase = .maingui) (hm : m ≠ .destroy)
    (hfine : Fine s (.gui m)) (h : GuiMove processors s.gui m u) : Inv { s with gui := u } := by
  have hmain : ∀ v : Gui, s.phase ≠ .maingui → v.phase = .shown → v = .new :=
    fun _ hne => absurd hphase hne
  cases h with
  | keep projectid vendorid csvfilepath failure hshown => exact hs
  | start failure u hshown hserver hphase =>
    have hport := @start_port processors s.gui.server hfine failure
    refine ⟨⟨?_, fun hne => absurd hphase hne⟩, ?_, fun _ => ?_, hmain u⟩
    · rw [hserver]
      exact hport
    · rw [hserver]
      exact start_waited hfine failure
    · rw [hserver]
      exact (hs.fresh hshown).start processors failure
  | stop u hshown hstop hphase =>
    have hnil := hs.toTidy.stop hstop
    refine ⟨⟨?_, fun _ => hnil⟩, Or.inl hnil, fun _ => (hs.fresh hshown).stop hstop, hmain u⟩
    simp [hnil]
  | restart projectid vendorid csvfilepath failure server u hshown hstop hserver hphase =>
    have hport := @start_port processors server (hs.toTidy.stop hstop) failure
    refine ⟨⟨?_, fun hne => absurd hphase hne⟩, ?_, fun _ => ?_, hmain u⟩
    · rw [hserver]
      exact hport
    · rw [hserver]
      exact start_waited (hs.toTidy.stop hstop) failure
    · rw [hserver]
      exact ((hs.fresh hshown).stop hstop).start processors failure
  | close u hshown hstop hphase =>
    have hnil := hs.toTidy.stop hstop
    refine ⟨⟨?_, fun _ => hnil⟩, Or.inl hnil, fun h => ?_, hmain u⟩
    · simp [hnil]
    · rw [hphase] at h
      cases h
  | destroy u hclosed hworkers hport hphase => exact absurd rfl hm

/-- **An event keeps a session tidy**, if it is fine. -/
theorem Inv.step (hs : Inv s) {e : Event} (hfine : Fine s e)
    (h : MFCAPP.step processors s e = some t) : Inv t := by
  obtain ⟨htidy, hwaited, hfresh, hnew⟩ := hs
  cases step_move h with
  | startUp filelog heapmutex winInit filelogs heapmutexes hphase hlog hmutex =>
    exact ⟨⟨htidy.port, htidy.closed⟩, hwaited, hfresh, fun _ => hnew (by simp [hphase])⟩
  | refuse username passwd server hphase hempty => exact ⟨htidy, hwaited, hfresh, hnew⟩
  | login username passwd server servers hphase husername hpasswd hserver =>
    exact ⟨⟨htidy.port, htidy.closed⟩, hwaited, hfresh, fun hne => absurd rfl hne⟩
  | closeLogin hphase =>
    exact ⟨⟨htidy.port, htidy.closed⟩, hwaited, hfresh, fun _ => hnew (by simp [hphase])⟩
  | gui m gui hphase hm hgui => exact Inv.gui ⟨htidy, hwaited, hfresh, hnew⟩ hphase hm hfine hgui
  | destroy gui servers hphase hgui hserver =>
    cases hgui with
    | destroy u hclosed hworkers hport hdestroyed =>
      have hnil : s.gui.server.workers = [] := htidy.closed (by simp [hclosed])
      refine ⟨⟨?_, fun _ => hworkers.trans hnil⟩, Or.inl (hworkers.trans hnil), fun h => ?_,
        fun _ h => ?_⟩
      · simp [hworkers, hnil]
      · exact absurd (hdestroyed.symm.trans h) (by simp)
      · exact absurd (hdestroyed.symm.trans h) (by simp)
  | enter hphase hshown =>
    have hnil : s.gui.server.workers = [] := hfine
    refine ⟨⟨htidy.port, fun _ => hnil⟩, Or.inl hnil, fun h => ?_, fun hne => absurd hphase hne⟩
    cases h
  | deleteMutex heapmutexes hphase hmutex =>
    exact ⟨⟨htidy.port, htidy.closed⟩, hwaited, hfresh, fun _ => hnew (by simp [hphase])⟩
  | deleteLog filelogs hphase hlog =>
    exact ⟨⟨htidy.port, htidy.closed⟩, hwaited, hfresh, fun _ => hnew (by simp [hphase])⟩

/-! ## Sessions -/

/-- A `Start` that leaves the workers on one port found none. -/
theorem workers_of_start {s : Server} (hs : s.Fresh) {failure : Option Server.Failure}
    (h : ∀ w ∈ (s.start processors failure).2.workers,
      some w.port = (s.start processors failure).2.completeport) : s.workers = [] := by
  by_contra hne
  obtain ⟨w, hw, hport⟩ := hs.stranded hne processors failure
  exact hport (h w hw)

/-- A `Stop` that leaves no worker found the workers on one port. -/
theorem port_of_stop {s t : Server} (hstop : s.stop = some t) (h : t.workers = []) :
    ∀ w ∈ s.workers, some w.port = s.completeport := by
  rw [(stop_workers hstop).1, List.filter_eq_nil_iff] at h
  intro w hw
  simpa using h w hw

/-- The workers that a `Stop` leaves are on other ports. -/
theorem nil_of_stop {s t : Server} (hstop : s.stop = some t)
    (h : ∀ w ∈ t.workers, some w.port = t.completeport) : t.workers = [] := by
  obtain ⟨hworkers, hport⟩ := stop_workers hstop
  rw [List.eq_nil_iff_forall_not_mem]
  intro w hw
  have hcurrent := h w hw
  rw [hworkers, List.mem_filter, decide_eq_true_iff] at hw
  exact hw.2 (hcurrent.trans hport)

theorem fresh_gui {m : Message} (hs : g.phase = .shown → g.server.Fresh)
    (h : GuiMove processors g m u) : u.phase = .shown → u.server.Fresh := by
  intro hshown'
  cases h with
  | keep projectid vendorid csvfilepath failure hshown => exact hs hshown
  | start failure u hshown hserver hphase =>
    rw [hserver]
    exact (hs hshown).start processors failure
  | stop u hshown hstop hphase => exact (hs hshown).stop hstop
  | restart projectid vendorid csvfilepath failure server u hshown hstop hserver hphase =>
    rw [hserver]
    exact ((hs hshown).stop hstop).start processors failure
  | close u hshown hstop hphase =>
    rw [hphase] at hshown'
    cases hshown'
  | destroy u hclosed hworkers hport hphase =>
    rw [hphase] at hshown'
    cases hshown'

theorem fresh_step {e : Event} (hs : s.gui.phase = .shown → s.gui.server.Fresh)
    (h : MFCAPP.step processors s e = some t) : t.gui.phase = .shown → t.gui.server.Fresh := by
  cases step_move h with
  | gui m gui hphase hm hgui => exact fresh_gui hs hgui
  | destroy gui servers hphase hgui hserver => exact fresh_gui hs hgui
  | enter hphase hshown =>
    intro h
    cases h
  | startUp filelog heapmutex winInit filelogs heapmutexes hphase hlog hmutex => exact hs
  | refuse username passwd server hphase hempty => exact hs
  | login username passwd server servers hphase husername hpasswd hserver => exact hs
  | closeLogin hphase => exact hs
  | deleteMutex heapmutexes hphase hmutex => exact hs
  | deleteLog filelogs hphase hlog => exact hs

/-- **What cannot be undone.** A message that leaves the dialog tidy was fine and found it tidy:
workers of another port are never ended, and neither are those of a closed dialog. -/
theorem tidy_of_gui {m : Message} (hs : s.gui.phase = .shown → s.gui.server.Fresh)
    (h : GuiMove processors s.gui m u) (ht : Tidy { s with gui := u }) :
    Tidy s ∧ Fine s (.gui m) := by
  cases h with
  | keep projectid vendorid csvfilepath failure hshown => exact ⟨ht, trivial⟩
  | start failure u hshown hserver hphase =>
    have hport := ht.port
    change ∀ w ∈ u.server.workers, some w.port = u.server.completeport at hport
    rw [hserver] at hport
    have hnil := workers_of_start (hs hshown) hport
    refine ⟨⟨?_, fun _ => hnil⟩, hnil⟩
    simp [hnil]
  | stop u hshown hstop hphase =>
    refine ⟨⟨port_of_stop hstop (nil_of_stop hstop ht.port), fun hne => absurd hshown hne⟩, trivial⟩
  | restart projectid vendorid csvfilepath failure server u hshown hstop hserver hphase =>
    have hport := ht.port
    change ∀ w ∈ u.server.workers, some w.port = u.server.completeport at hport
    rw [hserver] at hport
    have hnil := workers_of_start ((hs hshown).stop hstop) hport
    exact ⟨⟨port_of_stop hstop hnil, fun hne => absurd hshown hne⟩, trivial⟩
  | close u hshown hstop hphase =>
    have hnil : u.server.workers = [] := ht.closed (by rw [hphase]; intro h; cases h)
    exact ⟨⟨port_of_stop hstop hnil, fun hne => absurd hshown hne⟩, trivial⟩
  | destroy u hclosed hworkers hport hphase =>
    have hnil : u.server.workers = [] := ht.closed (by rw [hphase]; intro h; cases h)
    rw [hworkers] at hnil
    refine ⟨⟨?_, fun _ => hnil⟩, trivial⟩
    simp [hnil]

theorem tidy_of_step {e : Event} (hs : s.gui.phase = .shown → s.gui.server.Fresh)
    (h : MFCAPP.step processors s e = some t) (ht : Tidy t) : Tidy s ∧ Fine s e := by
  have hkeep : t.gui = s.gui → Tidy s := by
    intro hgui
    constructor
    · rw [← hgui]
      exact ht.port
    · rw [← hgui]
      exact ht.closed
  cases step_move h with
  | gui m gui hphase hm hgui => exact tidy_of_gui hs hgui ht
  | destroy gui servers hphase hgui hserver => exact tidy_of_gui hs hgui ⟨ht.port, ht.closed⟩
  | enter hphase hshown =>
    have hnil : s.gui.server.workers = [] := ht.closed (fun h => by cases h)
    exact ⟨⟨ht.port, fun _ => hnil⟩, hnil⟩
  | startUp filelog heapmutex winInit filelogs heapmutexes hphase hlog hmutex =>
    exact ⟨hkeep rfl, trivial⟩
  | refuse username passwd server hphase hempty => exact ⟨ht, trivial⟩
  | login username passwd server servers hphase husername hpasswd hserver =>
    exact ⟨hkeep rfl, trivial⟩
  | closeLogin hphase => exact ⟨hkeep rfl, trivial⟩
  | deleteMutex heapmutexes hphase hmutex => exact ⟨hkeep rfl, trivial⟩
  | deleteLog filelogs hphase hlog => exact ⟨hkeep rfl, trivial⟩

/-- When a session is tidy. -/
theorem tidy_iff {events : List Event} (h : exec (step processors) .init events = some s) :
    Tidy s ↔ Along (step processors) Fine .init events := by
  have hfresh : s.gui.phase = .shown → s.gui.server.Fresh :=
    @invariant_always _ _ _ (fun s : Session => s.gui.phase = .shown → s.gui.server.Fresh)
      (fun _ _ _ hs hstep => fresh_step hs hstep) _ _ _ (fun _ => Server.fresh_new) h
  have hiff := @good_iff_along _ _ (step processors) Inv
    (fun s => (s.gui.phase = .shown → s.gui.server.Fresh) → Tidy s) (fun _ _ => True) Fine
    (fun _ _ _ hs _ hfine hstep => hs.step hfine hstep) (fun _ hs _ => hs.toTidy)
    (fun _ _ _ hs _ hstep ht => (tidy_of_step hs.fresh hstep (ht (fresh_step hs.fresh hstep))).2)
    (fun _ _ _ hstep ht hs => (tidy_of_step hs hstep (ht (fresh_step hs hstep))).1) _ _ _ inv_init
    (along_of_forall fun _ _ => trivial) h
  exact ⟨fun ht => hiff.mp fun _ => ht, fun hall => hiff.mpr hall hfresh⟩

theorem inv_of_along {events : List Event} (h : exec (step processors) .init events = some s)
    (hall : Along (step processors) Fine .init events) : Inv s :=
  invariant (fun _ _ _ hs hfine hstep => hs.step hfine hstep) inv_init hall h

theorem live_of_exec {events : List Event} (h : exec (step processors) .init events = some s) :
    Live s :=
  invariant_always (fun _ _ _ hs hstep => hs.step hstep) live_init h

/-- **When the workers end with the dialog.** Once the main thread has left its dialogs the server
is deleted, and no worker runs on it exactly when the server was started, and the dialog closed with
Enter, only while no worker ran. -/
theorem workers_end_iff (processors : ℕ) (events : List Event) {s : Session}
    (h : exec (step processors) .init events = some s)
    (hleft : s.phase ∈ [.left, .mutexDeleted, .returned]) :
    s.servers = .empty ∧
      (s.gui.server.workers = [] ↔ Along (step processors) Fine .init events) := by
  have hne : s.phase ≠ .maingui := by
    intro hphase
    simp [hphase] at hleft
  refine ⟨(live_of_exec h).noServer hne, fun hnil => ?_, fun hall => ?_⟩
  · refine (tidy_iff h).mp ⟨?_, fun _ => hnil⟩
    simp [hnil]
  · have hs := inv_of_along h hall
    by_cases hshown : s.gui.phase = .shown
    · rw [hs.new hne hshown]
      rfl
    · exact hs.closed hshown

/-- **Whose pointers the main thread follows.** Wherever it calls `GetSingletonInstance` of a class,
it gets the object it made, which is alive; and in the sessions of `workers_end_iff` the workers run
only where all three classes have theirs. -/
theorem singletons_live (processors : ℕ) (events : List Event) {s : Session}
    (h : exec (step processors) .init events = some s) :
    (s.phase ∈ [.login, .maingui, .left, .mutexDeleted] → s.filelogs = .alone s.filelog) ∧
      (s.phase ∈ [.login, .maingui, .left] → s.heapmutexes = .alone s.heapmutex) ∧
      (s.phase = .maingui → s.servers = .alone s.server) ∧
      (Along (step processors) Fine .init events → s.gui.server.workers ≠ [] →
        s.phase = .maingui) := by
  have hlive := live_of_exec h
  refine ⟨hlive.filelogs, hlive.heapmutexes, hlive.servers, fun hall hworkers => ?_⟩
  have hs := inv_of_along h hall
  by_contra hne
  by_cases hshown : s.gui.phase = .shown
  · rw [hs.new hne hshown] at hworkers
    exact hworkers rfl
  · exact hworkers (hs.closed hshown)

/-- **No `Stop` hangs** in such a session. It waits for the threads that run, and each of them waits
on the port that the close packets go to. So in the machine of the server, once `Stop` waits with
its packets posted, the threads take a bounded number of steps; and as long as no io is deleted that
an operation refers to, one of them goes on until `Stop` has returned, when no thread runs. -/
theorem stop_returns (processors : ℕ) (events : List Event) {s : Session}
    (h : exec (step processors) .init events = some s)
    (hall : Along (step processors) Fine .init events) :
    (∀ w ∈ s.gui.server.workers,
      w.thread ∈ s.gui.server.threadhandle ∧ some w.port = s.gui.server.completeport) ∧
    ∀ run more t u,
      Along IOCPServer.step IOCPServer.PostsClose (IOCPServer.machine s.gui.server) run →
      exec IOCPServer.step (IOCPServer.machine s.gui.server) run = some t → t.main = .waiting →
      Along IOCPServer.step IOCPServer.RemovesUnused (IOCPServer.machine s.gui.server)
        (run ++ more) →
      exec IOCPServer.step t more = some u →
      more.countP IOCPServer.Action.byThread ≤
          11 * t.shared.queue.length + 10 * t.workers.length + 1 ∧
        (u.main = .stopped ∧ IOCPServer.running s.gui.server u = [] ∨ u.Lively) := by
  have hs := inv_of_along h hall
  refine ⟨fun w hw => ⟨?_, hs.port w hw⟩, fun run more t u hposts hrun hmain hremoves hmore => ?_⟩
  · rcases hs.waited with hnil | hthreads
    · rw [hnil] at hw
      cases hw
    · rw [← hthreads]
      exact List.mem_map_of_mem hw
  · have ht := IOCPServer.stopping_of_exec hposts hrun hmain
    have hu : u.Stopping := invariant_always (fun _ _ _ => IOCPServer.State.Stopping.step) ht hmore
    refine ⟨ht.countP_le hmore, (ht.lively_after hrun hremoves hmore).imp_left fun hstopped => ?_⟩
    refine ⟨hstopped, ?_⟩
    rw [IOCPServer.running_of_stopped s.gui.server hu.handshake hstopped, List.filter_eq_nil_iff]
    intro w hw
    simp [hs.port w hw]

/-- The main dialog with the server started. -/
def running : List Event :=
  [.startUp 16 32 true, .login "admin".toList "secret".toList 48, .gui (.start none)]

/-- The Enter key leaves the workers on a deleted server. -/
theorem workers_end_iff_enter :
    ∃ s, exec (step 2) .init (running ++ [.enter, .gui .destroy, .deleteMutex, .deleteLog]) =
        some s ∧ s.servers = .empty ∧ ¬ s.gui.server.workers = [] := by
  refine ⟨_, rfl, ?_⟩
  have h := workers_end_iff 2 (running ++ [.enter, .gui .destroy, .deleteMutex, .deleteLog]) rfl
    (by decide)
  exact ⟨h.1, fun hnil => absurd (h.2.mp hnil) (by decide)⟩

theorem singletons_live_running :
    ∃ s, exec (step 2) .init running = some s ∧ s.servers = .alone s.server :=
  ⟨_, rfl, (singletons_live 2 running rfl).2.2.1 rfl⟩

/-- `Stop` is called on that server, and its last worker ends. -/
theorem stop_returns_running :
    ∃ s, exec (step 2) .init running = some s ∧ ∃ t u,
      exec IOCPServer.step (IOCPServer.machine s.gui.server) IOCPServer.waitingRun = some t ∧
      exec IOCPServer.step t [.worker 1 (.fine 0), .worker 0 (.fine 0), .main (.fine 0)] = some u ∧
      (u.main = .stopped ∧ IOCPServer.running s.gui.server u = [] ∨ u.Lively) := by
  obtain ⟨s, hs⟩ : ∃ s, exec (step 2) .init running = some s := ⟨_, rfl⟩
  have hall : Along (step 2) Fine .init running := by decide
  have hworkers : ∀ s ∈ exec (step 2) .init running,
      (IOCPServer.onPort s.gui.server).length = 2 := by decide
  have hmachine : IOCPServer.machine s.gui.server = IOCPServer.init 2 := by
    rw [IOCPServer.machine, hworkers s hs]
  have hends : ∀ t ∈ exec IOCPServer.step (IOCPServer.init 2) IOCPServer.waitingRun,
      t.main = .waiting ∧ (exec IOCPServer.step t
        [.worker 1 (.fine 0), .worker 0 (.fine 0), .main (.fine 0)]).isSome := by decide +kernel
  obtain ⟨t, ht⟩ : ∃ t, exec IOCPServer.step (IOCPServer.init 2) IOCPServer.waitingRun = some t :=
    Option.isSome_iff_exists.mp (by decide +kernel)
  obtain ⟨hmain, hsome⟩ := hends t ht
  obtain ⟨u, hu⟩ := Option.isSome_iff_exists.mp hsome
  have hposts : Along IOCPServer.step IOCPServer.PostsClose (IOCPServer.init 2)
      IOCPServer.waitingRun := by decide +kernel
  have hremoves : Along IOCPServer.step IOCPServer.RemovesUnused (IOCPServer.init 2)
      (IOCPServer.waitingRun ++ [.worker 1 (.fine 0), .worker 0 (.fine 0), .main (.fine 0)]) := by
    decide +kernel
  rw [← hmachine] at ht hposts hremoves
  exact ⟨s, hs, t, u, ht, hu,
    ((stop_returns 2 running hs hall).2 _ _ t u hposts ht hmain hremoves hu).2⟩

end AMSServer.MFCAPP
