import AMSServer.HttpData.Logged

/-!
# The log lines of a short text

`AMS_DBUG_LOG` has a buffer of 1000 characters for a line (`LineFits`). A value that is logged is a
part of the text that was received, and what stands around it is short. So every line that
`HttpData` logs for a text of at most 900 characters fits (`handleHttpDataLogged_writes`).
-/

namespace AMSServer

open CRuntime Fields Logged

/-- After a line that fits the rest decides. -/
theorem writes_amsDbug_bind {α : Type} {line : Text} {f : Unit → Dbug α} (h : LineFits line) :
    Writes LineFits (amsDbug line >>= f) ↔ Writes LineFits (f ()) :=
  writes_bind_ok (Writes.log h) rfl

namespace HttpData

theorem parseItem_writes {h : HttpData} {location : Text}
    (hlen : h.recvdatabuf.text.length ≤ 900) (hlocation : location.length ≤ 45) :
    Writes LineFits (h.parseItemWith Event.logged CBuf.empty location) := by
  unfold parseItemWith
  cases hs : strstr h.recvdatabuf.text location with
  | none => exact Writes.pure _
  | some t =>
    have hsuf := (strstr_eq_some hs).1
    refine (Writes.lift _).bind fun itemvalue hscan => ?_
    have hvalue : itemvalue.text.length ≤ 900 :=
      (CBuf.length_scanInto_le hscan).trans (hsuf.length_le.trans hlen)
    refine (Writes.log ?_).bind fun _ _ => Writes.pure _
    exact lineFits_append hvalue hlocation (by decide)

theorem readMember_writes {h : HttpData} {len : ℕ} {location refusal : String}
    {refused : ℕ → Prop} [DecidablePred refused] (hlen : h.recvdatabuf.text.length ≤ 900)
    (hlocation : location.toList.length ≤ 45) (hmember : len ≤ 45)
    (hrefusal : LineFits refusal.toList) :
    Writes LineFits (h.readMemberWith Event.logged len location refused refusal) := by
  rw [readMemberWith]
  refine (parseItem_writes hlen hlocation).bind fun tmp _ => ?_
  refine (Writes.pure ()).bind fun _ _ => ?_
  split
  · exact (Writes.log hrefusal).bind fun _ _ => Writes.pure _
  · refine (Writes.lift _).bind fun member _ => ?_
    have hlt := member.text_lt
    refine (Writes.log ?_).bind fun _ _ => Writes.pure _
    exact lineFits_append (by omega) hlocation (by decide)

/-- One item, and what follows it. -/
theorem readMember_bind_writes {h : HttpData} {len : ℕ} {location refusal : String}
    {refused : ℕ → Prop} [DecidablePred refused] {f : Option (CBuf (len + 1)) → Dbug HttpData}
    (hlen : h.recvdatabuf.text.length ≤ 900) (hlocation : location.toList.length ≤ 45)
    (hmember : len ≤ 45) (hrefusal : LineFits refusal.toList) (hnone : Writes LineFits (f none))
    (hsome : ∀ member, Writes LineFits (f (some member))) :
    Writes LineFits (h.readMemberWith Event.logged len location refused refusal >>= f) := by
  refine (readMember_writes hlen hlocation hmember hrefusal).bind fun o _ => ?_
  cases o with
  | none => exact hnone
  | some member => exact hsome member

theorem parseQueryAuth_writes {h : HttpData} (hlen : h.recvdatabuf.text.length ≤ 900) :
    Writes LineFits (h.parseQueryAuthWith Event.logged) := by
  rw [parseQueryAuthWith]
  apply readMember_bind_writes (by exact hlen) (by decide) (by decide) (by decide)
  · exact Writes.pure _
  intro projectid
  dsimp only
  split
  · exact (Writes.log (by decide)).bind fun _ _ => Writes.pure _
  apply readMember_bind_writes (by exact hlen) (by decide) (by decide) (by decide)
  · exact Writes.pure _
  intro vendorid
  dsimp only
  split
  · exact (Writes.log (by decide)).bind fun _ _ => Writes.pure _
  apply readMember_bind_writes (by exact hlen) (by decide) (by decide) (by decide)
  · exact Writes.pure _
  intro stbid
  apply readMember_bind_writes (by exact hlen) (by decide) (by decide) (by decide)
  · exact Writes.pure _
  intro chipid
  apply readMember_bind_writes (by exact hlen) (by decide) (by decide) (by decide)
  · exact Writes.pure _
  intro macaddr
  dsimp only
  split
  · exact (Writes.log (by decide)).bind fun _ _ => Writes.pure _
  · exact Writes.pure _

theorem parseQuery_writes {h : HttpData} (hlen : h.recvdatabuf.text.length ≤ 900) :
    Writes LineFits (h.parseQueryWith Event.logged) := by
  rw [parseQueryWith]
  refine (Writes.lift _).bind fun querytype hscan => ?_
  have htype : querytype.text.length ≤ 900 := (CBuf.length_scanInto_le hscan).trans hlen
  refine (Writes.log (lineFits_append htype (by decide) (by decide))).bind fun _ _ => ?_
  split
  · exact (Writes.log (by decide)).bind fun _ _ => Writes.pure _
  split
  · exact (Writes.log (by decide)).bind fun _ _ => parseQueryAuth_writes hlen
  split
  · exact (Writes.log (by decide)).bind fun _ _ => Writes.pure _
  · exact (Writes.log (by decide)).bind fun _ _ => Writes.pure _

/-- **Every line that the parser logs for a short text fits.** -/
theorem parseRecvBufLogged_writes {h : HttpData} (hlen : h.recvdatabuf.text.length ≤ 900) :
    Writes LineFits h.parseRecvBufLogged := by
  rw [parseRecvBufLogged, parseRecvBufWith]
  split
  · exact (Writes.log (by decide)).bind fun _ _ => parseQuery_writes hlen
  split
  · exact (Writes.log (by decide)).bind fun _ _ => Writes.pure _
  · exact (Writes.log (by decide)).bind fun _ _ => Writes.pure _

theorem orFailed_writes {build : Dbug (Bool × HttpData)} {failure : String}
    (hbuild : Writes LineFits build) (hfailure : LineFits failure.toList) :
    Writes LineFits (orFailed Event.logged build failure) := by
  refine hbuild.bind fun r _ => ?_
  obtain ⟨ok, h⟩ := r
  dsimp only
  split
  · exact (Writes.log hfailure).bind fun _ _ => Writes.pure _
  · exact Writes.pure _

theorem appendBuilder_writes (t : String) (h : HttpData) :
    Writes LineFits (appendBuilder Event.logged t h) :=
  (Writes.lift _).bind fun _ _ => Writes.pure _

theorem buildSent_writes {sent failure t : String} {h : HttpData} (hsent : LineFits sent.toList)
    (hfailure : LineFits failure.toList) :
    Writes LineFits (buildSent Event.logged sent (appendBuilder Event.logged t h) failure) :=
  (Writes.log hsent).bind fun _ _ => orFailed_writes (appendBuilder_writes t h) hfailure

/-- A builder that is called if an identifier was sent, and what follows it. -/
theorem ite_buildSent_writes {sent failure t : String} {k : ℕ} {h h' : HttpData}
    {f : Bool × HttpData → Dbug (Bool × HttpData)} (hsent : LineFits sent.toList)
    (hfailure : LineFits failure.toList) (hf : ∀ r, Writes LineFits (f r)) :
    Writes LineFits (if k ≠ 0 then
        buildSent Event.logged sent (appendBuilder Event.logged t h) failure >>= f
      else pure (true, h') >>= f) := by
  split
  · exact (buildSent_writes hsent hfailure).bind fun r _ => hf r
  · exact hf (true, h')

theorem buildErrorPayLoad_writes (h : HttpData) :
    Writes LineFits (h.buildErrorPayLoadWith Event.logged) := by
  rw [buildErrorPayLoadWith]
  split
  · exact (Writes.log (by decide)).bind fun _ _ => Writes.pure _
  refine (Writes.lift _).bind fun h _ => ?_
  split
  · exact (Writes.lift _).bind fun _ _ => Writes.pure _
  · exact Writes.lift _
  · exact Writes.lift _

theorem buildQueryAuthStatePayLoad_writes (h : HttpData) :
    Writes LineFits (buildQueryAuthStatePayLoadWith Event.logged (builders Event.logged) h) := by
  rw [buildQueryAuthStatePayLoadWith]
  split
  · exact buildSent_writes (by decide) (by decide)
  split
  · exact buildSent_writes (by decide) (by decide)
  split
  · exact buildSent_writes (by decide) (by decide)
  · exact (Writes.log (by decide)).bind fun _ _ => Writes.pure _

theorem buildQueryActivateStatePayLoad_writes (h : HttpData) :
    Writes LineFits
      (buildQueryActivateStatePayLoadWith Event.logged (builders Event.logged) h) := by
  rw [buildQueryActivateStatePayLoadWith]
  apply ite_buildSent_writes (by decide) (by decide)
  rintro ⟨ok, h⟩
  dsimp only
  split
  · exact Writes.pure _
  apply ite_buildSent_writes (by decide) (by decide)
  rintro ⟨ok, h⟩
  dsimp only
  split
  · exact Writes.pure _
  apply ite_buildSent_writes (by decide) (by decide)
  rintro ⟨ok, h⟩
  dsimp only
  split
  · exact Writes.pure _
  · exact (Writes.log (by decide)).bind fun _ _ => Writes.pure _

theorem buildPayLoadLogged_writes (h : HttpData) : Writes LineFits h.buildPayLoadLogged := by
  unfold buildPayLoadLogged buildPayLoadWith
  cases h.sendflag with
  | kErrorFlag => exact orFailed_writes h.buildErrorPayLoad_writes (by decide)
  | kQueryAuthState => exact orFailed_writes (buildQueryAuthStatePayLoad_writes h) (by decide)
  | kQueryAuthSum => exact orFailed_writes (appendBuilder_writes _ h) (by decide)
  | kQueryActivateState =>
    exact orFailed_writes (buildQueryActivateStatePayLoad_writes h) (by decide)
  | kQueryActivateSum => exact orFailed_writes (appendBuilder_writes _ h) (by decide)
  | kActivateSucceed => exact Writes.pure _
  | kActivateFailed => exact Writes.pure _
  | kNullFlag => exact (Writes.log (by decide)).bind fun _ _ => Writes.pure _

/-- **Every line that the class logs for a short text fits.** -/
theorem handleHttpDataLogged_writes {h : HttpData} (hlen : h.recvdatabuf.text.length ≤ 900) :
    Writes LineFits h.handleHttpDataLogged :=
  (parseRecvBufLogged_writes hlen).bind fun s _ =>
    orFailed_writes s.buildPayLoadLogged_writes (by decide)

/-- For a short text the log makes no difference. -/
theorem Accepts.handleHttpData_eq {write : Event → Except Fault Unit} (hw : Accepts write)
    {h : HttpData} (hlen : h.recvdatabuf.text.length ≤ 900) :
    h.handleHttpDataWith (.writing write) = h.handleHttpDataLogged.result := by
  let written : Effects.Hom Event.logged (.writing write) :=
    Effects.write Event.log (fun line => write (.dbug line)) fun e => by
      cases e with
      | dbug line => exact run_amsDbug _ line
      | item location value => exact (hw.item location value).symm
  have hmap : h.handleHttpDataLogged.run (fun line => write (.dbug line)) =
      h.handleHttpDataWith (.writing write) := map_handleHttpDataWith written h
  rw [← hmap, run_eq_result fun line h => hw.line (handleHttpDataLogged_writes hlen line h)]

/-- So it is handled as by the code. -/
theorem Accepts.handleHttpData_code {write : Event → Except Fault Unit} (hw : Accepts write)
    {h : HttpData} (hlen : h.recvdatabuf.text.length ≤ 900) :
    h.handleHttpDataWith (.writing write) = h.handleHttpData :=
  (hw.handleHttpData_eq hlen).trans (accepts_write.handleHttpData_eq hlen).symm

end HttpData

end AMSServer
