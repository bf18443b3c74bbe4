import AMSServer.Foundations.Effects
import AMSServer.Foundations.Fields

/-!
# `HttpData`

The class `HttpData` (`HttpData.h`, `HttpData.cpp`): the buffers it allocates, the parser of the
query string a client sends after `?`, and the builders of the payload sent back. `BuildPayLoad`
calls builders that a derived class may override; they are a parameter here (`Builders`), and
`HttpData.builders` are those of the class itself.

A method returns the object it leaves, together with its `BOOL` when it has one. It is written once,
for what becomes of the lines that it hands to `AMS_DBUG` (`Effects`); the methods of the code are
those with `amsDbugLog` for the log (`Event.code`). That may fail: the buffer a line is formatted in
is not told its size. Only a line with a text as long as the client makes it can be too long
(`LineFits`).
-/

namespace AMSServer

open CRuntime Fields

/-! ## Sizes -/

def recvBufferLength : ℕ := 1024
def payloadBufferLength : ℕ := 1024
def projectidLength : ℕ := 8
def vendoridLength : ℕ := 8
def stbidLength : ℕ := 32
def chipidLength : ℕ := 32
def macLength : ℕ := 12

instance : NeZero recvBufferLength := ⟨by decide⟩
instance : NeZero payloadBufferLength := ⟨by decide⟩

/-! ## The log -/

/-- The length of the buffer for one log line. -/
def oneLogLen : ℕ := 1000

/-- `AMS_DBUG_LOG`, given the formatted line. `vsprintf_s` is told the length of the line, so a line
that does not fit is not refused. -/
def amsDbugLog (line : Text) : Except Fault Unit := do
  let printbytes := 1 + line.length
  let _templog ← CBuf.sprintfS oneLogLen printbytes line
  return ()

theorem amsDbugLog_of_lt {line : Text} (h : line.length < oneLogLen) :
    amsDbugLog line = .ok () := by
  have hlen : (cstr line).length < oneLogLen := (length_cstr_le line).trans_lt h
  rw [amsDbugLog, CBuf.sprintfS, if_pos (by have := length_cstr_le line; omega), CBuf.store,
    dif_pos hlen]
  rfl

/-- A line as long as the buffer is written past it. -/
theorem amsDbugLog_of_le {line : Text} (hnul : nul ∉ line) (h : oneLogLen ≤ line.length) :
    amsDbugLog line = .error .overrun := by
  rw [amsDbugLog, CBuf.sprintfS, if_pos (by have := length_cstr_le line; omega), CBuf.store,
    dif_neg (by rw [cstr_of_notMem hnul]; omega)]
  rfl

/-- The size that `AMS_DBUG_LOG` tells for a line is no more than its buffer has. -/
def LineFits (line : Text) : Prop := 1 + line.length ≤ oneLogLen

instance (line : Text) : Decidable (LineFits line) := inferInstanceAs (Decidable (_ ≤ _))

theorem LineFits.amsDbugLog {line : Text} (h : LineFits line) : amsDbugLog line = .ok () :=
  amsDbugLog_of_lt (by rw [LineFits] at h; omega)

/-- The texts that stand around a value in a line are short. -/
theorem lineFits_append {before value after : Text} (h : value.length ≤ 900)
    (hbefore : before.length ≤ 45) (hafter : after.length ≤ 45) :
    LineFits (before ++ value ++ after) := by
  rw [LineFits, oneLogLen, List.length_append, List.length_append]
  omega

/-! ## Flags and error codes -/

/-- `HttpData::SendFlag`: how the payload is built. -/
inductive SendFlag
  | kErrorFlag
  | kQueryAuthState
  | kQueryAuthSum
  | kQueryActivateState
  | kQueryActivateSum
  | kActivateSucceed
  | kActivateFailed
  | kNullFlag
  deriving DecidableEq

/-- The value of a flag: the enumerators count from 0. -/
def SendFlag.toNat : SendFlag → ℕ
  | kErrorFlag => 0
  | kQueryAuthState => 1
  | kQueryAuthSum => 2
  | kQueryActivateState => 3
  | kQueryActivateSum => 4
  | kActivateSucceed => 5
  | kActivateFailed => 6
  | kNullFlag => 7

/-- `HttpData::Errorcode` -/
inductive Errorcode
  | kNoField
  | kQueryLenIsWrong
  | kQueryNumberUndefine
  | kNoProjectID
  | kProjectIDIsWrong
  | kNoVendorID
  | kVendorIDIsWrong
  | kProjectIDTooLong
  | kVendorIDTooLong
  | kSTBIDTooLong
  | kChipIDTooLong
  | kMACLenIsWrong
  | kNullError
  deriving DecidableEq

/-- The value of an enumerator: the first one is declared as 1. -/
def Errorcode.toNat : Errorcode → ℕ
  | kNoField => 1
  | kQueryLenIsWrong => 2
  | kQueryNumberUndefine => 3
  | kNoProjectID => 4
  | kProjectIDIsWrong => 5
  | kNoVendorID => 6
  | kVendorIDIsWrong => 7
  | kProjectIDTooLong => 8
  | kVendorIDTooLong => 9
  | kSTBIDTooLong => 10
  | kChipIDTooLong => 11
  | kMACLenIsWrong => 12
  | kNullError => 13

/-- `HttpData::ErrorContext`, with `none` for `NULL` -/
def errorContext : List (Option String) :=
  [none, "NoField", "QueryLenIsWrong", "QueryNumberUndefine", "NoProjectID", "ProjectIDIsWrong",
    "NoVendorID", "VendorIDIsWrong", "ProjectIDTooLong", "VendorIDTooLong", "STBIDTooLong",
    "ChipIDTooLong", "MACLenIsWrong", none]

/-! ## The object -/

/-- The members of `HttpData`. -/
structure HttpData where
  recvdatabuf : CBuf recvBufferLength
  payloadbuf : CBuf payloadBufferLength
  sendflag : SendFlag
  errorcode : Errorcode
  projectid : CBuf (projectidLength + 1)
  vendorid : CBuf (vendoridLength + 1)
  stbid : CBuf (stbidLength + 1)
  chipid : CBuf (chipidLength + 1)
  macaddr : CBuf (macLength + 1)

namespace HttpData

/-- The object with all buffers cleared but the received text. -/
def ofRecv (recvdatabuf : CBuf recvBufferLength) : HttpData where
  recvdatabuf := recvdatabuf
  payloadbuf := CBuf.empty
  sendflag := .kNullFlag
  errorcode := .kNullError
  projectid := CBuf.empty
  vendorid := CBuf.empty
  stbid := CBuf.empty
  chipid := CBuf.empty
  macaddr := CBuf.empty

/-- `HttpData::HttpData` -/
def new (comedata : Text) : Except Fault HttpData := do
  let recvdatabuf ← CBuf.strncpyS recvBufferLength recvBufferLength comedata
    (cstr comedata).length
  return ofRecv recvdatabuf

/-- Leave an error for the payload. -/
def setError (h : HttpData) (e : Errorcode) : HttpData :=
  { h with sendflag := .kErrorFlag, errorcode := e }

def setProjectid (h : HttpData) (b : CBuf (projectidLength + 1)) := { h with projectid := b }
def setVendorid (h : HttpData) (b : CBuf (vendoridLength + 1)) := { h with vendorid := b }
def setStbid (h : HttpData) (b : CBuf (stbidLength + 1)) := { h with stbid := b }
def setChipid (h : HttpData) (b : CBuf (chipidLength + 1)) := { h with chipid := b }
def setMacaddr (h : HttpData) (b : CBuf (macLength + 1)) := { h with macaddr := b }

/-! ## Output -/

/-- What a method puts out on its way. -/
inductive Event
  /-- `AMS_DBUG`, given the formatted line -/
  | dbug (line : Text)
  /-- `ParseItem` has read a value into the cleared `tmp`; nothing is put out. -/
  | item (location value : Text)

/-- An event in the code: a line is written to the log. -/
def Event.write : Event → Except Fault Unit
  | dbug line => amsDbugLog line
  | item _ _ => .ok ()

/-- The output of the code. -/
def Event.code : Effects Event Fault (Except Fault) := .writing Event.write

/-! ## The parser -/

section

variable {m : Type → Type} [Monad m] (E : Effects Event Fault m)

/-- `AMS_DBUG`, given the formatted line -/
def dbug (line : Text) : m Unit := E.emit (.dbug line)

/-- `HttpData::ParseItem`: the value after `location` in the received text, which leaves
`itemvalue` unchanged when nothing stands before the next `&`. -/
def parseItemWith (h : HttpData) (itemvalue : CBuf recvBufferLength) (location : Text) :
    m (CBuf recvBufferLength) :=
  match strstr h.recvdatabuf.text location with
  | none => return CBuf.empty
  | some bufpointer => do
    let itemvalue ← E.lift (itemvalue.scanInto (between '=' '&') bufpointer)
    dbug E (location ++ itemvalue.text ++ "\n".toList)
    return itemvalue

/-- One item of `ParseQueryAuth`: read it into the cleared `tmp` and copy it into its member of
`len + 1` bytes, unless its length is refused (`none`). -/
def readMemberWith (h : HttpData) (len : ℕ) (location : String) (refused : ℕ → Prop)
    [DecidablePred refused] (refusal : String) : m (Option (CBuf (len + 1))) := do
  let tmp ← h.parseItemWith E CBuf.empty location.toList
  E.emit (.item location.toList tmp.text)
  if refused tmp.text.length then
    dbug E refusal.toList
    return none
  let member ← E.lift (CBuf.strncpyS (len + 1) (len + 1) tmp.text tmp.text.length)
  dbug E (location.toList ++ member.text ++ "\n".toList)
  return some member

/-- `HttpData::ParseQueryAuth` -/
def parseQueryAuthWith (h : HttpData) : m HttpData := do
  let some projectid ← h.readMemberWith E projectidLength "ProjectID=" (8 < ·)
      "ProjectID len is longer than 8\n"
    | return h.setError .kProjectIDTooLong
  let h := h.setProjectid projectid
  if projectid.text.length = 0 then
    dbug E "No ProjectID context\n".toList
    return h.setError .kNoProjectID
  let some vendorid ← h.readMemberWith E vendoridLength "VendorID=" (8 < ·)
      "VendorID len is longer than 8\n"
    | return h.setError .kVendorIDTooLong
  let h := h.setVendorid vendorid
  if vendorid.text.length = 0 then
    dbug E "No VendorID context\n".toList
    return h.setError .kNoVendorID
  let some stbid ← h.readMemberWith E stbidLength "STBID=" (32 < ·) "STBID len is longer than 32\n"
    | return h.setError .kSTBIDTooLong
  let h := h.setStbid stbid
  let some chipid ← h.readMemberWith E chipidLength "ChipID=" (32 < ·)
      "ChipID len is longer than 32\n"
    | return h.setError .kChipIDTooLong
  let h := h.setChipid chipid
  let some macaddr ← h.readMemberWith E macLength "MAC=" (fun n => 12 ≠ n ∧ 0 ≠ n)
      "MAC len is not 12\n"
    | return h.setError .kMACLenIsWrong
  let h := h.setMacaddr macaddr
  if stbid.text.length = 0 ∧ chipid.text.length = 0 ∧ macaddr.text.length = 0 then
    dbug E "client want the Auth sum\n".toList
    return { h with sendflag := .kQueryAuthSum }
  return { h with sendflag := .kQueryAuthState }

/-- `HttpData::ParseQueryActivate`, which does nothing -/
def parseQueryActivate (h : HttpData) : HttpData := h

/-- `HttpData::ParseActivate`, which does nothing -/
def parseActivate (h : HttpData) : HttpData := h

/-- `HttpData::ParseQuery` -/
def parseQueryWith (h : HttpData) : m HttpData := do
  let empty : CBuf recvBufferLength := CBuf.empty
  let querytype ← E.lift (empty.scanInto (between '=' '&') h.recvdatabuf.text)
  dbug E ("Query=".toList ++ querytype.text ++ "\n".toList)
  if 1 ≠ querytype.text.length then
    dbug E ("sendflag=0x".toList ++ Nat.toDigits 16 SendFlag.kErrorFlag.toNat ++ "\n".toList)
    return h.setError .kQueryLenIsWrong
  if querytype.text = "0".toList then
    dbug E "querytype=0\n".toList
    h.parseQueryAuthWith E
  else if querytype.text = "1".toList then
    dbug E "querytype=1\n".toList
    return h.parseQueryActivate
  else
    dbug E "querytype is undefined\n".toList
    return h.setError .kQueryNumberUndefine

/-- `HttpData::ParseRecvBuf` -/
def parseRecvBufWith (h : HttpData) : m HttpData := do
  if strnicmpEq h.recvdatabuf.text "Query=".toList "Query=".length then
    dbug E "get \"Query=\" in \"GET\" context\n".toList
    h.parseQueryWith E
  else if strnicmpEq h.recvdatabuf.text "Activate=".toList "Activate=".length then
    dbug E "get \"Activate=\" in \"GET\" context\n".toList
    return h.parseActivate
  else
    dbug E ("the client did not send the \"Query=\" or \"Activate=\" string".toList ++
      ", I don't know what the client want\n".toList)
    return h.setError .kNoField

end

/-- `ParseItem` of the code -/
def parseItem (h : HttpData) (itemvalue : CBuf recvBufferLength) (location : Text) :
    Except Fault (CBuf recvBufferLength) :=
  h.parseItemWith Event.code itemvalue location

/-- `ParseQueryAuth` of the code -/
def parseQueryAuth (h : HttpData) : Except Fault HttpData := h.parseQueryAuthWith Event.code

/-- `ParseQuery` of the code -/
def parseQuery (h : HttpData) : Except Fault HttpData := h.parseQueryWith Event.code

/-- `ParseRecvBuf` of the code -/
def parseRecvBuf (h : HttpData) : Except Fault HttpData := h.parseRecvBufWith Event.code

/-! ## The builders -/

/-- `strcat_s(payloadbuf, PAYLOAD_BUFFER_LENGTH, t)` -/
def append (h : HttpData) (t : Text) : Except Fault HttpData := do
  let payloadbuf ← h.payloadbuf.strcatS payloadBufferLength t
  return { h with payloadbuf }

/-- The builders that a derived class may override. -/
structure Builders (m : Type → Type) where
  buildQueryActivateSumPayLoad : HttpData → m (Bool × HttpData)
  buildQueryActivatePayLoadByStbId : HttpData → m (Bool × HttpData)
  buildQueryActivatePayLoadByChipId : HttpData → m (Bool × HttpData)
  buildQueryActivatePayLoadByMac : HttpData → m (Bool × HttpData)
  buildQueryAuthSumPayLoad : HttpData → m (Bool × HttpData)
  buildQueryAuthPayLoadByStbId : HttpData → m (Bool × HttpData)
  buildQueryAuthPayLoadByChipId : HttpData → m (Bool × HttpData)
  buildQueryAuthPayLoadByMac : HttpData → m (Bool × HttpData)

section

variable {m : Type → Type} [Monad m] (E : Effects Event Fault m)

/-- `HttpData::BuildErrorPayLoad` -/
def buildErrorPayLoadWith (h : HttpData) : m (Bool × HttpData) := do
  if h.errorcode = .kNullError then
    dbug E "Wrong Error value after parse recv buf\n".toList
    return (false, h)
  let h ← E.lift (h.append "ErrorCode=".toList)
  match errorContext[h.errorcode.toNat]? with
  | some (some name) => return (true, ← E.lift (h.append name.toList))
  | some none => E.lift (throw .invalidParameter)
  | none => E.lift (throw .overrun)

/-- A builder that appends a fixed text. -/
def appendBuilder (t : String) (h : HttpData) : m (Bool × HttpData) := do
  return (true, ← E.lift (h.append t.toList))

/-- The builders of `HttpData` itself. -/
def builders : Builders m where
  buildQueryActivateSumPayLoad := appendBuilder E "ActivateSum=0"
  buildQueryActivatePayLoadByStbId := appendBuilder E "ActivateState=StbId"
  buildQueryActivatePayLoadByChipId := appendBuilder E "ActivateState=ChipId"
  buildQueryActivatePayLoadByMac := appendBuilder E "ActivateState=Mac"
  buildQueryAuthSumPayLoad := appendBuilder E "AuthSum=0"
  buildQueryAuthPayLoadByStbId := appendBuilder E "AuthState=StbId"
  buildQueryAuthPayLoadByChipId := appendBuilder E "AuthState=ChipId"
  buildQueryAuthPayLoadByMac := appendBuilder E "AuthState=Mac"

/-- A method that is called, with the line for `FALSE`. -/
def orFailed (build : m (Bool × HttpData)) (failure : String) : m (Bool × HttpData) := do
  let (ok, h) ← build
  if ok = false then
    dbug E failure.toList
    return (false, h)
  return (true, h)

/-- A builder that is called for an identifier that the client has sent. -/
def buildSent (sent : String) (build : m (Bool × HttpData)) (failure : String) :
    m (Bool × HttpData) := do
  dbug E sent.toList
  orFailed E build failure

variable (b : Builders m)

/-- `HttpData::BuildQueryActivateStatePayLoad`: unlike the other state builder it goes on to the
next identifier after each one that was sent. -/
def buildQueryActivateStatePayLoadWith (h : HttpData) : m (Bool × HttpData) := do
  let (ok, h) ← if h.stbid.text.length ≠ 0 then
      buildSent E "client has sent the STBID\n" (b.buildQueryActivatePayLoadByStbId h)
        "failed in BuildQueryActivatePayLoadByStbId\n"
    else pure (true, h)
  if ok = false then
    return (false, h)
  let (ok, h) ← if h.chipid.text.length ≠ 0 then
      buildSent E "client has sent the ChipID\n" (b.buildQueryActivatePayLoadByChipId h)
        "failed in BuildQueryActivatePayLoadByChipId\n"
    else pure (true, h)
  if ok = false then
    return (false, h)
  let (ok, h) ← if h.macaddr.text.length ≠ 0 then
      buildSent E "client has sent the MAC\n" (b.buildQueryActivatePayLoadByMac h)
        "failed in BuildQueryActivatePayLoadByMac\n"
    else pure (true, h)
  if ok = false then
    return (false, h)
  dbug E "BuildQueryActivateStatePayLoad complete\n".toList
  return (true, h)

/-- `HttpData::BuildQueryAuthStatePayLoad` -/
def buildQueryAuthStatePayLoadWith (h : HttpData) : m (Bool × HttpData) := do
  if h.stbid.text.length ≠ 0 then
    buildSent E "client has sent the STBID\n" (b.buildQueryAuthPayLoadByStbId h)
      "failed in BuildQueryAuthPayLoadByStbId\n"
  else if h.chipid.text.length ≠ 0 then
    buildSent E "client has sent the ChipID\n" (b.buildQueryAuthPayLoadByChipId h)
      "failed in BuildQueryAuthPayLoadByChipId\n"
  else if h.macaddr.text.length ≠ 0 then
    buildSent E "client has sent the MAC\n" (b.buildQueryAuthPayLoadByMac h)
      "failed in BuildQueryAuthPayLoadByMac\n"
  else
    dbug E "client send no STBID, ChipID and MAC, this line shouldn't show up\n".toList
    return (false, h)

/-- `HttpData::BuildPayLoad` -/
def buildPayLoadWith (h : HttpData) : m (Bool × HttpData) :=
  match h.sendflag with
  | .kErrorFlag => orFailed E (h.buildErrorPayLoadWith E) "failed in BuildErrorPayLoad\n"
  | .kQueryAuthState =>
    orFailed E (buildQueryAuthStatePayLoadWith E b h) "failed in BuildQueryAuthStatePayLoad\n"
  | .kQueryAuthSum =>
    orFailed E (b.buildQueryAuthSumPayLoad h) "failed in BuildQueryAuthSumPayLoad\n"
  | .kQueryActivateState =>
    orFailed E (buildQueryActivateStatePayLoadWith E b h) "failed in BuildQueryActivatePayLoad\n"
  | .kQueryActivateSum =>
    orFailed E (b.buildQueryActivateSumPayLoad h) "failed in BuildQueryActivateSumPayLoad\n"
  | .kActivateSucceed => return (true, h)
  | .kActivateFailed => return (true, h)
  | .kNullFlag => do
    dbug E "Wrong SendFlag value after parse recv buf\n".toList
    return (false, h)

/-- `HttpData::HandleHttpData` -/
def handleHttpDataWith (h : HttpData) : m (Bool × HttpData) := do
  let h ← h.parseRecvBufWith E
  orFailed E (buildPayLoadWith E (builders E) h) "failed in BuildPayLoad\n"

end

/-- `BuildErrorPayLoad` of the code -/
def buildErrorPayLoad (h : HttpData) : Except Fault (Bool × HttpData) :=
  h.buildErrorPayLoadWith Event.code

/-- `BuildPayLoad` of the code -/
def buildPayLoad (b : Builders (Except Fault)) (h : HttpData) : Except Fault (Bool × HttpData) :=
  buildPayLoadWith Event.code b h

/-- `HandleHttpData` of the code -/
def handleHttpData (h : HttpData) : Except Fault (Bool × HttpData) :=
  h.handleHttpDataWith Event.code

/-- `new HttpData(comedata)`, then `HandleHttpData` and `GetPayLoadBuf` -/
def answer (comedata : Text) : Except Fault (Bool × CBuf payloadBufferLength) := do
  let h ← new comedata
  let (ok, h) ← h.handleHttpData
  return (ok, h.payloadbuf)

/-! ## Lines that fit -/

/-- Nothing fails to be put out but a line that does not fit. -/
structure Accepts (write : Event → Except Fault Unit) : Prop where
  line : ∀ {line : Text}, LineFits line → write (.dbug line) = .ok ()
  item : ∀ location value : Text, write (.item location value) = .ok ()

theorem accepts_write : Accepts Event.write := ⟨fun h => h.amsDbugLog, fun _ _ => rfl⟩

namespace Accepts

variable {write : Event → Except Fault Unit} (hw : Accepts write)

include hw

/-- A line that fits makes no difference. -/
theorem dbug_bind {α : Type} {line : Text} (h : LineFits line) (f : Unit → Except Fault α) :
    (dbug (.writing write) line >>= f) = f () := by
  rw [dbug, Effects.writing_emit, hw.line h, ok_bind]

theorem orFailed_eq {build : Except Fault (Bool × HttpData)} {failure : String}
    (h : LineFits failure.toList) : orFailed (.writing write) build failure = build := by
  cases build with
  | error e => rfl
  | ok r =>
    obtain ⟨ok, s⟩ := r
    rw [orFailed, ok_bind]
    cases ok with
    | false => exact hw.dbug_bind h _
    | true => rfl

theorem buildSent_eq {sent failure : String} {build : Except Fault (Bool × HttpData)}
    (hsent : LineFits sent.toList) (hfailure : LineFits failure.toList) :
    buildSent (.writing write) sent build failure = build := by
  rw [buildSent, hw.dbug_bind hsent, hw.orFailed_eq hfailure]

/-- The builder for the first identifier that was sent. -/
theorem buildQueryAuthStatePayLoad_eq (b : Builders (Except Fault)) (h : HttpData) :
    buildQueryAuthStatePayLoadWith (.writing write) b h =
      if h.stbid.text.length ≠ 0 then b.buildQueryAuthPayLoadByStbId h
      else if h.chipid.text.length ≠ 0 then b.buildQueryAuthPayLoadByChipId h
      else if h.macaddr.text.length ≠ 0 then b.buildQueryAuthPayLoadByMac h
      else .ok (false, h) := by
  simp (disch := decide) only [buildQueryAuthStatePayLoadWith, hw.buildSent_eq, hw.dbug_bind]
  rfl

/-! ### `BuildPayLoad`, by the flag -/

variable (b : Builders (Except Fault)) {h : HttpData}

theorem buildPayLoad_error (hflag : h.sendflag = .kErrorFlag) :
    buildPayLoadWith (.writing write) b h = h.buildErrorPayLoadWith (.writing write) := by
  rw [buildPayLoadWith, hflag]
  exact hw.orFailed_eq (by decide)

theorem buildPayLoad_state (hflag : h.sendflag = .kQueryAuthState) :
    buildPayLoadWith (.writing write) b h =
      buildQueryAuthStatePayLoadWith (.writing write) b h := by
  rw [buildPayLoadWith, hflag]
  exact hw.orFailed_eq (by decide)

theorem buildPayLoad_sum (hflag : h.sendflag = .kQueryAuthSum) :
    buildPayLoadWith (.writing write) b h = b.buildQueryAuthSumPayLoad h := by
  rw [buildPayLoadWith, hflag]
  exact hw.orFailed_eq (by decide)

theorem buildPayLoad_null (hflag : h.sendflag = .kNullFlag) :
    buildPayLoadWith (.writing write) b h = .ok (false, h) := by
  rw [buildPayLoadWith, hflag]
  exact hw.dbug_bind (by decide) _

end Accepts

/-! ### The code -/

variable (b : Builders (Except Fault)) {h : HttpData}

theorem code_lift {α : Type} (y : Except Fault α) : Event.code.lift y = y := rfl

theorem dbug_code (line : Text) : dbug Event.code line = amsDbugLog line := rfl

theorem code_item_bind {α : Type} (location value : Text) (f : Unit → Except Fault α) :
    (Event.code.emit (.item location value) >>= f) = f () := rfl

/-- A line that fits makes no difference. -/
theorem dbug_code_bind {α : Type} {line : Text} (h : LineFits line) (f : Unit → Except Fault α) :
    (dbug Event.code line >>= f) = f () :=
  accepts_write.dbug_bind h f

theorem buildQueryAuthStatePayLoad_eq (h : HttpData) :
    buildQueryAuthStatePayLoadWith Event.code b h =
      if h.stbid.text.length ≠ 0 then b.buildQueryAuthPayLoadByStbId h
      else if h.chipid.text.length ≠ 0 then b.buildQueryAuthPayLoadByChipId h
      else if h.macaddr.text.length ≠ 0 then b.buildQueryAuthPayLoadByMac h
      else .ok (false, h) :=
  accepts_write.buildQueryAuthStatePayLoad_eq b h

theorem buildPayLoad_error (hflag : h.sendflag = .kErrorFlag) :
    buildPayLoad b h = h.buildErrorPayLoad :=
  accepts_write.buildPayLoad_error b hflag

theorem buildPayLoad_state (hflag : h.sendflag = .kQueryAuthState) :
    buildPayLoad b h = buildQueryAuthStatePayLoadWith Event.code b h :=
  accepts_write.buildPayLoad_state b hflag

theorem buildPayLoad_sum (hflag : h.sendflag = .kQueryAuthSum) :
    buildPayLoad b h = b.buildQueryAuthSumPayLoad h :=
  accepts_write.buildPayLoad_sum b hflag

theorem buildPayLoad_null (hflag : h.sendflag = .kNullFlag) : buildPayLoad b h = .ok (false, h) :=
  accepts_write.buildPayLoad_null b hflag

/-- `HandleHttpData` parses and builds. -/
theorem handleHttpData_bind (h : HttpData) :
    h.handleHttpData = h.parseRecvBuf >>= buildPayLoad (builders Event.code) :=
  bind_congr fun _ => accepts_write.orFailed_eq (by decide)

end HttpData

end AMSServer
