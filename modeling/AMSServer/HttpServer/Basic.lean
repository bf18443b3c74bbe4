import AMSServer.HttpData.Basic

/-!
# `HttpServer`

The class `HttpServer` (`HttpServer.h`, `HttpServer.cpp`) and the io it works on (`PerIOData.h`,
`PerIOData.cpp`): what a worker does with the bytes of one receive. `doRecv` returns its `BOOL` and
the calls it makes, in order (`Call`). What `WSARecv` and `WSASend` return is an argument
(`SysCalls`): their errors are logged, and the io of a send is deleted only after a success.

The virtual functions `DeriveCheckRecv` and `DeriveBuildSend` do nothing in this class but log that,
and return `TRUE`. As in `HttpData`, a method is written once for what becomes of the lines that it
hands to `AMS_DBUG`, and the methods of the code are those where they are written. Of its own lines
only the one that prints the whole message may be too long (`receiveLine`).
-/

namespace AMSServer

open CRuntime

/-! ## `PerIOData` -/

/-- `BUFFERSIZE` -/
def bufferSize : ℕ := 1500

/-- `PerIOData::OPERATION_TYPE` -/
inductive OperationType
  | acceptPosted
  | recvPosted
  | sendPosted
  | nullPosted
  deriving DecidableEq

/-- The buffer of an io. -/
@[ext] structure IOBuf where
  chars : Text
  length_eq : chars.length = bufferSize
  deriving DecidableEq

namespace IOBuf

/-- Write bytes from the start of the buffer. -/
def write (b : IOBuf) (bytes : Text) : IOBuf where
  chars := (bytes ++ b.chars.drop bytes.length).take bufferSize
  length_eq := by
    have := b.length_eq
    simp only [List.length_take, List.length_append, List.length_drop]
    omega

/-- The buffer with all bytes zero. -/
def zero : IOBuf := ⟨List.replicate bufferSize nul, List.length_replicate⟩

/-- The C string at the start of the buffer. -/
def text (b : IOBuf) : Text := cstr b.chars

/-- `strlen`, which reads on past a buffer without a terminator. -/
def strlen (b : IOBuf) : Except Fault ℕ :=
  if nul ∈ b.chars then .ok b.text.length else .error .overrun

/-- `strcat_s(buf, told, src)` -/
def strcatS (b : IOBuf) (told : ℕ) (src : Text) : Except Fault IOBuf :=
  if b.text.length + (cstr src).length < told then
    if b.text.length + (cstr src).length < bufferSize then
      .ok (b.write (b.text ++ cstr src ++ [nul]))
    else .error .overrun
  else .error .invalidParameter

end IOBuf

/-- The members of `PerIOData` that receiving and sending use. -/
@[ext] structure PerIOData where
  buf : IOBuf
  len : ℕ
  bytestransfer : ℕ
  operationtype : OperationType
  deriving DecidableEq

namespace PerIOData

/-- `PerIOData::PerIOData` -/
def new : PerIOData := ⟨.zero, bufferSize, 0, .nullPosted⟩

/-- `PerIOData::ResetIOBuf` -/
def resetIOBuf (io : PerIOData) : PerIOData :=
  { io with len := bufferSize, buf := .zero, bytestransfer := 0 }

/-- The io after a receive through its own descriptor. -/
def receive (io : PerIOData) (bytes : Text) : PerIOData := { io with buf := io.buf.write bytes }

/-- The bytes that a send of the io transmits. -/
def sent (io : PerIOData) : Text := io.buf.chars.take io.len

/-- `strcat_s(databuf.buf, databuf.len, src)` -/
def strcat (io : PerIOData) (src : Text) : Except Fault PerIOData := do
  let buf ← io.buf.strcatS io.len src
  return { io with buf }

end PerIOData

/-! ## `SOCKADDR_IN` -/

/-- An address and a port. -/
structure SockAddrIn where
  sinAddr : Fin 256 × Fin 256 × Fin 256 × Fin 256
  sinPort : Fin 65536

/-- `inet_ntoa` -/
def inetNtoa (a : Fin 256 × Fin 256 × Fin 256 × Fin 256) : Text :=
  Nat.toDigits 10 a.1 ++ '.' :: Nat.toDigits 10 a.2.1 ++ '.' :: Nat.toDigits 10 a.2.2.1 ++
    '.' :: Nat.toDigits 10 a.2.2.2

namespace HttpServer

/-! ## Log lines -/

/-- What `WSARecv` and `WSASend` fail with, if they do. -/
structure SysCalls where
  recvError : Option (Fin 2147483648)
  sendError : Option (Fin 2147483648)

/-- Both calls succeed. -/
def SysCalls.succeed : SysCalls := ⟨none, none⟩

/-- The line for the error of a system call. -/
def failedLine (call : String) (error : Fin 2147483648) : Text :=
  call.toList ++ Nat.toDigits 10 error ++ ".\n".toList

/-- An address and a port, as they are logged. -/
def peerText (peer : SockAddrIn) : Text :=
  inetNtoa peer.sinAddr ++ ':' :: Nat.toDigits 10 peer.sinPort

/-- The log line of a complete message. -/
def receiveLine (peer : SockAddrIn) (message : Text) : Text :=
  "receive from ".toList ++ inetNtoa peer.sinAddr ++ ':' :: Nat.toDigits 10 peer.sinPort ++
    ", message:\n".toList ++ message ++ "\n".toList

/-- The log line of a response. -/
def sendLine (peer : SockAddrIn) (response : Text) : Text :=
  "send to ".toList ++ peerText peer ++ ", message: \n".toList ++ response ++ "\n".toList

/-! ## Calls -/

/-- `HTTP_GET_LENGTH` -/
def httpGetLength : ℕ := 256

instance : NeZero httpGetLength := ⟨by decide⟩

/-- A call that hands over or deletes an io. -/
inductive Call
  | wsaRecv (io : PerIOData)
  | wsaSend (io : PerIOData)
  | removeIOData (io : PerIOData)
  deriving DecidableEq

section

variable {m : Type → Type} [Monad m] (E : Effects HttpData.Event Fault m)

/-! ## Receiving -/

/-- `HttpServer::CheckRecvBufEnd`. The copy of the last four characters starts before the buffer
when there are fewer. -/
def checkRecvBufEndWith (bytestransfer : ℕ) (recvbuf : IOBuf) : m Bool := do
  HttpData.dbug E "do nothing in base class\n".toList
  if bytestransfer < 4 then
    E.lift (throw .overrun)
  else
    let tempbuf ← E.lift (CBuf.strncpyS 5 5 (recvbuf.chars.drop (bytestransfer - 4)) 4)
    HttpData.dbug E ("receive message end is ".toList ++ tempbuf.text ++ "\n".toList)
    return tempbuf.text = "\r\n\r\n".toList

/-- `IOCPServer::PostRecv`. The descriptor passed is `&databuf + bytestransfer`, which is that of
the io only when nothing is added. -/
def postRecvWith (sys : SysCalls) (connectiodata : PerIOData) : m (List Call) := do
  let connectiodata := { connectiodata with operationtype := .recvPosted }
  if connectiodata.bytestransfer = 0 then
    if let some error := sys.recvError then
      HttpData.dbug E (failedLine "WSARecv() failed: " error)
    return [.wsaRecv connectiodata]
  else
    E.lift (throw .overrun)

/-! ## Sending -/

/-- `HttpServer::BuildSend`, given the call of the virtual `HandleHttpData` -/
def buildSendWith (io : PerIOData) (handleHttpData : m (Bool × HttpData)) :
    m (Bool × PerIOData) := do
  let io ← E.lift (io.strcat "HTTP/1.1 200 OK".toList)
  let io ← E.lift (io.strcat "\r\n".toList)
  let io ← E.lift (io.strcat "Content-Type: text/html".toList)
  let io ← E.lift (io.strcat "\r\n".toList)
  let (ok, httpdata) ← handleHttpData
  if ok = false then
    HttpData.dbug E "failed in httpdata->HandleHttpData\n".toList
    return (false, io)
  let payloadbuf := httpdata.payloadbuf.text
  let tmpBuf ← E.lift (CBuf.sprintfS 32 32
    ("Content-Length: ".toList ++ Nat.toDigits 10 payloadbuf.length))
  let io ← E.lift (io.strcat tmpBuf.text)
  let io ← E.lift (io.strcat "\r\n\r\n".toList)
  let io ← E.lift (io.strcat payloadbuf)
  HttpData.dbug E "do nothing in base class\n".toList
  return (true, io)

/-- `HttpServer::PostSend` -/
def postSendWith (sys : SysCalls) (peer : SockAddrIn) (connectiodata : PerIOData)
    (httpdata : HttpData) : m (Bool × List Call) := do
  let connectiodata := { connectiodata with operationtype := .sendPosted }
  let (ok, connectiodata) ← buildSendWith E connectiodata (httpdata.handleHttpDataWith E)
  if ok = false then
    HttpData.dbug E "failed in BuildSend\n".toList
    HttpData.dbug E "httpdata has been deleted\n".toList
    return (false, [])
  -- the terminator is written where it stands
  let _end ← E.lift connectiodata.buf.strlen
  HttpData.dbug E "httpdata has been deleted\n".toList
  if let some error := sys.sendError then
    HttpData.dbug E (failedLine "WSASend() failed: " error)
    return (false, [.wsaSend connectiodata])
  HttpData.dbug E (sendLine peer connectiodata.buf.text)
  HttpData.dbug E "the io has been removed\n".toList
  return (true, [.wsaSend connectiodata, .removeIOData connectiodata])

/-! ## `DoRecv` -/

/-- The branch of `DoRecv` for a complete message. -/
def doRecvCompleteWith (sys : SysCalls) (peer : SockAddrIn) (connectiodata : PerIOData) :
    m (Bool × List Call) := do
  HttpData.dbug E (receiveLine peer connectiodata.buf.text)
  if strstr connectiodata.buf.text "GET".toList = none then
    HttpData.dbug E "the client did not send the \"GET\" string, wrong use in http\n".toList
    return (false, [])
  let getbuf : CBuf httpGetLength := CBuf.empty
  let getbuf ← E.lift (getbuf.scanInto (wordAfter '?') connectiodata.buf.text)
  HttpData.dbug E ("client send \"GET\" context is \n".toList ++ getbuf.text ++ "\n".toList)
  let httpdata ← E.lift (HttpData.new getbuf.text)
  let (sent, calls) ← postSendWith E sys peer connectiodata.resetIOBuf httpdata
  if sent = false then
    HttpData.dbug E ("PostSend failed to ".toList ++ peerText peer ++ "\n".toList)
  return (true, calls)

/-- The end of `DoRecv`: a new io is posted, unless it has returned `FALSE`. -/
def postNewRecvWith (sys : SysCalls) (r : Bool × List Call) : m (Bool × List Call) := do
  let (goOn, calls) := r
  if goOn = false then
    return (false, calls)
  let newCalls ← postRecvWith E sys .new
  return (true, calls ++ newCalls)

/-- `HttpServer::DoRecv` on a connection from `peer` -/
def doRecvWith (sys : SysCalls) (peer : SockAddrIn) (connectiodata : PerIOData) :
    m (Bool × List Call) := do
  let bytestransfer ← E.lift connectiodata.buf.strlen
  let connectiodata := { connectiodata with bytestransfer }
  HttpData.dbug E ("receive message len is ".toList ++ Nat.toDigits 10 bytestransfer ++
    ".\n".toList)
  if ← checkRecvBufEndWith E bytestransfer connectiodata.buf then
    postNewRecvWith E sys (← doRecvCompleteWith E sys peer connectiodata)
  else
    HttpData.dbug E "receive message incomplete\n".toList
    let calls ← postRecvWith E sys connectiodata
    postNewRecvWith E sys (true, calls)

end

/-! ## The code -/

/-- `CheckRecvBufEnd` of the code -/
def checkRecvBufEnd (bytestransfer : ℕ) (recvbuf : IOBuf) : Except Fault Bool :=
  checkRecvBufEndWith HttpData.Event.code bytestransfer recvbuf

/-- `PostRecv` of the code -/
def postRecv (sys : SysCalls) (connectiodata : PerIOData) : Except Fault (List Call) :=
  postRecvWith HttpData.Event.code sys connectiodata

/-- `BuildSend` of the code -/
def buildSend (io : PerIOData) (httpdata : HttpData) : Except Fault (Bool × PerIOData) :=
  buildSendWith HttpData.Event.code io httpdata.handleHttpData

/-- `PostSend` of the code -/
def postSend (sys : SysCalls) (peer : SockAddrIn) (connectiodata : PerIOData)
    (httpdata : HttpData) : Except Fault (Bool × List Call) :=
  postSendWith HttpData.Event.code sys peer connectiodata httpdata

/-- The branch of `DoRecv` of the code for a complete message -/
def doRecvComplete (sys : SysCalls) (peer : SockAddrIn) (connectiodata : PerIOData) :
    Except Fault (Bool × List Call) :=
  doRecvCompleteWith HttpData.Event.code sys peer connectiodata

/-- The end of `DoRecv` of the code -/
def postNewRecv (sys : SysCalls) (r : Bool × List Call) : Except Fault (Bool × List Call) :=
  postNewRecvWith HttpData.Event.code sys r

/-- `DoRecv` of the code -/
def doRecv (sys : SysCalls) (peer : SockAddrIn) (connectiodata : PerIOData) :
    Except Fault (Bool × List Call) :=
  doRecvWith HttpData.Event.code sys peer connectiodata

/-! ## Lines that fit -/

theorem length_toDigits_le {n k : ℕ} (hk : 0 < k) (h : n < 10 ^ k) :
    (Nat.toDigits 10 n).length ≤ k :=
  (Nat.length_toDigits_le_iff (by decide) hk).mpr h

theorem failedLine_fits (call : String) (error : Fin 2147483648) (h : call.toList.length ≤ 45) :
    LineFits (failedLine call error) := by
  have hdigits : (Nat.toDigits 10 error.val).length ≤ 10 :=
    length_toDigits_le (by decide) (error.isLt.trans (by decide))
  exact lineFits_append (by omega) h (by decide)

theorem length_inetNtoa_le (a : Fin 256 × Fin 256 × Fin 256 × Fin 256) :
    (inetNtoa a).length ≤ 15 := by
  have hbyte : ∀ b : Fin 256, (Nat.toDigits 10 b.val).length ≤ 3 := fun b =>
    length_toDigits_le (by decide) (b.isLt.trans (by decide))
  have h1 := hbyte a.1
  have h2 := hbyte a.2.1
  have h3 := hbyte a.2.2.1
  have h4 := hbyte a.2.2.2
  rw [inetNtoa]
  simp only [List.length_append, List.length_cons]
  omega

theorem length_peerText_le (peer : SockAddrIn) : (peerText peer).length ≤ 21 := by
  have haddr := length_inetNtoa_le peer.sinAddr
  have hlt := peer.sinPort.isLt
  have hport : (Nat.toDigits 10 peer.sinPort.val).length ≤ 5 :=
    length_toDigits_le (by decide) (by omega)
  rw [peerText, List.length_append, List.length_cons]
  omega

theorem length_receiveLine (peer : SockAddrIn) (message : Text) :
    (receiveLine peer message).length = message.length + (inetNtoa peer.sinAddr).length +
      (Nat.toDigits 10 peer.sinPort.val).length + 26 := by
  have hsum : ∀ a b c d e : Text, (a ++ b ++ ':' :: c ++ d ++ message ++ e).length =
      message.length + b.length + c.length + (a.length + d.length + e.length + 1) := by
    intro a b c d e
    simp only [List.length_append, List.length_cons]
    omega
  exact hsum "receive from ".toList _ _ ", message:\n".toList "\n".toList

theorem sendLine_fits (peer : SockAddrIn) {response : Text} (h : response.length ≤ 900) :
    LineFits (sendLine peer response) := by
  have hpeer := length_peerText_le peer
  have h1 : ("send to ".toList).length = 8 := rfl
  have h2 : (", message: \n".toList).length = 12 := rfl
  refine lineFits_append h ?_ (by decide)
  rw [List.length_append, List.length_append, h1, h2]
  omega

/-! ### Where lines that fit make no difference -/

variable {write : HttpData.Event → Except Fault Unit} (hw : HttpData.Accepts write)

include hw

theorem checkRecvBufEndWith_eq (bytestransfer : ℕ) (recvbuf : IOBuf) :
    checkRecvBufEndWith (.writing write) bytestransfer recvbuf =
      if bytestransfer < 4 then .error .overrun
      else (CBuf.strncpyS 5 5 (recvbuf.chars.drop (bytestransfer - 4)) 4).map fun tempbuf =>
        decide (tempbuf.text = "\r\n\r\n".toList) := by
  rw [checkRecvBufEndWith, hw.dbug_bind (by decide)]
  split
  · rfl
  rw [Effects.writing_lift]
  cases CBuf.strncpyS 5 5 (recvbuf.chars.drop (bytestransfer - 4)) 4 with
  | error e => rfl
  | ok tempbuf =>
    have htemp := tempbuf.text_lt
    rw [ok_bind, hw.dbug_bind (lineFits_append (by omega) (by decide) (by decide))]
    rfl

theorem postRecvWith_eq (sys : SysCalls) (io : PerIOData) :
    postRecvWith (.writing write) sys io =
      if io.bytestransfer = 0 then .ok [.wsaRecv { io with operationtype := .recvPosted }]
      else .error .overrun := by
  rw [postRecvWith]
  dsimp only
  split
  · cases sys.recvError with
    | none => rfl
    | some error => exact hw.dbug_bind (failedLine_fits "WSARecv() failed: " error (by decide)) _
  · rfl

omit hw

theorem postRecv_eq (sys : SysCalls) (io : PerIOData) :
    postRecv sys io =
      if io.bytestransfer = 0 then .ok [.wsaRecv { io with operationtype := .recvPosted }]
      else .error .overrun :=
  postRecvWith_eq HttpData.accepts_write sys io

end HttpServer

end AMSServer
