import AMSServer.HttpServer.RecvEnd

/-!
# Receiving on

A request may come in pieces, and `DoRecv` posts the io of an incomplete message again to receive
the rest. `Reassembled` says what that should do: every descriptor handed to `WSARecv` is the unused
part of the io's own buffer, and the pieces add up in it.

`PostRecv` adds `bytestransfer` to the address of the descriptor, where the number counts bytes and
the address counts descriptors. An io has one descriptor, so there is none to be found at the new
address as soon as something was received, and no message is ever received on
(`reassembled_iff`).
-/

namespace AMSServer

open CRuntime

/-- A `WSABUF`, by the place of `buf` in the buffer of an io and by `len`. -/
structure WsaBuf where
  start : ℕ
  len : ℕ
  deriving DecidableEq

namespace PerIOData

/-- `&databuf + bytestransfer`: the descriptor of the io, and none anywhere else. -/
def descriptor (io : PerIOData) : Except Fault WsaBuf :=
  if io.bytestransfer = 0 then .ok ⟨0, io.len⟩ else .error .overrun

/-- The io after a receive through a descriptor of its buffer. -/
def receiveAt (io : PerIOData) (wsabuf : WsaBuf) (bytes : Text) : PerIOData :=
  { io with buf := io.buf.write (io.buf.chars.take wsabuf.start ++ bytes) }

end PerIOData

namespace HttpServer

/-- `PostRecv` hands over the descriptor of its io or nothing that is one. -/
theorem postRecv_eq_descriptor (sys : SysCalls) (connectiodata : PerIOData) :
    postRecv sys connectiodata = connectiodata.descriptor.map fun _ =>
      [.wsaRecv { connectiodata with operationtype := .recvPosted }] := by
  rw [postRecv_eq, PerIOData.descriptor]
  split
  · rfl
  · rfl

/-- `DoRecv` up to `PostRecv`: nothing when the message is complete, and else the io that is posted
again with the descriptor for `WSARecv`. -/
def rePost (connectiodata : PerIOData) : Except Fault (Option (PerIOData × WsaBuf)) := do
  let (bytestransfer, complete) ← recvEnd connectiodata.buf
  if complete then
    return none
  let connectiodata := { connectiodata with bytestransfer }
  let wsabuf ← connectiodata.descriptor
  return some ({ connectiodata with operationtype := .recvPosted }, wsabuf)

/-- `DoRecv` posts an incomplete message again by `rePost`. -/
theorem doRecv_eq_rePost (sys : SysCalls) (peer : SockAddrIn) (connectiodata : PerIOData) :
    doRecv sys peer connectiodata = rePost connectiodata >>= fun
      | none => do
        let (bytestransfer, _) ← recvEnd connectiodata.buf
        doRecvComplete sys peer { connectiodata with bytestransfer } >>= postNewRecv sys
      | some (connectiodata, _) => postNewRecv sys (true, [.wsaRecv connectiodata]) := by
  rw [doRecv_eq_recvEnd, rePost]
  cases recvEnd connectiodata.buf with
  | error e => rfl
  | ok r =>
    obtain ⟨n, complete⟩ := r
    rw [ok_bind, ok_bind]
    dsimp only
    cases complete with
    | true => rfl
    | false =>
      rw [if_neg Bool.false_ne_true, if_neg Bool.false_ne_true, postRecv_eq_descriptor]
      cases PerIOData.descriptor { connectiodata with bytestransfer := n } with
      | error e => rfl
      | ok wsabuf => rfl

/-- The unused part of a buffer that holds some bytes. -/
def unused (received : Text) : WsaBuf := ⟨received.length, bufferSize - received.length⟩

/-- **The pieces add up.** Each of them is received behind those before, and as long as the message
is incomplete the io is posted again with the unused part of its buffer. -/
def Reassembled : PerIOData → Text → List Text → Prop
  | _, _, [] => True
  | io, before, piece :: pieces =>
    before ++ piece <+: (io.receiveAt (unused before) piece).buf.chars ∧
      (rePost (io.receiveAt (unused before) piece) = .ok none ∨
        ∃ io', rePost (io.receiveAt (unused before) piece) =
            .ok (some (io', unused (before ++ piece))) ∧
          Reassembled io' (before ++ piece) pieces)

/-- **Nothing is received on.** A message in the buffer is complete, or it is not posted again with
any descriptor. -/
theorem rePost_eq (io : PerIOData) :
    rePost io =
      if nul ∈ io.buf.chars ∧ Http.blank <:+ io.buf.text then .ok none else .error .overrun := by
  rw [rePost, recvEnd_eq]
  by_cases hread : nul ∈ io.buf.chars ∧ 4 ≤ io.buf.text.length
  · rw [if_pos hread, ok_bind]
    dsimp only
    by_cases hblank : Http.blank <:+ io.buf.text
    · rw [if_pos (decide_eq_true hblank), if_pos ⟨hread.1, hblank⟩]
      rfl
    · rw [if_neg (by simpa using hblank), if_neg fun h => hblank h.2, PerIOData.descriptor, if_neg]
      · rfl
      · change io.buf.text.length ≠ 0
        omega
  · rw [if_neg hread, if_neg fun h => hread ⟨h.1, h.2.length_le⟩]
    rfl

/-- A first piece is posted again with no descriptor unless it completes the message. -/
theorem rePost_first {piece : Text} (hlt : piece.length < bufferSize) :
    rePost (recvIoData.receiveAt (unused []) piece) =
      if Http.blank <:+ cstr piece then .ok none else .error .overrun := by
  have hbuf : (recvIoData.receiveAt (unused []) piece).buf = IOBuf.ofText piece := rfl
  have hnul : nul ∈ (IOBuf.ofText piece).chars := by
    rw [IOBuf.chars_ofText hlt.le]
    exact List.mem_append_right _ (List.mem_replicate.mpr ⟨by omega, rfl⟩)
  rw [rePost_eq, hbuf, text_ofText_eq_cstr hlt]
  by_cases hblank : Http.blank <:+ cstr piece
  · rw [if_pos ⟨hnul, hblank⟩, if_pos hblank]
  · rw [if_neg fun h => hblank h.2, if_neg hblank]

/-- **The pieces of a request add up exactly when the first one completes it**, so that nothing has
to be received on: the text of the piece, up to a terminator, ends in an empty line. -/
theorem reassembled_iff {pieces : List Text} (hfit : pieces.flatten.length < bufferSize) :
    Reassembled recvIoData [] pieces ↔ ∀ piece ∈ pieces.head?, Http.blank <:+ cstr piece := by
  cases pieces with
  | nil => exact iff_of_true trivial nofun
  | cons piece pieces =>
    have hlt : piece.length < bufferSize := by
      rw [List.flatten_cons, List.length_append] at hfit
      omega
    have hhead : (∀ p ∈ (piece :: pieces).head?, Http.blank <:+ cstr p) ↔
        Http.blank <:+ cstr piece := by simp
    rw [hhead, Reassembled, rePost_first hlt]
    by_cases hblank : Http.blank <:+ cstr piece
    · have hbuf : (recvIoData.receiveAt (unused []) piece).buf.chars =
          piece ++ List.replicate (bufferSize - piece.length) nul := IOBuf.chars_ofText hlt.le
      rw [if_pos hblank, hbuf]
      exact iff_of_true ⟨List.prefix_append _ _, Or.inl rfl⟩ hblank
    · rw [if_neg hblank]
      refine iff_of_false (fun h => ?_) hblank
      rcases h.2 with hcomplete | ⟨io', hposted, -⟩
      · cases hcomplete
      · cases hposted

/-- A request that comes whole. -/
theorem reassembled_whole : ["GET / HTTP/1.1\r\n\r\n".toList].flatten.length < bufferSize ∧
    Reassembled recvIoData [] ["GET / HTTP/1.1\r\n\r\n".toList] := by
  refine ⟨by decide, (reassembled_iff (by decide)).mpr ?_⟩
  decide

/-- A request whose empty line comes later. -/
theorem not_reassembled_two :
    ¬ ∀ pieces : List Text, pieces.flatten.length < bufferSize →
      Reassembled recvIoData [] pieces := by
  intro hall
  have htwo := (hall ["GET / HTTP/1.1\r\n".toList, "\r\n".toList] (by decide)).2
  rw [rePost_first (by decide), if_neg (by decide)] at htwo
  rcases htwo with hcomplete | ⟨io', hposted, -⟩
  · cases hcomplete
  · cases hposted

end HttpServer

end AMSServer
