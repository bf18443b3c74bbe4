import AMSServer.HttpServer.Answer

/-!
# The end of a message

`DoRecv` asks `strlen` for the length of a message and `CheckRecvBufEnd` for its end (`recvEnd`).
Both take what was received for a C string: they see what stands before the first terminator. So
they find the length and the end of the bytes received exactly when these contain no terminator,
leave room for one, and are at least the four that are looked at (`recvEnd_iff`).
-/

namespace AMSServer

open CRuntime

namespace HttpServer

/-- The part of `DoRecv` that decides whether a message is complete. -/
def recvEnd (databuf : IOBuf) : Except Fault (ℕ × Bool) := do
  let bytestransfer ← databuf.strlen
  let complete ← checkRecvBufEnd bytestransfer databuf
  return (bytestransfer, complete)

/-- `DoRecv` decides by `recvEnd`. -/
theorem doRecv_eq_recvEnd (sys : SysCalls) (peer : SockAddrIn) (connectiodata : PerIOData) :
    doRecv sys peer connectiodata = recvEnd connectiodata.buf >>= fun r =>
      let connectiodata := { connectiodata with bytestransfer := r.1 }
      if r.2 then doRecvComplete sys peer connectiodata >>= postNewRecv sys
      else postRecv sys connectiodata >>= fun calls => postNewRecv sys (true, calls) := by
  rw [doRecv, doRecvWith, HttpData.code_lift, recvEnd]
  cases hstr : connectiodata.buf.strlen with
  | error e => rfl
  | ok n =>
    obtain ⟨hnul, rfl⟩ := strlen_eq hstr
    have hdigits := length_toDigits_le (k := 4) (by decide)
      ((length_text_lt hnul).trans (by decide))
    rw [ok_bind, ok_bind]
    dsimp only
    rw [HttpData.dbug_code_bind (lineFits_append (by omega) (by decide) (by decide))]
    change checkRecvBufEnd _ _ >>= _ = _
    cases checkRecvBufEnd connectiodata.buf.text.length connectiodata.buf with
    | error e => rfl
    | ok complete =>
      cases complete with
      | true => rfl
      | false =>
        rw [ok_bind, if_neg Bool.false_ne_true, HttpData.dbug_code_bind (by decide)]
        rfl

/-- **What is decided, and read for it**: the text up to the first terminator counts, and there is a
read outside the buffer when it has none or when the text is shorter than four characters. -/
theorem recvEnd_eq (b : IOBuf) :
    recvEnd b =
      if nul ∈ b.chars ∧ 4 ≤ b.text.length then .ok (b.text.length, Http.blank <:+ b.text)
      else .error .overrun := by
  rw [recvEnd, IOBuf.strlen]
  by_cases hnul : nul ∈ b.chars
  · rw [if_pos hnul, ok_bind, checkRecvBufEnd_eq hnul]
    by_cases hlen : b.text.length < 4
    · rw [if_pos hlen, if_neg fun h => absurd h.2 (not_le.mpr hlen)]
      rfl
    · rw [if_neg hlen, if_pos ⟨hnul, not_lt.mp hlen⟩]
      rfl
  · rw [if_neg hnul, if_neg fun h => hnul h.1]
    rfl

/-- The text of a buffer with room for a terminator is that of the bytes received. -/
theorem text_ofText_eq_cstr {bytes : Text} (h : bytes.length < bufferSize) :
    (IOBuf.ofText bytes).text = cstr bytes := by
  obtain ⟨n, hn⟩ : ∃ n, bufferSize - bytes.length = n + 1 :=
    ⟨bufferSize - bytes.length - 1, by omega⟩
  rw [IOBuf.text, IOBuf.chars_ofText h.le, hn, List.replicate_succ]
  by_cases hnul : nul ∈ bytes
  · obtain ⟨t, ht⟩ := exists_eq_cstr_append hnul
    have hfree := nul_notMem_cstr bytes
    generalize cstr bytes = text at ht hfree
    rw [ht, List.append_assoc, List.cons_append, cstr_append_nul hfree]
  · rw [cstr_append_nul hnul, cstr_of_notMem hnul]

/-- **`DoRecv` finds the length and the end of the bytes received** in a cleared buffer, and reads
no other bytes, exactly when they contain no terminator, are four or more and do not fill the
buffer. -/
theorem recvEnd_iff (bytes : Text) :
    recvEnd (IOBuf.ofText bytes) = .ok (bytes.length, Http.blank <:+ bytes) ↔
      nul ∉ bytes ∧ 4 ≤ bytes.length ∧ bytes.length < bufferSize := by
  rw [recvEnd_eq]
  constructor
  · intro h
    split at h
    next hread =>
      have hlen : (IOBuf.ofText bytes).text.length = bytes.length :=
        (Prod.mk.inj (Except.ok.inj h)).1
      have hlt : bytes.length < bufferSize := hlen ▸ length_text_lt hread.1
      refine ⟨fun hnul => ?_, hlen ▸ hread.2, hlt⟩
      obtain ⟨t, ht⟩ := exists_eq_cstr_append hnul
      have hshort := congrArg List.length ht
      rw [text_ofText_eq_cstr hlt] at hlen
      rw [List.length_append, List.length_cons] at hshort
      omega
    · cases h
  · rintro ⟨hnul, hfour, hlt⟩
    have hmem := (strlen_eq (IOBuf.strlen_ofText hnul hlt)).1
    rw [IOBuf.text_ofText hnul hlt, if_pos ⟨hmem, hfour⟩]

/-- Three bytes are too few to look at the last four. -/
theorem not_recvEnd_three :
    ¬ ∀ bytes : Text, 1 ≤ bytes.length → bytes.length ≤ bufferSize →
      recvEnd (IOBuf.ofText bytes) = .ok (bytes.length, Http.blank <:+ bytes) := by
  intro hall
  have hthree := hall "GET".toList (by decide) (by decide)
  have hlt : "GET".toList.length < bufferSize := by decide
  rw [recvEnd_eq, text_ofText_eq_cstr hlt, if_neg fun h => absurd h.2 (by decide)] at hthree
  cases hthree

end HttpServer

end AMSServer
