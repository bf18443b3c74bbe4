import AMSServer.HttpServer.Framing
import Mathlib.Data.List.Forall2

/-!
# Segmentation

TCP gives a connection a stream of bytes, cut into receives in any way. `DoRecv` takes the contents
of one receive for one message, so a stream of requests is answered request by request exactly when
every receive holds one whole request, and every request is one that can be answered
(`sameResponses_iff`). A piece that does not end in an empty line is received on through a
descriptor that is not there; a piece of several requests is answered once.
-/

namespace AMSServer

open CRuntime Fields

namespace HttpServer

/-! ## Requests -/

/-- `GET target HTTP/1.minor` -/
def requestLine (target : Text) (minor : Fin 10) (h : ∀ c ∈ target, isSpace c = false) :
    Http.Line where
  text := "GET ".toList ++ target ++ " HTTP/1.".toList ++ [Nat.digitChar minor]
  nonempty := by simp
  noCR hr := by
    have hdigit : ∀ m : Fin 10, '\r' ≠ Nat.digitChar m := by decide
    simp only [List.mem_append, List.mem_singleton, hdigit, or_false] at hr
    rcases hr with (hr | hr) | hr
    · exact absurd hr (by decide)
    · exact absurd (h _ hr) (by decide)
    · exact absurd hr (by decide)
  noLF hr := by
    have hdigit : ∀ m : Fin 10, '\n' ≠ Nat.digitChar m := by decide
    simp only [List.mem_append, List.mem_singleton, hdigit, or_false] at hr
    rcases hr with (hr | hr) | hr
    · exact absurd hr (by decide)
    · exact absurd (h _ hr) (by decide)
    · exact absurd hr (by decide)

/-- An HTTP `GET` request that fits the buffer of an io, with a short query. -/
structure Request where
  target : Text
  minor : Fin 10
  fields : List Http.Line
  target_clean : ∀ c ∈ target, isSpace c = false
  nul_free : nul ∉ Http.head (requestLine target minor target_clean :: fields)
  short : (Http.head (requestLine target minor target_clean :: fields)).length < bufferSize
  query_short : ((target.dropWhile (· ≠ '?')).tail).length < httpGetLength

namespace Request

/-- The lines of a request. -/
def lines (r : Request) : List Http.Line := requestLine r.target r.minor r.target_clean :: r.fields

/-- The text of a request. -/
def text (r : Request) : Text := Http.head r.lines

theorem nul_notMem_text (r : Request) : nul ∉ r.text := r.nul_free

theorem length_text_lt (r : Request) : r.text.length < bufferSize := r.short

theorem get_infix (r : Request) (s : Text) : "GET".toList <:+: r.text ++ s := by
  refine (List.IsPrefix.isInfix ⟨' ' :: (r.target ++ (" HTTP/1.".toList ++
    (Nat.digitChar r.minor :: (Http.crlf ++ (Http.linesText r.fields ++ (Http.crlf ++ s)))))), ?_⟩)
  simp [text, lines, Http.head, requestLine]

theorem blank_suffix (r : Request) : Http.blank <:+ r.text :=
  Http.blank_suffix_head (List.cons_ne_nil _ _)

end Request

/-- The bytes that a client sends. -/
def stream (reqs : List Request) : Text := reqs.flatMap Request.text

theorem nul_notMem_stream (reqs : List Request) : nul ∉ stream reqs := by
  intro h
  obtain ⟨r, -, hr⟩ := List.mem_flatMap.mp h
  exact r.nul_notMem_text hr

/-- A way of cutting a stream into receives. -/
structure Cut (s : Text) where
  pieces : List Text
  sizes : ∀ p ∈ pieces, 1 ≤ p.length ∧ p.length ≤ 1499
  flatten_eq : pieces.flatten = s

/-! ## A connection -/

/-- The receives that are posted, first to complete first, and the sends so far. -/
structure Conn where
  posted : List PerIOData
  sent : List PerIOData

/-- The ios whose receive is posted by some calls. -/
def recvOf (calls : List Call) : List PerIOData :=
  calls.filterMap fun
    | .wsaRecv io => some io
    | _ => none

/-- A connection after its accept. -/
def Conn.start : Conn := ⟨[recvIoData], []⟩

/-- One receive completes and is handled. Without a posted receive the bytes stay in the socket. -/
def Conn.deliver (peer : SockAddrIn) (c : Conn) (piece : Text) : Except Fault Conn :=
  match c.posted with
  | [] => .ok c
  | io :: posted => do
    let (_, calls) ← doRecv .succeed peer (io.receive piece)
    return ⟨posted ++ recvOf calls, c.sent ++ sentOf calls⟩

/-- The receives of a connection, one after the other. -/
def Conn.run (peer : SockAddrIn) (c : Conn) : List Text → Except Fault Conn
  | [] => .ok c
  | piece :: pieces => do
    let c ← c.deliver peer piece
    c.run peer pieces

/-- The sends that answer some receives on a new connection. -/
def responses (peer : SockAddrIn) (pieces : List Text) : Except Fault (List PerIOData) :=
  (Conn.start.run peer pieces).map Conn.sent

/-- Both cuts get the same responses: for each request, in order, the one that it gets when it comes
whole. -/
def SameResponses (peer : SockAddrIn) (reqs : List Request) (c₁ c₂ : Cut (stream reqs)) : Prop :=
  ∃ rs, responses peer c₁.pieces = .ok rs ∧ responses peer c₂.pieces = .ok rs ∧
    List.Forall₂ (fun r s => responses peer [r.text] = .ok [s]) reqs rs

/-! ## One receive -/

/-- What a verdict leaves of a connection with one new receive. -/
theorem deliver_eq {peer : SockAddrIn} {piece : Text} (hnul : nul ∉ piece)
    (hlt : piece.length < bufferSize) (sent : List PerIOData) :
    Conn.deliver peer ⟨[recvIoData], sent⟩ piece =
      (verdict peer piece >>= Verdict.calls true).map fun r =>
        ⟨recvOf r.2, sent ++ sentOf r.2⟩ := by
  have hdo := doRecv_eq .succeed peer (strlen_eq (strlen_received hnul hlt)).1
  rw [text_received hnul hlt] at hdo
  change (doRecv .succeed peer (received piece) >>= fun r => _) = _
  rw [hdo]
  change (verdict peer piece >>= Verdict.calls true) >>= _ = _
  cases verdict peer piece >>= Verdict.calls true with
  | error e => rfl
  | ok r => rfl

/-- A receive that is handled without a fault ends in an empty line. With a `GET` in it, it is
answered at most once and a new receive is posted. -/
theorem deliver_inv {peer : SockAddrIn} {piece : Text} {sent : List PerIOData} {c : Conn}
    (hnul : nul ∉ piece) (hlt : piece.length < bufferSize)
    (h : Conn.deliver peer ⟨[recvIoData], sent⟩ piece = .ok c) :
    Http.blank <:+ piece ∧ ("GET".toList <:+: piece →
      (verdict peer piece = .ok .unanswered ∧ c = ⟨[recvIoData], sent⟩) ∨
      ∃ payload, verdict peer piece = .ok (.answered payload) ∧
        c = ⟨[recvIoData], sent ++ [sentIoData payload]⟩) := by
  rw [deliver_eq hnul hlt] at h
  cases hv : verdict peer piece with
  | error e => rw [hv] at h; cases h
  | ok v =>
    rw [hv, ok_bind] at h
    have hblank : Http.blank <:+ piece := by
      by_contra hn
      unfold verdict at hv
      split at hv
      · cases hv
      · cases hv
        cases h
    refine ⟨hblank, fun hget => ?_⟩
    cases v with
    | noGet =>
      have hlen : ¬ piece.length < 4 := not_lt.mpr hblank.length_le
      rw [verdict_of_get hlen hblank hget] at hv
      split at hv
      · cases ha : answerText (parseOutcome (scanToken piece)) with
        | error e => rw [ha] at hv; cases hv
        | ok a => rw [ha] at hv; cases a <;> cases hv
      · cases hv
    | incomplete => cases h
    | unanswered => cases h; exact Or.inl ⟨rfl, by simp [recvOf, sentOf]⟩
    | answered payload => cases h; exact Or.inr ⟨payload, rfl, rfl⟩

/-! ## All receives -/

/-- **One response at most for a piece, and one piece at least for a response.** When a run answers
as many times as there are requests, each piece is one whole request, and it is answered. -/
theorem run_inv {peer : SockAddrIn} {pieces : List Text} {reqs : List Request}
    {sent : List PerIOData} {c : Conn} (hsizes : ∀ p ∈ pieces, 1 ≤ p.length ∧ p.length ≤ 1499)
    (hstream : pieces.flatten = stream reqs)
    (h : Conn.run peer ⟨[recvIoData], sent⟩ pieces = .ok c) :
    ∃ rs, c.sent = sent ++ rs ∧ rs.length ≤ pieces.length ∧ pieces.length ≤ reqs.length ∧
      (rs.length = reqs.length → pieces = reqs.map Request.text ∧
        ∀ r ∈ reqs, ∃ payload, verdict peer r.text = .ok (.answered payload)) := by
  induction pieces generalizing reqs sent with
  | nil =>
    cases h
    cases reqs with
    | nil => exact ⟨[], by simp, by simp, by simp, by simp⟩
    | cons r reqs =>
      -- a request is not empty
      have hnil : r.text = [] := (List.append_eq_nil_iff.mp hstream.symm).1
      have hlen := r.blank_suffix.length_le
      rw [hnil] at hlen
      exact absurd hlen (by decide)
  | cons p pieces ih =>
    rw [Conn.run, bind_eq_ok] at h
    obtain ⟨c', hdeliver, hrun⟩ := h
    have hp := hsizes p (by simp)
    have hne : p ≠ [] := List.ne_nil_of_length_pos (by omega)
    have hnul : nul ∉ p := fun hn => nul_notMem_stream reqs
      (hstream ▸ List.mem_flatten.mpr ⟨p, by simp, hn⟩)
    have hlt : p.length < bufferSize := by rw [bufferSize]; omega
    obtain ⟨hblank, hget⟩ := deliver_inv hnul hlt hdeliver
    rw [List.flatten_cons] at hstream
    obtain ⟨r, first, more, rfl, htext, hmore⟩ := Http.exists_heads_of_suffix
      (fun r : Request => fun _ => (List.cons_ne_nil _ _ : r.lines ≠ [])) hne hblank hstream
    have hrest : ∀ q ∈ pieces, 1 ≤ q.length ∧ q.length ≤ 1499 := fun q hq => hsizes q (by simp [hq])
    have hp' : p = r.text ++ stream first := htext
    rcases hget (hp' ▸ r.get_infix _) with ⟨hv, rfl⟩ | ⟨payload, hv, rfl⟩
    · obtain ⟨rs, hsent, hle, hpieces, -⟩ := ih hrest hmore hrun
      refine ⟨rs, hsent, by simp; omega, by simp; omega, fun heq => ?_⟩
      simp only [List.length_append, List.length_cons] at heq
      omega
    · obtain ⟨rs, hsent, hle, hpieces, hall⟩ := ih hrest hmore hrun
      refine ⟨sentIoData payload :: rs, by simp [hsent], by simp; omega, by simp; omega,
        fun heq => ?_⟩
      simp only [List.length_append, List.length_cons] at heq
      obtain rfl : first = [] := List.eq_nil_of_length_eq_zero (by omega)
      obtain ⟨rfl, hanswered⟩ := hall (by omega)
      obtain rfl : p = r.text := by simpa [stream] using hp'
      refine ⟨rfl, fun q hq => ?_⟩
      rcases List.mem_cons.mp hq with rfl | hq
      · exact ⟨payload, hv⟩
      · exact hanswered q hq

/-- Requests that come whole are answered one by one. -/
theorem run_whole {peer : SockAddrIn} {reqs : List Request} (sent : List PerIOData)
    (h : ∀ r ∈ reqs, ∃ payload, verdict peer r.text = .ok (.answered payload)) :
    ∃ rs, Conn.run peer ⟨[recvIoData], sent⟩ (reqs.map Request.text) =
      .ok ⟨[recvIoData], sent ++ rs⟩ ∧
      List.Forall₂ (fun r s => responses peer [r.text] = .ok [s]) reqs rs := by
  have hone : ∀ (r : Request) (payload : Text) (sent : List PerIOData),
      verdict peer r.text = .ok (.answered payload) →
      Conn.deliver peer ⟨[recvIoData], sent⟩ r.text =
        .ok ⟨[recvIoData], sent ++ [sentIoData payload]⟩ :=
    fun r payload sent hv => by
      rw [deliver_eq r.nul_notMem_text r.length_text_lt, hv]
      rfl
  induction reqs generalizing sent with
  | nil => exact ⟨[], by simp [Conn.run], List.Forall₂.nil⟩
  | cons r reqs ih =>
    obtain ⟨payload, hv⟩ := h r (by simp)
    obtain ⟨rs, hrun, hall⟩ := ih (sent ++ [sentIoData payload]) fun q hq => h q (by simp [hq])
    have hresponse : responses peer [r.text] = .ok [sentIoData payload] := by
      have hdeliver := hone r payload [] hv
      change (Conn.deliver peer ⟨[recvIoData], []⟩ r.text >>= fun c => .ok c).map Conn.sent = _
      rw [hdeliver]
      rfl
    refine ⟨sentIoData payload :: rs, ?_, List.Forall₂.cons hresponse hall⟩
    rw [List.map_cons, Conn.run, hone r payload sent hv, ok_bind, hrun]
    simp

/-- The request can be answered: its line fits the log, its token fits `getbuf` and asks for no
activation. -/
def Answerable (peer : SockAddrIn) (r : Request) : Prop :=
  (receiveLine peer r.text).length < oneLogLen ∧ (scanToken r.text).length < httpGetLength ∧
  ¬ (strnicmpEq (scanToken r.text) "Activate=".toList "Activate=".length = true ∨
    (strnicmpEq (scanToken r.text) "Query=".toList "Query=".length = true ∧
      queryType (scanToken r.text) = "1".toList))

theorem answerable_iff {peer : SockAddrIn} {r : Request} :
    Answerable peer r ↔ ∃ payload, verdict peer r.text = .ok (.answered payload) := by
  have hget : "GET".toList <:+: r.text := by simpa using r.get_infix []
  rw [verdict_of_get (not_lt.mpr r.blank_suffix.length_le) r.blank_suffix hget, Answerable,
    ← and_assoc]
  by_cases hfit : (receiveLine peer r.text).length < oneLogLen ∧
      (scanToken r.text).length < httpGetLength
  · obtain ⟨a, ha, hnone⟩ := exists_answerText hfit.2
    rw [if_pos hfit, ha, ← parseOutcome_eq_nothing_iff hfit.2, ← hnone]
    cases a with
    | none => exact iff_of_false (fun h => h.2 rfl) (by rintro ⟨_, h⟩; cases h)
    | some payload => exact iff_of_true ⟨hfit, nofun⟩ ⟨payload, rfl⟩
  · rw [if_neg hfit]
    exact iff_of_false (fun h => hfit h.1) (by rintro ⟨_, h⟩; cases h)

/-- A cut that gets the responses of whole requests is a cut into requests. -/
theorem pieces_eq_of_responses {peer : SockAddrIn} {reqs : List Request} (c : Cut (stream reqs))
    {rs : List PerIOData} (h : responses peer c.pieces = .ok rs) (hlen : rs.length = reqs.length) :
    c.pieces = reqs.map Request.text ∧ ∀ r ∈ reqs, Answerable peer r := by
  unfold responses at h
  cases hrun : Conn.start.run peer c.pieces with
  | error e => rw [hrun] at h; cases h
  | ok conn =>
    rw [hrun] at h
    cases h
    obtain ⟨rs, hsent, -, -, hall⟩ := run_inv c.sizes c.flatten_eq hrun
    rw [hsent, List.nil_append] at hlen
    obtain ⟨hpieces, hanswered⟩ := hall hlen
    exact ⟨hpieces, fun r hr => answerable_iff.mpr (hanswered r hr)⟩

/-- **The responses are the same exactly when both cuts are at the ends of the requests and every
request can be answered.** -/
theorem sameResponses_iff (peer : SockAddrIn) (reqs : List Request) (c₁ c₂ : Cut (stream reqs)) :
    SameResponses peer reqs c₁ c₂ ↔
      c₁.pieces = reqs.map Request.text ∧ c₂.pieces = reqs.map Request.text ∧
        ∀ r ∈ reqs, Answerable peer r := by
  constructor
  · rintro ⟨rs, h₁, h₂, hall⟩
    obtain ⟨hp₁, hanswer⟩ := pieces_eq_of_responses c₁ h₁ hall.length_eq.symm
    exact ⟨hp₁, (pieces_eq_of_responses c₂ h₂ hall.length_eq.symm).1, hanswer⟩
  · rintro ⟨hp₁, hp₂, hanswer⟩
    obtain ⟨rs, hrun, hall⟩ := run_whole [] fun r hr => answerable_iff.mp (hanswer r hr)
    have hresponses : responses peer (reqs.map Request.text) = .ok rs := by
      unfold responses Conn.start
      rw [hrun]
      rfl
    exact ⟨rs, hp₁ ▸ hresponses, hp₂ ▸ hresponses, hall⟩

/-! ## Two requests in one receive -/

/-- The shortest request. -/
def shortest : Request where
  target := "/".toList
  minor := 1
  fields := []
  target_clean := by simp [isSpace]
  nul_free := by decide
  short := by decide
  query_short := by decide

/-- Two requests, each received whole. -/
def apart : Cut (stream [shortest, shortest]) where
  pieces := [shortest.text, shortest.text]
  sizes := by decide
  flatten_eq := by decide

/-- Two requests, received together. -/
def together : Cut (stream [shortest, shortest]) where
  pieces := [shortest.text ++ shortest.text]
  sizes := by decide
  flatten_eq := by decide

/-- Two requests that arrive together do not get two responses. -/
theorem not_sameResponses_together :
    ¬ SameResponses localhost [shortest, shortest] apart together := by
  rintro ⟨rs, -, h₂, hall⟩
  have hpieces := (pieces_eq_of_responses together h₂ hall.length_eq.symm).1
  exact absurd (congrArg List.length hpieces) (by decide)

end HttpServer

end AMSServer
