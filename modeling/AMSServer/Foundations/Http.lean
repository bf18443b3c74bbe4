import AMSServer.Foundations.CRuntime.Text

/-!
# HTTP messages on a stream

The head of a message is a list of lines, each ended by CRLF, and an empty line. A line is not empty
and has no CR and no LF inside (`Line`), so the empty line stands at the end of the head and nowhere
else (`strstr_head`): that is what lets a reader cut a stream into messages. `decode` cuts one
response off a stream by its `Content-Length`, and gives back the body of every response written
with one (`decode_render`).
-/

namespace AMSServer.Http

open CRuntime

/-- The end of a line. -/
def crlf : Text := ['\r', '\n']

/-- The end of a head: the end of its last line and an empty line. -/
def blank : Text := ['\r', '\n', '\r', '\n']

/-- A line of a head, without its end. -/
structure Line where
  text : Text
  nonempty : text ≠ []
  noCR : '\r' ∉ text
  noLF : '\n' ∉ text

/-- Lines, each with its end. -/
def linesText (lines : List Line) : Text := lines.flatMap fun l => l.text ++ crlf

/-- A head: its lines and the empty line. -/
def head (lines : List Line) : Text := linesText lines ++ crlf

@[simp] theorem linesText_nil : linesText [] = [] := rfl

@[simp] theorem linesText_cons (l : Line) (lines : List Line) :
    linesText (l :: lines) = l.text ++ (crlf ++ linesText lines) := by
  simp [linesText]

/-- A head starts with a character of its first line. -/
theorem exists_head_eq_cons {lines : List Line} (hne : lines ≠ []) :
    ∃ c t, head lines = c :: t ∧ c ∉ blank := by
  obtain ⟨l, lines, rfl⟩ := List.exists_cons_of_ne_nil hne
  obtain ⟨c, t, hc⟩ := List.exists_cons_of_ne_nil l.nonempty
  have hcr : c ≠ '\r' := fun h => l.noCR (by rw [hc, h]; exact List.mem_cons_self)
  have hlf : c ≠ '\n' := fun h => l.noLF (by rw [hc, h]; exact List.mem_cons_self)
  exact ⟨c, t ++ (crlf ++ linesText lines) ++ crlf, by simp [head, hc], by simp [blank, hcr, hlf]⟩

/-! ## Where a head ends -/

/-- Characters other than the first of the needle are skipped. -/
theorem strstr_skip {l s needle : Text} {c : Char} (h : c ∉ l) :
    strstr (l ++ s) (c :: needle) = strstr s (c :: needle) := by
  induction l with
  | nil => rfl
  | cons d l ih =>
    have hd : ¬ c :: needle <+: d :: (l ++ s) := fun hp =>
      h (by rw [(List.cons_prefix_cons.mp hp).1]; exact List.mem_cons_self)
    rw [List.cons_append, strstr, if_neg hd]
    exact ih fun hc => h (List.mem_cons_of_mem _ hc)

/-- **The first empty line of a stream that starts with a head is the end of the head.** -/
theorem strstr_head {lines : List Line} (hne : lines ≠ []) (rest : Text) :
    strstr (head lines ++ rest) blank = some (blank ++ rest) := by
  induction lines with
  | nil => exact absurd rfl hne
  | cons l lines ih =>
    have htext : head (l :: lines) ++ rest = l.text ++ (crlf ++ (head lines ++ rest)) := by
      simp [head]
    have hskip : ∀ s, strstr (l.text ++ s) blank = strstr s blank := fun s => strstr_skip l.noCR
    rw [htext, hskip]
    cases lines with
    | nil => exact strstr_of_prefix ⟨rest, rfl⟩
    | cons l' lines =>
      have hl' : l' :: lines ≠ [] := by simp
      obtain ⟨c, t, htail, hc⟩ := exists_head_eq_cons hl'
      have hcr : '\r' ≠ c := fun h => hc (by rw [← h]; decide)
      have h1 : ¬ blank <+: '\r' :: '\n' :: c :: (t ++ rest) := by
        simp [blank, List.cons_prefix_cons, hcr]
      have h2 : ¬ blank <+: '\n' :: c :: (t ++ rest) := by simp [blank, List.cons_prefix_cons]
      have hcrlf : strstr ('\r' :: '\n' :: c :: (t ++ rest)) blank =
          strstr (c :: (t ++ rest)) blank := by
        rw [strstr, if_neg h1, strstr, if_neg h2]
      rw [htail] at ih ⊢
      exact hcrlf.trans (ih hl')

/-- An occurrence is no earlier than the one that is found. -/
theorem length_strstr_ge {needle t : Text} (a c : Text)
    (h : strstr (a ++ (needle ++ c)) needle = some t) : (needle ++ c).length ≤ t.length := by
  induction a with
  | nil =>
    rw [List.nil_append, strstr_of_prefix (List.prefix_append _ _)] at h
    cases h
    exact le_rfl
  | cons d a ih =>
    rw [List.cons_append, strstr] at h
    split at h
    · cases h
      simp only [List.length_cons, List.length_append]
      omega
    · exact ih h

/-- **No proper start of a head ends in an empty line.** -/
theorem eq_head_of_suffix {lines : List Line} (hne : lines ≠ []) {p : Text}
    (hp : p <+: head lines) (hblank : blank <:+ p) : p = head lines := by
  obtain ⟨c, hc⟩ := hp
  obtain ⟨a, ha⟩ := hblank
  have hfound := strstr_head hne []
  rw [List.append_nil, ← hc, ← ha, List.append_assoc] at hfound
  have hlen := length_strstr_ge a c hfound
  have hnil : c = [] := by
    rw [List.append_nil, List.length_append] at hlen
    exact List.eq_nil_of_length_eq_zero (by omega)
  rw [← hc, hnil, List.append_nil]

/-- A head ends in an empty line. -/
theorem blank_suffix_head {lines : List Line} (hne : lines ≠ []) : blank <:+ head lines := by
  have hfound := strstr_head hne []
  rw [List.append_nil, List.append_nil] at hfound
  exact (strstr_eq_some hfound).1

/-! ## Cutting a stream into heads -/

/-- A piece of a stream of heads that ends in an empty line is one or more whole heads. -/
theorem exists_heads_of_suffix {α : Type*} {f : α → List Line} {as : List α}
    (hne : ∀ a ∈ as, f a ≠ []) {p rest : Text} (hp : p ≠ []) (hblank : blank <:+ p)
    (hstream : p ++ rest = as.flatMap fun a => head (f a)) :
    ∃ a first more, as = a :: first ++ more ∧ p = (a :: first).flatMap (fun a => head (f a)) ∧
      rest = more.flatMap fun a => head (f a) := by
  induction as generalizing p with
  | nil => simp_all
  | cons a as ih =>
    rw [List.flatMap_cons] at hstream
    have ha : f a ≠ [] := hne a (by simp)
    rcases List.append_eq_append_iff.mp hstream with ⟨t, ht, hrest⟩ | ⟨t, ht, hrest⟩
    · -- the piece ends inside the first head, so at its end
      have heq := eq_head_of_suffix ha ⟨t, ht.symm⟩ hblank
      have hnil : t = [] := by simpa [heq] using ht
      exact ⟨a, [], as, rfl, by simp [heq], by simp [hrest, hnil]⟩
    · by_cases htnil : t = []
      · exact ⟨a, [], as, rfl, by simp [ht, htnil], by simp [hrest, htnil]⟩
      · have htblank : blank <:+ t := by
          have htp : t <:+ p := ⟨head (f a), ht.symm⟩
          refine (List.suffix_or_suffix_of_suffix hblank htp).resolve_right fun hshort => ?_
          -- a shorter rest would start with a character of the next head
          cases as with
          | nil => simp_all
          | cons b bs =>
            obtain ⟨c, u, hb, hc⟩ := exists_head_eq_cons (hne b (by simp))
            obtain ⟨d, v, rfl⟩ := List.exists_cons_of_ne_nil htnil
            rw [List.flatMap_cons, hb] at hrest
            obtain ⟨rfl, -⟩ := List.cons.inj hrest
            exact hc (hshort.subset List.mem_cons_self)
        obtain ⟨b, first, more, has, htext, hmore⟩ :=
          ih (fun b hb => hne b (by simp [hb])) htnil htblank hrest.symm
        exact ⟨a, b :: first, more, by simp [has], by simp [ht, htext], hmore⟩

/-! ## Responses -/

/-- The number that a text of digits stands for. -/
def number (ds : Text) : Option ℕ :=
  if ds ≠ [] ∧ ds.all Char.isDigit then some (Nat.ofDigitChars 10 ds 0) else none

/-- The value of a `Content-Length` line. -/
def contentLength (line : Text) : Option ℕ :=
  if (line.takeWhile (· ≠ ':')).map Char.toLower = "content-length".toList then
    number ((line.dropWhile (· ≠ ':')).tail.dropWhile (· = ' '))
  else none

/-- The lines of a head, without their ends. -/
def headLines (text : Text) : List Text := (text.splitOn '\n').map (·.takeWhile (· ≠ '\r'))

/-- The body of the response that a stream starts with, and the rest of the stream. -/
def decode (s : Text) : Option (Text × Text) := do
  let rest ← strstr s blank
  let top := s.take (s.length - rest.length) ++ crlf
  if "HTTP/1.1 ".toList <+: top then
    let n ← (headLines top).findSome? contentLength
    let body := rest.drop blank.length
    if n ≤ body.length then some (body.take n, body.drop n) else none
  else none

/-- `Content-Length: n` -/
def contentLengthText (n : ℕ) : Text := "Content-Length: ".toList ++ Nat.toDigits 10 n

theorem isDigit_of_mem_toDigits {n : ℕ} {c : Char} (h : c ∈ Nat.toDigits 10 n) : c.isDigit :=
  Nat.isDigit_of_mem_toDigits (by decide) (by decide) h

/-- A decimal number reads back. -/
theorem number_toDigits (n : ℕ) : number (Nat.toDigits 10 n) = some n := by
  have hall : (Nat.toDigits 10 n).all Char.isDigit :=
    List.all_eq_true.mpr fun c hc => isDigit_of_mem_toDigits hc
  rw [number, if_pos ⟨Nat.toDigits_ne_nil, hall⟩, Nat.ofDigitChars_ten_toDigits]

theorem contentLength_contentLengthText (n : ℕ) :
    contentLength (contentLengthText n) = some n := by
  have hdigit : ∀ c ∈ Nat.toDigits 10 n, c ≠ ' ' := fun c hc h => by
    have hd := isDigit_of_mem_toDigits hc
    rw [h] at hd
    exact absurd hd (by decide)
  have hspace : (' ' :: Nat.toDigits 10 n).dropWhile (· = ' ') = Nat.toDigits 10 n := by
    obtain ⟨d, ds, hd⟩ := List.exists_cons_of_ne_nil (@Nat.toDigits_ne_nil n 10)
    rw [hd] at hdigit ⊢
    simp [hdigit d (by simp)]
  have happend : ∀ ds : Text, "Content-Length: ".toList ++ ds =
      "Content-Length".toList ++ ':' :: ' ' :: ds := fun _ => rfl
  have hsplit : contentLengthText n = "Content-Length".toList ++ ':' :: ' ' :: Nat.toDigits 10 n :=
    happend _
  rw [contentLength, hsplit, takeWhile_ne_append (by decide), dropWhile_ne_append (by decide),
    List.tail_cons, hspace, number_toDigits, if_pos (by decide)]

/-- The line `Content-Length: n`. -/
def contentLengthLine (n : ℕ) : Line where
  text := contentLengthText n
  nonempty := List.append_ne_nil_of_left_ne_nil (by decide) _
  noCR h := by
    rcases List.mem_append.mp h with h | h
    · exact absurd h (by decide)
    · exact absurd (isDigit_of_mem_toDigits h) (by decide)
  noLF h := by
    rcases List.mem_append.mp h with h | h
    · exact absurd h (by decide)
    · exact absurd (isDigit_of_mem_toDigits h) (by decide)

/-- A response with the given lines, the length of its body, and the body. -/
def render (lines : List Line) (body : Text) : Text :=
  head (lines ++ [contentLengthLine body.length]) ++ body

theorem headLines_linesText (lines : List Line) :
    headLines (linesText lines) = lines.map Line.text ++ [[]] := by
  induction lines with
  | nil => rfl
  | cons l lines ih =>
    have hlf : '\n' ∉ l.text ++ ['\r'] := by simp [l.noLF]
    have hsplit : linesText (l :: lines) = (l.text ++ ['\r']) ++ '\n' :: linesText lines := by
      simp [crlf]
    rw [headLines] at ih
    rw [headLines, hsplit, List.splitOn_append_cons_self_of_not_mem hlf, List.map_cons, ih,
      takeWhile_ne_append l.noCR]
    rfl

/-- **A response is cut off its stream.** No line before the length gives another one. -/
theorem decode_render {status : Line} {fields : List Line}
    (hstatus : "HTTP/1.1 ".toList <+: status.text)
    (hfields : ∀ l ∈ status :: fields, contentLength l.text = none) (body rest : Text) :
    decode (render (status :: fields) body ++ rest) = some (body, rest) := by
  obtain ⟨lines, hlines⟩ : ∃ lines, status :: fields ++ [contentLengthLine body.length] = lines :=
    ⟨_, rfl⟩
  have hne : lines ≠ [] := by simp [← hlines]
  have htext : render (status :: fields) body ++ rest = head lines ++ (body ++ rest) := by
    rw [render, hlines, List.append_assoc]
  have htop : (head lines ++ (body ++ rest)).take
      ((head lines ++ (body ++ rest)).length - (blank ++ (body ++ rest)).length) ++ crlf =
      linesText lines := by
    have hlen : (head lines ++ (body ++ rest)).length - (blank ++ (body ++ rest)).length =
        (head lines).length - blank.length := by
      simp only [List.length_append]
      omega
    obtain ⟨t, ht⟩ := blank_suffix_head hne
    have hcrlf : t ++ crlf = linesText lines := by
      have h : (t ++ crlf) ++ crlf = linesText lines ++ crlf := by
        rw [← head, ← ht, List.append_assoc]
        rfl
      exact List.append_cancel_right h
    rw [hlen, ← ht, List.length_append, Nat.add_sub_cancel, List.append_assoc, List.take_left,
      hcrlf]
  have hpre : "HTTP/1.1 ".toList <+: linesText lines := by
    rw [← hlines, List.cons_append, linesText_cons]
    exact hstatus.trans (List.prefix_append _ _)
  have hlength : (headLines (linesText lines)).findSome? contentLength = some body.length := by
    have hnone : (status :: fields).findSome? (fun l => contentLength l.text) = none :=
      List.findSome?_eq_none_iff.mpr hfields
    have hlast : contentLength (contentLengthLine body.length).text = some body.length :=
      contentLength_contentLengthText _
    have hmap : (lines.map Line.text).findSome? contentLength = some body.length := by
      rw [List.findSome?_map, ← hlines, List.findSome?_append, Function.comp_def, hnone,
        List.findSome?_singleton, hlast]
      rfl
    rw [headLines_linesText, List.findSome?_append, hmap]
    rfl
  rw [htext, decode, strstr_head hne, Option.bind_eq_bind, Option.bind_some]
  dsimp only
  rw [htop, if_pos hpre, hlength]
  simp

end AMSServer.Http
