import AMSServer.Foundations.CRuntime.Buffer

/-!
# `sscanf`

The part of `sscanf` that text protocols parsed by hand use: scansets that stop at one character,
stored or suppressed, single characters that must match, and words. A conversion that matches no
character fails and ends the scan, which leaves the destinations of the later conversions as they
were (`scanInto`). The scan itself is unbounded, so a value longer than its destination is
written past it.
-/

namespace AMSServer.CRuntime

/-- `isspace` in the C locale -/
def isSpace (c : Char) : Bool := c ∈ [' ', '\t', '\n', '\x0b', '\x0c', '\r']

/-- One directive of a format. -/
inductive Conv
  /-- `%*[^c]`: skip a non-empty run of characters other than `c`. -/
  | skipUntil (c : Char)
  /-- A character that must come next. -/
  | lit (c : Char)
  /-- `%[^c]`: store a non-empty run of characters other than `c`. -/
  | scanUntil (c : Char)
  /-- `%s`: skip white space and store a non-empty run without it. -/
  | word
  deriving DecidableEq

/-- `sscanf`: the values stored, up to the first directive that fails. -/
def sscanf : List Conv → Text → List Text
  | [], _ => []
  | .skipUntil c :: fmt, s =>
    if s.takeWhile (· ≠ c) = [] then [] else sscanf fmt (s.dropWhile (· ≠ c))
  | .lit c :: fmt, s => if s.head? = some c then sscanf fmt s.tail else []
  | .scanUntil c :: fmt, s =>
    if s.takeWhile (· ≠ c) = [] then []
    else s.takeWhile (· ≠ c) :: sscanf fmt (s.dropWhile (· ≠ c))
  | .word :: fmt, s =>
    let w := s.dropWhile isSpace
    if w.takeWhile (fun c => !isSpace c) = [] then []
    else w.takeWhile (fun c => !isSpace c) :: sscanf fmt (w.dropWhile fun c => !isSpace c)

/-- Every stored value is a part of the text scanned. -/
theorem infix_of_mem_sscanf {fmt : List Conv} {s v : Text} (h : v ∈ sscanf fmt s) : v <:+: s := by
  induction fmt generalizing s with
  | nil => simp [sscanf] at h
  | cons d fmt ih =>
    cases d with
    | skipUntil c =>
      simp only [sscanf] at h
      split at h
      · simp at h
      · exact (ih h).trans (List.dropWhile_suffix _).isInfix
    | lit c =>
      simp only [sscanf] at h
      split at h
      · exact (ih h).trans (List.tail_suffix s).isInfix
      · simp at h
    | scanUntil c =>
      simp only [sscanf] at h
      split at h
      · simp at h
      · rcases List.mem_cons.mp h with rfl | h
        · exact (List.takeWhile_prefix _).isInfix
        · exact (ih h).trans (List.dropWhile_suffix _).isInfix
    | word =>
      simp only [sscanf] at h
      split at h
      · simp at h
      · rcases List.mem_cons.mp h with rfl | h
        · exact (List.takeWhile_prefix _).isInfix.trans (List.dropWhile_suffix _).isInfix
        · exact ((ih h).trans (List.dropWhile_suffix _).isInfix).trans
            (List.dropWhile_suffix _).isInfix

/-- `sscanf(s, fmt, b)` with one stored value: `b` is unchanged when the scan ends before it. -/
def CBuf.scanInto {n : ℕ} (b : CBuf n) (fmt : List Conv) (s : Text) : Except Fault (CBuf n) :=
  match sscanf fmt s with
  | [] => .ok b
  | v :: _ => CBuf.store n v

/-- A scan of text that fits the destination stays inside it. -/
theorem CBuf.exists_scanInto {n : ℕ} (b : CBuf n) (fmt : List Conv) {s : Text} (hs : nul ∉ s)
    (h : s.length < n) :
    ∃ b' : CBuf n, b.scanInto fmt s = .ok b' ∧ b'.text = (sscanf fmt s).headD b.text := by
  unfold scanInto
  cases hv : sscanf fmt s with
  | nil => exact ⟨b, rfl, rfl⟩
  | cons v vs =>
    have hin : v <:+: s := infix_of_mem_sscanf (by rw [hv]; exact List.mem_cons_self)
    exact CBuf.exists_store (fun hn => hs (hin.subset hn)) (hin.length_le.trans_lt h)

/-- A scan into a cleared buffer stores the value exactly when it fits. -/
theorem CBuf.scanInto_empty (n : ℕ) [NeZero n] (fmt : List Conv) {s : Text} (hs : nul ∉ s) :
    (∃ b : CBuf n, CBuf.empty.scanInto fmt s = .ok b ∧ b.text = (sscanf fmt s).headD [] ∧
      ((sscanf fmt s).headD []).length < n) ∨
    ((CBuf.empty : CBuf n).scanInto fmt s = .error .overrun ∧
      n ≤ ((sscanf fmt s).headD []).length) := by
  unfold scanInto
  cases hv : sscanf fmt s with
  | nil => exact Or.inl ⟨CBuf.empty, rfl, rfl, Nat.pos_of_neZero n⟩
  | cons v vs =>
    have hin : v <:+: s := infix_of_mem_sscanf (by rw [hv]; exact List.mem_cons_self)
    have hfree : nul ∉ v := fun h => hs (hin.subset h)
    by_cases hlen : v.length < n
    · obtain ⟨b, hb, htext⟩ := CBuf.exists_store hfree hlen
      exact Or.inl ⟨b, hb, htext, hlen⟩
    · refine Or.inr ⟨?_, not_lt.mp hlen⟩
      change CBuf.store n v = _
      rw [CBuf.store, dif_neg (by rwa [cstr_of_notMem hfree])]

/-- A scan into a cleared buffer stores no more than the text has. -/
theorem CBuf.length_scanInto_le {n : ℕ} [NeZero n] {fmt : List Conv} {s : Text} {b : CBuf n}
    (h : CBuf.empty.scanInto fmt s = .ok b) : b.text.length ≤ s.length := by
  unfold scanInto at h
  cases hv : sscanf fmt s with
  | nil =>
    rw [hv] at h
    cases h
    exact Nat.zero_le _
  | cons v vs =>
    have hin : v <:+: s := infix_of_mem_sscanf (by rw [hv]; exact List.mem_cons_self)
    rw [hv] at h
    rw [CBuf.store_eq_ok.mp h]
    exact (length_cstr_le v).trans hin.length_le

/-! ## Two formats -/

/-- `"%*[^a]a%[^b]"`: what stands between the first `a` and the next `b`. -/
def between (a b : Char) : List Conv := [.skipUntil a, .lit a, .scanUntil b]

/-- Between the `a` that ends a non-empty key and the next `b`, nothing is stored when there is
nothing. -/
theorem headD_sscanf_between {a b : Char} {key : Text} (hkey : key ≠ []) (ha : a ∉ key)
    (s : Text) :
    (sscanf (between a b) (key ++ a :: s)).headD [] = s.takeWhile (· ≠ b) := by
  simp only [between, sscanf, takeWhile_ne_append ha, dropWhile_ne_append ha, hkey, if_false,
    List.head?_cons, if_true, List.tail_cons]
  split
  · next h => exact h.symm
  · simp

/-- `"%*[^a]a%s"`: the word after the first `a`. -/
def wordAfter (a : Char) : List Conv := [.skipUntil a, .lit a, .word]

/-- The word that `%s` stores. -/
def firstWord (s : Text) : Text := (s.dropWhile isSpace).takeWhile fun c => !isSpace c

/-- The word is the first one after the first `a`, unless the text begins with `a`. -/
theorem headD_sscanf_wordAfter {a c : Char} (hc : c ≠ a) (s : Text) :
    (sscanf (wordAfter a) (c :: s)).headD [] =
      firstWord (((c :: s).dropWhile (· ≠ a)).tail) := by
  have hskip : ¬ (c :: s).takeWhile (· ≠ a) = [] := by simp [hc]
  simp only [wordAfter, sscanf, hskip, if_false]
  cases hrest : (c :: s).dropWhile (· ≠ a) with
  | nil => rfl
  | cons d t =>
    have hd : d = a := by
      have h := List.head?_dropWhile_not (· ≠ a) (c :: s)
      rw [hrest] at h
      simpa using h
    rw [List.head?_cons, hd, if_pos rfl, List.tail_cons]
    split
    · next h => exact h.symm
    · rfl

/-- A word that stands first is the one that is stored. -/
theorem firstWord_append {w : Text} (hne : w ≠ []) (hw : ∀ c ∈ w, isSpace c = false) {c : Char}
    (hc : isSpace c = true) (s : Text) : firstWord (w ++ c :: s) = w := by
  obtain ⟨d, w, rfl⟩ := List.exists_cons_of_ne_nil hne
  have hd : isSpace d = false := hw d List.mem_cons_self
  rw [firstWord, List.cons_append, List.dropWhile_cons_of_neg (by simp [hd]), ← List.cons_append,
    List.takeWhile_append_of_pos fun e he => by simp [hw e he],
    List.takeWhile_cons_of_neg (by simp [hc]), List.append_nil]

/-- There is no word in white space. -/
theorem firstWord_eq_nil {s : Text} : firstWord s = [] ↔ ∀ c ∈ s, isSpace c = true := by
  rw [firstWord, ← List.dropWhile_eq_nil_iff]
  cases hrest : s.dropWhile isSpace with
  | nil => exact iff_of_true rfl rfl
  | cons c t =>
    have hc : isSpace c = false := by
      have h := List.head?_dropWhile_not isSpace s
      rw [hrest] at h
      exact h
    rw [List.takeWhile_cons_of_pos (by simp [hc])]
    exact iff_of_false (List.cons_ne_nil _ _) (List.cons_ne_nil _ _)

end AMSServer.CRuntime
