import Mathlib.Data.List.TakeWhile
import Mathlib.Data.List.Infix

/-!
# C strings

The `char` arrays of a C program as lists of characters, and the searching functions of the C
runtime on them. A C string is what stands before the first terminator (`cstr`); the functions
that take strings (`strstr`, `strnicmp`) are given that text.

The one fact about `strstr` that programs scanning separated fields rely on is `strstr_append`:
a needle without the separator never matches across one, so the search goes field by field.
-/

namespace AMSServer.CRuntime

/-- A run of `char`s. -/
abbrev Text := List Char

/-- The terminator of a C string. -/
abbrev nul : Char := '\x00'

/-! ## Up to a character -/

theorem takeWhile_ne_of_notMem {c : Char} {t : Text} (h : c ∉ t) : t.takeWhile (· ≠ c) = t := by
  refine List.takeWhile_eq_self_iff.mpr fun d hd => ?_
  simpa using ne_of_mem_of_not_mem hd h

theorem takeWhile_ne_append {c : Char} {t : Text} (h : c ∉ t) (s : Text) :
    (t ++ c :: s).takeWhile (· ≠ c) = t := by
  rw [List.takeWhile_append_of_pos]
  · simp
  · intro d hd
    simpa using ne_of_mem_of_not_mem hd h

theorem dropWhile_ne_append {c : Char} {t : Text} (h : c ∉ t) (s : Text) :
    (t ++ c :: s).dropWhile (· ≠ c) = c :: s := by
  rw [List.dropWhile_append_of_pos]
  · simp
  · intro d hd
    simpa using ne_of_mem_of_not_mem hd h

/-! ## The string in an array -/

/-- The C string at the start of an array: its characters before the first terminator. -/
def cstr (s : Text) : Text := s.takeWhile (· ≠ nul)

theorem nul_notMem_cstr (s : Text) : nul ∉ cstr s := by
  intro h
  simpa using List.mem_takeWhile_imp h

theorem cstr_of_notMem {s : Text} (h : nul ∉ s) : cstr s = s := takeWhile_ne_of_notMem h

/-- The string that a terminator ends, whatever follows. -/
theorem cstr_append_nul {t : Text} (h : nul ∉ t) (s : Text) : cstr (t ++ nul :: s) = t :=
  takeWhile_ne_append h s

/-- An array with a terminator, from its string. -/
theorem exists_eq_cstr_append {s : Text} (h : nul ∈ s) : ∃ t, s = cstr s ++ nul :: t := by
  obtain ⟨a, b, rfl, ha⟩ := List.eq_append_cons_of_mem h
  exact ⟨b, by rw [cstr_append_nul ha]⟩

theorem length_cstr_le (s : Text) : (cstr s).length ≤ s.length :=
  (List.takeWhile_prefix _).length_le

/-! ## Searching -/

/-- `strstr(s, needle)`: the rest of `s` from the first occurrence of `needle`. -/
def strstr : Text → Text → Option Text
  | [], needle => if needle = [] then some [] else none
  | c :: s, needle => if needle <+: c :: s then some (c :: s) else strstr s needle

theorem strstr_of_prefix {s needle : Text} (h : needle <+: s) : strstr s needle = some s := by
  cases s with
  | nil => simp [strstr, List.prefix_nil.mp h]
  | cons c s => simp [strstr, h]

/-- What `strstr` returns is a rest of the text that starts with the needle. -/
theorem strstr_eq_some {s needle t : Text} (h : strstr s needle = some t) :
    t <:+ s ∧ needle <+: t := by
  induction s with
  | nil =>
    simp only [strstr] at h
    split at h
    · next hn => cases h; simp [hn]
    · cases h
  | cons c s ih =>
    simp only [strstr] at h
    split at h
    · next hn => cases h; exact ⟨List.suffix_rfl, hn⟩
    · exact ⟨(ih h).1.trans (List.suffix_cons c s), (ih h).2⟩

/-- `strstr` finds the needle exactly when it occurs. -/
theorem isSome_strstr {s needle : Text} : (strstr s needle).isSome ↔ needle <:+: s := by
  induction s with
  | nil => simp [strstr, apply_ite Option.isSome]
  | cons c s ih =>
    simp only [strstr, List.infix_cons_iff]
    split
    · next hn => simp [hn]
    · next hn => simp [hn, ih]

theorem strstr_eq_none {s needle : Text} : strstr s needle = none ↔ ¬ needle <:+: s := by
  rw [← isSome_strstr, Option.not_isSome_iff_eq_none]

/-- Text without the separator is a prefix of `a ++ sep :: b` only as a prefix of `a`. -/
theorem prefix_append_sep {needle a b : Text} {sep : Char} (hs : sep ∉ needle) :
    needle <+: a ++ sep :: b ↔ needle <+: a := by
  refine ⟨fun h => ?_, fun h => h.trans (List.prefix_append _ _)⟩
  by_contra hn
  have hlen : a.length < needle.length := by
    by_contra hle
    exact hn (List.prefix_of_prefix_length_le h (List.prefix_append _ _) (by omega))
  obtain ⟨t, ht⟩ := List.prefix_of_prefix_length_le (List.prefix_append a (sep :: b)) h hlen.le
  rw [← ht, List.prefix_append_right_inj] at h
  cases t with
  | nil => simp [← ht] at hlen
  | cons c t =>
    obtain rfl := (List.cons_prefix_cons.mp h).1
    exact hs (by simp [← ht])

/-- **A needle without the separator is searched for field by field.** -/
theorem strstr_append {needle : Text} {sep : Char} (hn : needle ≠ []) (hs : sep ∉ needle)
    (a b : Text) :
    strstr (a ++ sep :: b) needle =
      ((strstr a needle).map (· ++ sep :: b)).or (strstr b needle) := by
  induction a with
  | nil =>
    have h : ¬ needle <+: sep :: b := by
      simpa [hn] using (prefix_append_sep (a := []) (b := b) hs).not
    simp [strstr, h, hn]
  | cons c a ih =>
    have h := prefix_append_sep (a := c :: a) (b := b) hs
    rw [List.cons_append] at h
    simp only [List.cons_append, strstr, h]
    split
    · simp
    · exact ih

/-! ## Comparing without case -/

/-- `0 == _strnicmp(s, t, n)`: the first `n` characters agree up to the case of ASCII letters. -/
def strnicmpEq (s t : Text) (n : ℕ) : Bool :=
  (s.take n).map Char.toLower == (t.take n).map Char.toLower

theorem toLower_eq_equals {c : Char} : c.toLower = '=' ↔ c = '=' := by
  refine ⟨fun h => ?_, fun h => by rw [h]; decide⟩
  unfold Char.toLower at h
  split at h
  · next hc =>
    -- a capital becomes a small letter, which `=` is not
    have hval := congrArg Char.toNat h
    have h1 := UInt32.le_iff_toNat_le.mp hc.1
    have h2 := UInt32.le_iff_toNat_le.mp hc.2
    simp only [Char.toNat, UInt32.toNat_add] at hval h1 h2
    have e1 : UInt32.toNat ('A').val = 65 := rfl
    have e2 : UInt32.toNat ('Z').val = 90 := rfl
    have e3 : UInt32.toNat ('a'.val - 'A'.val) = 32 := rfl
    have e4 : UInt32.toNat ('=').val = 61 := rfl
    omega
  · exact h

theorem equals_notMem_of_map_toLower {w key : Text} (h : w.map Char.toLower = key.map Char.toLower)
    (hkey : '=' ∉ key) : '=' ∉ w := by
  intro hw
  have hmem : '=' ∈ key.map Char.toLower := h ▸ List.mem_map.mpr ⟨'=', hw, by decide⟩
  obtain ⟨c, hc, hlow⟩ := List.mem_map.mp hmem
  exact hkey (toLower_eq_equals.mp hlow ▸ hc)

/-- A text starts with `key=`, up to case, when it starts with such a key and an `=`. -/
theorem strnicmpEq_key {s key : Text} :
    strnicmpEq s (key ++ ['=']) (key ++ ['=']).length = true ↔
      ∃ w rest, s = w ++ '=' :: rest ∧ w.map Char.toLower = key.map Char.toLower := by
  rw [strnicmpEq, beq_iff_eq, List.take_length]
  constructor
  · intro h
    have hlen : ((s.take (key ++ ['=']).length).map Char.toLower).length = key.length + 1 := by
      rw [h]; simp
    have hsplit := List.take_append_drop (key.length + 1) s
    simp only [List.length_append, List.length_singleton, List.length_map] at h hlen
    obtain ⟨w, c, hwc⟩ : ∃ w c, s.take (key.length + 1) = w ++ [c] :=
      ⟨_, _, (List.dropLast_append_getLast (List.ne_nil_of_length_eq_add_one hlen)).symm⟩
    rw [hwc, List.map_append, List.map_append] at h
    obtain ⟨hw, hc⟩ := List.append_inj' h rfl
    have hc' : c = '=' := toLower_eq_equals.mp (by simpa using hc)
    refine ⟨w, s.drop (key.length + 1), ?_, hw⟩
    rw [hwc, hc'] at hsplit
    simpa using hsplit.symm
  · rintro ⟨w, rest, rfl, hw⟩
    have hlen : (key ++ ['=']).length = (w ++ ['=']).length := by
      have := congrArg List.length hw
      simpa using this.symm
    have hs : w ++ '=' :: rest = (w ++ ['=']) ++ rest := by simp
    rw [hlen, hs, List.take_left, List.map_append, List.map_append, hw]

/-- A text starts with one key only. -/
theorem map_toLower_eq_of_strnicmpEq {s key key' : Text} (hk : '=' ∉ key) (hk' : '=' ∉ key')
    (h : strnicmpEq s (key ++ ['=']) (key ++ ['=']).length = true)
    (h' : strnicmpEq s (key' ++ ['=']) (key' ++ ['=']).length = true) :
    key.map Char.toLower = key'.map Char.toLower := by
  obtain ⟨w, rest, rfl, hw⟩ := strnicmpEq_key.mp h
  obtain ⟨w', rest', heq, hw'⟩ := strnicmpEq_key.mp h'
  have hword := congrArg (List.takeWhile (· ≠ '=')) heq
  rw [takeWhile_ne_append (equals_notMem_of_map_toLower hw hk),
    takeWhile_ne_append (equals_notMem_of_map_toLower hw' hk')] at hword
  rw [← hw, hword, hw']

end AMSServer.CRuntime
