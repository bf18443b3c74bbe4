import AMSServer.Foundations.CRuntime.Scan

/-!
# Query strings

A query string `first&key=value&key=value...` and two ways to look a key up in it: by splitting
at `&` and taking the first item with the key (`List.lookup` on the items), and by searching the
whole text for `key=` as programs without a splitter do. The search is `findSome?` of `mention`
over the segments (`findSome_mention`), so the two agree exactly when the first segment that
mentions `key=` is the first item with the key.
-/

namespace AMSServer.Fields

open CRuntime

/-- An item of a query string: its key and its value. -/
abbrev Item := Text × Text

/-- The text `key=value` of an item. -/
def Item.text (i : Item) : Text := i.1 ++ '=' :: i.2

/-- The query string with the given first segment and items. -/
def query (first : Text) (items : List Item) : Text :=
  first ++ items.flatMap fun i => '&' :: i.text

/-- A segment read as an item: what stands before and after its first `=`. -/
def toItem (seg : Text) : Item := (seg.takeWhile (· ≠ '='), (seg.dropWhile (· ≠ '=')).tail)

theorem toItem_text {i : Item} (h : '=' ∉ i.1) : toItem i.text = i := by
  rw [toItem, Item.text, takeWhile_ne_append h, dropWhile_ne_append h, List.tail_cons]

/-- Splitting a query string gives back its segments. -/
theorem splitOn_query {first : Text} {items : List Item} (hfirst : '&' ∉ first)
    (hitems : ∀ i ∈ items, '&' ∉ i.text) :
    (query first items).splitOn '&' = first :: items.map Item.text := by
  induction items generalizing first with
  | nil => simp [query, List.splitOn_eq_singleton hfirst]
  | cons i items ih =>
    have hi : '&' ∉ i.text := hitems i (by simp)
    have hq : query first (i :: items) = first ++ '&' :: query i.text items := by
      simp [query]
    rw [hq, List.splitOn_append_cons_self_of_not_mem hfirst,
      ih hi fun j hj => hitems j (by simp [hj]), List.map_cons]

/-- The first segment of a query string. -/
theorem takeWhile_query {first : Text} (h : '&' ∉ first) (items : List Item) :
    (query first items).takeWhile (· ≠ '&') = first := by
  cases items with
  | nil => rw [query, List.flatMap_nil, List.append_nil, takeWhile_ne_of_notMem h]
  | cons i items => rw [query, List.flatMap_cons, List.cons_append, takeWhile_ne_append h]

/-! ## Searching for `key=` -/

/-- What follows the first `name=` in a segment. -/
def mention (name seg : Text) : Option Text :=
  (strstr seg (name ++ ['='])).map (·.drop (name.length + 1))

theorem isSome_mention {name seg : Text} :
    (mention name seg).isSome ↔ name ++ ['='] <:+: seg := by
  rw [mention, Option.isSome_map, isSome_strstr]

/-- An item mentions its own key, and its value follows. -/
theorem mention_self (i : Item) : mention i.1 i.text = some i.2 := by
  have h : i.1 ++ ['='] <+: i.text := ⟨i.2, by simp [Item.text]⟩
  rw [mention, strstr_of_prefix h, Option.map_some, Item.text]
  simp

/-- With no `=` in its value, an item mentions only the suffixes of its key. -/
theorem mention_eq_none {name : Text} {i : Item} (hk : '=' ∉ i.1) (hv : '=' ∉ i.2)
    (hs : ¬ name <:+ i.1) : mention name i.text = none := by
  rw [← Option.not_isSome_iff_eq_none, isSome_mention]
  rintro ⟨a, b, h⟩
  apply hs
  have h' : (a ++ name) ++ '=' :: b = i.1 ++ '=' :: i.2 := by simpa [Item.text] using h
  rcases List.append_eq_append_iff.mp h' with ⟨t, h1, h2⟩ | ⟨t, h1, h2⟩
  · -- the `=` of the mention stands before that of the item
    cases t with
    | nil => exact ⟨a, by simpa using h1.symm⟩
    | cons c t =>
      obtain ⟨rfl, -⟩ := List.cons.inj h2
      exact absurd (by simp [h1]) hk
  · cases t with
    | nil => exact ⟨a, by simpa using h1⟩
    | cons c t =>
      obtain ⟨-, h2⟩ := List.cons.inj h2
      exact absurd (by simp [h2]) hv

/-- With no `=` in the values and no key that ends in the name but the name itself, searching the
items for `name=` looks the name up. -/
theorem findSome_mention_items {name : Text} {items : List Item}
    (hitems : ∀ i ∈ items, '=' ∉ i.1 ∧ '=' ∉ i.2) (hname : ∀ i ∈ items, name <:+ i.1 → i.1 = name) :
    (items.map Item.text).findSome? (mention name) = items.lookup name := by
  induction items with
  | nil => rfl
  | cons i items ih =>
    have hrest := ih (fun j hj => hitems j (by simp [hj])) fun j hj => hname j (by simp [hj])
    rw [List.map_cons, List.findSome?_cons, hrest, List.lookup_cons]
    by_cases hi : name = i.1
    · rw [hi, mention_self, beq_self_eq_true]
    · have hnone : mention name i.text = none := by
        have ⟨hk, hv⟩ := hitems i (by simp)
        exact mention_eq_none hk hv fun hs => hi (hname i (by simp) hs).symm
      rw [hnone, beq_false_of_ne hi]

/-- Searching a text for a needle without `&` searches its segments in order. -/
theorem strstr_splitOn {needle : Text} (hn : needle ≠ []) (ha : '&' ∉ needle) (s : Text) :
    (strstr s needle).map (·.takeWhile (· ≠ '&')) =
      (s.splitOn '&').findSome? (strstr · needle) := by
  have hfree : ∀ {seg t : Text}, '&' ∉ seg → strstr seg needle = some t → '&' ∉ t :=
    fun hseg ht h => hseg ((strstr_eq_some ht).1.subset h)
  induction hlen : s.length using Nat.strong_induction_on generalizing s with
  | _ m ih =>
    by_cases h : '&' ∈ s
    · obtain ⟨a, b, rfl, hseg⟩ := List.eq_append_cons_of_mem h
      have hb := ih b.length (by simp at hlen; omega) b rfl
      rw [strstr_append hn ha, List.splitOn_append_cons_self_of_not_mem hseg,
        List.findSome?_cons, ← hb]
      cases ht : strstr a needle with
      | none => rfl
      | some t => exact congrArg some (takeWhile_ne_append (hfree hseg ht) b)
    · rw [List.splitOn_eq_singleton h, List.findSome?_singleton]
      cases ht : strstr s needle with
      | none => rfl
      | some t => exact congrArg some (takeWhile_ne_of_notMem (hfree h ht))

/-- **Searching a query string for `name=` reads the first segment that mentions it.** -/
theorem findSome_mention {name : Text} (ha : '&' ∉ name) (s : Text) :
    (strstr s (name ++ ['='])).map (fun t => (t.drop (name.length + 1)).takeWhile (· ≠ '&')) =
      (s.splitOn '&').findSome? (mention name) := by
  have hkey := @strstr_splitOn (name ++ ['=']) (by simp) (by simp [ha]) s
  have hmap := congrArg (Option.map (·.drop (name.length + 1))) hkey
  rw [List.map_findSome?, Option.map_map] at hmap
  refine Eq.trans ?_ hmap
  refine Option.map_congr fun t ht => ?_
  -- the name and its `=` stand before any `&`
  obtain ⟨u, rfl⟩ := (strstr_eq_some ht).2
  have hpos : ∀ c ∈ name ++ ['='], decide (c ≠ '&') = true := fun c hc => by
    simpa using ne_of_mem_of_not_mem hc (by simp [ha])
  have hlen : (name ++ ['=']).length = name.length + 1 := by simp
  rw [Function.comp_apply, List.takeWhile_append_of_pos hpos, ← hlen, List.drop_left,
    List.drop_left]

/-! ## Looking a key up -/

/-- Where all items with a key have the same value, the order of the items does not matter. -/
theorem lookup_of_unique {items : List Item} {i : Item} (hi : i ∈ items)
    (hunique : ∀ j ∈ items, j.1 = i.1 → j.2 = i.2) : items.lookup i.1 = some i.2 := by
  induction items with
  | nil => cases hi
  | cons j items ih =>
    rw [List.lookup_cons]
    by_cases hj : i.1 = j.1
    · rw [beq_iff_eq.mpr hj]
      exact congrArg some (hunique j List.mem_cons_self hj.symm)
    · rw [beq_false_of_ne hj]
      refine ih ((List.mem_cons.mp hi).resolve_left ?_) fun k hk =>
        hunique k (List.mem_cons_of_mem _ hk)
      rintro rfl
      exact hj rfl

end AMSServer.Fields
