import KeepSse.Json.RoundTrip

/-!
# The grammar of JSON texts

Which texts are JSON texts of which values, as a grammar in place of a reader; and the reader of
`Json.Basic` accepts just these (`parse_eq_some_iff`).

The grammar is in three layers. A string literal is made of code units (`Units`), which spell a text
(`Spells`): the two surrogates of a pair are written apart and mean one character. A bracketed list
has items with commas between them (`Items`), whatever an item is. A value is a literal word, a
number, a string or a list of values or of members (`ValueText`).

White space belongs to what it comes before, or to the comma or the closing bracket after an item.
So the text of an item is followed by something that cannot be part of a number, and the reader,
which takes as many characters for a number as it can, stops where the grammar does.
-/

namespace Json

open Text

/-! ### White space and words -/

/-- White space. -/
def IsSpaces (w : Str) : Prop :=
  ∀ c ∈ w, isSpace c = true

theorem exists_spaces (s : Str) : ∃ w, s = w ++ skipSpace s ∧ IsSpaces w := by
  refine ⟨s.takeWhile isSpace, List.takeWhile_append_dropWhile.symm, ?_⟩
  exact List.all_eq_true.1 List.all_takeWhile

theorem skipSpace_append {w : Str} (hw : IsSpaces w) (s : Str) :
    skipSpace (w ++ s) = skipSpace s := by
  rw [skipSpace, List.dropWhile_append_of_pos hw, ← skipSpace]

theorem skipSpace_append_of_eq_cons {s t : Str} {c : Char} (h : skipSpace s = c :: t) (u : Str) :
    skipSpace (s ++ u) = c :: (t ++ u) := by
  rw [skipSpace] at h ⊢
  rw [List.dropWhile_append, h]
  rfl

theorem skipSpace_eq_nil_iff {s : Str} : skipSpace s = [] ↔ IsSpaces s := by
  constructor
  · intro h
    obtain ⟨w, hs, hw⟩ := exists_spaces s
    rw [h, List.append_nil] at hs
    exact hs ▸ hw
  · intro h
    rw [← List.append_nil s, skipSpace_append h]
    rfl

theorem expect_eq_some_iff {w s r : Str} : expect w s = some r ↔ s = w ++ r := by
  constructor
  · intro h
    rw [expect, Option.ite_none_right_eq_some, List.isPrefixOf_iff_prefix] at h
    obtain ⟨⟨t, rfl⟩, hr⟩ := h
    rw [List.drop_left, Option.some_inj] at hr
    rw [hr]
  · rintro rfl
    exact expect_append w r

/-- White space is no part of a number. -/
theorem isNumberChar_of_isSpace {c : Char} (h : isSpace c = true) : isNumberChar c = false := by
  simp only [isSpace, Bool.or_eq_true, beq_iff_eq] at h
  rcases h with ((rfl | rfl) | rfl) | rfl <;> decide

theorem endsNumber_append {w r : Str} (hw : IsSpaces w) (hr : EndsNumber r) :
    EndsNumber (w ++ r) := by
  cases w with
  | nil => exact hr
  | cons c w => exact endsNumber_cons (isNumberChar_of_isSpace (hw c List.mem_cons_self)) _

/-! ### Strings -/

/-- The inside of a string literal, and its code units. -/
inductive Units : Str → List ℕ → Prop
  | nil : Units [] []
  | plain {c : Char} {s : Str} {us : List ℕ} (hcontrol : 32 ≤ c.toNat) (hquote : c ≠ '\x22')
    (hslash : c ≠ '\\') (h : Units s us) : Units (c :: s) (c.toNat :: us)
  | escape {e c : Char} {s : Str} {us : List ℕ} (he : unescape e = some c) (h : Units s us) :
    Units ('\\' :: e :: s) (c.toNat :: us)
  | hex {a b c d : Char} {i j k l : ℕ} {s : Str} {us : List ℕ} (ha : hexValue a = some i)
    (hb : hexValue b = some j) (hc : hexValue c = some k) (hd : hexValue d = some l)
    (h : Units s us) :
    Units ('\\' :: 'u' :: a :: b :: c :: d :: s) ((((i * 16 + j) * 16 + k) * 16 + l) :: us)

/-- The text that some code units spell. -/
inductive Spells : List ℕ → Str → Prop
  | nil : Spells [] []
  | unit {u : ℕ} {us : List ℕ} {t : Str} (hu : u.isValidChar) (h : Spells us t) :
    Spells (u :: us) (Char.ofNat u :: t)
  | pair {u v : ℕ} {us : List ℕ} {t : Str} (hu : 0xD800 ≤ u ∧ u < 0xDC00)
    (hv : 0xDC00 ≤ v ∧ v < 0xE000) (h : Spells us t) :
    Spells (u :: v :: us) (Char.ofNat (0x10000 + (u - 0xD800) * 0x400 + (v - 0xDC00)) :: t)

/-- The inside of a string literal, and its text. -/
def StringText (s t : Str) : Prop :=
  ∃ us, Units s us ∧ Spells us t

theorem units_of_codeUnits {s r : Str} {us : List ℕ} (h : codeUnits s = some (us, r)) :
    ∃ t, s = t ++ '\x22' :: r ∧ Units t us := by
  fun_induction codeUnits s generalizing us with
  | case1 => cases h
  | case2 a b c d s ih =>
    simp only [Option.bind_eq_bind, Option.bind_eq_some_iff, Option.map_eq_some_iff] at h
    obtain ⟨i, ha, j, hb, k, hc, l, hd, ⟨us', r'⟩, hrest, heq⟩ := h
    obtain ⟨rfl, rfl⟩ := Prod.mk.inj heq
    obtain ⟨t, rfl, ht⟩ := ih hrest
    exact ⟨_, rfl, .hex ha hb hc hd ht⟩
  | case3 e s hne ih =>
    simp only [Option.bind_eq_bind, Option.bind_eq_some_iff, Option.map_eq_some_iff] at h
    obtain ⟨c, he, ⟨us', r'⟩, hrest, heq⟩ := h
    obtain ⟨rfl, rfl⟩ := Prod.mk.inj heq
    obtain ⟨t, rfl, ht⟩ := ih hrest
    exact ⟨_, rfl, .escape he ht⟩
  | case4 s =>
    obtain ⟨rfl, rfl⟩ := Prod.mk.inj (Option.some.inj h)
    exact ⟨[], rfl, .nil⟩
  | case5 c s => cases h
  | case6 c s h₁ h₂ h₃ h₄ ih =>
    rw [not_or] at h₄
    obtain ⟨⟨us', r'⟩, hrest, heq⟩ := Option.map_eq_some_iff.1 h
    obtain ⟨rfl, rfl⟩ := Prod.mk.inj heq
    obtain ⟨t, rfl, ht⟩ := ih hrest
    exact ⟨_, rfl, .plain (Nat.not_lt.1 h₄.1) h₃ h₄.2 ht⟩

theorem codeUnits_of_units {s r : Str} {us : List ℕ} (h : Units s us) :
    codeUnits (s ++ '\x22' :: r) = some (us, r) := by
  induction h with
  | nil => simp [codeUnits]
  | @plain c s us hcontrol hquote hslash h ih =>
    have hplain : ¬(c.toNat < 32 ∨ c = '\\') := by simp [hslash]; omega
    rw [List.cons_append, codeUnits, if_neg hquote, if_neg hplain, ih]
    · rfl
    all_goals simp_all
  | @escape e c s us he h ih =>
    have hu : e ≠ 'u' := by
      rintro rfl
      rw [show unescape 'u' = none by decide] at he
      cases he
    rw [List.cons_append, List.cons_append, codeUnits, he, ih]
    · rfl
    · simp [hu]
  | hex ha hb hc hd h ih => simp [codeUnits, ha, hb, hc, hd, ih]

theorem spells_iff {us : List ℕ} {t : Str} : fromCodeUnits us = some t ↔ Spells us t := by
  constructor
  · intro h
    fun_induction fromCodeUnits us generalizing t with
    | case1 => exact Option.some.inj h ▸ .nil
    | case2 u hu => exact Option.some.inj h ▸ .unit hu .nil
    | case3 u hu => cases h
    | case4 u v us hu hv ih =>
      obtain ⟨t, ht, rfl⟩ := Option.map_eq_some_iff.1 h
      exact .pair hu hv (ih ht)
    | case5 u v us hu hv => cases h
    | case6 u v us hu hvalid ih =>
      obtain ⟨t, ht, rfl⟩ := Option.map_eq_some_iff.1 h
      exact .unit hvalid (ih ht)
    | case7 u v us hu hvalid => cases h
  · intro h
    induction h with
    | nil => rfl
    | @unit u us t hu h ih =>
      have hsurrogate : ¬(0xD800 ≤ u ∧ u < 0xDC00) := by
        rcases hu with hu | hu <;> omega
      cases us with
      | nil =>
        cases h
        simp [fromCodeUnits, hu]
      | cons v us => rw [fromCodeUnits, if_neg hsurrogate, if_pos hu, ih, Option.map_some]
    | pair hu hv h ih => rw [fromCodeUnits, if_pos hu, if_pos hv, ih, Option.map_some]

/-- **String literals are read by their grammar.** -/
theorem string_eq_some_iff {s t r : Str} :
    string s = some (t, r) ↔ ∃ l, s = l ++ '\x22' :: r ∧ StringText l t := by
  constructor
  · intro h
    simp only [string, Option.bind_eq_bind, Option.bind_eq_some_iff, Option.some_inj,
      Prod.mk.injEq] at h
    obtain ⟨⟨us, r'⟩, hunits, t', ht, rfl, rfl⟩ := h
    obtain ⟨l, hl, hus⟩ := units_of_codeUnits hunits
    exact ⟨l, hl, us, hus, spells_iff.1 ht⟩
  · rintro ⟨l, rfl, us, hus, ht⟩
    simp [string, codeUnits_of_units hus, spells_iff.2 ht]

/-! ### Numbers -/

/-- A number literal is read to where it stops looking like one. -/
theorem number_eq_some_iff {s r : Str} {n : Number} :
    number s = some (n, r) ↔ s = n.literal ++ r ∧ EndsNumber r := by
  constructor
  · intro h
    simp only [number] at h
    split at h
    · next hvalid =>
      obtain ⟨rfl, rfl⟩ := Prod.mk.inj (Option.some.inj h)
      refine ⟨List.takeWhile_append_dropWhile.symm, fun c hc ↦ ?_⟩
      have hhead := List.head?_dropWhile_not isNumberChar s
      rw [Option.mem_def.1 hc] at hhead
      exact hhead
    · cases h
  · rintro ⟨rfl, hr⟩
    exact number_literal n hr

/-! ### Lists -/

section

variable {α : Type}

/-- Items with commas between, each with white space after it. -/
inductive Separated (Item : Str → α → Prop) : Str → List α → Prop
  | single {s w : Str} {x : α} (hx : Item s x) (hw : IsSpaces w) : Separated Item (s ++ w) [x]
  | cons {s w t : Str} {x : α} {xs : List α} (hx : Item s x) (hw : IsSpaces w)
    (h : Separated Item t xs) : Separated Item (s ++ (w ++ ',' :: t)) (x :: xs)

/-- A list in brackets. -/
inductive Bracketed (op close : Char) (Item : Str → α → Prop) : Str → List α → Prop
  | none {w : Str} (hw : IsSpaces w) : Bracketed op close Item (op :: (w ++ [close])) []
  | some {s : Str} {xs : List α} (h : Separated Item s xs) :
    Bracketed op close Item (op :: (s ++ [close])) xs

/-- White space, and then a text of the given kind. -/
inductive Spaced (R : Str → α → Prop) : Str → α → Prop
  | mk {w s : Str} {x : α} (hw : IsSpaces w) (h : R s x) : Spaced R (w ++ s) x

variable {Item : Str → α → Prop} {item : Str → Option (α × Str)} {op close : Char}

theorem separated_of_commaSeparated
    (hitem : ∀ s x r, item s = some (x, r) → ∃ t, s = t ++ r ∧ Item t x) {k : ℕ} {s r : Str}
    {xs : List α} (h : commaSeparated item close k s = some (xs, r)) :
    ∃ t, s = t ++ close :: r ∧ Separated Item t xs := by
  induction k generalizing s xs with
  | zero => cases h
  | succ k ih =>
    rw [commaSeparated, Option.bind_eq_bind, Option.bind_eq_some_iff] at h
    obtain ⟨⟨x, s₁⟩, hx, hrest⟩ := h
    obtain ⟨t, rfl, ht⟩ := hitem s x s₁ hx
    obtain ⟨w, hw_eq, hw⟩ := exists_spaces s₁
    simp only at hrest
    -- what comes after the item and its white space: a comma or the end
    split at hrest
    · cases hrest
    · next c s₂ hskip =>
      rw [hskip] at hw_eq
      subst hw_eq
      split_ifs at hrest with hcomma hclose
      · subst hcomma
        rw [Option.bind_eq_bind, Option.bind_eq_some_iff] at hrest
        obtain ⟨⟨ys, s₃⟩, hys, heq⟩ := hrest
        obtain ⟨rfl, rfl⟩ := Prod.mk.inj (Option.some.inj heq)
        obtain ⟨u, rfl, hu⟩ := ih hys
        exact ⟨t ++ (w ++ ',' :: u), by simp, .cons ht hw hu⟩
      · obtain ⟨rfl, rfl⟩ := Prod.mk.inj (Option.some.inj hrest)
        subst hclose
        exact ⟨t ++ w, by simp, .single ht hw⟩

theorem Separated.length_le {s : Str} {xs : List α} (h : Separated Item s xs) :
    xs.length ≤ s.length + 1 := by
  induction h with
  | single hx hw => simp
  | cons hx hw h ih =>
    simp only [List.length_cons, List.length_append]
    omega

theorem commaSeparated_of_separated (hspace : isSpace close = false) (hcomma : close ≠ ',')
    (hnum : isNumberChar close = false) {n : ℕ}
    (hitem : ∀ t x r, t.length < n → Item t x → EndsNumber r → item (t ++ r) = some (x, r))
    {s : Str} {xs : List α} (h : Separated Item s xs) (hn : s.length < n) {k : ℕ}
    (hk : xs.length ≤ k) (r : Str) :
    commaSeparated item close k (s ++ close :: r) = some (xs, r) := by
  induction h generalizing k with
  | @single s w x hx hw =>
    obtain ⟨k, rfl⟩ := Nat.exists_eq_add_one.2 (Nat.lt_of_succ_le hk)
    have hread := hitem s x (w ++ close :: r) (by simp at hn; omega) hx
      (endsNumber_append hw (endsNumber_cons hnum r))
    rw [commaSeparated, List.append_assoc, hread]
    simp [skipSpace_append hw, skipSpace_cons hspace, hcomma]
  | @cons s w t x xs hx hw h ih =>
    simp only [List.length_append, List.length_cons] at hn hk
    obtain ⟨k, rfl⟩ := Nat.exists_eq_add_one.2 (Nat.zero_lt_of_lt hk)
    have hread := hitem s x (w ++ ',' :: (t ++ close :: r)) (by omega) hx
      (endsNumber_append hw (endsNumber_cons (by decide) _))
    have hrest := ih (by omega) (k := k) (by omega)
    rw [commaSeparated, List.append_assoc, List.append_assoc, List.cons_append, hread]
    simp [skipSpace_append hw, skipSpace_cons (show isSpace ',' = false by decide), hrest]

theorem bracketed_sound
    (hitem : ∀ s x r, item s = some (x, r) → ∃ t, s = t ++ r ∧ Item t x) {s r : Str}
    {xs : List α} (h : bracketed item close s = some (xs, r)) :
    ∃ t, s = t ++ r ∧ Bracketed op close Item (op :: t) xs := by
  rw [bracketed] at h
  split at h
  · cases h
  · next c t hskip =>
    split_ifs at h with hclose
    · obtain ⟨rfl, rfl⟩ := Prod.mk.inj (Option.some.inj h)
      obtain ⟨w, hs, hw⟩ := exists_spaces s
      rw [hskip, hclose] at hs
      exact ⟨w ++ [close], by simpa using hs, .none hw⟩
    · obtain ⟨t, hs, ht⟩ := separated_of_commaSeparated hitem h
      exact ⟨t ++ [close], by simpa using hs, .some ht⟩

theorem Separated.exists_head
    (hhead : ∀ t x, Item t x → ∃ c u, skipSpace t = c :: u ∧ c ≠ close) {s : Str} {xs : List α}
    (h : Separated Item s xs) : ∃ c u, skipSpace s = c :: u ∧ c ≠ close := by
  cases h with
  | single hx hw =>
    obtain ⟨c, u, hskip, hne⟩ := hhead _ _ hx
    exact ⟨c, _, skipSpace_append_of_eq_cons hskip _, hne⟩
  | cons hx hw h =>
    obtain ⟨c, u, hskip, hne⟩ := hhead _ _ hx
    exact ⟨c, _, skipSpace_append_of_eq_cons hskip _, hne⟩

theorem bracketed_complete (hspace : isSpace close = false) (hcomma : close ≠ ',')
    (hnum : isNumberChar close = false)
    (hhead : ∀ t x, Item t x → ∃ c u, skipSpace t = c :: u ∧ c ≠ close) {n : ℕ}
    (hitem : ∀ t x r, t.length < n → Item t x → EndsNumber r → item (t ++ r) = some (x, r))
    {t : Str} {xs : List α} (h : Bracketed op close Item t xs) (hn : t.length ≤ n) (r : Str) :
    ∃ s, t = op :: s ∧ bracketed item close (s ++ r) = some (xs, r) := by
  cases h with
  | @none w hw =>
    refine ⟨w ++ [close], rfl, ?_⟩
    rw [List.append_assoc, List.singleton_append]
    simp [bracketed, skipSpace_append hw, skipSpace_cons hspace]
  | @some s xs h =>
    simp only [List.length_cons, List.length_append] at hn
    refine ⟨s ++ [close], rfl, ?_⟩
    rw [List.append_assoc, List.singleton_append]
    obtain ⟨c, u, hskip, hne⟩ := h.exists_head hhead
    have hk : xs.length ≤ (s ++ close :: r).length := by
      have hlen := h.length_le
      rw [List.length_append, List.length_cons]
      omega
    rw [bracketed, skipSpace_append_of_eq_cons hskip]
    simp only [if_neg hne]
    exact commaSeparated_of_separated hspace hcomma hnum hitem h (by omega) hk r

end

/-! ### Values -/

section

variable {κ α : Type}

/-- A member of an object: a name, a colon and a value. -/
inductive MemberText (Name : Str → κ → Prop) (R : Str → α → Prop) : Str → κ × α → Prop
  | mk {w l w' s : Str} {k : κ} {v : α} (hw : IsSpaces w) (hk : Name l k) (hw' : IsSpaces w')
    (h : Spaced R s v) :
    MemberText Name R (w ++ '\x22' :: (l ++ '\x22' :: (w' ++ ':' :: s))) (k, v)

/-- What is left of a text of the given kind when white space is taken from both its ends. -/
def Padded (R : Str → α → Prop) (s : Str) (x : α) : Prop :=
  ∃ t w, s = t ++ w ∧ Spaced R t x ∧ IsSpaces w

end

/-- **A bracketed list that is a whole text** is read from its opening bracket on. -/
theorem padded_bracketed_iff {α : Type} {Item : Str → α → Prop} {item : Str → Option (α × Str)}
    {op close : Char} (hop : isSpace op = false) (hspace : isSpace close = false)
    (hcomma : close ≠ ',') (hnum : isNumberChar close = false)
    (hhead : ∀ t x, Item t x → ∃ c u, skipSpace t = c :: u ∧ c ≠ close)
    (hsound : ∀ s x r, item s = some (x, r) → ∃ t, s = t ++ r ∧ Item t x) {s : Str}
    (hcomplete : ∀ t x r, t.length < s.length + 1 → Item t x → EndsNumber r →
      item (t ++ r) = some (x, r)) {xs : List α} :
    Padded (Bracketed op close Item) s xs ↔
      ∃ u r, skipSpace s = op :: u ∧ bracketed item close u = some (xs, r) ∧ skipSpace r = [] := by
  constructor
  · rintro ⟨_, w, rfl, @⟨w', t, _, hw', h⟩, hw⟩
    have hlen : t.length ≤ (w' ++ t ++ w).length + 1 := by
      simp only [List.length_append]
      omega
    obtain ⟨u, rfl, hread⟩ := bracketed_complete hspace hcomma hnum hhead hcomplete h hlen w
    refine ⟨u ++ w, w, ?_, hread, skipSpace_eq_nil_iff.2 hw⟩
    rw [List.append_assoc, skipSpace_append hw', List.cons_append, skipSpace_cons hop]
  · rintro ⟨u, r, hskip, hread, hr⟩
    obtain ⟨w, hs, hw⟩ := exists_spaces s
    have hitems : ∃ t, u = t ++ r ∧ Bracketed op close Item (op :: t) xs :=
      bracketed_sound hsound hread
    obtain ⟨t, rfl, ht⟩ := hitems
    refine ⟨w ++ op :: t, r, ?_, .mk hw ht, skipSpace_eq_nil_iff.1 hr⟩
    rw [hskip] at hs
    simpa using hs

/-- **The texts of a value**, given the insides of its string literals. -/
inductive ValueText (Literal : Str → Str → Prop) : Str → Value → Prop
  | null : ValueText Literal "null".toList .null
  | true : ValueText Literal "true".toList (.bool Bool.true)
  | false : ValueText Literal "false".toList (.bool Bool.false)
  | number (n : Number) : ValueText Literal n.literal (.number n)
  | string {l t : Str} (h : Literal l t) :
    ValueText Literal ('\x22' :: (l ++ ['\x22'])) (.string t)
  | array {s : Str} {xs : List Value} (h : Bracketed '[' ']' (Spaced (ValueText Literal)) s xs) :
    ValueText Literal s (.array xs)
  | object {s : Str} {ms : List (Str × Value)}
    (h : Bracketed '{' '}' (MemberText Literal (ValueText Literal)) s ms) :
    ValueText Literal s (.object ms)

theorem padded_array_iff {Literal : Str → Str → Prop} {s : Str} {xs : List Value} :
    Padded (ValueText Literal) s (.array xs) ↔
      Padded (Bracketed '[' ']' (Spaced (ValueText Literal))) s xs := by
  constructor
  · rintro ⟨t, w, rfl, ⟨hw', h⟩, hw⟩
    cases h with
    | array h => exact ⟨_, w, rfl, .mk hw' h, hw⟩
  · rintro ⟨t, w, rfl, ⟨hw', h⟩, hw⟩
    exact ⟨_, w, rfl, .mk hw' (.array h), hw⟩

theorem padded_object_iff {Literal : Str → Str → Prop} {s : Str} {ms : List (Str × Value)} :
    Padded (ValueText Literal) s (.object ms) ↔
      Padded (Bracketed '{' '}' (MemberText Literal (ValueText Literal))) s ms := by
  constructor
  · rintro ⟨t, w, rfl, ⟨hw', h⟩, hw⟩
    cases h with
    | object h => exact ⟨_, w, rfl, .mk hw' h, hw⟩
  · rintro ⟨t, w, rfl, ⟨hw', h⟩, hw⟩
    exact ⟨_, w, rfl, .mk hw' (.object h), hw⟩

/-- **A JSON text**: a value, with nothing but white space around it. -/
def IsText (s : Str) (v : Value) : Prop :=
  Padded (ValueText StringText) s v

section

variable {κ α : Type} {Name : Str → κ → Prop} {name : Str → Option (κ × Str)}
  (hname : ∀ {s k r}, name s = some (k, r) ↔ ∃ l, s = l ++ '\x22' :: r ∧ Name l k)

include hname

theorem memberText_of_member {R : Str → α → Prop} {rd : Str → Option (α × Str)}
    (hrd : ∀ s v r, rd s = some (v, r) → ∃ t, s = t ++ r ∧ Spaced R t v) {s r : Str}
    {m : κ × α} (h : member name rd s = some (m, r)) :
    ∃ t, s = t ++ r ∧ MemberText Name R t m := by
  simp only [member, Option.bind_eq_bind, Option.bind_eq_some_iff, Option.some_inj,
    Prod.mk.injEq, expect_eq_some_iff] at h
  obtain ⟨s₁, hquote, ⟨k, s₂⟩, hk, s₃, hcolon, ⟨v, s₄⟩, hv, rfl, rfl⟩ := h
  obtain ⟨l, rfl, hl⟩ := hname.1 hk
  obtain ⟨t, rfl, ht⟩ := hrd _ _ _ hv
  obtain ⟨w, hw_eq, hw⟩ := exists_spaces s
  obtain ⟨w', hw'_eq, hw'⟩ := exists_spaces s₂
  simp only at hcolon
  rw [hcolon] at hw'_eq
  rw [hquote, hw'_eq] at hw_eq
  exact ⟨_, by rw [hw_eq]; simp, .mk hw hl hw' ht⟩

theorem member_of_memberText {R : Str → α → Prop} {rd : Str → Option (α × Str)} {n : ℕ}
    (hrd : ∀ t v r, t.length < n → Spaced R t v → EndsNumber r → rd (t ++ r) = some (v, r))
    {t : Str} {m : κ × α} (h : MemberText Name R t m) (hn : t.length < n) {r : Str}
    (hr : EndsNumber r) : member name rd (t ++ r) = some (m, r) := by
  cases h with
  | @mk w l w' s k v hw hk hw' h =>
    simp only [List.length_append, List.length_cons] at hn
    have hread := hrd s v r (by omega) h hr
    have hquote : expect ['\x22']
        (skipSpace (w ++ '\x22' :: (l ++ '\x22' :: (w' ++ ':' :: s)) ++ r)) =
        some (l ++ '\x22' :: (w' ++ ':' :: (s ++ r))) := by
      rw [List.append_assoc, skipSpace_append hw, List.cons_append, skipSpace_cons (by decide),
        expect_eq_some_iff]
      simp
    have hcolon : expect [':'] (skipSpace (w' ++ ':' :: (s ++ r))) = some (s ++ r) := by
      rw [skipSpace_append hw', skipSpace_cons (by decide), expect_eq_some_iff]
      rfl
    have hliteral : name (l ++ '\x22' :: (w' ++ ':' :: (s ++ r))) =
        some (k, w' ++ ':' :: (s ++ r)) := hname.2 ⟨l, rfl, hk⟩
    rw [member, hquote]
    simp [hliteral, hcolon, hread]

end

/-- A member starts with a quotation mark. -/
theorem MemberText.exists_skipSpace {κ α : Type} {Name : Str → κ → Prop} {R : Str → α → Prop}
    {t : Str} {m : κ × α} (h : MemberText Name R t m) :
    ∃ c u, skipSpace t = c :: u ∧ c ≠ '}' := by
  cases h with
  | mk hw hk hw' hv =>
    exact ⟨'\x22', _, by rw [skipSpace_append hw, skipSpace_cons (by decide)], by decide⟩

/-- A text of a value starts with a character that is no white space and no closing bracket. -/
theorem ValueText.exists_eq_cons {Literal : Str → Str → Prop} {t : Str} {v : Value}
    (h : ValueText Literal t v) : ∃ c u, t = c :: u ∧ isSpace c = Bool.false ∧ c ≠ ']' := by
  cases h with
  | null => exact ⟨_, _, rfl, by decide, by decide⟩
  | true => exact ⟨_, _, rfl, by decide, by decide⟩
  | false => exact ⟨_, _, rfl, by decide, by decide⟩
  | string h => exact ⟨_, _, rfl, by decide, by decide⟩
  | array h => cases h <;> exact ⟨_, _, rfl, by decide, by decide⟩
  | object h => cases h <;> exact ⟨_, _, rfl, by decide, by decide⟩
  | number n =>
    obtain ⟨c, u, hcu, hc⟩ := n.exists_literal_eq_cons
    refine ⟨c, u, hcu, ?_, ?_⟩
    · by_contra hspace
      rw [isNumberChar_of_isSpace (Bool.not_eq_false _ ▸ hspace)] at hc
      cases hc
    · rintro rfl
      exact absurd hc (by decide)

theorem ValueText.exists_skipSpace {Literal : Str → Str → Prop} {t : Str} {v : Value}
    (h : Spaced (ValueText Literal) t v) : ∃ c u, skipSpace t = c :: u ∧ c ≠ ']' := by
  obtain ⟨hw, hv⟩ := h
  obtain ⟨c, u, rfl, hc, hne⟩ := hv.exists_eq_cons
  exact ⟨c, u, by rw [skipSpace_append hw, skipSpace_cons hc], hne⟩

theorem value_append {literal : Str → Option (Str × Str)} {w : Str} (hw : IsSpaces w) (n : ℕ)
    (s : Str) : value literal n (w ++ s) = value literal n s := by
  cases n with
  | zero => rfl
  | succ n => rw [value, value, skipSpace_append hw]

section

variable {Literal : Str → Str → Prop} {literal : Str → Option (Str × Str)}
  (hliteral : ∀ {s t r}, literal s = some (t, r) ↔ ∃ l, s = l ++ '\x22' :: r ∧ Literal l t)

include hliteral

/-- What the reader takes for a value is a text of that value. -/
theorem valueText_of_value {n : ℕ} {s r : Str} {v : Value}
    (h : value literal n s = some (v, r)) :
    ∃ t, s = t ++ r ∧ Spaced (ValueText Literal) t v := by
  induction n generalizing s v r with
  | zero => cases h
  | succ n ih =>
    obtain ⟨w, hs, hw⟩ := exists_spaces s
    suffices hvalue : ∃ t, skipSpace s = t ++ r ∧ ValueText Literal t v by
      obtain ⟨t, hskip, ht⟩ := hvalue
      exact ⟨w ++ t, by rw [hs, hskip, List.append_assoc], .mk hw ht⟩
    rw [value] at h
    split at h
    · cases h
    · next c s' hskip =>
      rw [hskip]
      split_ifs at h with hstring harray hobject hnull htrue hfalse
      · obtain ⟨⟨t, r'⟩, hread, heq⟩ := Option.map_eq_some_iff.1 h
        obtain ⟨rfl, rfl⟩ := Prod.mk.inj heq
        obtain ⟨l, rfl, hl⟩ := hliteral.1 hread
        exact ⟨'\x22' :: (l ++ ['\x22']), by simp [hstring], .string hl⟩
      · obtain ⟨⟨xs, r'⟩, hread, heq⟩ := Option.map_eq_some_iff.1 h
        obtain ⟨rfl, rfl⟩ := Prod.mk.inj heq
        have hitems : ∃ t, s' = t ++ r' ∧
            Bracketed '[' ']' (Spaced (ValueText Literal)) ('[' :: t) xs :=
          bracketed_sound (fun _ _ _ ↦ ih) hread
        obtain ⟨t, rfl, ht⟩ := hitems
        exact ⟨'[' :: t, by rw [harray, List.cons_append], .array ht⟩
      · obtain ⟨⟨ms, r'⟩, hread, heq⟩ := Option.map_eq_some_iff.1 h
        obtain ⟨rfl, rfl⟩ := Prod.mk.inj heq
        have hmembers : ∃ t, s' = t ++ r' ∧
            Bracketed '{' '}' (MemberText Literal (ValueText Literal)) ('{' :: t) ms :=
          bracketed_sound (fun _ _ _ ↦ memberText_of_member hliteral fun _ _ _ ↦ ih) hread
        obtain ⟨t, rfl, ht⟩ := hmembers
        exact ⟨'{' :: t, by rw [hobject, List.cons_append], .object ht⟩
      · obtain ⟨r', hread, heq⟩ := Option.map_eq_some_iff.1 h
        obtain ⟨rfl, rfl⟩ := Prod.mk.inj heq
        exact ⟨"null".toList, by rw [hnull, expect_eq_some_iff.1 hread]; rfl, .null⟩
      · obtain ⟨r', hread, heq⟩ := Option.map_eq_some_iff.1 h
        obtain ⟨rfl, rfl⟩ := Prod.mk.inj heq
        exact ⟨"true".toList, by rw [htrue, expect_eq_some_iff.1 hread]; rfl, .true⟩
      · obtain ⟨r', hread, heq⟩ := Option.map_eq_some_iff.1 h
        obtain ⟨rfl, rfl⟩ := Prod.mk.inj heq
        exact ⟨"false".toList, by rw [hfalse, expect_eq_some_iff.1 hread]; rfl, .false⟩
      · obtain ⟨⟨m, r'⟩, hread, heq⟩ := Option.map_eq_some_iff.1 h
        obtain ⟨rfl, rfl⟩ := Prod.mk.inj heq
        exact ⟨m.literal, (number_eq_some_iff.1 hread).1, .number m⟩

/-- **And every text of a value is read**, whatever follows it. -/
theorem value_of_spaced {n : ℕ} {t r : Str} {v : Value} (h : Spaced (ValueText Literal) t v)
    (hn : t.length < n) (hr : EndsNumber r) : value literal n (t ++ r) = some (v, r) := by
  induction n generalizing t v r with
  | zero => omega
  | succ n ih =>
    obtain ⟨hw, h⟩ := h
    rw [List.append_assoc, value_append hw]
    rw [List.length_append] at hn
    cases h with
    | null => exact congrArg (Option.map _) (expect_append "ull".toList r)
    | true => exact congrArg (Option.map _) (expect_append "rue".toList r)
    | false => exact congrArg (Option.map _) (expect_append "alse".toList r)
    | @string l t h =>
      have hread : literal (l ++ '\x22' :: r) = some (t, r) := hliteral.2 ⟨l, rfl, h⟩
      simp [value_quote, hread]
    | number m =>
      obtain ⟨c, u, hcu, hc⟩ := m.exists_literal_eq_cons
      have hread := number_literal m hr
      rw [hcu, List.cons_append] at hread ⊢
      rw [value_number literal n hc, hread]
      rfl
    | array h =>
      obtain ⟨s, rfl, hread⟩ := bracketed_complete (by decide) (by decide) (by decide)
        (fun t x hx ↦ ValueText.exists_skipSpace hx) (fun t x r hlt hx hr ↦ ih hx hlt hr) h
        (by omega) r
      rw [List.cons_append, value_bracket, hread]
      rfl
    | object h =>
      obtain ⟨s, rfl, hread⟩ := bracketed_complete (by decide) (by decide) (by decide)
        (fun t m hm ↦ hm.exists_skipSpace) (fun t m r hlt hm hr ↦
          member_of_memberText hliteral (fun t v r hlt hv hr ↦ ih hv hlt hr) hm hlt hr)
        h (by omega) r
      rw [List.cons_append, value_brace, hread]
      rfl

end

/-- **The reader accepts the grammar.** -/
theorem parse_eq_some_iff {s : Str} {v : Value} : parse s = some v ↔ IsText s v := by
  constructor
  · intro h
    simp only [parse, Option.bind_eq_bind, Option.bind_eq_some_iff] at h
    obtain ⟨⟨v', r⟩, hread, hrest⟩ := h
    rw [Option.ite_none_right_eq_some, Option.some_inj, skipSpace_eq_nil_iff] at hrest
    obtain ⟨hr, rfl⟩ := hrest
    obtain ⟨t, rfl, ht⟩ := valueText_of_value string_eq_some_iff hread
    exact ⟨t, r, rfl, ht, hr⟩
  · rintro ⟨t, w, rfl, ht, hw⟩
    have hends : EndsNumber w := by
      rw [← List.append_nil w]
      exact endsNumber_append hw endsNumber_nil
    have hlt : t.length < (t ++ w).length + 1 := by
      rw [List.length_append]
      omega
    rw [parse, value_of_spaced string_eq_some_iff ht hlt hends]
    simp [skipSpace_eq_nil_iff.2 hw]

/-- A text is a text of one value only. -/
theorem IsText.unique {s : Str} {v v' : Value} (h : IsText s v) (h' : IsText s v') : v = v' :=
  Option.some_inj.1 ((parse_eq_some_iff.2 h).symm.trans (parse_eq_some_iff.2 h'))

end Json
