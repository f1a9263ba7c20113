import KeepSse.Json.Grammar
import Mathlib.Data.List.Forall2

/-!
# Texts whose strings are not decoded

A reader that skips a value has to find its end, and for that it need not decode the strings in it.
So it works on bytes, here written as characters (`Text.latin1`), and takes inside a string literal
whatever does not end it: bytes that are no UTF-8, and escapes that name half of a surrogate pair.

The **raw** texts are what such a reader accepts: the grammar of `Json.Grammar` with a weaker rule
for the inside of a literal (`RawText`). The value of a raw text has the literals as they stand.
They can be decoded afterwards, each or not (`Decodes`), and with them the value (`Decoded`).

## What connects the two grammars

The bytes of a JSON text are a raw text of a value that decodes to its own
(`exists_raw_of_valueText`); and a raw text whose value can be decoded consists of the bytes of a
JSON text (`exists_valueText_of_raw`). Both are one induction (`Corresponds.valueText`), which
follows a text piece by piece: outside string literals a text is ASCII, and there it is what its
bytes are (`Corresponds`). What is left to say in each direction is what becomes of a literal.
-/

namespace Json

open Text

/-! ### Literals -/

/-- The inside of a string literal, as it stands. -/
def RawText (l t : Str) : Prop :=
  t = l ∧ ∃ us, Units l us

/-- The inside of a string literal in bytes, and the text that it spells. -/
def Decodes (l t : Str) : Prop :=
  ∃ s, wide s = l ∧ StringText s t

/-- A text is ASCII if a look at each of its characters says so. -/
theorem lt_of_all {s : Str} (h : (s.all fun c ↦ c.toNat < 128) = true) :
    ∀ c ∈ s, c.toNat < 128 := by
  simpa using h

theorem lt_of_isDigit {c : Char} (h : isDigit c = true) : c.toNat < 128 := by
  simp only [isDigit, Bool.and_eq_true, decide_eq_true_eq] at h
  exact Nat.lt_of_le_of_lt h.2 (by decide)

theorem lt_of_isNumberChar {c : Char} (h : isNumberChar c = true) : c.toNat < 128 := by
  rw [isNumberChar, Bool.or_eq_true] at h
  rcases h with h | h
  · exact lt_of_isDigit h
  · exact lt_of_all (s := "+-.eE".toList) (by decide) c (List.contains_iff_mem.1 h)

theorem lt_of_unescape {e c : Char} (h : unescape e = some c) : e.toNat < 128 := by
  unfold unescape at h
  split_ifs at h with h₁ h₂ h₃ h₄ h₅ h₆ h₇ h₈
  all_goals
    subst e
    decide

theorem lt_of_hexValue {a : Char} {i : ℕ} (h : hexValue a = some i) : a.toNat < 128 := by
  unfold hexValue at h
  split_ifs at h with h₁ h₂ h₃
  · exact Nat.lt_of_le_of_lt h₁.2 (by decide)
  · exact Nat.lt_of_le_of_lt h₂.2 (by decide)
  · exact Nat.lt_of_le_of_lt h₃.2 (by decide)

/-- Characters beyond ASCII may stand anywhere inside a literal. -/
theorem exists_units_append {p s : Str} (hp : ∀ c ∈ p, 128 ≤ c.toNat) (h : ∃ us, Units s us) :
    ∃ us, Units (p ++ s) us := by
  induction p with
  | nil => exact h
  | cons c p ih =>
    obtain ⟨hc, hp⟩ := List.forall_mem_cons.1 hp
    obtain ⟨us, hus⟩ := ih hp
    have hne : ∀ d : Char, d.toNat < 128 → c ≠ d := by
      rintro d hd rfl
      omega
    exact ⟨_, .plain (by omega) (hne _ (by decide)) (hne _ (by decide)) hus⟩

/-- **The bytes of a literal's inside are a literal's inside again.** -/
theorem exists_units_wide {s : Str} {us : List ℕ} (h : Units s us) : ∃ us', Units (wide s) us' := by
  induction h with
  | nil => exact ⟨[], .nil⟩
  | @plain c s us hcontrol hquote hslash h ih =>
    rcases Nat.lt_or_ge c.toNat 128 with hc | hc
    · obtain ⟨us', hus'⟩ := ih
      rw [wide_cons_of_ascii hc]
      exact ⟨_, .plain hcontrol hquote hslash hus'⟩
    · rw [wide_cons]
      exact exists_units_append (fun d hd ↦ le_toNat_of_mem_wide hc hd) ih
  | escape he h ih =>
    obtain ⟨us', hus'⟩ := ih
    rw [wide_cons_of_ascii (by decide), wide_cons_of_ascii (lt_of_unescape he)]
    exact ⟨_, .escape he hus'⟩
  | hex ha hb hc hd h ih =>
    obtain ⟨us', hus'⟩ := ih
    rw [wide_cons_of_ascii (by decide), wide_cons_of_ascii (by decide),
      wide_cons_of_ascii (lt_of_hexValue ha), wide_cons_of_ascii (lt_of_hexValue hb),
      wide_cons_of_ascii (lt_of_hexValue hc), wide_cons_of_ascii (lt_of_hexValue hd)]
    exact ⟨_, .hex ha hb hc hd hus'⟩

/-- A literal that decodes can be skipped. -/
theorem Decodes.rawText {l t : Str} (h : Decodes l t) : RawText l l := by
  obtain ⟨s, rfl, us, hus, -⟩ := h
  exact ⟨rfl, exists_units_wide hus⟩

/-- **Raw literals are read by their grammar.** -/
theorem rawString_eq_some_iff {s t r : Str} :
    rawString s = some (t, r) ↔ ∃ l, s = l ++ '\x22' :: r ∧ RawText l t := by
  have htake (l : Str) :
      (l ++ '\x22' :: r).take ((l ++ '\x22' :: r).length - (r.length + 1)) = l := by
    rw [List.length_append, List.length_cons, Nat.add_sub_cancel, List.take_left]
  constructor
  · intro h
    simp only [rawString, Option.bind_eq_bind, Option.bind_eq_some_iff, Option.some_inj,
      Prod.mk.injEq] at h
    obtain ⟨⟨us, r'⟩, hunits, rfl, rfl⟩ := h
    obtain ⟨l, rfl, hus⟩ := units_of_codeUnits hunits
    exact ⟨l, rfl, htake l, us, hus⟩
  · rintro ⟨l, rfl, rfl, us, hus⟩
    simp only [rawString, codeUnits_of_units hus, Option.bind_eq_bind, Option.bind_some, htake]

/-- **And so are literals in bytes.** -/
theorem decodedString_eq_some_iff {s t r : Str} :
    decodedString s = some (t, r) ↔ ∃ l, s = l ++ '\x22' :: r ∧ Decodes l t := by
  constructor
  · intro h
    simp only [decodedString, Option.bind_eq_bind, Option.bind_eq_some_iff] at h
    obtain ⟨⟨l, r'⟩, hraw, t', -, ⟨k, rest⟩, hread, heq⟩ := h
    simp only [Option.ite_none_right_eq_some, Option.some_inj, Prod.mk.injEq] at heq
    obtain ⟨⟨hwide, rfl⟩, rfl, rfl⟩ := heq
    obtain ⟨l', rfl, rfl, -⟩ := rawString_eq_some_iff.1 hraw
    obtain ⟨u, hu, htext⟩ := string_eq_some_iff.1 hread
    obtain rfl : t' = u := List.append_cancel_right hu
    exact ⟨l, rfl, t', hwide, htext⟩
  · rintro ⟨l, rfl, hdecodes⟩
    have hraw : rawString (l ++ '\x22' :: r) = some (l, r) :=
      rawString_eq_some_iff.2 ⟨l, rfl, hdecodes.rawText⟩
    obtain ⟨u, rfl, htext⟩ := hdecodes
    have hread : string (u ++ ['\x22']) = some (t, []) := string_eq_some_iff.2 ⟨u, rfl, htext⟩
    have hbytes : fromUtf8 (fromLatin1 (wide u)) = some u := by
      rw [wide, fromLatin1_latin1, fromUtf8_utf8]
    simp [decodedString, hraw, hbytes, hread]

/-! ### Texts that correspond -/

/-- Two members match in their names and in their values. -/
inductive Matches {κ κ' α β : Type} (S : κ → κ' → Prop) (R : α → β → Prop) :
    κ × α → κ' × β → Prop
  | mk {k : κ} {k' : κ'} {x : α} {y : β} (hk : S k k') (hv : R x y) : Matches S R (k, x) (k', y)

theorem Matches.flip {κ κ' α β : Type} {S : κ → κ' → Prop} {R : α → β → Prop} {m : κ' × β}
    {m' : κ × α} (h : Matches (fun k' k ↦ S k k') (fun y x ↦ R x y) m m') : Matches S R m' m := by
  obtain ⟨hk, hv⟩ := h
  exact .mk hk hv

/-- A correspondence of texts that holds piece by piece, and leaves ASCII text as it is. -/
structure Corresponds (T : Str → Str → Prop) : Prop where
  append : ∀ {s t s' t'}, T s t → T s' t' → T (s ++ s') (t ++ t')
  ascii : ∀ {s : Str}, (∀ c ∈ s, c.toNat < 128) → T s s

theorem corresponds_wide : Corresponds fun s t ↦ t = wide s where
  append h h' := by rw [h, h', wide_append]
  ascii h := (wide_of_ascii h).symm

theorem corresponds_of_wide : Corresponds fun s t ↦ wide t = s where
  append h h' := by rw [← h, ← h', wide_append]
  ascii h := wide_of_ascii h

namespace Corresponds

variable {T : Str → Str → Prop} (hT : Corresponds T)

include hT

theorem spaces {w : Str} (hw : IsSpaces w) : T w w := by
  refine hT.ascii fun c hc ↦ ?_
  have h := hw c hc
  simp only [isSpace, Bool.or_eq_true, beq_iff_eq] at h
  rcases h with ((rfl | rfl) | rfl) | rfl <;> decide

theorem literal (n : Number) : T n.literal n.literal := by
  have hv := n.valid
  simp only [isNumber, Bool.and_eq_true, List.all_eq_true] at hv
  exact hT.ascii fun c hc ↦ lt_of_isNumberChar (hv.1.2 c hc)

theorem cons {c : Char} (hc : c.toNat < 128) {s t : Str} (h : T s t) : T (c :: s) (c :: t) :=
  hT.append (hT.ascii (s := [c]) (by simpa using hc)) h

theorem concat {c : Char} (hc : c.toNat < 128) {s t : Str} (h : T s t) :
    T (s ++ [c]) (t ++ [c]) :=
  hT.append h (hT.ascii (by simpa using hc))

section

variable {α β : Type} {Item : Str → α → Prop} {Item' : Str → β → Prop} {P : α → Prop}
  {R : α → β → Prop} {n : ℕ}
  (hitem : ∀ s x, s.length < n → Item s x → P x → ∃ t y, T s t ∧ Item' t y ∧ R x y)

include hitem

theorem spaced {s : Str} {x : α} (h : Spaced Item s x) (hn : s.length < n) (hx : P x) :
    ∃ t y, T s t ∧ Spaced Item' t y ∧ R x y := by
  obtain ⟨hw, h⟩ := h
  rw [List.length_append] at hn
  obtain ⟨t, y, ht, hy, hR⟩ := hitem _ _ (by omega) h hx
  exact ⟨_, y, hT.append (hT.spaces hw) ht, .mk hw hy, hR⟩

theorem separated {s : Str} {xs : List α} (h : Separated Item s xs) (hn : s.length < n)
    (hxs : ∀ x ∈ xs, P x) :
    ∃ t ys, T s t ∧ Separated Item' t ys ∧ List.Forall₂ R xs ys := by
  induction h with
  | @single s w x hx hw =>
    rw [List.length_append] at hn
    obtain ⟨t, y, ht, hy, hR⟩ := hitem _ _ (by omega) hx (hxs x (List.mem_singleton_self x))
    exact ⟨_, [y], hT.append ht (hT.spaces hw), .single hy hw, .cons hR .nil⟩
  | @cons s w u x xs hx hw h ih =>
    simp only [List.length_append, List.length_cons] at hn
    obtain ⟨hP, hxs⟩ := List.forall_mem_cons.1 hxs
    obtain ⟨t, y, ht, hy, hR⟩ := hitem _ _ (by omega) hx hP
    obtain ⟨t', ys, ht', hys, hRs⟩ := ih (by omega) hxs
    exact ⟨_, y :: ys, hT.append ht (hT.append (hT.spaces hw) (hT.cons (by decide) ht')),
      .cons hy hw hys, .cons hR hRs⟩

theorem bracketed {op close : Char} (hop : op.toNat < 128) (hclose : close.toNat < 128) {s : Str}
    {xs : List α} (h : Bracketed op close Item s xs) (hn : s.length ≤ n)
    (hxs : ∀ x ∈ xs, P x) :
    ∃ t ys, T s t ∧ Bracketed op close Item' t ys ∧ List.Forall₂ R xs ys := by
  cases h with
  | none hw =>
    exact ⟨_, [], hT.cons hop (hT.concat hclose (hT.spaces hw)), .none hw, .nil⟩
  | some h =>
    simp only [List.length_cons, List.length_append] at hn
    obtain ⟨t, ys, ht, hys, hR⟩ := hT.separated hitem h (by omega) hxs
    exact ⟨_, ys, hT.cons hop (hT.concat hclose ht), .some hys, hR⟩

/-- Members correspond if their names do and their values do. -/
theorem memberText {κ κ' : Type} {Name : Str → κ → Prop} {Name' : Str → κ' → Prop}
    {Q : κ → Prop} {S : κ → κ' → Prop}
    (hname : ∀ l k, Name l k → Q k → ∃ l' k', T l l' ∧ Name' l' k' ∧ S k k') {s : Str}
    {m : κ × α} (h : MemberText Name Item s m) (hn : s.length ≤ n) (hm : Q m.1 ∧ P m.2) :
    ∃ t m', T s t ∧ MemberText Name' Item' t m' ∧ Matches S R m m' := by
  obtain ⟨hw, hk, hw', hv⟩ := h
  simp only [List.length_append, List.length_cons] at hn
  obtain ⟨l', k', hl', hk', hS⟩ := hname _ _ hk hm.1
  obtain ⟨t, y, ht, hy, hR⟩ := hT.spaced hitem hv (by omega) hm.2
  exact ⟨_, (k', y), hT.append (hT.spaces hw) (hT.cons (by decide) (hT.append hl'
    (hT.cons (by decide) (hT.append (hT.spaces hw') (hT.cons (by decide) ht))))),
    .mk hw hk' hw' hy, .mk hS hR⟩

theorem padded {s : Str} {x : α} (h : Padded Item s x) (hn : s.length < n) (hx : P x) :
    ∃ t y, T s t ∧ Padded Item' t y ∧ R x y := by
  obtain ⟨u, w, rfl, hu, hw⟩ := h
  rw [List.length_append] at hn
  obtain ⟨t, y, ht, hy, hR⟩ := hT.spaced hitem hu (by omega) hx
  exact ⟨_, y, hT.append ht (hT.spaces hw), ⟨t, w, rfl, hy, hw⟩, hR⟩

end

/-- An object corresponds if its names do and its values do. -/
theorem object {κ κ' α β : Type} {Name : Str → κ → Prop} {Name' : Str → κ' → Prop}
    {Item : Str → α → Prop} {Item' : Str → β → Prop} {Q : κ → Prop} {S : κ → κ' → Prop}
    {P : α → Prop} {R : α → β → Prop}
    (hname : ∀ l k, Name l k → Q k → ∃ l' k', T l l' ∧ Name' l' k' ∧ S k k')
    (hitem : ∀ s x, Item s x → P x → ∃ t y, T s t ∧ Item' t y ∧ R x y) {s : Str}
    {ms : List (κ × α)} (h : Padded (Bracketed '{' '}' (MemberText Name Item)) s ms)
    (hms : ∀ m ∈ ms, Q m.1 ∧ P m.2) :
    ∃ t ms', T s t ∧ Padded (Bracketed '{' '}' (MemberText Name' Item')) t ms' ∧
      List.Forall₂ (Matches S R) ms ms' := by
  have hmember (s : Str) (m : κ × α) (hm : MemberText Name Item s m) (hQP : Q m.1 ∧ P m.2) :
      ∃ t m', T s t ∧ MemberText Name' Item' t m' ∧ Matches S R m m' :=
    hT.memberText (fun s x _ ↦ hitem s x) hname hm (Nat.le_refl _) hQP
  have hbracketed (s : Str) (ms : List (κ × α))
      (h : Bracketed '{' '}' (MemberText Name Item) s ms) (hms : ∀ m ∈ ms, Q m.1 ∧ P m.2) :
      ∃ t ms', T s t ∧ Bracketed '{' '}' (MemberText Name' Item') t ms' ∧
        List.Forall₂ (Matches S R) ms ms' :=
    hT.bracketed (P := fun m ↦ Q m.1 ∧ P m.2) (fun s m _ ↦ hmember s m) (by decide) (by decide) h
      (Nat.le_refl _) hms
  exact hT.padded (P := fun ms ↦ ∀ m ∈ ms, Q m.1 ∧ P m.2) (fun s ms _ ↦ hbracketed s ms) h
    (Nat.lt_succ_self _) hms

end Corresponds

/-! ### Decoding a value -/

/-- A value with its literals as they stand, and the value that it decodes to. -/
inductive Decoded : Value → Value → Prop
  | null : Decoded .null .null
  | bool (b : Bool) : Decoded (.bool b) (.bool b)
  | number (n : Number) : Decoded (.number n) (.number n)
  | string {l t : Str} (h : Decodes l t) : Decoded (.string l) (.string t)
  | array {us vs : List Value} (h : List.Forall₂ Decoded us vs) : Decoded (.array us) (.array vs)
  | object {ms ms' : List (Str × Value)} (h : List.Forall₂ (Matches Decodes Decoded) ms ms') :
    Decoded (.object ms) (.object ms')

/-- The texts in a value, as they stand, can all be decoded. -/
def Decodable (u : Value) : Prop :=
  ∃ v, Decoded u v

theorem decoded_string_iff {l : Str} {v : Value} :
    Decoded (.string l) v ↔ ∃ t, v = .string t ∧ Decodes l t := by
  constructor
  · rintro (- | - | - | h)
    exact ⟨_, rfl, h⟩
  · rintro ⟨t, rfl, h⟩
    exact .string h

theorem decoded_bool_iff {b : Bool} {v : Value} : Decoded (.bool b) v ↔ v = .bool b := by
  constructor
  · rintro ⟨⟩
    rfl
  · rintro rfl
    exact .bool b

/-- Nothing but a boolean decodes to one. -/
theorem decoded_to_bool_iff {b : Bool} {u : Value} : Decoded u (.bool b) ↔ u = .bool b := by
  constructor
  · rintro ⟨⟩
    rfl
  · rintro rfl
    exact .bool b

theorem exists_of_forall₂ {α β : Type} {R : α → β → Prop} {xs : List α} {ys : List β}
    (h : List.Forall₂ R xs ys) : ∀ x ∈ xs, ∃ y, R x y := by
  induction h with
  | nil => exact fun x hx ↦ absurd hx List.not_mem_nil
  | cons hR h ih => exact List.forall_mem_cons.2 ⟨⟨_, hR⟩, ih⟩

theorem forall_decodable {us : List Value} (h : Decodable (.array us)) :
    ∀ u ∈ us, Decodable u := by
  obtain ⟨_, hv⟩ := h
  cases hv with
  | array hall => exact exists_of_forall₂ hall

theorem forall_member_decodable {ms : List (Str × Value)} (h : Decodable (.object ms)) :
    ∀ m ∈ ms, (∃ k, Decodes m.1 k) ∧ Decodable m.2 := by
  obtain ⟨_, hv⟩ := h
  cases hv with
  | object hall =>
    intro m hm
    obtain ⟨_, hk, hv⟩ := exists_of_forall₂ hall m hm
    exact ⟨⟨_, hk⟩, _, hv⟩

/-! ### Values that correspond -/

/-- A relation of values that holds where one holds of their literals. -/
structure Lifts (S : Str → Str → Prop) (R : Value → Value → Prop) : Prop where
  null : R .null .null
  bool : ∀ b, R (.bool b) (.bool b)
  number : ∀ n, R (.number n) (.number n)
  string : ∀ {l t}, S l t → R (.string l) (.string t)
  array : ∀ {us vs}, List.Forall₂ R us vs → R (.array us) (.array vs)
  object : ∀ {ms ms'}, List.Forall₂ (Matches S R) ms ms' → R (.object ms) (.object ms')

theorem lifts_decoded : Lifts Decodes Decoded :=
  ⟨.null, .bool, .number, .string, .array, .object⟩

theorem lifts_decoded_flip : Lifts (fun t l ↦ Decodes l t) fun v u ↦ Decoded u v where
  null := .null
  bool := .bool
  number := .number
  string := .string
  array h := .array h.flip
  object h := .object (h.flip.imp fun _ _ ↦ Matches.flip)

/-- A condition on values that comes down to one on their literals. -/
structure Descends (Q : Str → Prop) (P : Value → Prop) : Prop where
  string : ∀ {l}, P (.string l) → Q l
  array : ∀ {us}, P (.array us) → ∀ u ∈ us, P u
  object : ∀ {ms}, P (.object ms) → ∀ m ∈ ms, Q m.1 ∧ P m.2

theorem descends_true : Descends (fun _ ↦ True) fun _ ↦ True :=
  ⟨fun _ ↦ trivial, fun _ _ _ ↦ trivial, fun _ _ _ ↦ ⟨trivial, trivial⟩⟩

theorem descends_decodable : Descends (fun l ↦ ∃ t, Decodes l t) Decodable where
  string := by
    rintro l ⟨v, hv⟩
    obtain ⟨t, -, ht⟩ := decoded_string_iff.1 hv
    exact ⟨t, ht⟩
  array := forall_decodable
  object := forall_member_decodable

/-- **Texts correspond if their literals do**: then a text of a value has a counterpart, and so has
the value. -/
theorem Corresponds.valueText {T : Str → Str → Prop} (hT : Corresponds T)
    {Literal Literal' S : Str → Str → Prop} {R : Value → Value → Prop} {Q : Str → Prop}
    {P : Value → Prop} (hR : Lifts S R) (hP : Descends Q P)
    (hliteral : ∀ l t, Literal l t → Q t → ∃ l' t', T l l' ∧ Literal' l' t' ∧ S t t') {n : ℕ}
    {s : Str} {v : Value} (h : ValueText Literal s v) (hn : s.length < n) (hv : P v) :
    ∃ t u, T s t ∧ ValueText Literal' t u ∧ R v u := by
  induction n generalizing s v with
  | zero => omega
  | succ n ih =>
    have hitem : ∀ s v, s.length < n → ValueText Literal s v → P v →
        ∃ t u, T s t ∧ ValueText Literal' t u ∧ R v u := fun s v hlt h hv ↦ ih h hlt hv
    cases h with
    | null => exact ⟨_, .null, hT.ascii (lt_of_all (by decide)), .null, hR.null⟩
    | true => exact ⟨_, .bool Bool.true, hT.ascii (lt_of_all (by decide)), .true, hR.bool _⟩
    | false => exact ⟨_, .bool Bool.false, hT.ascii (lt_of_all (by decide)), .false, hR.bool _⟩
    | number m => exact ⟨_, .number m, hT.literal m, .number m, hR.number m⟩
    | string h =>
      obtain ⟨l', t', hl', ht', hS⟩ := hliteral _ _ h (hP.string hv)
      exact ⟨_, .string t', hT.cons (by decide) (hT.concat (by decide) hl'), .string ht',
        hR.string hS⟩
    | array h =>
      obtain ⟨t, us, ht, hus, hall⟩ := hT.bracketed (P := P)
        (fun s v hlt h hv ↦ hT.spaced hitem h hlt hv) (by decide) (by decide) h (by omega)
        (hP.array hv)
      exact ⟨t, .array us, ht, .array hus, hR.array hall⟩
    | object h =>
      obtain ⟨t, ms, ht, hms, hall⟩ := hT.bracketed (P := fun m : Str × Value ↦ Q m.1 ∧ P m.2)
        (fun s m hlt h hm ↦ hT.memberText hitem hliteral h (Nat.le_of_lt hlt) hm) (by decide)
        (by decide) h (by omega) (hP.object hv)
      exact ⟨t, .object ms, ht, .object hms, hR.object hall⟩

/-- **The bytes of a text of a value can be skipped**, and decode to the value. -/
theorem exists_raw_of_valueText {s : Str} {v : Value} (h : ValueText StringText s v) :
    ∃ t u, t = wide s ∧ ValueText RawText t u ∧ Decoded u v :=
  corresponds_wide.valueText lifts_decoded_flip descends_true (fun l _ h _ ↦
    have hdecodes : Decodes (wide l) _ := ⟨l, rfl, h⟩
    ⟨_, _, rfl, hdecodes.rawText, hdecodes⟩) h (Nat.lt_succ_self _) trivial

/-- **A raw text that can be decoded is made of the bytes of a text.** -/
theorem exists_valueText_of_raw {w : Str} {u : Value} (h : ValueText RawText w u)
    (hu : Decodable u) : ∃ s v, wide s = w ∧ ValueText StringText s v ∧ Decoded u v := by
  refine corresponds_of_wide.valueText lifts_decoded descends_decodable ?_ h (Nat.lt_succ_self _)
    hu
  rintro l _ ⟨rfl, -⟩ ⟨t, l', hl', ht⟩
  exact ⟨l', t, hl', ht, l', hl', ht⟩

/-! ### Whole texts -/

theorem decoded_array_iff {us : List Value} {v : Value} :
    Decoded (.array us) v ↔ ∃ vs, v = .array vs ∧ List.Forall₂ Decoded us vs := by
  constructor
  · rintro (- | - | - | - | h)
    exact ⟨_, rfl, h⟩
  · rintro ⟨vs, rfl, h⟩
    exact .array h

/-- The bytes of an array are a raw array. -/
theorem exists_raw_of_array {s : Str} {vs : List Value} (h : IsText s (.array vs)) :
    ∃ us, Padded (Bracketed '[' ']' (Spaced (ValueText RawText))) (wide s) us ∧
      List.Forall₂ Decoded us vs := by
  obtain ⟨_, u, rfl, hu, hdecoded⟩ := corresponds_wide.padded (P := fun _ ↦ True)
    (fun _ _ _ hv _ ↦ exists_raw_of_valueText hv) h (Nat.lt_succ_self _) trivial
  cases hdecoded with
  | array hall => exact ⟨_, padded_array_iff.1 hu, hall⟩

/-- A raw array that can be decoded is made of the bytes of an array. -/
theorem exists_array_of_raw {w : Str} {us : List Value}
    (h : Padded (Bracketed '[' ']' (Spaced (ValueText RawText))) w us)
    (hus : Decodable (.array us)) :
    ∃ s vs, wide s = w ∧ IsText s (.array vs) ∧ List.Forall₂ Decoded us vs := by
  obtain ⟨s, v, hs, hv, hdecoded⟩ := corresponds_of_wide.padded (P := Decodable)
    (fun _ _ _ hu hd ↦ exists_valueText_of_raw hu hd) (padded_array_iff.2 h)
    (Nat.lt_succ_self _) hus
  obtain ⟨vs, rfl, hall⟩ := decoded_array_iff.1 hdecoded
  exact ⟨s, vs, hs, hv, hall⟩

/-- **The bytes of an object are a raw object** with the same names. -/
theorem exists_raw_of_object {s : Str} {ms' : List (Str × Value)} (h : IsText s (.object ms')) :
    ∃ ms, Padded (Bracketed '{' '}' (MemberText Decodes (ValueText RawText))) (wide s) ms ∧
      List.Forall₂ (Matches Eq Decoded) ms ms' := by
  have hname : ∀ l k, StringText l k → True → ∃ l' k', l' = wide l ∧ Decodes l' k' ∧ k = k' :=
    fun l k hk _ ↦ ⟨wide l, k, rfl, ⟨l, rfl, hk⟩, rfl⟩
  have hvalue : ∀ s v, ValueText StringText s v → True →
      ∃ t u, t = wide s ∧ ValueText RawText t u ∧ Decoded u v :=
    fun s v hv _ ↦ exists_raw_of_valueText hv
  obtain ⟨_, ms, rfl, hms, hall⟩ := corresponds_wide.object hname hvalue (padded_object_iff.1 h)
    fun _ _ ↦ ⟨trivial, trivial⟩
  refine ⟨ms, hms, hall.flip.imp fun _ _ hm ↦ Matches.flip ?_⟩
  obtain ⟨rfl, hv⟩ := hm
  exact .mk rfl hv

/-- **A raw object is made of the bytes of an object** with the same names if its values can be
decoded. -/
theorem exists_object_of_raw {w : Str} {ms : List (Str × Value)}
    (h : Padded (Bracketed '{' '}' (MemberText Decodes (ValueText RawText))) w ms)
    (hms : ∀ m ∈ ms, Decodable m.2) :
    ∃ s ms', wide s = w ∧ IsText s (.object ms') ∧ List.Forall₂ (Matches Eq Decoded) ms ms' := by
  have hname : ∀ l k, Decodes l k → True → ∃ l' k', wide l' = l ∧ StringText l' k' ∧ k = k' :=
    fun l k ⟨l', hl', hk⟩ _ ↦ ⟨l', k, hl', hk, rfl⟩
  have hvalue : ∀ w u, ValueText RawText w u → Decodable u →
      ∃ s v, wide s = w ∧ ValueText StringText s v ∧ Decoded u v :=
    fun w u hu hd ↦ exists_valueText_of_raw hu hd
  obtain ⟨s, ms', hs, hms', hall⟩ := corresponds_of_wide.object hname hvalue h
    fun m hm ↦ ⟨trivial, hms m hm⟩
  exact ⟨s, ms', hs, padded_object_iff.2 hms', hall⟩

end Json
