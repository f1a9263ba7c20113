import KeepSse.Json.Basic

/-!
# Reading undoes printing

The reader gives back every printed value (`parse_print`). The induction is on the depth argument
of the reader, which the length of the printed text bounds, so no measure on values is needed: the
elements of an array print shorter than the array.

What follows a value matters to numbers only, since a literal ends where it stops looking like a
number (`EndsNumber`); inside a text that is always a comma, a closing bracket or nothing.

A printed text has no control character (`printable_print`), so a format of lines can carry it.
-/

namespace Json

open Text

/-! ### Reading undoes printing -/

/-- What follows a number literal does not look like more of it. -/
def EndsNumber (r : Str) : Prop :=
  ∀ c ∈ r.head?, isNumberChar c = false

theorem endsNumber_nil : EndsNumber [] := by simp [EndsNumber]

theorem endsNumber_cons {c : Char} (h : isNumberChar c = false) (s : Str) :
    EndsNumber (c :: s) := by
  simp [EndsNumber, h]

theorem skipSpace_cons {c : Char} (h : isSpace c = false) (s : Str) :
    skipSpace (c :: s) = c :: s := by
  simp [skipSpace, h]

theorem Number.exists_literal_eq_cons (n : Number) :
    ∃ c s, n.literal = c :: s ∧ isNumberChar c = true := by
  have hv := n.valid
  simp only [isNumber, Bool.and_eq_true, decide_eq_true_eq, List.all_eq_true] at hv
  obtain ⟨c, s, hcs⟩ := List.exists_cons_of_ne_nil hv.1.1
  exact ⟨c, s, hcs, hv.1.2 c (by simp [hcs])⟩

/-- A number literal is read to its end. -/
theorem number_literal (n : Number) {r : Str} (hr : EndsNumber r) :
    number (n.literal ++ r) = some (n, r) := by
  have hall : ∀ c ∈ n.literal, isNumberChar c = true := by
    have := n.valid
    simp only [isNumber, Bool.and_eq_true, List.all_eq_true] at this
    exact this.1.2
  have htake : (n.literal ++ r).takeWhile isNumberChar = n.literal := by
    rw [List.takeWhile_append_of_pos hall]
    cases r with
    | nil => simp
    | cons c r => simp [hr c rfl]
  have hdrop : (n.literal ++ r).dropWhile isNumberChar = r := by
    rw [List.dropWhile_append_of_pos hall]
    cases r with
    | nil => simp
    | cons c r => simp [hr c rfl]
  simp [number, htake, hdrop, n.valid]

theorem hexValue_hexDigit : ∀ n < 16, hexValue (hexDigit n) = some n := by decide

/-- An escaped character is read back as its own code unit. -/
theorem codeUnits_escape (c : Char) (s : Str) :
    codeUnits (escape c ++ s) = (codeUnits s).map fun r ↦ (c.toNat :: r.1, r.2) := by
  unfold escape
  split_ifs with h₁ h₂ h₃ h₄ h₅ h₆ h₇ h₈
  · subst h₁; simp [codeUnits, unescape]
  · subst h₂; simp [codeUnits, unescape]
  · subst h₃; simp [codeUnits, unescape]
  · subst h₄; simp [codeUnits, unescape]
  · subst h₅; simp [codeUnits, unescape]
  · subst h₆; simp [codeUnits, unescape]
  · subst h₇; simp [codeUnits, unescape]
  · -- the remaining control characters, as four hexadecimal digits
    have hhi := hexValue_hexDigit (c.toNat / 16) (by omega)
    have hlo := hexValue_hexDigit (c.toNat % 16) (by omega)
    have hzero : hexValue '0' = some 0 := by decide
    have hsum : c.toNat / 16 * 16 + c.toNat % 16 = c.toNat := by omega
    simp [codeUnits, hhi, hlo, hzero, hsum]
  · have hplain : ¬(c.toNat < 32 ∨ c = '\\') := by simp [h₂, h₈]
    rw [List.singleton_append, codeUnits]
    · rw [if_neg h₁, if_neg hplain]
    all_goals simp_all

theorem codeUnits_flatMap_escape (s r : Str) :
    codeUnits (s.flatMap escape ++ '\x22' :: r) = some (s.map Char.toNat, r) := by
  induction s with
  | nil => simp [codeUnits]
  | cons c s ih => simp [codeUnits_escape, ih]

/-- A scalar value is no surrogate. -/
theorem isValidChar_toNat (c : Char) : c.toNat.isValidChar := c.valid

theorem fromCodeUnits_map (s : Str) : fromCodeUnits (s.map Char.toNat) = some s := by
  induction s with
  | nil => rfl
  | cons c s ih =>
    have hc := isValidChar_toNat c
    have hsur : ¬(0xD800 ≤ c.toNat ∧ c.toNat < 0xDC00) := by
      rcases hc with h | h <;> omega
    cases s with
    | nil => simp [fromCodeUnits, hc]
    | cons d s =>
      simp only [List.map_cons] at ih ⊢
      rw [fromCodeUnits, if_neg hsur, if_pos hc, ih]
      simp

/-- A string literal is read back. -/
theorem string_quote (s r : Str) : string (s.flatMap escape ++ '\x22' :: r) = some (s, r) := by
  simp [string, codeUnits_flatMap_escape, fromCodeUnits_map]

/-- Items printed with commas between are read back, if each of them is. -/
theorem commaSeparated_append {α : Type} {item : Str → Option (α × Str)} {pr : α → Str}
    {close : Char} (hspace : isSpace close = false) (hcomma : close ≠ ',')
    (hnum : isNumberChar close = false) {x : α} {xs : List α}
    (hitem : ∀ y ∈ x :: xs, ∀ r, EndsNumber r → item (pr y ++ r) = some (y, r))
    {k : ℕ} (hk : xs.length < k) (r : Str) :
    commaSeparated item close k (pr x ++ (xs.flatMap (fun y ↦ ',' :: pr y) ++ close :: r)) =
      some (x :: xs, r) := by
  induction xs generalizing x k with
  | nil =>
    obtain ⟨k, rfl⟩ := Nat.exists_eq_add_one.2 hk
    rw [commaSeparated]
    simp [hitem x (by simp) _ (endsNumber_cons hnum r), skipSpace_cons hspace, hcomma]
  | cons y ys ih =>
    obtain ⟨k, rfl⟩ := Nat.exists_eq_add_one.2 (Nat.zero_lt_of_lt hk)
    -- a comma ends whatever stands before it
    have hcom : EndsNumber (',' :: (pr y ++ (ys.flatMap (fun y ↦ ',' :: pr y) ++ close :: r))) :=
      endsNumber_cons (by decide) _
    have hrest := ih (x := y) (k := k) (fun z hz ↦ hitem z (List.mem_cons_of_mem _ hz))
      (by simpa using hk)
    rw [commaSeparated]
    simp only [List.flatMap_cons, List.cons_append, List.append_assoc]
    simp [hitem x (by simp) _ hcom, skipSpace_cons (show isSpace ',' = false by decide), hrest]

theorem length_le_flatMap_cons {α : Type} (f : α → Str) (c : Char) (xs : List α) :
    xs.length ≤ (xs.flatMap fun x ↦ c :: f x).length := by
  induction xs with
  | nil => simp
  | cons x xs ih =>
    rw [List.flatMap_cons, List.length_append, List.length_cons, List.length_cons]
    omega

theorem length_le_flatMap_of_mem {α : Type} (f : α → Str) {x : α} {xs : List α} (h : x ∈ xs) :
    (f x).length ≤ (xs.flatMap f).length := by
  obtain ⟨s, t, rfl⟩ := List.append_of_mem h
  rw [List.flatMap_append, List.flatMap_cons, List.length_append, List.length_append]
  omega

/-- The elements of a printed array are shorter than the array. -/
theorem length_print_lt_array {x : Value} {xs : List Value} (h : x ∈ xs) :
    (print x).length < (print (.array xs)).length := by
  cases xs with
  | nil => simp at h
  | cons y ys =>
    simp only [print, printElements_eq, List.length_append, List.length_cons]
    rcases List.mem_cons.1 h with rfl | h
    · omega
    · have := length_le_flatMap_of_mem (fun y ↦ ',' :: print y) h
      simp only [List.length_cons] at this
      omega

/-- The values of a printed object are shorter than the object. -/
theorem length_print_lt_object {m : Str × Value} {ms : List (Str × Value)} (h : m ∈ ms) :
    (print m.2).length < (print (.object ms)).length := by
  cases ms with
  | nil => simp at h
  | cons y ys =>
    simp only [print, printMembers_eq, List.length_append, List.length_cons]
    rcases List.mem_cons.1 h with rfl | h
    · omega
    · have hmem := length_le_flatMap_of_mem (fun y ↦ ',' :: printMember y) h
      have hlen : (print m.2).length ≤ (printMember m).length := by
        simp only [printMember, List.length_append, List.length_cons]
        omega
      rw [List.length_cons] at hmem
      omega

theorem expect_append (w s : Str) : expect w (w ++ s) = some s := by
  simp [expect]

/-- A printed value starts with a character that is no white space and no closing bracket. -/
theorem exists_print_eq_cons (v : Value) :
    ∃ c s, print v = c :: s ∧ isSpace c = false ∧ c ≠ ']' := by
  cases v with
  | null => exact ⟨_, _, rfl, by decide, by decide⟩
  | bool b => cases b <;> exact ⟨_, _, rfl, by decide, by decide⟩
  | string s => exact ⟨_, _, rfl, by decide, by decide⟩
  | array xs => cases xs <;> exact ⟨_, _, rfl, by decide, by decide⟩
  | object ms => rcases ms with - | ⟨⟨k, x⟩, ms⟩ <;> exact ⟨_, _, rfl, by decide, by decide⟩
  | number n =>
    obtain ⟨c, s, hcs, hc⟩ := n.exists_literal_eq_cons
    refine ⟨c, s, by rw [print, hcs], ?_, by rintro rfl; exact absurd hc (by decide)⟩
    by_contra hsp
    simp only [isSpace, Bool.or_eq_true, beq_iff_eq, Bool.not_eq_false] at hsp
    rcases hsp with ((rfl | rfl) | rfl) | rfl <;> exact absurd hc (by decide)

theorem member_printMember {rd : Str → Option (Value × Str)} {m : Str × Value} {r : Str}
    (h : rd (print m.2 ++ r) = some (m.2, r)) :
    member string rd (printMember m ++ r) = some (m, r) := by
  have hq : expect ['\x22'] (skipSpace (quote m.1 ++ ':' :: (print m.2 ++ r))) =
      some (m.1.flatMap escape ++ '\x22' :: ':' :: (print m.2 ++ r)) := by
    rw [quote, List.append_assoc, List.cons_append, skipSpace_cons (by decide)]
    exact expect_append ['\x22'] _
  have hcol : expect [':'] (skipSpace (':' :: (print m.2 ++ r))) = some (print m.2 ++ r) := by
    rw [skipSpace_cons (by decide)]
    exact expect_append [':'] _
  simp only [printMember, List.append_assoc, List.cons_append]
  simp [member, hq, string_quote, hcol, h]

/-- A bracketed list of printed items is read back. -/
theorem bracketed_append {α : Type} {item : Str → Option (α × Str)} {pr : α → Str}
    {close : Char} (hspace : isSpace close = false) (hcomma : close ≠ ',')
    (hnum : isNumberChar close = false) {x : α} {xs : List α}
    (hhead : ∃ c s, pr x = c :: s ∧ isSpace c = false ∧ c ≠ close)
    (hitem : ∀ y ∈ x :: xs, ∀ r, EndsNumber r → item (pr y ++ r) = some (y, r)) (r : Str) :
    bracketed item close (pr x ++ (xs.flatMap (fun y ↦ ',' :: pr y) ++ close :: r)) =
      some (x :: xs, r) := by
  obtain ⟨c, s, hcs, hsp, hne⟩ := hhead
  have hk : xs.length <
      (pr x ++ (xs.flatMap (fun y ↦ ',' :: pr y) ++ close :: r)).length := by
    have := length_le_flatMap_cons pr ',' xs
    simp only [List.length_append, List.length_cons]
    omega
  have hread := commaSeparated_append hspace hcomma hnum hitem hk r
  rw [hcs, List.cons_append] at hread ⊢
  rw [bracketed, skipSpace_cons hsp]
  simp only [if_neg hne]
  exact hread

/-! One equation for each way a value can start. -/

section

variable (literal : Str → Option (Str × Str)) (n : ℕ)

theorem value_quote (s : Str) :
    value literal (n + 1) ('\x22' :: s) = (literal s).map fun r ↦ (.string r.1, r.2) := rfl

theorem value_bracket (s : Str) :
    value literal (n + 1) ('[' :: s) =
      (bracketed (value literal n) ']' s).map fun r ↦ (.array r.1, r.2) := rfl

theorem value_brace (s : Str) :
    value literal (n + 1) ('{' :: s) =
      (bracketed (member literal (value literal n)) '}' s).map fun r ↦ (.object r.1, r.2) := rfl

theorem value_number {c : Char} (hc : isNumberChar c = true) (s : Str) :
    value literal (n + 1) (c :: s) = (number (c :: s)).map fun r ↦ (.number r.1, r.2) := by
  -- no other kind of value starts with a character of a number
  have hne : ∀ d : Char, isNumberChar d = false → c ≠ d := by
    rintro d hd rfl
    simp [hc] at hd
  have hsp : isSpace c = false := by
    simp only [isSpace, Bool.or_eq_false_iff, beq_eq_false_iff_ne]
    exact ⟨⟨⟨hne _ (by decide), hne _ (by decide)⟩, hne _ (by decide)⟩, hne _ (by decide)⟩
  rw [value, skipSpace_cons hsp]
  simp only
  rw [if_neg (hne _ (by decide)), if_neg (hne _ (by decide)), if_neg (hne _ (by decide)),
    if_neg (hne _ (by decide)), if_neg (hne _ (by decide)), if_neg (hne _ (by decide))]

end

/-- **A printed value is read back**, whatever follows it. -/
theorem value_print {n : ℕ} {v : Value} (hn : (print v).length < n) {r : Str}
    (hr : EndsNumber r) : value string n (print v ++ r) = some (v, r) := by
  induction n generalizing v r with
  | zero => omega
  | succ n ih =>
    cases v with
    | null => exact congrArg (Option.map _) (expect_append "ull".toList r)
    | bool b =>
      cases b with
      | true => exact congrArg (Option.map _) (expect_append "rue".toList r)
      | false => exact congrArg (Option.map _) (expect_append "alse".toList r)
    | string t => simp [print, quote, value_quote, string_quote]
    | number m =>
      obtain ⟨c, s, hcs, hc⟩ := m.exists_literal_eq_cons
      have hread := number_literal m hr
      rw [hcs, List.cons_append] at hread
      rw [print, hcs, List.cons_append, value_number string n hc, hread]
      rfl
    | array xs =>
      cases xs with
      | nil => rfl
      | cons x xs =>
        -- the elements print shorter than the array, so the induction covers them
        have hitem : ∀ y ∈ x :: xs, ∀ r, EndsNumber r →
            value string n (print y ++ r) = some (y, r) := fun y hy r hr ↦
          ih (by have := length_print_lt_array hy; omega) hr
        have hspace : isSpace ']' = false := by decide
        have hread := bracketed_append hspace (by decide) (by decide) (exists_print_eq_cons x)
          hitem r
        have hprint : print (.array (x :: xs)) ++ r =
            '[' :: (print x ++ (xs.flatMap (fun y ↦ ',' :: print y) ++ ']' :: r)) := by
          simp [print, printElements_eq]
        rw [hprint, value_bracket, hread]
        rfl
    | object ms =>
      cases ms with
      | nil => rfl
      | cons m ms =>
        have hitem : ∀ y ∈ m :: ms, ∀ r, EndsNumber r →
            member string (value string n) (printMember y ++ r) = some (y, r) := fun y hy r hr ↦
          member_printMember (ih (by have := length_print_lt_object hy; omega) hr)
        have hhead : ∃ c s, printMember m = c :: s ∧ isSpace c = false ∧ c ≠ '}' :=
          ⟨_, _, rfl, by decide, by decide⟩
        have hread := bracketed_append (by decide) (by decide) (by decide) hhead hitem r
        have hprint : print (.object (m :: ms)) ++ r =
            '{' :: (printMember m ++ (ms.flatMap (fun y ↦ ',' :: printMember y) ++ '}' :: r)) := by
          rcases m with ⟨k, x⟩
          simp [print, printMembers_eq, printMember]
        rw [hprint, value_brace, hread]
        rfl

/-- **Reading undoes printing.** -/
theorem parse_print (v : Value) : parse (print v) = some v := by
  have hlt : (print v).length < (print v).length + 1 := Nat.lt_succ_self _
  have h := value_print hlt endsNumber_nil
  rw [List.append_nil] at h
  rw [parse, h]
  rfl

/-! ### A printed text is one line -/

/-- A text without control characters. -/
def Printable (s : Str) : Prop :=
  ∀ c ∈ s, 32 ≤ c.toNat

theorem printable_append {s t : Str} : Printable (s ++ t) ↔ Printable s ∧ Printable t := by
  simp [Printable, or_imp, forall_and]

theorem printable_cons {c : Char} {s : Str} :
    Printable (c :: s) ↔ 32 ≤ c.toNat ∧ Printable s := by
  simp [Printable]

theorem printable_nil : Printable [] := by simp [Printable]

theorem hexDigit_printable : ∀ n < 16, 32 ≤ (hexDigit n).toNat := by decide

theorem printable_escape (c : Char) : Printable (escape c) := by
  unfold escape
  split_ifs with h₁ h₂ h₃ h₄ h₅ h₆ h₇ h₈
  · simp [Printable]
  · simp [Printable]
  · simp [Printable]
  · simp [Printable]
  · simp [Printable]
  · simp [Printable]
  · simp [Printable]
  · have hhi := hexDigit_printable (c.toNat / 16) (by omega)
    have hlo := hexDigit_printable (c.toNat % 16) (by omega)
    simp [Printable, hhi, hlo]
  · simpa [Printable] using h₈

theorem printable_quote (s : Str) : Printable (quote s) := by
  intro c hc
  simp only [quote, List.cons_append, List.mem_cons, List.mem_append, List.mem_flatMap,
    List.not_mem_nil, or_false] at hc
  rcases hc with rfl | ⟨d, -, hd⟩ | rfl
  · decide
  · exact printable_escape d c hd
  · decide

theorem printable_literal (n : Number) : Printable n.literal := by
  intro c hc
  have hv := n.valid
  simp only [isNumber, Bool.and_eq_true, List.all_eq_true] at hv
  have h := hv.1.2 c hc
  simp only [isNumberChar, isDigit, Bool.or_eq_true, Bool.and_eq_true, decide_eq_true_eq] at h
  rcases h with ⟨h, -⟩ | h
  · have : ('0' : Char).toNat ≤ c.toNat := h
    have : ('0' : Char).toNat = 48 := by decide
    omega
  · have hall : ("+-.eE".toList.all fun d ↦ 32 ≤ d.toNat) = true := by decide
    simpa using List.all_eq_true.1 hall c (List.contains_iff_mem.1 h)

mutual

/-- **A printed text has no control character**, in particular no line terminator. -/
theorem printable_print : ∀ v : Value, Printable (print v)
  | .null => by simp [print, Printable]
  | .bool true => by simp [print, Printable]
  | .bool false => by simp [print, Printable]
  | .number n => printable_literal n
  | .string s => printable_quote s
  | .array [] => by simp [print, Printable]
  | .array (x :: xs) => by
    simp only [print, List.cons_append, printable_cons, printable_append]
    exact ⟨by decide, ⟨printable_print x, printable_printElements xs⟩, by decide, printable_nil⟩
  | .object [] => by simp [print, Printable]
  | .object ((k, x) :: ms) => by
    simp only [print, List.cons_append, printable_cons, printable_append]
    exact ⟨by decide, ⟨⟨printable_quote k, by decide, printable_print x⟩,
      printable_printMembers ms⟩, by decide, printable_nil⟩

theorem printable_printElements : ∀ xs : List Value, Printable (printElements xs)
  | [] => printable_nil
  | x :: xs => by
    simp only [printElements, List.cons_append, printable_cons, printable_append]
    exact ⟨by decide, printable_print x, printable_printElements xs⟩

theorem printable_printMembers : ∀ ms : List (Str × Value), Printable (printMembers ms)
  | [] => printable_nil
  | (k, x) :: ms => by
    simp only [printMembers, List.cons_append, printable_cons, printable_append]
    exact ⟨by decide, ⟨printable_quote k, by decide, printable_print x⟩,
      printable_printMembers ms⟩

end

end Json
