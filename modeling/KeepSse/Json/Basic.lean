import KeepSse.Text

/-!
# JSON

Values, the compact text of a value, and a reader for JSON texts after RFC 8259.

A number is kept as its literal: two literals that a binary float would identify stay apart, so
nothing here depends on how a program rounds. An object keeps its members in order, repeated names
included: what repetition means is for the reader of the value to say.

`RoundTrip` proves that reading undoes printing, and that a printed text is a single line.
-/

namespace Json

open Text

/-! ### Values -/

def isDigit (c : Char) : Bool := '0' ≤ c && c ≤ '9'

/-- The characters that number literals are made of. -/
def isNumberChar (c : Char) : Bool :=
  isDigit c || "+-.eE".toList.contains c

/-- The exponent of a number literal, or nothing. -/
def validExponent : Str → Bool
  | [] => true
  | c :: s =>
    let digits := match s with
      | '+' :: t => t
      | '-' :: t => t
      | t => t
    (c == 'e' || c == 'E') && digits ≠ [] && digits.all isDigit

/-- The fraction of a number literal and what follows it. -/
def validFraction : Str → Bool
  | '.' :: s => s.head?.any isDigit && validExponent (s.dropWhile isDigit)
  | s => validExponent s

/-- The integer part of a number literal and what follows it: no leading zero. -/
def validInt : Str → Bool
  | '0' :: s => validFraction s
  | c :: s => isDigit c && validFraction (s.dropWhile isDigit)
  | [] => false

/-- A number literal. -/
def isNumber (s : Str) : Bool :=
  s ≠ [] && s.all isNumberChar && validInt (match s with
    | '-' :: t => t
    | t => t)

/-- A number, as its literal. -/
structure Number where
  literal : Str
  valid : isNumber literal = true
  deriving DecidableEq

/-- The decimal text of a positive number has no leading zero. -/
theorem exists_toDigits_eq_cons (n : ℕ) :
    ∃ c s, Nat.toDigits 10 n = c :: s ∧ (0 < n → c ≠ '0') := by
  induction n using Nat.strongRecOn with
  | ind n ih =>
    rw [Nat.toDigits_eq_if (by decide)]
    split_ifs with h
    · exact ⟨_, _, rfl, fun hpos ↦ by simp; omega⟩
    · obtain ⟨c, s, hcs, hc⟩ := ih (n / 10) (by omega)
      exact ⟨c, _, by rw [hcs, List.cons_append], fun _ ↦ hc (by omega)⟩

theorem isDigit_of_mem_toDigits {n : ℕ} {c : Char} (h : c ∈ Nat.toDigits 10 n) :
    isDigit c = true := by
  have := Nat.isDigit_of_mem_toDigits (by decide) (by decide) h
  simpa [isDigit, Char.isDigit, UInt32.le_iff_toNat_le, Char.le_def] using this

theorem isNumber_toDigits (n : ℕ) : isNumber (Nat.toDigits 10 n) = true := by
  obtain ⟨c, s, hcs, hzero⟩ := exists_toDigits_eq_cons n
  have hdig : ∀ d ∈ c :: s, isDigit d = true := fun d hd ↦
    isDigit_of_mem_toDigits (hcs ▸ hd)
  have hc := hdig c (by simp)
  have hs : s.dropWhile isDigit = [] := by
    have hdrop : (s ++ []).dropWhile isDigit = [].dropWhile isDigit :=
      List.dropWhile_append_of_pos fun d hd ↦ hdig d (List.mem_cons_of_mem c hd)
    simpa using hdrop
  have hall : (c :: s).all isNumberChar = true := List.all_eq_true.2 fun d hd ↦ by
    simp [isNumberChar, hdig d hd]
  have hminus : c ≠ '-' := by
    rintro rfl
    exact absurd hc (by decide)
  have hint : validInt (c :: s) = true := by
    rcases eq_or_ne c '0' with rfl | hne
    · -- only zero starts with a zero, and its text ends there
      have hn : n = 0 := by
        by_contra h
        exact hzero (by omega) rfl
      subst hn
      obtain rfl : s = [] := by simpa using hcs.symm
      rfl
    · rw [validInt]
      · simp [hc, hs, validFraction, validExponent]
      · exact hne
  simp only [isNumber, hcs, hall, ne_eq, reduceCtorEq, not_false_eq_true, decide_true,
    Bool.true_and]
  split
  · next h => exact absurd (List.cons.inj h).1 hminus
  · exact hint

/-- A natural number, as its decimal literal. -/
def Number.ofNat (n : ℕ) : Number :=
  ⟨Nat.toDigits 10 n, isNumber_toDigits n⟩

inductive Value where
  | null
  | bool (b : Bool)
  | number (n : Number)
  | string (s : Str)
  | array (xs : List Value)
  | object (members : List (Str × Value))

namespace Value

/-- The member of a name, if the value is an object that has one. -/
def get? (v : Value) (k : Str) : Option Value :=
  match v with
  | .object ms => ms.lookup k
  | _ => none

def isObject : Value → Bool
  | .object _ => true
  | _ => false

def asStr : Value → Option Str
  | .string s => some s
  | _ => none

def asBool : Value → Option Bool
  | .bool b => some b
  | _ => none

end Value

/-- A map with one more entry; the names stay sorted and distinct. -/
def insertMember (k : Str) (v : Value) : List (Str × Value) → List (Str × Value)
  | [] => [(k, v)]
  | (k', v') :: ms =>
    if k = k' then (k, v) :: ms
    else if k < k' then (k, v) :: (k', v') :: ms
    else (k', v') :: insertMember k v ms

/-- The object with the given members. -/
def object (ms : List (Str × Value)) : Value :=
  .object (ms.foldl (fun m e ↦ insertMember e.1 e.2 m) [])

/-! ### Printing -/

/-- A digit of a base up to 16. -/
def hexDigit (n : ℕ) : Char :=
  if n < 10 then Char.ofNat (48 + n) else Char.ofNat (87 + n)

/-- A character inside a string literal. -/
def escape (c : Char) : Str :=
  if c = '\x22' then ['\\', '\x22']
  else if c = '\\' then ['\\', '\\']
  else if c = '\x08' then ['\\', 'b']
  else if c = '\x0c' then ['\\', 'f']
  else if c = '\n' then ['\\', 'n']
  else if c = '\r' then ['\\', 'r']
  else if c = '\t' then ['\\', 't']
  else if c.toNat < 32 then ['\\', 'u', '0', '0', hexDigit (c.toNat / 16), hexDigit (c.toNat % 16)]
  else [c]

/-- A string literal. -/
def quote (s : Str) : Str :=
  '\x22' :: s.flatMap escape ++ ['\x22']

mutual

/-- **The compact text of a value.** -/
def print : Value → Str
  | .null => "null".toList
  | .bool true => "true".toList
  | .bool false => "false".toList
  | .number n => n.literal
  | .string s => quote s
  | .array [] => "[]".toList
  | .array (x :: xs) => '[' :: print x ++ printElements xs ++ [']']
  | .object [] => "\x7b\x7d".toList
  | .object ((k, x) :: ms) => '{' :: quote k ++ ':' :: print x ++ printMembers ms ++ ['}']

/-- The elements after the first, each with the comma before it. -/
def printElements : List Value → Str
  | [] => []
  | x :: xs => ',' :: print x ++ printElements xs

/-- The members after the first, each with the comma before it. -/
def printMembers : List (Str × Value) → Str
  | [] => []
  | (k, x) :: ms => ',' :: quote k ++ ':' :: print x ++ printMembers ms

end

/-- A member, as printed. -/
def printMember (m : Str × Value) : Str :=
  quote m.1 ++ ':' :: print m.2

theorem printElements_eq (xs : List Value) :
    printElements xs = xs.flatMap fun x ↦ ',' :: print x := by
  induction xs with
  | nil => simp [printElements]
  | cons x xs ih => simp [printElements, ih]

theorem printMembers_eq (ms : List (Str × Value)) :
    printMembers ms = ms.flatMap fun m ↦ ',' :: printMember m := by
  induction ms with
  | nil => simp [printMembers]
  | cons m ms ih =>
    rcases m with ⟨k, x⟩
    simp [printMembers, printMember, ih]

/-! ### Reading -/

def isSpace (c : Char) : Bool :=
  c == ' ' || c == '\t' || c == '\n' || c == '\r'

def skipSpace (s : Str) : Str := s.dropWhile isSpace

/-- The rest of a text after a literal word. -/
def expect (w s : Str) : Option Str :=
  if w.isPrefixOf s then some (s.drop w.length) else none

/-- The value of a hexadecimal digit. -/
def hexValue (c : Char) : Option ℕ :=
  if '0' ≤ c ∧ c ≤ '9' then some (c.toNat - 48)
  else if 'a' ≤ c ∧ c ≤ 'f' then some (c.toNat - 87)
  else if 'A' ≤ c ∧ c ≤ 'F' then some (c.toNat - 55)
  else none

/-- The character of a two-character escape. -/
def unescape (c : Char) : Option Char :=
  if c = '\x22' then some '\x22'
  else if c = '\\' then some '\\'
  else if c = '/' then some '/'
  else if c = 'b' then some '\x08'
  else if c = 'f' then some '\x0c'
  else if c = 'n' then some '\n'
  else if c = 'r' then some '\r'
  else if c = 't' then some '\t'
  else none

/-- The code units of a string literal, up to its closing quote. -/
def codeUnits : Str → Option (List ℕ × Str)
  | [] => none
  | '\\' :: 'u' :: a :: b :: c :: d :: s => do
    let a ← hexValue a
    let b ← hexValue b
    let c ← hexValue c
    let d ← hexValue d
    (codeUnits s).map fun r ↦ ((((a * 16 + b) * 16 + c) * 16 + d) :: r.1, r.2)
  | '\\' :: e :: s => do
    let c ← unescape e
    (codeUnits s).map fun r ↦ (c.toNat :: r.1, r.2)
  | c :: s =>
    if c = '\x22' then some ([], s)
    else if c.toNat < 32 ∨ c = '\\' then none
    else (codeUnits s).map fun r ↦ (c.toNat :: r.1, r.2)

/-- The text that code units spell. A pair of surrogates is one character; a lone surrogate is
none. -/
def fromCodeUnits : List ℕ → Option Str
  | [] => some []
  | [u] => if u.isValidChar then some [Char.ofNat u] else none
  | u :: v :: us =>
    if 0xD800 ≤ u ∧ u < 0xDC00 then
      if 0xDC00 ≤ v ∧ v < 0xE000 then
        (fromCodeUnits us).map (Char.ofNat (0x10000 + (u - 0xD800) * 0x400 + (v - 0xDC00)) :: ·)
      else none
    else if u.isValidChar then (fromCodeUnits (v :: us)).map (Char.ofNat u :: ·)
    else none

/-- The text of a string literal, after its opening quote. -/
def string (s : Str) : Option (Str × Str) := do
  let (us, r) ← codeUnits s
  let t ← fromCodeUnits us
  some (t, r)

/-- The inside of a string literal as it stands, after its opening quote. -/
def rawString (s : Str) : Option (Str × Str) := do
  let (_, r) ← codeUnits s
  some (s.take (s.length - (r.length + 1)), r)

/-- The text of a string literal in bytes, after its opening quote. -/
def decodedString (s : Str) : Option (Str × Str) := do
  let (l, r) ← rawString s
  let t ← fromUtf8 (fromLatin1 l)
  let (k, rest) ← string (t ++ ['\x22'])
  if wide t = l ∧ rest = [] then some (k, r) else none

/-- A number literal: all the characters that could belong to one. -/
def number (s : Str) : Option (Number × Str) :=
  let t := s.takeWhile isNumberChar
  if h : isNumber t = true then some (⟨t, h⟩, s.dropWhile isNumberChar) else none

/-- One or more items with commas between, up to a closing bracket. -/
def commaSeparated {α : Type} (item : Str → Option (α × Str)) (close : Char) :
    ℕ → Str → Option (List α × Str)
  | 0, _ => none
  | k + 1, s => do
    let (x, s) ← item s
    match skipSpace s with
    | [] => none
    | c :: s =>
      if c = ',' then do
        let (xs, s) ← commaSeparated item close k s
        some (x :: xs, s)
      else if c = close then some ([x], s)
      else none

/-- The items of a bracketed list, after its opening bracket. -/
def bracketed {α : Type} (item : Str → Option (α × Str)) (close : Char) (s : Str) :
    Option (List α × Str) :=
  match skipSpace s with
  | [] => none
  | c :: t => if c = close then some ([], t) else commaSeparated item close s.length s

/-- A member of an object, given a reader for the rest of its name and one for its value. -/
def member {κ α : Type} (name : Str → Option (κ × Str)) (value : Str → Option (α × Str))
    (s : Str) : Option ((κ × α) × Str) := do
  let s ← expect ['\x22'] (skipSpace s)
  let (k, s) ← name s
  let s ← expect [':'] (skipSpace s)
  let (v, s) ← value s
  some ((k, v), s)

/-- A value at the start of a text, nested less than the given depth, given a reader for the rest of
a string literal. -/
def value (literal : Str → Option (Str × Str)) : ℕ → Str → Option (Value × Str)
  | 0, _ => none
  | n + 1, s =>
    match skipSpace s with
    | [] => none
    | c :: s =>
      if c = '\x22' then (literal s).map fun r ↦ (.string r.1, r.2)
      else if c = '[' then (bracketed (value literal n) ']' s).map fun r ↦ (.array r.1, r.2)
      else if c = '{' then
        (bracketed (member literal (value literal n)) '}' s).map fun r ↦ (.object r.1, r.2)
      else if c = 'n' then (expect "ull".toList s).map fun r ↦ (.null, r)
      else if c = 't' then (expect "rue".toList s).map fun r ↦ (.bool true, r)
      else if c = 'f' then (expect "alse".toList s).map fun r ↦ (.bool false, r)
      else (number (c :: s)).map fun r ↦ (.number r.1, r.2)

/-- **The value of a JSON text**: one value, with nothing but white space around it. -/
def parse (s : Str) : Option Value := do
  let (v, r) ← value string (s.length + 1) s
  if skipSpace r = [] then some v else none

end Json
