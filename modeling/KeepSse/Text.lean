import Mathlib.Algebra.Ring.Int.Defs
import Mathlib.Algebra.Ring.Nat
import Mathlib.Tactic.Common

/-!
# Text and its bytes

A string type whose values are sequences of Unicode scalar values, with its UTF-8 encoding as a
separate function into bytes. Everything a byte-level format needs about text is a fact about that
one function:

* `fromUtf8` is its exact partial inverse (`fromUtf8_eq_some_iff`), so the encoding is injective;
* an ASCII byte occurs in the encoding of a text only as the encoding of that ASCII character
  (`mem_utf8_ascii`): a line terminator in the bytes is a line terminator in the text.

Splitting, trimming and ASCII case folding are on the character side, where they are plain list
functions.
-/

namespace Text

/-- A sequence of Unicode scalar values. -/
abbrev Str := List Char

/-- A sequence of bytes. -/
abbrev Bytes := List UInt8

/-! ### UTF-8 -/

/-- The UTF-8 encoding of a text. -/
def utf8 (s : Str) : Bytes :=
  s.flatMap String.utf8EncodeChar

@[simp] theorem utf8_nil : utf8 [] = [] := rfl

@[simp] theorem utf8_cons (c : Char) (s : Str) :
    utf8 (c :: s) = String.utf8EncodeChar c ++ utf8 s := rfl

@[simp] theorem utf8_append (s t : Str) : utf8 (s ++ t) = utf8 s ++ utf8 t :=
  List.flatMap_append

/-- The text that some bytes encode, if they are valid UTF-8. -/
def fromUtf8 (b : Bytes) : Option Str :=
  (ByteArray.mk b.toArray).utf8Decode?.map Array.toList

/-- The standard library's encoder is `utf8`, packed in a byte array. -/
private theorem mk_utf8 (s : Str) : ByteArray.mk (utf8 s).toArray = s.utf8Encode := by
  ext1
  simp [utf8, List.utf8Encode]

@[simp] theorem fromUtf8_utf8 (s : Str) : fromUtf8 (utf8 s) = some s := by
  simp [fromUtf8, mk_utf8, List.utf8Decode?_utf8Encode]

/-- **Decoding is the exact partial inverse of encoding.** -/
theorem fromUtf8_eq_some_iff {b : Bytes} {s : Str} : fromUtf8 b = some s ↔ utf8 s = b := by
  constructor
  · intro h
    obtain ⟨a, ha, rfl⟩ := Option.map_eq_some_iff.1 h
    have hsome : (ByteArray.mk b.toArray).utf8Decode?.isSome := by rw [ha]; rfl
    have henc := ByteArray.utf8Encode_get_utf8Decode? (h := hsome)
    simp only [ha, Option.get_some] at henc
    rw [← mk_utf8] at henc
    simpa using congrArg (fun x : ByteArray ↦ x.data.toList) henc
  · rintro rfl
    exact fromUtf8_utf8 s

theorem utf8_injective : Function.Injective utf8 := fun s t h ↦ by
  have := congrArg fromUtf8 h
  simpa using this

/-- A byte below 128 in the encoding of a character is that character. -/
theorem mem_utf8EncodeChar_ascii {b : UInt8} {c : Char} (hb : b.toNat < 128)
    (h : b ∈ String.utf8EncodeChar c) : c.toNat = b.toNat := by
  have key : ∀ n : ℕ, b = UInt8.ofNat n → b.toNat = n % 256 := by
    rintro n rfl
    simp
  simp only [String.utf8EncodeChar] at h
  -- every byte of a longer encoding carries the high bit, which `b` lacks
  split at h
  · have := key _ (List.mem_singleton.1 h)
    simp only [Char.toNat] at *
    omega
  · split at h
    · simp only [List.mem_cons, List.not_mem_nil, or_false] at h
      rcases h with h | h
      all_goals
        have := key _ h
        omega
    · split at h
      · simp only [List.mem_cons, List.not_mem_nil, or_false] at h
        rcases h with h | h | h
        all_goals
          have := key _ h
          omega
      · simp only [List.mem_cons, List.not_mem_nil, or_false] at h
        rcases h with h | h | h | h
        all_goals
          have := key _ h
          omega

/-- **An ASCII byte in the encoding of a text is an ASCII character of the text.** -/
theorem mem_utf8_ascii {b : UInt8} {s : Str} (hb : b.toNat < 128) (h : b ∈ utf8 s) :
    ∃ c ∈ s, c.toNat = b.toNat := by
  obtain ⟨c, hc, hbc⟩ := List.mem_flatMap.1 h
  exact ⟨c, hc, mem_utf8EncodeChar_ascii hb hbc⟩

/-- The bytes of an ASCII text are the codes of its characters. -/
theorem utf8_of_ascii {s : Str} (h : ∀ c ∈ s, c.toNat < 128) :
    utf8 s = s.map fun c ↦ UInt8.ofNat c.toNat := by
  induction s with
  | nil => rfl
  | cons c s ih =>
    obtain ⟨hc, hs⟩ := List.forall_mem_cons.1 h
    have henc : String.utf8EncodeChar c = [UInt8.ofNat c.toNat] := by
      unfold String.utf8EncodeChar
      exact if_pos (by simp only [Char.toNat] at hc; omega)
    rw [utf8_cons, henc, ih hs]
    rfl

/-- Below the surrogates the character of a code has that code. -/
theorem toNat_ofNat_of_lt {n : ℕ} (h : n < 0xD800) : (Char.ofNat n).toNat = n := by
  have hvalid : n.isValidChar := Or.inl h
  rw [Char.ofNat, dif_pos hvalid]
  rfl

/-- The character of an ASCII code has that code. -/
theorem toNat_ofNat_of_ascii {n : ℕ} (h : n < 128) : (Char.ofNat n).toNat = n :=
  toNat_ofNat_of_lt (by omega)

/-! ### Bytes as characters -/

/-- Some bytes, each as the character of its number. -/
def latin1 (b : Bytes) : Str :=
  b.map fun x ↦ Char.ofNat x.toNat

theorem toNat_latin1 (x : UInt8) : (Char.ofNat x.toNat).toNat = x.toNat :=
  toNat_ofNat_of_lt (by have := x.toNat_lt; omega)

/-- The bytes whose numbers some characters have. -/
def fromLatin1 (s : Str) : Bytes :=
  s.map fun c ↦ UInt8.ofNat c.toNat

theorem fromLatin1_latin1 (b : Bytes) : fromLatin1 (latin1 b) = b := by
  rw [fromLatin1, latin1, List.map_map]
  refine (List.map_congr_left fun x _ ↦ ?_).trans (List.map_id b)
  rw [Function.comp_apply, toNat_latin1]
  exact UInt8.ofNat_toNat

theorem latin1_injective : Function.Injective latin1 :=
  Function.LeftInverse.injective fromLatin1_latin1

/-- The bytes of a text, as characters. -/
def wide (s : Str) : Str :=
  latin1 (utf8 s)

@[simp] theorem wide_append (s t : Str) : wide (s ++ t) = wide s ++ wide t := by
  simp [wide, latin1]

theorem wide_cons (c : Char) (s : Str) : wide (c :: s) = wide [c] ++ wide s :=
  wide_append [c] s

/-- An ASCII text is what its bytes are. -/
theorem wide_of_ascii {s : Str} (h : ∀ c ∈ s, c.toNat < 128) : wide s = s := by
  rw [wide, latin1, utf8_of_ascii h, List.map_map]
  refine (List.map_congr_left fun c hc ↦ ?_).trans (List.map_id s)
  have hnat : (UInt8.ofNat c.toNat).toNat = c.toNat := by
    have := h c hc
    rw [UInt8.toNat_ofNat', Nat.mod_eq_of_lt (by omega)]
  rw [Function.comp_apply, hnat]
  exact Char.ofNat_toNat c

theorem wide_cons_of_ascii {c : Char} (hc : c.toNat < 128) (s : Str) :
    wide (c :: s) = c :: wide s := by
  rw [wide_cons, wide_of_ascii (by simpa using hc), List.singleton_append]

/-- The bytes of any other character are not ASCII. -/
theorem le_toNat_of_mem_wide {c d : Char} (hc : 128 ≤ c.toNat) (hd : d ∈ wide [c]) :
    128 ≤ d.toNat := by
  obtain ⟨x, hx, rfl⟩ := List.mem_map.1 hd
  rw [toNat_latin1]
  by_contra hlt
  have hmem : x ∈ String.utf8EncodeChar c := by simpa using hx
  have hnat := mem_utf8EncodeChar_ascii (Nat.not_le.1 hlt) hmem
  omega

/-! ### Slicing by bytes -/

/-- The length of a text in bytes. -/
def byteLen (s : Str) : ℕ :=
  (utf8 s).length

/-- Whether the first `i` bytes of a text are whole characters: the end of the text or the first
byte of a character comes next. -/
def isCharBoundary (s : Str) (i : ℕ) : Bool :=
  i == 0 ||
    match (utf8 s)[i]? with
    | some b => decide b.IsUTF8FirstByte
    | none => i == byteLen s

/-- The first `i` bytes of a text, as a text; none if they cut a character. -/
def sliceTo (s : Str) (i : ℕ) : Option Str :=
  if isCharBoundary s i then fromUtf8 ((utf8 s).take i) else none

theorem isCharBoundary_of_pos (s : Str) {i : ℕ} (hi : 0 < i) :
    isCharBoundary s i = match (utf8 s)[i]? with
      | some b => decide b.IsUTF8FirstByte
      | none => i == byteLen s := by
  simp only [isCharBoundary, beq_eq_false_iff_ne.2 (Nat.ne_of_gt hi), Bool.false_or]

/-- No boundary is inside the first character. -/
theorem length_le_of_isCharBoundary {c : Char} {s : Str} {i : ℕ} (hi : 0 < i)
    (h : isCharBoundary (c :: s) i = true) : (String.utf8EncodeChar c).length ≤ i := by
  by_contra hlt
  rw [Nat.not_le] at hlt
  rw [isCharBoundary_of_pos _ hi, utf8_cons, List.getElem?_append_left hlt,
    List.getElem?_eq_getElem hlt] at h
  have hzero := UInt8.isUTF8FirstByte_getElem_utf8EncodeChar.1 (of_decide_eq_true h)
  omega

/-- After the first character the boundaries are those of the rest. -/
theorem isCharBoundary_of_cons {c : Char} {s : Str} {j : ℕ}
    (h : isCharBoundary (c :: s) ((String.utf8EncodeChar c).length + j) = true) :
    isCharBoundary s j = true := by
  rcases Nat.eq_zero_or_pos j with rfl | hj
  · rfl
  · have hlen : byteLen (c :: s) = (String.utf8EncodeChar c).length + byteLen s :=
      List.length_append
    rw [isCharBoundary_of_pos _ (by omega), utf8_cons,
      List.getElem?_append_right (Nat.le_add_right _ j), Nat.add_sub_cancel_left, hlen] at h
    rw [isCharBoundary_of_pos _ hj]
    cases hget : (utf8 s)[j]? with
    | none => simpa [hget] using h
    | some b => simpa [hget] using h

/-- The bytes up to a character boundary are those of a prefix of the text. -/
theorem exists_prefix_of_isCharBoundary {s : Str} {i : ℕ} (h : isCharBoundary s i = true) :
    ∃ t, t <+: s ∧ utf8 t = (utf8 s).take i := by
  induction s generalizing i with
  | nil => exact ⟨[], List.prefix_rfl, by simp⟩
  | cons c s ih =>
    rcases Nat.eq_zero_or_pos i with rfl | hi
    · exact ⟨[], List.nil_prefix, by simp⟩
    · obtain ⟨j, rfl⟩ := Nat.exists_eq_add_of_le (length_le_of_isCharBoundary hi h)
      obtain ⟨t, ht, htake⟩ := ih (isCharBoundary_of_cons h)
      refine ⟨c :: t, (List.prefix_cons_inj c).2 ht, ?_⟩
      rw [utf8_cons, utf8_cons, htake, List.take_length_add_append]

theorem byteLen_append (s t : Str) : byteLen (s ++ t) = byteLen s + byteLen t := by
  rw [byteLen, utf8_append, List.length_append, ← byteLen, ← byteLen]

/-- A character has one to four bytes. -/
theorem byteLen_singleton (c : Char) : 0 < byteLen [c] ∧ byteLen [c] ≤ 4 := by
  rw [byteLen, utf8_cons, utf8_nil, List.append_nil, String.length_utf8EncodeChar]
  exact ⟨c.utf8Size_pos, c.utf8Size_le_four⟩

/-- Of two prefixes the one with fewer bytes is a prefix of the other. -/
theorem prefix_of_byteLen_le {s t u : Str} (ht : t <+: s) (hu : u <+: s)
    (hle : byteLen u ≤ byteLen t) : u <+: t := by
  rcases List.prefix_or_prefix_of_prefix hu ht with h | ⟨rest, rfl⟩
  · exact h
  · cases rest with
    | nil => simp
    | cons c rest =>
      have hpos := (byteLen_singleton c).1
      rw [byteLen_append, ← List.singleton_append, byteLen_append] at hle
      omega

/-- The bytes of a prefix end at a character boundary. -/
theorem isCharBoundary_byteLen {s t : Str} (h : t <+: s) :
    isCharBoundary s (byteLen t) = true := by
  obtain ⟨rest, rfl⟩ := h
  rcases Nat.eq_zero_or_pos (byteLen t) with hzero | hpos
  · rw [hzero]
    rfl
  · have hget : (utf8 (t ++ rest))[byteLen t]? = (utf8 rest)[0]? := by
      rw [utf8_append, byteLen, List.getElem?_append_right (Nat.le_refl _), Nat.sub_self]
    rw [isCharBoundary_of_pos _ hpos, hget, byteLen_append]
    cases rest with
    | nil => simp [byteLen]
    | cons c rest =>
      have hlen : 0 < (String.utf8EncodeChar c).length := by
        rw [String.length_utf8EncodeChar]
        exact c.utf8Size_pos
      rw [utf8_cons, List.getElem?_append_left hlen, List.getElem?_eq_getElem hlen]
      exact decide_eq_true (UInt8.isUTF8FirstByte_getElem_utf8EncodeChar.2 rfl)

/-- A slice has the bytes up to its end. -/
theorem sliceTo_eq_some_iff {s t : Str} {i : ℕ} :
    sliceTo s i = some t ↔ isCharBoundary s i = true ∧ utf8 t = (utf8 s).take i := by
  rw [sliceTo, Option.ite_none_right_eq_some, fromUtf8_eq_some_iff]

/-- A slice up to a character boundary is a prefix of the text. -/
theorem exists_sliceTo {s : Str} {i : ℕ} (h : isCharBoundary s i = true) :
    ∃ t, sliceTo s i = some t ∧ t <+: s := by
  obtain ⟨t, ht, htake⟩ := exists_prefix_of_isCharBoundary h
  exact ⟨t, by rw [sliceTo, if_pos h, ← htake, fromUtf8_utf8], ht⟩

/-! ### Splitting -/

/-- The parts around the first occurrence of a character. -/
def splitOnce (c : Char) (s : Str) : Option (Str × Str) :=
  match s.dropWhile (· ≠ c) with
  | [] => none
  | _ :: t => some (s.takeWhile (· ≠ c), t)

/-- **Splitting once is at the first occurrence.** -/
theorem splitOnce_eq_some_iff {c : Char} {s k v : Str} :
    splitOnce c s = some (k, v) ↔ s = k ++ c :: v ∧ c ∉ k := by
  constructor
  · intro h
    rw [splitOnce] at h
    split at h
    · cases h
    · next d t hdrop =>
      obtain ⟨rfl, rfl⟩ : s.takeWhile (· ≠ c) = k ∧ t = v := by simpa using h
      have hd : d = c := by
        have hhead := List.head?_dropWhile_not (· ≠ c) s
        rw [hdrop] at hhead
        simpa using hhead
      refine ⟨?_, fun hc ↦ ?_⟩
      · rw [← hd, ← hdrop, hd, List.takeWhile_append_dropWhile]
      · have hall : (s.takeWhile (· ≠ c)).all (· ≠ c) = true := List.all_takeWhile
        simpa using List.all_eq_true.1 hall c hc
  · rintro ⟨rfl, hk⟩
    have hall : ∀ x ∈ k, (decide (x ≠ c)) = true := fun x hx ↦
      decide_eq_true (ne_of_mem_of_not_mem hx hk)
    rw [splitOnce, List.dropWhile_append_of_pos hall, List.takeWhile_append_of_pos hall]
    simp

/-- A text is its parts, each with the separator before it, but for the first separator. -/
theorem cons_eq_flatMap_splitOn (c : Char) (s : Str) :
    c :: s = (s.splitOn c).flatMap (c :: ·) := by
  have hcons (parts : List Str) (hne : parts ≠ []) :
      c :: [c].intercalate parts = parts.flatMap (c :: ·) := by
    induction parts with
    | nil => exact absurd rfl hne
    | cons l parts ih =>
      rcases eq_or_ne parts [] with rfl | hparts
      · simp
      · rw [List.intercalate_cons_of_ne_nil hparts, List.append_assoc, List.singleton_append,
          ih hparts, List.flatMap_cons, List.cons_append]
  rw [← hcons _ (List.splitOn_ne_nil c s), List.intercalate_splitOn]

/-- **Suffixes of a text that begin with the separator are suffixes of its parts.** -/
theorem flatMap_cons_suffix_iff {c : Char} {parts : List Str} (h : ∀ l ∈ parts, c ∉ l) (s : Str) :
    parts.flatMap (c :: ·) <:+ c :: s ↔ parts <:+ s.splitOn c := by
  constructor
  · rintro ⟨pre, hpre⟩
    rcases eq_or_ne parts [] with rfl | hne
    · exact List.nil_suffix
    have hsplit : ([c].intercalate parts).splitOn c = parts := List.splitOn_intercalate c h hne
    have hjoin := cons_eq_flatMap_splitOn c ([c].intercalate parts)
    rw [hsplit] at hjoin
    rw [← hjoin] at hpre
    cases pre with
    | nil =>
      obtain rfl : [c].intercalate parts = s := List.tail_eq_of_cons_eq hpre
      exact ⟨[], hsplit.symm⟩
    | cons d pre =>
      obtain rfl : pre ++ c :: [c].intercalate parts = s := List.tail_eq_of_cons_eq hpre
      rw [List.splitOn_append_cons_self, hsplit]
      exact List.suffix_append _ _
  · rintro ⟨xs, hxs⟩
    rw [cons_eq_flatMap_splitOn c s, ← hxs, List.flatMap_append]
    exact List.suffix_append _ _

/-- A text joined of parts has nothing but their characters and the separator. -/
theorem mem_intercalate {α : Type*} {x c : α} {parts : List (List α)}
    (h : x ∈ [c].intercalate parts) : x = c ∨ ∃ l ∈ parts, x ∈ l := by
  induction parts with
  | nil => cases h
  | cons l parts ih =>
    rcases eq_or_ne parts [] with rfl | hne
    · exact .inr ⟨l, List.mem_singleton_self l, by simpa using h⟩
    · rw [List.intercalate_cons_of_ne_nil hne, List.mem_append, List.mem_append,
        List.mem_singleton] at h
      rcases h with (h | h) | h
      · exact .inr ⟨l, List.mem_cons_self, h⟩
      · exact .inl h
      · exact (ih h).imp_right fun ⟨l', hl', hx⟩ ↦ ⟨l', List.mem_cons_of_mem l hl', hx⟩

theorem mem_intercalate_of_mem {α : Type*} {x c : α} {l : List α} {parts : List (List α)}
    (hl : l ∈ parts) (hx : x ∈ l) : x ∈ [c].intercalate parts := by
  induction parts with
  | nil => cases hl
  | cons l' parts ih =>
    rcases eq_or_ne parts [] with rfl | hne
    · rw [List.intercalate_singleton, ← List.mem_singleton.1 hl]
      exact hx
    · rw [List.intercalate_cons_of_ne_nil hne, List.mem_append, List.mem_append]
      rcases List.mem_cons.1 hl with rfl | hl
      · exact .inl (.inl hx)
      · exact .inr (ih hl)

/-- Joining goes through a map of the characters. -/
theorem map_intercalate {α β : Type*} (f : α → β) (c : α) (parts : List (List α)) :
    ([c].intercalate parts).map f = [f c].intercalate (parts.map (List.map f)) := by
  induction parts with
  | nil => rfl
  | cons l parts ih =>
    rcases eq_or_ne parts [] with rfl | hne
    · simp
    · rw [List.intercalate_cons_of_ne_nil hne, List.map_cons,
        List.intercalate_cons_of_ne_nil (by simpa using hne), ← ih]
      simp

/-- A number in decimal. -/
def decimal (n : ℕ) : Str :=
  Nat.toDigits 10 n

/-- `str::parse::<usize>`: digits, perhaps after a plus sign, of a number that fits 64 bits. -/
def parseUsize (s : Str) : Option ℕ :=
  let digits := match s with
    | '+' :: digits => digits
    | _ => s
  let n := Nat.ofDigitChars 10 digits 0
  if digits ≠ [] ∧ digits.all Char.isDigit ∧ n < 2 ^ 64 then some n else none

/-! ### White space and case -/

/-- The Unicode property `White_Space`. -/
def isWhiteSpace (c : Char) : Bool :=
  let n := c.toNat
  (9 ≤ n && n ≤ 13) || n == 0x20 || n == 0x85 || n == 0xA0 || n == 0x1680 ||
    (0x2000 ≤ n && n ≤ 0x200A) || n == 0x2028 || n == 0x2029 || n == 0x202F || n == 0x205F ||
    n == 0x3000

/-- A text without its leading and trailing white space. -/
def trim (s : Str) : Str :=
  ((s.dropWhile isWhiteSpace).reverse.dropWhile isWhiteSpace).reverse

/-- White space is all that trimming takes away. -/
theorem mem_trim {c : Char} {s : Str} (h : c ∈ s) (hc : isWhiteSpace c = false) : c ∈ trim s := by
  have hdrop (t : Str) (ht : c ∈ t) : c ∈ t.dropWhile isWhiteSpace := by
    rw [← List.takeWhile_append_dropWhile (p := isWhiteSpace) (l := t), List.mem_append] at ht
    refine ht.resolve_left fun hmem ↦ ?_
    have hall : (t.takeWhile isWhiteSpace).all isWhiteSpace = true := List.all_takeWhile
    rw [List.all_eq_true.1 hall c hmem] at hc
    cases hc
  rw [trim, List.mem_reverse]
  exact hdrop _ (List.mem_reverse.2 (hdrop s h))

/-- Nothing is left of a text of white space, and of no other. -/
theorem trim_ne_nil_iff {s : Str} : trim s ≠ [] ↔ ∃ c ∈ s, isWhiteSpace c = false := by
  constructor
  · intro hne
    by_contra hnot
    have hall : ∀ c ∈ s, isWhiteSpace c = true := fun c hc ↦ by
      by_contra hc'
      exact hnot ⟨c, hc, Bool.not_eq_true _ ▸ hc'⟩
    have hdrop : s.dropWhile isWhiteSpace = [] := by
      rw [← List.append_nil s, List.dropWhile_append_of_pos hall, List.dropWhile_nil]
    refine hne ?_
    rw [trim, hdrop]
    rfl
  · rintro ⟨c, hc, hwhite⟩
    exact List.ne_nil_of_mem (mem_trim hc hwhite)

/-- The elements of a comma-separated list: trimmed, and without the empty ones. -/
def listElements (s : Str) : List Str :=
  ((s.splitOn ',').map trim).filter (· ≠ [])

/-- A text with its ASCII capitals in lower case. -/
def toAsciiLower (s : Str) : Str :=
  s.map Char.toLower

/-- Equality of texts up to ASCII case. -/
def eqIgnoreAsciiCase (s t : Str) : Bool :=
  toAsciiLower s == toAsciiLower t

end Text
