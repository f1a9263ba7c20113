import KeepSse.Sse.Tracker

/-!
# The verdict of the tracker

The tracker has three flags and sees the stream in pieces. Here the flags are tied to the text that
they summarise: after any pieces, the tracker stands at a boundary exactly if the bytes so far are
none at all or end with a blank line (`atBoundary_feedAll_iff`).

The invariant (`Summarises`) says of each flag which part of the split it stands for: whether the
last byte was a `\r`, whether the open line is empty, and whether the line before it was blank. A
`\n` that completes a `\r\n` changes the first and leaves the others alone, whichever piece it comes
in.

The loop over terminators took the place of a machine that wrote the flags at every byte. That
machine is written out here (`bytewise`), and the two agree from every state, reachable or not, and
however the bytes are cut (`feedAll_eq_bytewise`).
-/

namespace KeepSse.Sse.EventBoundaryTracker

open Text EventStream

/-- Watch the pieces of a stream, one after the other. -/
def feedAll (t : EventBoundaryTracker) (pieces : List Bytes) : Option EventBoundaryTracker :=
  pieces.foldlM feed t

/-- The cuts do not matter. -/
theorem feedAll_eq (t : EventBoundaryTracker) (pieces : List Bytes) :
    t.feedAll pieces = some (pieces.flatten.foldl feedByte t) := by
  induction pieces generalizing t with
  | nil => rfl
  | cons piece pieces ih =>
    rw [feedAll, List.foldlM_cons, feed_eq, Option.bind_eq_bind, Option.bind_some, ← feedAll, ih,
      List.flatten_cons, List.foldl_append]

/-! ### The machine that was replaced -/

/-- The byte-at-a-time machine: every flag written out at every byte. -/
def bytewise (t : EventBoundaryTracker) (b : UInt8) : EventBoundaryTracker :=
  if b = lineFeed then
    if t.prevCr then ⟨t.atBoundary, t.lineEmpty, false⟩
    else if t.lineEmpty then ⟨true, t.lineEmpty, t.prevCr⟩
    else ⟨false, true, t.prevCr⟩
  else if b = carriageReturn then
    if t.lineEmpty then ⟨true, t.lineEmpty, true⟩
    else ⟨false, true, true⟩
  else ⟨false, false, false⟩

/-- The handlers of the loop do at a byte what the old machine did there. -/
theorem feedByte_eq_bytewise : feedByte = bytewise := by
  funext t b
  rw [feedByte, bytewise, onLf, onCr, onContent]

/-- What `memchr2` promises: the first position of either byte, if there is one. -/
def IsFirst (n₁ n₂ : UInt8) (s : Bytes) : Option ℕ → Prop
  | some i => (∃ b, s[i]? = some b ∧ (b = n₁ ∨ b = n₂)) ∧
      ∀ j < i, ∀ c, s[j]? = some c → c ≠ n₁ ∧ c ≠ n₂
  | none => ∀ c ∈ s, c ≠ n₁ ∧ c ≠ n₂

/-- The promise leaves no choice. -/
theorem eq_memchr2_of_isFirst {n₁ n₂ : UInt8} {s : Bytes} {o : Option ℕ}
    (h : IsFirst n₁ n₂ s o) : o = memchr2 n₁ n₂ s := by
  cases o with
  | none =>
    symm
    rw [memchr2, List.findIdx?_eq_none_iff]
    intro c hc
    obtain ⟨hn₁, hn₂⟩ := h c hc
    simp [hn₁, hn₂]
  | some i =>
    obtain ⟨⟨b, hget, hb⟩, hbefore⟩ := h
    obtain ⟨hi, rfl⟩ := List.getElem?_eq_some_iff.1 hget
    symm
    rw [memchr2, List.findIdx?_eq_some_iff_getElem]
    refine ⟨hi, by simpa using hb, fun j hj ↦ ?_⟩
    simpa using hbefore j hj s[j] (List.getElem?_eq_getElem _)

/-- **The loop over terminators changes nothing.** From every state and for every way of cutting the
bytes, the flags are those of the byte-at-a-time machine; so two calls are one call on both pieces;
and the loop comes to its end, inside the slice and outside its unreachable arm, with any fuel that
exceeds the length. -/
theorem feedAll_eq_bytewise (t : EventBoundaryTracker) :
    (∀ pieces, t.feedAll pieces = some (pieces.flatten.foldl bytewise t)) ∧
      (∀ a b, ((t.feed a).bind fun t' ↦ t'.feed b) = t.feed (a ++ b)) ∧
      (∀ bytes fuel, bytes.length < fuel → feedFrom bytes fuel 0 t = t.feed bytes ∧
        (t.feed bytes).isSome = true) ∧
      ∀ s o, IsFirst lineFeed carriageReturn s o → o = memchr2 lineFeed carriageReturn s := by
  refine ⟨fun pieces ↦ ?_, fun a b ↦ ?_, fun bytes fuel hfuel ↦ ⟨?_, ?_⟩,
    fun s o ↦ eq_memchr2_of_isFirst⟩
  · rw [feedAll_eq, feedByte_eq_bytewise]
  · rw [feed_eq, Option.bind_some, feed_eq, feed_eq, List.foldl_append]
  · rw [feedFrom_eq t (Nat.zero_le _) (by omega), feed_eq, List.drop_zero]
  · rw [feed_eq]
    rfl

/-! ### Boundaries -/

/-- What the flags say about the split of the bytes so far: whether a `\r` came last, the open line,
and the last line that was ended, if there was one. -/
structure Summarises (t : EventBoundaryTracker) (cr : Bool) (cur : Line) (last : Option Line) :
    Prop where
  prevCr : t.prevCr = cr
  cur_of_cr : cr = true → cur = []
  lineEmpty : t.lineEmpty = true ↔ cur = []
  atBoundary : t.atBoundary = true ↔ cur = [] ∧ ∀ l ∈ last, l = []

theorem summarises_new : Summarises new false [] none :=
  ⟨rfl, fun _ ↦ rfl, by simp [new], by simp [new]⟩

section

variable {t : EventBoundaryTracker} {cr : Bool} {cur : Line} {last : Option Line}

/-- A terminator ends the open line; it is a boundary if that line was empty. -/
theorem Summarises.endLine (h : Summarises t cr cur last) (cr' : Bool) :
    Summarises ⟨t.lineEmpty, true, cr'⟩ cr' [] (some cur) where
  prevCr := rfl
  cur_of_cr _ := rfl
  lineEmpty := by simp
  atBoundary := by simpa using h.lineEmpty

theorem onLf_of_not_prevCr (h : t.prevCr = false) : t.onLf = ⟨t.lineEmpty, true, false⟩ := by
  rcases t with ⟨_, _ | _, _ | _⟩ <;> simp_all [onLf]

theorem onCr_eq (t : EventBoundaryTracker) : t.onCr = ⟨t.lineEmpty, true, true⟩ := by
  rcases t with ⟨_, _ | _, _⟩ <;> rfl

/-- **The verdict after more bytes**, in terms of how they split. -/
theorem Summarises.atBoundary_foldl (h : Summarises t cr cur last) (s : Bytes) :
    (s.foldl feedByte t).atBoundary = true ↔
      (splitFrom cr cur s).2 = [] ∧ ∀ l ∈ (splitFrom cr cur s).1.getLast?.or last, l = [] := by
  induction s generalizing t cr cur last with
  | nil => simpa [splitFrom] using h.atBoundary
  | cons b s ih =>
    rw [List.foldl_cons]
    -- a line that is ended here is the last one, unless another is ended later
    have hlast (ls : List Line) : (cur :: ls).getLast?.or last = ls.getLast?.or (some cur) := by
      rw [List.getLast?_cons]
      cases ls.getLast? <;> rfl
    by_cases hlf : b = lineFeed
    · subst hlf
      cases cr with
      | true =>
        have hstep : Summarises (feedByte t lineFeed) false cur last := by
          rw [feedByte, if_pos rfl, onLf, if_pos h.prevCr]
          exact ⟨rfl, fun h ↦ absurd h Bool.false_ne_true, h.lineEmpty, h.atBoundary⟩
        simpa [splitFrom] using ih hstep
      | false =>
        have hstep : Summarises (feedByte t lineFeed) false [] (some cur) := by
          rw [feedByte, if_pos rfl, onLf_of_not_prevCr h.prevCr]
          exact h.endLine false
        simpa only [splitFrom, if_pos, Bool.false_eq_true, if_false, hlast] using ih hstep
    · by_cases hcr : b = carriageReturn
      · subst hcr
        have hstep : Summarises (feedByte t carriageReturn) true [] (some cur) := by
          rw [feedByte, if_neg hlf, if_pos rfl, onCr_eq]
          exact h.endLine true
        simpa only [splitFrom, if_neg hlf, if_pos, hlast] using ih hstep
      · have hstep : Summarises (feedByte t b) false (cur ++ [b]) last := by
          rw [feedByte, if_neg hlf, if_neg hcr]
          exact ⟨rfl, fun h ↦ absurd h Bool.false_ne_true, by simp [onContent], by simp [onContent]⟩
        simpa only [splitFrom, if_neg hlf, if_neg hcr] using ih hstep

end

/-- Bytes that end no line are the open line. -/
theorem splitFrom_eq_of_nil {cur : Line} {s : Bytes} (h : (splitFrom false cur s).1 = []) :
    (splitFrom false cur s).2 = cur ++ s := by
  induction s generalizing cur with
  | nil => simp [splitFrom]
  | cons b s ih =>
    rw [splitFrom] at h ⊢
    -- the branches that end a line contradict `h`
    split_ifs at h ⊢ with hlf hno
    · exact hno.elim
    · simpa using ih h

/-- **The tracker decides event boundaries exactly.** However the bytes are cut into pieces, it
stands at a boundary if and only if there were none, or nothing follows the last terminator and the
line that it ended is empty. -/
theorem atBoundary_feedAll_iff (pieces : List Bytes) :
    ∃ t, new.feedAll pieces = some t ∧
      (t.atBoundary = true ↔ pieces.flatten = [] ∨
        ((lines pieces.flatten).2 = [] ∧ (lines pieces.flatten).1.getLast? = some [])) := by
  refine ⟨_, feedAll_eq new pieces, ?_⟩
  rw [summarises_new.atBoundary_foldl, ← lines, Option.or_none]
  cases hlast : (lines pieces.flatten).1.getLast? with
  | none =>
    -- no line was ended, so all of it is the open line
    have hrest : (lines pieces.flatten).2 = pieces.flatten :=
      splitFrom_eq_of_nil (List.getLast?_eq_none_iff.1 hlast)
    rw [hrest]
    simp
  | some l =>
    have hne : pieces.flatten ≠ [] := by
      intro hnil
      rw [hnil] at hlast
      cases hlast
    simp [hne]

end KeepSse.Sse.EventBoundaryTracker
