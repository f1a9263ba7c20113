import KeepSse.ErrorEvent.Build

/-!
# Messages that are cut

A message that is taken from a body is the longest prefix of the trimmed text that fits the limit
(`message_longest`). Where there is no such text, it is the status line.

## What it rests on

* The loop that looks for the cut goes back over byte positions, and passes no boundary
  (`le_backOff`). It stops at one, at the latest at the beginning, so the slice exists
  (`sliceTo_backOff`) and the code does not panic there.
* The prefixes of a text are the texts that end at a character boundary
  (`Text.isCharBoundary_byteLen`, `Text.exists_prefix_of_isCharBoundary`), so the last boundary
  within the limit ends the longest prefix (`longestWithin_of_sliceTo`).
* The next character would not fit any more, and it has at most four bytes
  (`LongestWithin.lt_add_four`): a cut text misses the limit by less than that.
-/

namespace KeepSse.ErrorEvent

open Text Http

/-! ### The loop -/

theorem backOff_le (s : Str) (i : ℕ) : backOff s i ≤ i := by
  induction i with
  | zero => exact Nat.le_refl 0
  | succ i ih =>
    rw [backOff]
    split_ifs
    · exact Nat.le_refl _
    · exact Nat.le_succ_of_le ih

/-- **The loop does not pass a boundary.** -/
theorem le_backOff {s : Str} {i j : ℕ} (hj : isCharBoundary s j = true) (hle : j ≤ i) :
    j ≤ backOff s i := by
  induction i with
  | zero => exact hle
  | succ i ih =>
    rw [backOff]
    split_ifs with hi
    · exact hle
    · refine ih (Nat.le_of_lt_succ (Nat.lt_of_le_of_ne hle ?_))
      rintro rfl
      exact hi hj

/-! ### The cut -/

/-- The longest prefix of a text that has at most so many bytes. -/
structure LongestWithin (limit : ℕ) (s t : Str) : Prop where
  isPrefix : t <+: s
  fits : byteLen t ≤ limit
  longest : ∀ u, u <+: s → byteLen u ≤ limit → u <+: t

/-- A text that fits is its own longest prefix. -/
theorem LongestWithin.refl {limit : ℕ} {s : Str} (h : byteLen s ≤ limit) :
    LongestWithin limit s s :=
  ⟨List.prefix_rfl, h, fun _ hu _ ↦ hu⟩

/-- A longest prefix that is not the whole text misses the limit by less than a character. -/
theorem LongestWithin.lt_add_four {limit : ℕ} {s t : Str} (h : LongestWithin limit s t)
    (hlong : limit < byteLen s) : limit < byteLen t + 4 := by
  obtain ⟨rest, rfl⟩ := h.isPrefix
  cases rest with
  | nil =>
    rw [List.append_nil] at hlong
    exact absurd h.fits (Nat.not_le.2 hlong)
  | cons c rest =>
    by_contra hnot
    have hchar := byteLen_singleton c
    -- else the next character would fit as well
    have hnext : byteLen (t ++ [c]) ≤ limit := by
      rw [byteLen_append]
      omega
    have hlen := (h.longest (t ++ [c]) ⟨rest, by simp⟩ hnext).length_le
    rw [List.length_append, List.length_singleton] at hlen
    omega

/-- **Where the loop stops, the longest prefix ends.** -/
theorem longestWithin_of_sliceTo {limit : ℕ} {s t : Str}
    (h : sliceTo s (backOff s limit) = some t) (hlong : limit < byteLen s) :
    LongestWithin limit s t := by
  have hle := backOff_le s limit
  obtain ⟨hboundary, htake⟩ := sliceTo_eq_some_iff.1 h
  obtain ⟨t', ht', hpre⟩ := exists_sliceTo hboundary
  obtain rfl : t' = t := Option.some.inj (ht'.symm.trans h)
  have hlen : byteLen t' = backOff s limit := by
    rw [byteLen, htake, List.length_take, ← byteLen]
    omega
  refine ⟨hpre, by omega, fun u hu hfits ↦ prefix_of_byteLen_le hpre hu ?_⟩
  rw [hlen]
  exact le_backOff (isCharBoundary_byteLen hu) hfits

theorem sliceTo_backOff (s : Str) : sliceTo s (backOff s maxMsg) = some (truncated s) := by
  rw [truncated, Option.some_get]

theorem longestWithin_truncated {s : Str} (hlong : maxMsg < byteLen s) :
    LongestWithin maxMsg s (truncated s) :=
  longestWithin_of_sliceTo (sliceTo_backOff s) hlong

/-! ### The message -/

/-- Any other body is not quoted. -/
theorem message_of_not_text (D : Crates) {body : Option Bytes}
    (h : ¬∃ s, body = some (utf8 s) ∧ ∃ c ∈ s, isWhiteSpace c = false) (status : StatusCode) :
    message D body none status = statusFallback D status := by
  cases body with
  | none => rfl
  | some b =>
    unfold message
    simp only
    split_ifs with hb
    · cases hs : fromUtf8 b with
      | none => rfl
      | some s =>
        have hblank : trim s = [] := by
          by_contra hne
          exact h ⟨s, by rw [fromUtf8_eq_some_iff.1 hs], trim_ne_nil_iff.1 hne⟩
        exact if_pos hblank
    · rfl

theorem statusFallback_eq (D : Crates) (status : StatusCode) :
    statusFallback D status = Nat.toDigits 10 status.code ++
      ' ' :: (D.canonicalReason status).getD "Bad Gateway".toList := by
  rw [statusFallback, decimal, List.append_assoc]
  rfl

/-- **Truncation returns the longest prefix of whole characters.** Without a reason, the message for
a body that is valid UTF-8 and not only white space is the longest prefix of its trimmed text that
has at most 4096 bytes: all of it if it fits, and else at least 4093 bytes. For any other body it is
the status line: the code in decimal, a space, and the reason phrase, or `Bad Gateway` for a code
that has none. The loop stops at a boundary no later than it starts and passes none, and there the
slice exists. -/
theorem message_longest (D : Crates) (status : StatusCode) :
    (∀ s, (∃ c ∈ s, isWhiteSpace c = false) →
      LongestWithin 4096 (trim s) (message D (some (utf8 s)) none status) ∧
        (byteLen (trim s) ≤ 4096 → message D (some (utf8 s)) none status = trim s) ∧
        (4096 < byteLen (trim s) → 4093 ≤ byteLen (message D (some (utf8 s)) none status))) ∧
    (∀ body, (¬∃ s, body = some (utf8 s) ∧ ∃ c ∈ s, isWhiteSpace c = false) →
      message D body none status = Nat.toDigits 10 status.code ++
        ' ' :: (D.canonicalReason status).getD "Bad Gateway".toList) ∧
    ∀ s i, isCharBoundary s (backOff s i) = true ∧ backOff s i ≤ i ∧
      (∀ j, isCharBoundary s j = true → j ≤ i → j ≤ backOff s i) ∧
      (sliceTo s (backOff s i)).isSome = true := by
  refine ⟨fun s htext ↦ ?_, fun body h ↦ ?_, fun s i ↦ ?_⟩
  · rw [message_of_utf8 D (trim_ne_nil_iff.2 htext)]
    rcases Nat.lt_or_ge maxMsg (byteLen (trim s)) with hlong | hfits
    · rw [if_neg (Nat.not_le.2 hlong)]
      have hlongest := longestWithin_truncated hlong
      have hnear := hlongest.lt_add_four hlong
      exact ⟨hlongest, fun h ↦ absurd h (Nat.not_le.2 hlong), fun _ ↦ by
        simp only [maxMsg] at hnear
        omega⟩
    · rw [if_pos hfits]
      exact ⟨LongestWithin.refl hfits, fun _ ↦ rfl, fun h ↦ absurd hfits (Nat.not_le.2 h)⟩
  · rw [message_of_not_text D h, statusFallback_eq]
  · obtain ⟨t, ht, -⟩ := exists_sliceTo (isCharBoundary_backOff s i)
    exact ⟨isCharBoundary_backOff s i, backOff_le s i, fun _ ↦ le_backOff, by rw [ht]; rfl⟩

end KeepSse.ErrorEvent
