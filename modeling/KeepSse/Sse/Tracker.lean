import KeepSse.EventStream

/-!
# The event-boundary tracker

The tracker watches the bytes that are relayed and knows whether an event is open. It is written to
skip runs of ordinary bytes: it searches for the next terminator, accounts for what stands before
it in one go, and then for the terminator.

Two results connect it. The loop computes the machine that takes one byte at a time (`feed_eq`):
it stops, it stays inside the slice, and its unreachable arm is not reached. And the machine tracks
a reader of the same bytes (`Tracks.feed`): its flags say whether the last byte was a `\r`, whether
the open line is empty, and that nothing is open at a boundary.
-/

namespace KeepSse.Sse

open Text EventStream

/-- The state of the tracker. -/
@[ext]
structure EventBoundaryTracker where
  atBoundary : Bool
  lineEmpty : Bool
  prevCr : Bool
  deriving DecidableEq

namespace EventBoundaryTracker

def new : EventBoundaryTracker := ⟨true, true, false⟩

/-! ### The loop -/

/-- The position of the first byte that is one of two. -/
def memchr2 (n₁ n₂ : UInt8) (haystack : Bytes) : Option ℕ :=
  haystack.findIdx? fun b ↦ b == n₁ || b == n₂

/-- A run of bytes without a terminator. -/
def onContent (_ : EventBoundaryTracker) : EventBoundaryTracker :=
  ⟨false, false, false⟩

def onLf (t : EventBoundaryTracker) : EventBoundaryTracker :=
  if t.prevCr then { t with prevCr := false }
  else if t.lineEmpty then { t with atBoundary := true }
  else { t with atBoundary := false, lineEmpty := true }

def onCr (t : EventBoundaryTracker) : EventBoundaryTracker :=
  if t.lineEmpty then { t with atBoundary := true, prevCr := true }
  else { t with atBoundary := false, lineEmpty := true, prevCr := true }

/-- The loop of `feed`, from a position. `none` is a slice out of range, the unreachable arm, or
no fuel left. -/
def feedFrom (bytes : Bytes) : ℕ → ℕ → EventBoundaryTracker → Option EventBoundaryTracker
  | 0, _, _ => none
  | fuel + 1, pos, t =>
    if bytes.length < pos then none
    else
      match memchr2 lineFeed carriageReturn (bytes.drop pos) with
      | none => some (if pos < bytes.length then t.onContent else t)
      | some i =>
        let start := pos
        let nl := pos + i
        let t := if start < nl then t.onContent else t
        match bytes[nl]? with
        | none => none
        | some b =>
          if b = lineFeed then feedFrom bytes fuel (nl + 1) t.onLf
          else if b = carriageReturn then feedFrom bytes fuel (nl + 1) t.onCr
          else none

/-- Watch a piece of the stream. -/
def feed (t : EventBoundaryTracker) (bytes : Bytes) : Option EventBoundaryTracker :=
  feedFrom bytes (bytes.length + 1) 0 t

/-! ### One byte at a time -/

/-- Watch one byte. -/
def feedByte (t : EventBoundaryTracker) (b : UInt8) : EventBoundaryTracker :=
  if b = lineFeed then t.onLf else if b = carriageReturn then t.onCr else t.onContent

/-- A run without a terminator is one update, or none if it is empty. -/
theorem foldl_feedByte_content (t : EventBoundaryTracker) {s : Bytes}
    (h : ∀ b ∈ s, b ≠ lineFeed ∧ b ≠ carriageReturn) :
    s.foldl feedByte t = if 0 < s.length then t.onContent else t := by
  induction s generalizing t with
  | nil => rfl
  | cons b s ih =>
    obtain ⟨hb, hs⟩ := List.forall_mem_cons.1 h
    have hstep : feedByte t b = t.onContent := by
      rw [feedByte, if_neg hb.1, if_neg hb.2]
    rw [List.foldl_cons, hstep, ih _ hs, if_pos (show 0 < (b :: s).length from Nat.succ_pos _)]
    exact ite_self _

/-- What the search finds: a run without a terminator, then a terminator. -/
theorem memchr2_eq_some {s : Bytes} {i : ℕ} (h : memchr2 lineFeed carriageReturn s = some i) :
    ∃ b, s[i]? = some b ∧ (b = lineFeed ∨ b = carriageReturn) ∧
      (∀ c ∈ s.take i, c ≠ lineFeed ∧ c ≠ carriageReturn) ∧
      s = s.take i ++ b :: s.drop (i + 1) := by
  obtain ⟨hi, hb, hbefore⟩ := List.findIdx?_eq_some_iff_getElem.1 h
  refine ⟨s[i], List.getElem?_eq_getElem hi, by simpa using hb, ?_, ?_⟩
  · intro c hc
    obtain ⟨j, hj, rfl⟩ := List.mem_iff_getElem.1 hc
    have hlt : j < i := Nat.lt_of_lt_of_le hj (List.length_take_le i s)
    simpa using hbefore j hlt
  · rw [← List.drop_eq_getElem_cons hi, List.take_append_drop]

/-- What the search says by finding nothing: no terminator follows. -/
theorem memchr2_eq_none {s : Bytes} (h : memchr2 lineFeed carriageReturn s = none) :
    ∀ c ∈ s, c ≠ lineFeed ∧ c ≠ carriageReturn := by
  intro c hc
  simpa using List.findIdx?_eq_none_iff.1 h c hc

/-- The loop watches the bytes from its position on, one after the other. -/
theorem feedFrom_eq {bytes : Bytes} {fuel pos : ℕ} (t : EventBoundaryTracker)
    (hpos : pos ≤ bytes.length) (hfuel : bytes.length - pos < fuel) :
    feedFrom bytes fuel pos t = some ((bytes.drop pos).foldl feedByte t) := by
  induction fuel generalizing pos t with
  | zero => omega
  | succ fuel ih =>
    rw [feedFrom, if_neg (Nat.not_lt.2 hpos)]
    cases hfind : memchr2 lineFeed carriageReturn (bytes.drop pos) with
    | none =>
      rw [foldl_feedByte_content t (memchr2_eq_none hfind)]
      simp only [List.length_drop, Nat.sub_pos_iff_lt]
    | some i =>
      obtain ⟨b, hget, hb, hbefore, hsplit⟩ := memchr2_eq_some hfind
      rw [List.getElem?_drop] at hget
      have hnl : pos + i < bytes.length := by
        obtain ⟨h, -⟩ := List.getElem?_eq_some_iff.1 hget
        exact h
      have hrest : (bytes.drop pos).drop (i + 1) = bytes.drop (pos + i + 1) := by
        rw [List.drop_drop, Nat.add_assoc]
      have hrun : 0 < ((bytes.drop pos).take i).length ↔ pos < pos + i := by
        simp only [List.length_take, List.length_drop]
        omega
      rw [hsplit, List.foldl_append, List.foldl_cons, hrest,
        foldl_feedByte_content t hbefore]
      simp only [hget, hrun]
      -- the position moves past the terminator, so what is left gets shorter
      have hnext (t' : EventBoundaryTracker) : feedFrom bytes fuel (pos + i + 1) t' =
          some ((bytes.drop (pos + i + 1)).foldl feedByte t') := ih t' hnl (by omega)
      rcases hb with rfl | rfl
      · rw [if_pos rfl, hnext]
        rfl
      · rw [if_neg (by decide), if_pos rfl, hnext]
        rfl

/-- **The loop computes the byte-at-a-time machine**, from every state. -/
theorem feed_eq (t : EventBoundaryTracker) (bytes : Bytes) :
    t.feed bytes = some (bytes.foldl feedByte t) :=
  feedFrom_eq t (Nat.zero_le _) (by omega)

/-! ### What the flags mean -/

/-- A tracker tracks a reader of the same bytes. A reader at rest need not be at a boundary: a
comment line has an end, but closes no event. -/
structure Tracks (t : EventBoundaryTracker) (r : Reader) : Prop where
  prevCr : t.prevCr = r.cr
  lineEmpty : t.lineEmpty = true ↔ r.line = []
  atBoundary : t.atBoundary = true → r.AtRest

theorem tracks_new : Tracks new Reader.start :=
  ⟨rfl, by simp [new, Reader.start], fun _ ↦ ⟨rfl, rfl⟩⟩

/-- The end of a line is tracked: a blank line is a boundary, and any other line is not. -/
theorem Tracks.endLine {t : EventBoundaryTracker} {r : Reader} (h : Tracks t r) (cr : Bool) :
    Tracks ⟨t.lineEmpty, true, cr⟩ (r.endLine cr) where
  prevCr := by unfold Reader.endLine; split_ifs <;> rfl
  lineEmpty := by unfold Reader.endLine; split_ifs <;> simp
  atBoundary hempty := by
    rw [Reader.endLine, if_pos (h.lineEmpty.1 hempty)]
    exact ⟨rfl, rfl⟩

/-- One byte is tracked. -/
theorem Tracks.feedByte {t : EventBoundaryTracker} {r : Reader} (h : Tracks t r) (b : UInt8) :
    Tracks (t.feedByte b) (r.step b) := by
  have hends (cr : Bool) : Tracks ⟨t.lineEmpty, true, cr⟩ (r.endLine cr) := h.endLine cr
  unfold EventBoundaryTracker.feedByte Reader.step
  split_ifs with hlf hr hcr
  · -- the second byte of a `\r\n`
    have hprev : t.prevCr = true := h.prevCr.trans hr
    rw [onLf, if_pos hprev]
    exact ⟨rfl, h.lineEmpty, h.atBoundary⟩
  · have hprev : t.prevCr = false := by simpa [h.prevCr] using hr
    have heq : t.onLf = ⟨t.lineEmpty, true, false⟩ := by
      rcases t with ⟨_, _ | _, _ | _⟩ <;> simp_all [onLf]
    exact heq ▸ hends false
  · have heq : t.onCr = ⟨t.lineEmpty, true, true⟩ := by
      rcases t with ⟨_, _ | _, _⟩ <;> simp [onCr]
    exact heq ▸ hends true
  · exact ⟨rfl, by simp [onContent], by simp [onContent]⟩

/-- **Bytes are tracked.** -/
theorem Tracks.feed {t t' : EventBoundaryTracker} {r : Reader} (h : Tracks t r) {s : Bytes}
    (ht : t.feed s = some t') : Tracks t' (r.feed s) := by
  rw [feed_eq] at ht
  obtain rfl := Option.some.inj ht
  clear ht
  induction s generalizing t r with
  | nil => exact h
  | cons b s ih => exact ih (h.feedByte b)

end EventBoundaryTracker

end KeepSse.Sse
