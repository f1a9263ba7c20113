import KeepSse.Text

/-!
# The event-stream format

What a client reads out of a `text/event-stream` body. The reading is defined twice:

* `read` says what the format means, on a whole byte string: split it into lines (`lines`), drop
  the comments, and let every blank line close the event gathered so far (`gather`);
* `Reader` is the same thing as a machine that takes one byte at a time, which is the shape a
  proof about a growing stream needs.

`read_eq_feed` identifies the two, so a fact about the machine is a fact about the format.

Two laws carry everything that is proved about streams written by a program that injects bytes of
its own. **Agreement is preserved** (`Reader.Agree.feed`): readers that differ only in whether a
`\r` is waiting for its `\n`, while no event is open, never come to differ in what they read. And
**a reader at rest starts afresh** (`read_append_of_atRest`): what follows a closed event is read
as if it stood alone.

The rule about a byte-order mark at the start of a stream is left out.
-/

namespace EventStream

open Text

/-- A line, without its terminator. -/
abbrev Line := Bytes

/-- An event: its lines, in order. -/
abbrev Event := List Line

abbrev lineFeed : UInt8 := 10

abbrev carriageReturn : UInt8 := 13

abbrev colon : UInt8 := 58

/-- A line that starts with a colon is a comment. -/
def isComment (l : Line) : Bool :=
  l.head? == some colon

/-! ### The meaning of a byte string -/

/-- Split bytes into terminated lines and an unterminated rest. A line ends at `\r\n`, `\n` or
`\r`; the flag says that the byte before was a `\r`, whose line has ended already, and `cur` is
the line read so far. -/
def splitFrom : Bool → Line → Bytes → List Line × Line
  | _, cur, [] => ([], cur)
  | cr, cur, b :: s =>
    if b = lineFeed then
      if cr then splitFrom false cur s
      else
        let r := splitFrom false [] s
        (cur :: r.1, r.2)
    else if b = carriageReturn then
      let r := splitFrom true [] s
      (cur :: r.1, r.2)
    else splitFrom false (cur ++ [b]) s

/-- The terminated lines of a byte string, and what follows the last terminator. -/
def lines (s : Bytes) : List Line × Line :=
  splitFrom false [] s

/-- An event that a blank line closes: nothing at all if it has no line. -/
def closed (cur : Event) : List Event :=
  if cur = [] then [] else [cur]

/-- Gather lines into events: a blank line closes the current event, a comment is dropped. -/
def gather : Event → List Line → List Event × Event
  | cur, [] => ([], cur)
  | cur, l :: ls =>
    if l = [] then
      let r := gather [] ls
      (closed cur ++ r.1, r.2)
    else if isComment l then gather cur ls
    else gather (cur ++ [l]) ls

/-- What is read from a byte string: the closed events, the complete lines of the event that is
still open, and the bytes of the line that is still open. -/
structure Reading where
  events : List Event
  pending : Event
  line : Line
  deriving DecidableEq, Repr

/-- **The reading of a byte string.** -/
def read (s : Bytes) : Reading :=
  let ls := lines s
  let es := gather [] ls.1
  ⟨es.1, es.2, ls.2⟩

/-- The open event as it would stand if its last line ended here: its lines that are no comment. -/
def Reading.unfinished (r : Reading) : Event :=
  if r.line = [] ∨ isComment r.line then r.pending else r.pending ++ [r.line]

/-! ### The reader, one byte at a time -/

/-- A reader in the middle of a stream. `cr` says that the last byte was a `\r`: the line it
ended is behind it, so the current line is empty. -/
@[ext]
structure Reader where
  events : List Event
  pending : Event
  line : Line
  cr : Bool
  line_of_cr : cr = true → line = []
  deriving DecidableEq

namespace Reader

/-- The reader of a stream that has not begun. -/
def start : Reader :=
  ⟨[], [], [], false, by simp⟩

/-- What has been read so far. -/
def reading (r : Reader) : Reading :=
  ⟨r.events, r.pending, r.line⟩

/-- The current line ends; `cr` says whether a `\r` ended it. -/
def endLine (r : Reader) (cr : Bool) : Reader :=
  if r.line = [] then ⟨r.events ++ closed r.pending, [], [], cr, fun _ ↦ rfl⟩
  else if isComment r.line then ⟨r.events, r.pending, [], cr, fun _ ↦ rfl⟩
  else ⟨r.events, r.pending ++ [r.line], [], cr, fun _ ↦ rfl⟩

/-- The next byte. -/
def step (r : Reader) (b : UInt8) : Reader :=
  if b = lineFeed then
    if r.cr then ⟨r.events, r.pending, r.line, false, by simp⟩ else r.endLine false
  else if b = carriageReturn then r.endLine true
  else ⟨r.events, r.pending, r.line ++ [b], false, by simp⟩

/-- The bytes of a string, in order. -/
def feed (r : Reader) (s : Bytes) : Reader :=
  s.foldl step r

@[simp] theorem feed_nil (r : Reader) : r.feed [] = r := rfl

@[simp] theorem feed_cons (r : Reader) (b : UInt8) (s : Bytes) :
    r.feed (b :: s) = (r.step b).feed s := rfl

theorem feed_append (r : Reader) (s t : Bytes) : r.feed (s ++ t) = (r.feed s).feed t :=
  List.foldl_append

/-- What a reader has after more bytes, in terms of how those bytes split into lines. -/
theorem feed_reading (r : Reader) (s : Bytes) :
    (r.feed s).reading =
      ⟨r.events ++ (gather r.pending (splitFrom r.cr r.line s).1).1,
        (gather r.pending (splitFrom r.cr r.line s).1).2, (splitFrom r.cr r.line s).2⟩ := by
  induction s generalizing r with
  | nil => simp [reading, splitFrom, gather]
  | cons b s ih =>
    -- the byte ends the line: `gather` and `endLine` split on the same three kinds of line
    have hend (cr : Bool) : ((r.endLine cr).feed s).reading =
        ⟨r.events ++ (gather r.pending (r.line :: (splitFrom cr [] s).1)).1,
          (gather r.pending (r.line :: (splitFrom cr [] s).1)).2, (splitFrom cr [] s).2⟩ := by
      rw [ih]
      by_cases hline : r.line = []
      · simp [endLine, gather, hline]
      · by_cases hcom : isComment r.line <;> simp [endLine, gather, hline, hcom]
    rw [feed_cons]
    by_cases hlf : b = lineFeed
    · cases hcr : r.cr with
      | true => rw [ih]; simp [step, splitFrom, hlf, hcr]
      | false => simpa [step, splitFrom, hlf, hcr] using hend false
    · by_cases hb : b = carriageReturn
      · simpa [step, splitFrom, hlf, hb, show carriageReturn ≠ lineFeed by decide] using hend true
      · rw [ih]; simp [step, splitFrom, hlf, hb]

end Reader

/-- **The machine computes the meaning.** -/
theorem read_eq_feed (s : Bytes) : read s = (Reader.start.feed s).reading := by
  rw [Reader.feed_reading]
  simp [read, lines, Reader.start]

namespace Reader

/-! ### Agreement -/

/-- No event and no line is open. -/
def AtRest (r : Reader) : Prop :=
  r.pending = [] ∧ r.line = []

instance (r : Reader) : Decidable r.AtRest :=
  inferInstanceAs (Decidable (_ ∧ _))

/-- Two readers agree: they have read the same, and they differ in the flag only while no event
is open, where one more blank line means nothing. -/
structure Agree (r r' : Reader) : Prop where
  events : r.events = r'.events
  pending : r.pending = r'.pending
  line : r.line = r'.line
  cr : r.cr = r'.cr ∨ r.AtRest

theorem Agree.refl (r : Reader) : Agree r r :=
  ⟨rfl, rfl, rfl, .inl rfl⟩

theorem Agree.reading {r r' : Reader} (h : Agree r r') : r.reading = r'.reading := by
  simp [Reader.reading, h.events, h.pending, h.line]

theorem Agree.atRest_iff {r r' : Reader} (h : Agree r r') : r.AtRest ↔ r'.AtRest := by
  simp [AtRest, h.pending, h.line]

/-- Readers at rest that have read the same events agree. -/
theorem agree_of_atRest {r r' : Reader} (h : r.AtRest) (h' : r'.AtRest)
    (hev : r.events = r'.events) : Agree r r' :=
  ⟨hev, h.1.trans h'.1.symm, h.2.trans h'.2.symm, .inr h⟩

theorem endLine_of_atRest {r : Reader} (h : r.AtRest) (cr : Bool) :
    r.endLine cr = ⟨r.events, [], [], cr, fun _ ↦ rfl⟩ := by
  simp [endLine, h.1, h.2, closed]

/-- One byte keeps readers in agreement: at rest, a `\n` is a blank line to the one and the end
of a `\r\n` to the other, and neither closes an event. -/
theorem Agree.step {r r' : Reader} (h : Agree r r') (b : UInt8) :
    Agree (r.step b) (r'.step b) := by
  rcases h.cr with hcr | hrest
  · have heq : r = r' := Reader.ext h.events h.pending h.line hcr
    exact heq ▸ Agree.refl _
  · have hrest' := h.atRest_iff.1 hrest
    -- the flag is forgotten: whatever it was, the step from a reader at rest is the same
    have key : ∀ {q : Reader}, q.AtRest → q.step b =
        if b = lineFeed then ⟨q.events, [], [], false, by simp⟩
        else if b = carriageReturn then ⟨q.events, [], [], true, by simp⟩
        else ⟨q.events, [], [b], false, by simp⟩ := by
      intro q hq
      unfold Reader.step
      rw [endLine_of_atRest hq, endLine_of_atRest hq]
      by_cases hlf : b = lineFeed <;> by_cases hcr : q.cr <;> simp [hlf, hcr, hq.1, hq.2]
    rw [key hrest, key hrest', h.events]
    exact Agree.refl _

/-- **Agreement is preserved.** -/
theorem Agree.feed {r r' : Reader} (h : Agree r r') (s : Bytes) :
    Agree (r.feed s) (r'.feed s) := by
  induction s generalizing r r' with
  | nil => exact h
  | cons b s ih => exact ih (h.step b)

/-! ### Events already read do not matter -/

/-- The same reader with earlier events in front. -/
def prepend (es : List Event) (r : Reader) : Reader :=
  ⟨es ++ r.events, r.pending, r.line, r.cr, r.line_of_cr⟩

theorem step_prepend (es : List Event) (r : Reader) (b : UInt8) :
    (r.prepend es).step b = (r.step b).prepend es := by
  unfold step endLine prepend
  grind

theorem feed_prepend (es : List Event) (r : Reader) (s : Bytes) :
    (r.prepend es).feed s = (r.feed s).prepend es := by
  induction s generalizing r with
  | nil => rfl
  | cons b s ih => rw [feed_cons, feed_cons, step_prepend, ih]

/-- What a reader at rest reads next is what a fresh reader reads, after the same events. -/
theorem feed_of_atRest {r : Reader} (h : r.AtRest) (s : Bytes) :
    Agree (r.feed s) ((start.feed s).prepend r.events) := by
  rw [← feed_prepend]
  exact (agree_of_atRest h ⟨rfl, rfl⟩ (by simp [prepend, start])).feed s

/-! ### Bytes that end nothing, and bytes that end everything -/

/-- Bytes without a terminator extend the open line. -/
theorem feed_line (r : Reader) {l : Bytes} (hl : l ≠ []) (hlf : lineFeed ∉ l)
    (hcr : carriageReturn ∉ l) :
    r.feed l = ⟨r.events, r.pending, r.line ++ l, false, by simp⟩ := by
  induction l generalizing r with
  | nil => exact absurd rfl hl
  | cons b l ih =>
    have hstep : r.step b = ⟨r.events, r.pending, r.line ++ [b], false, by simp⟩ := by
      unfold step
      rw [if_neg (show b ≠ lineFeed from fun h ↦ hlf (by simp [h])),
        if_neg (show b ≠ carriageReturn from fun h ↦ hcr (by simp [h]))]
    rw [feed_cons, hstep]
    rcases eq_or_ne l [] with rfl | hne
    · rfl
    · rw [ih _ hne (fun h ↦ hlf (List.mem_cons_of_mem _ h))
        fun h ↦ hcr (List.mem_cons_of_mem _ h)]
      simp

/-- **A comment between events is invisible.** -/
theorem feed_comment {r : Reader} (h : r.AtRest) {c : Bytes} (hlf : lineFeed ∉ c)
    (hcr : carriageReturn ∉ c) :
    r.feed (colon :: c ++ [lineFeed, lineFeed]) = ⟨r.events, [], [], false, by simp⟩ := by
  have hlf' : lineFeed ∉ colon :: c := by simpa [show lineFeed ≠ colon by decide] using hlf
  have hcr' : carriageReturn ∉ colon :: c := by
    simpa [show carriageReturn ≠ colon by decide] using hcr
  rw [feed_append, feed_line r (List.cons_ne_nil _ _) hlf' hcr']
  simp [h.1, h.2, feed, step, endLine, isComment, closed]

/-- **Two line feeds close whatever is open**, also when the first of them completes a `\r\n`. -/
theorem feed_close (r : Reader) :
    r.feed [lineFeed, lineFeed] =
      ⟨r.events ++ closed r.reading.unfinished, [], [], false, by simp⟩ := by
  have hline := r.line_of_cr
  rcases r with ⟨events, pending, line, cr, hcr⟩
  simp only at hline
  by_cases hl : line = []
  · -- one line feed may belong to a `\r\n`; the other one is a blank line in any case
    cases cr <;> simp [feed, step, endLine, reading, Reading.unfinished, hl, closed]
  · -- the first line feed ends the line, the second one is a blank line
    have hfalse : cr = false := by
      cases cr with
      | true => exact absurd (hline rfl) hl
      | false => rfl
    by_cases hcom : isComment line <;>
      simp [feed, step, endLine, reading, Reading.unfinished, hl, hcom, hfalse, closed]

end Reader

/-- **A closed stream is read by itself**: what follows it is read as if it stood alone. -/
theorem read_append_of_atRest {s : Bytes} (h : (Reader.start.feed s).AtRest) (t : Bytes) :
    read (s ++ t) = ⟨(read s).events ++ (read t).events, (read t).pending, (read t).line⟩ := by
  simp only [read_eq_feed, Reader.feed_append, (Reader.feed_of_atRest h t).reading]
  rfl

/-! ### Writing events -/

/-- A line that can be written into an event: not blank, no comment, no terminator inside. -/
structure Writable (l : Line) : Prop where
  ne_nil : l ≠ []
  not_comment : isComment l = false
  no_lf : lineFeed ∉ l
  no_cr : carriageReturn ∉ l

/-- The bytes of an event: each line with its terminator, then a blank line. -/
def encode (e : Event) : Bytes :=
  e.flatMap (· ++ [lineFeed]) ++ [lineFeed]

/-- The lines of an event join the open event. -/
theorem feed_flatMap_lines {r : Reader} (hline : r.line = []) {e : Event}
    (he : ∀ l ∈ e, Writable l) (hcr : r.cr = false) :
    r.feed (e.flatMap (· ++ [lineFeed])) = ⟨r.events, r.pending ++ e, [], false, by simp⟩ := by
  induction e generalizing r with
  | nil =>
    rcases r with ⟨events, pending, line, cr, h⟩
    simp_all
  | cons l e ih =>
    obtain ⟨hw, hrest⟩ := List.forall_mem_cons.1 he
    have hl : r.feed (l ++ [lineFeed]) = ⟨r.events, r.pending ++ [l], [], false, by simp⟩ := by
      rw [Reader.feed_append, Reader.feed_line r hw.ne_nil hw.no_lf hw.no_cr]
      simp [Reader.feed, Reader.step, Reader.endLine, hline, hw.ne_nil, hw.not_comment]
    rw [List.flatMap_cons, Reader.feed_append, hl, ih rfl hrest rfl]
    simp

/-- A written event is read back, and nothing stays open. -/
theorem feed_encode {r : Reader} (h : r.AtRest) (hcr : r.cr = false) {e : Event} (hne : e ≠ [])
    (he : ∀ l ∈ e, Writable l) :
    r.feed (encode e) = ⟨r.events ++ [e], [], [], false, by simp⟩ := by
  rw [encode, Reader.feed_append, feed_flatMap_lines h.2 he hcr]
  simp [Reader.feed, Reader.step, Reader.endLine, h.1, closed, hne]

/-- **Reading undoes writing.** -/
theorem read_flatMap_encode {es : List Event} (hes : ∀ e ∈ es, e ≠ [] ∧ ∀ l ∈ e, Writable l) :
    read (es.flatMap encode) = ⟨es, [], []⟩ := by
  have key : ∀ {es : List Event} {r : Reader}, (∀ e ∈ es, e ≠ [] ∧ ∀ l ∈ e, Writable l) →
      r.AtRest → r.cr = false →
      r.feed (es.flatMap encode) = ⟨r.events ++ es, [], [], false, by simp⟩ := by
    intro es
    induction es with
    | nil =>
      rintro ⟨events, pending, line, cr, h⟩ - hr hcr
      simp_all [Reader.AtRest]
    | cons e es ih =>
      intro r hes hr hcr
      obtain ⟨⟨hne, hw⟩, hrest⟩ := List.forall_mem_cons.1 hes
      rw [List.flatMap_cons, Reader.feed_append, feed_encode hr hcr hne hw,
        ih hrest ⟨rfl, rfl⟩ rfl]
      simp
  rw [read_eq_feed, key hes ⟨rfl, rfl⟩ rfl]
  simp [Reader.reading, Reader.start]

/-! ### The fields of an event -/

/-- The name and the value of a field line: the parts around its first colon, less one space. -/
def field (l : Line) : Line × Line :=
  let value := (l.dropWhile (· != colon)).drop 1
  (l.takeWhile (· != colon), if value.head? = some 32 then value.drop 1 else value)

/-- The values of the fields of a given name, in order. -/
def Event.values (name : Line) (e : Event) : List Line :=
  (e.filter fun l ↦ (field l).1 == name).map fun l ↦ (field l).2

end EventStream
