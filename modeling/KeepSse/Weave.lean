import KeepSse.EventStream
import Mathlib.Data.List.Induction

/-!
# Weaving frames into an event stream

A program relays a stream piece by piece and writes frames of its own between the pieces. What
comes out is a word over pieces and frames (`Woven`): the pieces in order, each once, and a frame
only where no event is open.

If a frame means nothing to a reader at rest (`Invisible`), as a comment does, then the woven
stream is read as the pieces alone (`Woven.read_eq`). If the pieces break off, a blank line closes
what was open (`Woven.closed_reader`), and whatever is written then is read as if it stood alone
(`Woven.read_closed_append`).
-/

namespace EventStream

open Text

/-- Bytes that a reader at rest reads without reading anything. -/
def Invisible (c : Bytes) : Prop :=
  ∀ r : Reader, r.AtRest → (r.feed c).AtRest ∧ (r.feed c).events = r.events

/-- A comment and a blank line are invisible. -/
theorem invisible_comment {c : Bytes} (hlf : lineFeed ∉ c) (hcr : carriageReturn ∉ c) :
    Invisible (colon :: c ++ [lineFeed, lineFeed]) := by
  intro r hr
  rw [Reader.feed_comment hr hlf hcr]
  exact ⟨⟨rfl, rfl⟩, rfl⟩

/-- `Woven c cs w`: the word `w` has the pieces `cs` in order, each once, and frames `c` between
them, at places where a reader of the pieces is at rest. -/
inductive Woven (c : Bytes) : List Bytes → List Bytes → Prop where
  | nil : Woven c [] []
  | piece {cs w : List Bytes} (h : Woven c cs w) (b : Bytes) : Woven c (cs ++ [b]) (w ++ [b])
  | frame {cs w : List Bytes} (h : Woven c cs w)
    (hrest : (Reader.start.feed cs.flatten).AtRest) : Woven c cs (w ++ [c])

namespace Woven

variable {c : Bytes} {cs w : List Bytes}

/-- **A woven stream and its pieces are read in agreement.** -/
theorem agree (hc : Invisible c) (h : Woven c cs w) :
    Reader.Agree (Reader.start.feed w.flatten) (Reader.start.feed cs.flatten) := by
  induction h with
  | nil => exact Reader.Agree.refl _
  | piece h b ih =>
    rw [List.flatten_append, List.flatten_append, Reader.feed_append, Reader.feed_append]
    exact ih.feed _
  | frame h hrest ih =>
    rw [List.flatten_append, Reader.feed_append]
    -- the two readers rest together, and afterwards they may differ in the flag
    have hw := ih.atRest_iff.2 hrest
    obtain ⟨hrest', hev⟩ := hc _ hw
    have hflat : [c].flatten = c := List.append_nil c
    rw [hflat]
    exact Reader.agree_of_atRest hrest' hrest (hev.trans ih.events)

/-- **A woven stream is read as its pieces.** -/
theorem read_eq (hc : Invisible c) (h : Woven c cs w) : read w.flatten = read cs.flatten := by
  rw [read_eq_feed, read_eq_feed, (h.agree hc).reading]

/-- What closes the pieces where they break off: nothing if no event is open, and a blank line in
any case. -/
def Closes (cs : List Bytes) (close : List Bytes) : Prop :=
  (close = [] ∧ (Reader.start.feed cs.flatten).AtRest) ∨ close = [[lineFeed, lineFeed]]

/-- An event that is not open has no line. -/
theorem unfinished_of_atRest {r : Reader} (h : r.AtRest) : r.reading.unfinished = [] := by
  simp [Reading.unfinished, Reader.reading, h.1, h.2]

/-- **A closed stream**: the events of the pieces, then the unfinished event if it has a line, and
nothing left open. -/
theorem closed_reader (hc : Invisible c) (h : Woven c cs w) {close : List Bytes}
    (hclose : Closes cs close) :
    (Reader.start.feed (w ++ close).flatten).AtRest ∧
      (Reader.start.feed (w ++ close).flatten).events =
        (read cs.flatten).events ++ closed (read cs.flatten).unfinished := by
  have hagree := h.agree hc
  rw [List.flatten_append, Reader.feed_append, read_eq_feed]
  obtain ⟨rfl, hrest⟩ | rfl := hclose
  · rw [unfinished_of_atRest hrest]
    exact ⟨hagree.atRest_iff.2 hrest, by simp [hagree.events, closed, Reader.reading]⟩
  · have hflat : [[lineFeed, lineFeed]].flatten = [lineFeed, lineFeed] := rfl
    rw [hflat, Reader.feed_close, hagree.reading, hagree.events]
    exact ⟨⟨rfl, rfl⟩, rfl⟩

/-- **What is written after a closed stream is read by itself.** -/
theorem read_closed_append (hc : Invisible c) (h : Woven c cs w) {close : List Bytes}
    (hclose : Closes cs close) (t : Bytes) :
    read ((w ++ close).flatten ++ t) =
      ⟨(read cs.flatten).events ++ closed (read cs.flatten).unfinished ++ (read t).events,
        (read t).pending, (read t).line⟩ := by
  obtain ⟨hrest, hev⟩ := h.closed_reader hc hclose
  rw [read_append_of_atRest hrest, ← hev, read_eq_feed (w ++ close).flatten]
  rfl

/-! ### The beginning of a woven word -/

/-- The last frame of a word is its last piece or a frame between pieces. -/
theorem of_concat {x : Bytes} (h : Woven c cs (w ++ [x])) :
    (∃ cs', cs = cs' ++ [x] ∧ Woven c cs' w) ∨ Woven c cs w := by
  generalize hv : w ++ [x] = v at h
  cases h with
  | nil => simp at hv
  | @piece cs' w' h b =>
    obtain ⟨rfl, hb⟩ := List.append_inj' hv rfl
    obtain rfl := List.singleton_inj.1 hb
    exact .inl ⟨cs', rfl, h⟩
  | @frame _ w' h hrest =>
    obtain ⟨rfl, -⟩ := List.append_inj' hv rfl
    exact .inr h

/-- **The beginning of a woven word is woven from the first pieces.** What is left of the word has
room for the others. -/
theorem of_append {r t : List Bytes} (h : Woven c cs (r ++ t)) :
    ∃ k, Woven c (cs.take k) r ∧ cs.length ≤ k + t.length := by
  induction t using List.reverseRecOn generalizing cs with
  | nil =>
    rw [List.append_nil] at h
    exact ⟨cs.length, by rwa [List.take_length], Nat.le_refl _⟩
  | append_singleton t x ih =>
    rw [← List.append_assoc] at h
    rw [List.length_append, List.length_singleton]
    rcases h.of_concat with ⟨cs', rfl, hw⟩ | hw
    · obtain ⟨k, hk, hle⟩ := ih hw
      -- the last piece is not among the first ones
      refine ⟨min k cs'.length, ?_, by simp only [List.length_append, List.length_singleton]; omega⟩
      rw [List.take_append_of_le_length (Nat.min_le_right _ _), ← List.take_eq_take_min]
      exact hk
    · obtain ⟨k, hk, hle⟩ := ih hw
      exact ⟨k, hk, by omega⟩

end Woven

end EventStream
