import KeepSse.Sse.Reading

/-!
# From the upstream's body to the client's events

The task relays what the decoded upstream stream yields. Here is where that comes from: the frames
of the response's body, the decoder of its coding, and the stream that cuts what the decoder yields
into chunks. How it is cut depends on the network and on buffers, so a run may take its items in any
cut (`Streams`).

The result is about what goes in and what comes out (`relayed_whole`): whatever the cuts, the timing
and the heartbeats, a client that stays reads the events of the decoded body, and if the body breaks
off it reads the error event after them.

## What it rests on

* That the items of a run are a cut of the decoded body is the one thing said about the stream. Once
  the last item has been taken, all others have (`Streams.whole`), so the chunks of a run that is at
  its end are the whole output.
* An answer in a decodable coding sets a course that is relayed (`course_of_success`), early or
  late; only an item ends such a course (`Course.lastItem?_next`), and which item it was decides
  between the end of the stream and an error.
* The words of these courses are read by the laws of `Weave` (`read_whole`): heartbeats mean
  nothing, and an error event is read by itself.

The decoders are parameters (`Decoders`), each a function from readers to readers of which nothing
is assumed; the identity coding has none, and there the output is the data of the body
(`output_bodyToIoStream`).
-/

namespace KeepSse.Sse

open Text Http EventStream

/-! ### The decoded stream -/

/-- The data of a body as a reader: frame by frame, trailers left out, an error of the body as an
I/O error. -/
def bodyToIoStream (body : Incoming) : ByteReader where
  pieces := (body.frames.map BodyFrame.bytes).filter (· ≠ [])
  ne_nil p hp := by simpa using (List.mem_filter.1 hp).2
  failure := body.failure.map fun e ↦ ⟨.other, e⟩

/-- The decoders of the compression crate, over a reader that may fail. -/
structure Decoders where
  /-- `GzipDecoder::new`. -/
  gzip : ByteReader → ByteReader
  /-- `ZlibDecoder::new`. -/
  zlib : ByteReader → ByteReader
  /-- `BrotliDecoder::new`. -/
  brotli : ByteReader → ByteReader
  /-- `ZstdDecoder::new`. -/
  zstd : ByteReader → ByteReader

/-- The decoded body of a response. -/
def decoderStream (D : Decoders) (coding : Coding) (body : Incoming) : ByteReader :=
  let bufreader := bodyToIoStream body
  match coding with
  | .identity => bufreader
  | .gzip => D.gzip bufreader
  | .deflate => D.zlib bufreader
  | .br => D.brotli bufreader
  | .zstd => D.zstd bufreader

/-- The last item of the stream of a reader. -/
def lastItem (r : ByteReader) : Item :=
  match r.failure with
  | none => .done
  | some e => .failed e

/-- Items are taken in order from the stream of a reader: from its output, cut in any way, and then
its end. -/
def Streams (r : ByteReader) (is : List Item) : Prop :=
  ∃ cs : List Bytes, cs.flatten = r.output ∧ is <+: cs.map .chunk ++ [lastItem r]

/-- The body of an identity coding is streamed as it is. -/
theorem output_bodyToIoStream (body : Incoming) : (bodyToIoStream body).output = body.bytes := by
  simp only [ByteReader.output, bodyToIoStream, Incoming.bytes]
  induction body.frames with
  | nil => rfl
  | cons f fs ih =>
    rw [List.map_cons, List.flatMap_cons, List.filter_cons, ← ih]
    by_cases hf : f.bytes = []
    · simp [hf]
    · simp [hf]

/-! ### The items of a run -/

/-- The items that a run takes. -/
def items (as : List Action) : List Item :=
  as.filterMap fun
    | .item i => some i
    | _ => none

/-- The chunk of an item. -/
def Item.chunk? : Item → Option Bytes
  | .chunk b => some b
  | _ => none

/-- What a run is yielded are the chunks among its items. -/
theorem yielded_eq (as : List Action) : yielded as = (items as).filterMap Item.chunk? := by
  rw [yielded, items, List.filterMap_filterMap]
  congr 1
  funext a
  cases a with
  | item i => cases i <;> rfl
  | _ => rfl

theorem mem_items {as : List Action} {i : Item} : i ∈ items as ↔ .item i ∈ as := by
  rw [items, List.mem_filterMap]
  constructor
  · rintro ⟨a, ha, heq⟩
    cases a with
    | item i' => exact Option.some.inj heq ▸ ha
    | _ => cases heq
  · exact fun h ↦ ⟨_, h, rfl⟩

/-- Once the last item has been taken, so have all the others. -/
theorem Streams.whole {r : ByteReader} {as : List Action} (h : Streams r (items as)) {i : Item}
    (hi : .item i ∈ as) (hlast : i.chunk? = none) :
    i = lastItem r ∧ (yielded as).flatten = r.output := by
  obtain ⟨cs, hcs, hle⟩ := h
  have hmem : i ∈ items as := mem_items.2 hi
  have hnot : i ∉ cs.map .chunk := by
    intro hchunk
    obtain ⟨b, -, rfl⟩ := List.mem_map.1 hchunk
    cases hlast
  rcases List.prefix_concat_iff.1 hle with heq | hle
  · rw [heq] at hmem
    have hi : i = lastItem r := by simpa [hnot] using hmem
    refine ⟨hi, ?_⟩
    have hchunks : (cs.map Item.chunk).filterMap Item.chunk? = cs := by
      simp [List.filterMap_map, Function.comp_def, Item.chunk?]
    rw [yielded_eq, heq, List.filterMap_append, hchunks, ← hi]
    simp [hlast, hcs]
  · exact absurd (hle.subset hmem) hnot

/-! ### The courses of a relayed stream -/

section

variable {g : Gateway} {parts : Parts} {body : Bytes} {now : Instant} {s₀ s : State}
  {as : List Action}

/-- A course that an answer in a decodable coding has set. -/
def Course.Relays : Course → Prop
  | .passedOn _ => True
  | .relaying _ => True
  | .ended _ => True
  | .broken _ _ => True
  | _ => False

theorem Course.relays_next {c : Course} (h : c.Relays) (a : Action) : (c.next g a).Relays := by
  unfold Course.next
  split
  · exact h.elim
  · exact h.elim
  · exact h.elim
  · trivial
  · trivial
  · trivial
  · exact h.elim
  · exact h

/-- An answer in a decodable coding is relayed or passed on. -/
theorem course_of_success (h₀ : handleStream g parts body now = some s₀)
    (hrun : Transition.run (step g) s₀ as = some s) {resp : Response Incoming}
    (hans : .upstream (.ok resp) ∈ as) (hsuccess : resp.status.isSuccess = true)
    (hce : (parseContentEncoding resp.headers).isSome = true) : (Course.of g as).Relays := by
  revert hans
  refine Transition.run_induction
    (P := fun as _ ↦ .upstream (.ok resp) ∈ as → (Course.of g as).Relays)
    (fun hans ↦ absurd hans (by simp)) ?_ hrun
  intro as a s s' hs ih hstep hans
  rw [Course.of_concat]
  rcases List.mem_append.1 hans with hans | hans
  · exact Course.relays_next (ih hans) a
  · obtain rfl := List.mem_singleton.1 hans
    have hfits := (refines_run h₀ hs).fits
    cases Step.of_step hstep with
    | answer htask =>
      rw [htask] at hfits
      rw [show Course.of g as = .pending from hfits]
      simp only [Course.next, Course.inWindow]
      split_ifs
      · trivial
      · trivial
    | bridge htask =>
      rw [htask] at hfits
      rw [show Course.of g as = .waiting from hfits]
      simp only [Course.next, Course.afterWindow, if_pos hsuccess, if_pos hce]
      trivial

/-- The item that brought a course to its end. -/
def Course.lastItem? : Course → Option Item
  | .ended _ => some .done
  | .broken _ e => some (.failed e)
  | _ => none

theorem Course.lastItem?_inWindow (result : Except Str (Response Incoming)) :
    (Course.inWindow result).lastItem? = none := by
  unfold Course.inWindow
  cases result with
  | error e => rfl
  | ok resp =>
    simp only
    split_ifs
    · rfl
    · rfl

theorem Course.lastItem?_afterWindow (result : Except Str (Response Incoming)) :
    (Course.afterWindow result).lastItem? = none := by
  unfold Course.afterWindow
  cases result with
  | error e => rfl
  | ok resp =>
    simp only
    split_ifs
    · rfl
    · rfl
    · rfl

/-- Only an item ends a stream. -/
theorem Course.lastItem?_next {c : Course} {a : Action} {i : Item}
    (h : (c.next g a).lastItem? = some i) : c.lastItem? = some i ∨ a = .item i := by
  unfold Course.next at h
  split at h
  · cases h
  · rw [Course.lastItem?_inWindow] at h
    cases h
  · rw [Course.lastItem?_afterWindow] at h
    cases h
  · cases h
  · exact .inr (congrArg Action.item (Option.some.inj h))
  · exact .inr (congrArg Action.item (Option.some.inj h))
  · split at h
    · cases h
    · cases h
  · exact .inl h

theorem last_mem {i : Item} (h : (Course.of g as).lastItem? = some i) : .item i ∈ as := by
  induction as using List.reverseRecOn with
  | nil => cases h
  | append_singleton as a ih =>
    rw [Course.of_concat] at h
    rcases Course.lastItem?_next h with h | rfl
    · exact List.mem_append_left _ (ih h)
    · exact List.mem_append_right _ (List.mem_singleton_self _)

/-- What is to be read of the stream of a reader that is relayed: its events, and the error event if
it breaks off. -/
def relayedReading (g : Gateway) (r : ByteReader) : Reading :=
  match r.failure with
  | none => read r.output
  | some e => ⟨(read r.output).events ++ closed (read r.output).unfinished ++
      (read (ErrorEvent.build g.crates g.kind none none (some e.message))).events, [], []⟩

/-- What the words of a relayed stream read like when it has come to its end. -/
theorem read_whole (D : Decoders) (hD : g.crates.SerdeJson) {ce : Coding} {upstreamBody : Incoming}
    {w : List Bytes} (hrelays : (Course.of g as).Relays) (hfinal : (Course.of g as).Final)
    (hpassed : ∀ resp, Course.of g as ≠ .passedOn resp)
    (hchunks : (Course.of g as).chunks = yielded as) (hword : (Course.of g as).Word g w)
    (hitems : Streams (decoderStream D ce upstreamBody) (items as)) :
    read w.flatten = relayedReading g (decoderStream D ce upstreamBody) := by
  unfold relayedReading
  -- how the course has ended
  cases hcourse : Course.of g as with
  | passedOn resp => exact absurd hcourse (hpassed resp)
  | ended cs =>
    rw [hcourse] at hword hchunks
    obtain ⟨hlast, hflat⟩ := hitems.whole (last_mem (by rw [hcourse]; rfl)) rfl
    obtain rfl : cs = yielded as := hchunks
    rw [Woven.read_eq invisible_heartbeat hword, hflat]
    rw [lastItem] at hlast
    split at hlast
    · rfl
    · cases hlast
  | broken cs e =>
    rw [hcourse] at hword hchunks
    obtain ⟨hlast, hflat⟩ := hitems.whole (last_mem (by rw [hcourse]; rfl)) rfl
    obtain rfl : cs = yielded as := hchunks
    obtain ⟨w₀, close, hw₀, hclose, hw⟩ := hword
    rw [hw, read_error_word hD hw₀ hclose none none (some e.message), hflat]
    rw [lastItem] at hlast
    split at hlast
    · cases hlast
    · rw [Item.failed.inj hlast]
  | relaying cs =>
    rw [hcourse] at hfinal
    exact hfinal.elim
  | _ =>
    rw [hcourse] at hrelays
    exact hrelays.elim

/-- An answer that comes over the channel is no response passed on. -/
theorem Course.ne_passedOn {c : Course} {head : Response BoxBody} (h : c.Answer g (some head))
    (hchannel : head.body = .channel) (resp : Response Incoming) : c ≠ .passedOn resp := by
  rintro rfl
  obtain ⟨_, hhead, hpassed⟩ := h
  obtain rfl := Option.some.inj hhead
  rw [hpassed.body] at hchannel
  cases hchannel

/-- What a client that has stayed reads when a relayed stream is at its end. -/
theorem read_relayed (D : Decoders) (hD : g.crates.SerdeJson)
    (h₀ : handleStream g parts body now = some s₀)
    (hrun : Transition.run (step g) s₀ as = some s) (hconn : s.connected = true)
    (htask : s.task = .finished) {head : Response BoxBody} (hreply : s.reply = some head)
    (hchannel : head.body = .channel) {resp : Response Incoming}
    (hans : .upstream (.ok resp) ∈ as) (hsuccess : resp.status.isSuccess = true) {ce : Coding}
    (hce : parseContentEncoding resp.headers = some ce)
    (hitems : Streams (decoderStream D ce resp.body) (items as)) :
    read (s.received ++ s.queue).flatten = relayedReading g (decoderStream D ce resp.body) := by
  have hrefines := refines_run h₀ hrun
  have hword := hrefines.word hconn
  have hfits := hrefines.fits
  have hanswer := hrefines.answer
  rw [htask] at hword hfits
  rw [hreply] at hanswer
  have hrelays := course_of_success h₀ hrun hans hsuccess (by rw [hce]; rfl)
  exact read_whole D hD hrelays (hfits hconn) (Course.ne_passedOn hanswer hchannel)
    (chunks_run h₀ hrun) ((word_append_nil _ _).1 hword) hitems

/-- **The client reads what the upstream sent.** However the decoded body is cut into chunks, and
whenever the upstream answers, when the client has stayed to the end of a relayed stream it reads
the events of the decoded body; and if the body breaks off, its unfinished event is closed and the
error event follows. The body of an identity coding is its data. -/
theorem relayed_whole (D : Decoders) (hD : g.crates.SerdeJson)
    (h₀ : handleStream g parts body now = some s₀)
    (hrun : Transition.run (step g) s₀ as = some s) (hconn : s.connected = true)
    (htask : s.task = .finished) {head : Response BoxBody} (hreply : s.reply = some head)
    (hchannel : head.body = .channel) {resp : Response Incoming}
    (hans : .upstream (.ok resp) ∈ as) (hsuccess : resp.status.isSuccess = true) {ce : Coding}
    (hce : parseContentEncoding resp.headers = some ce)
    (hitems : Streams (decoderStream D ce resp.body) (items as)) :
    (read (s.received ++ s.queue).flatten =
      match (decoderStream D ce resp.body).failure with
      | none => read (decoderStream D ce resp.body).output
      | some e => ⟨(read (decoderStream D ce resp.body).output).events ++
          closed (read (decoderStream D ce resp.body).output).unfinished ++
          (read (ErrorEvent.build g.crates g.kind none none (some e.message))).events, [], []⟩) ∧
      (ce = .identity → (decoderStream D ce resp.body).output = resp.body.bytes) := by
  refine ⟨?_, fun hid ↦ by rw [hid]; exact output_bodyToIoStream resp.body⟩
  exact read_relayed D hD h₀ hrun hconn htask hreply hchannel hans hsuccess hce hitems

end

/-- An event stream with one event, in two frames. -/
def spokenStream : Response Incoming :=
  { eventStream with
    body := ⟨[.data (utf8 "data: a\r".toList), .data (utf8 "\n\r\n".toList)], none⟩ }

/-- The upstream is slow, its event comes in other pieces than it was sent in, and there are
heartbeats before it and before its last byte. -/
def spokenRun : List Action := [
  .clock (second 60), .timer, .start, .clock (second 120), .timer, .sent, .rearm,
  .upstream (.ok spokenStream), .item (.chunk (utf8 "data: a\r\n\r".toList)), .sent, .rearm,
  .clock (second 180), .timer, .sent, .rearm,
  .item (.chunk (utf8 "\n".toList)), .sent, .rearm, .item .done]

/-- The decoders of a gateway that decodes nothing. -/
def Decoders.reference : Decoders := ⟨id, id, id, id⟩

/-- The client reads the event. -/
theorem relayed_whole_spoken :
    ∃ s₀ s, handleStream .reference (chatRequest ⟨utf8 "keep-alive".toList, by decide⟩) []
        (second 0) = some s₀ ∧
      Transition.run (step .reference) s₀ spokenRun = some s ∧ s.queue.length = 4 ∧
      read (s.received ++ s.queue).flatten = ⟨[[utf8 "data: a".toList]], [], []⟩ := by
  obtain ⟨s₀, s, h₀, hrun, hqueue, hconn, htask, hreply⟩ :
      ∃ s₀ s, handleStream .reference (chatRequest ⟨utf8 "keep-alive".toList, by decide⟩) []
          (second 0) = some s₀ ∧
        Transition.run (step .reference) s₀ spokenRun = some s ∧ s.queue.length = 4 ∧
        s.connected = true ∧ s.task = .finished ∧ s.reply = some keepaliveResponse :=
    ⟨_, _, rfl, rfl, rfl, rfl, rfl, rfl⟩
  refine ⟨s₀, s, h₀, hrun, hqueue, ?_⟩
  have hitems : Streams (decoderStream .reference .identity spokenStream.body)
      (items spokenRun) :=
    ⟨[utf8 "data: a\r\n\r".toList, utf8 "\n".toList], by decide +kernel, by decide +kernel⟩
  have hread := (relayed_whole .reference Crates.serdeJson_reference h₀ hrun hconn htask hreply rfl
    (by simp [spokenRun]) rfl rfl hitems).1
  have hbody : read (decoderStream .reference .identity spokenStream.body).output =
      ⟨[[utf8 "data: a".toList]], [], []⟩ := by
    decide +kernel
  rw [hread, ← hbody]
  rfl

end KeepSse.Sse
