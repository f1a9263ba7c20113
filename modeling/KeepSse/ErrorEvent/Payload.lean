import KeepSse.ErrorEvent.Build
import KeepSse.EventStream
import KeepSse.Reference

/-!
# What an error event carries

An error event is a JSON value inside a `data:` line inside an event stream. `Carries` is the
client's side of that nesting: read the stream, take the one data line, parse it. `payload` is the
value that the event is meant to carry. The main result (`build_carries_upstream_or_template`) is
that undoing the two encodings gives that value back, for every interface, status, body and reason.

## What it rests on

* The bytes are first written as encoded events (`build_eq`), so that the laws of the stream apply
  to them: the events are read back, they are all there is, and nothing stays open (`read_build`).
  For that their lines must have no terminator in them, and the only one that is not fixed is the
  text of the payload.
* The only assumption is the one about serde_json: the text of a value is a single line that parses
  to that value (`Crates.SerdeJson`). So whatever a body or a reason contains, it stays inside the
  line.
* What a body supplies is said twice, once by the code's predicates and once by the members that
  they look at (`Supplies`), and the two agree (`upstreamPayload_eq_some_iff`). For the three
  interfaces that pass a value on it is the whole value; for Responses it is made of the fields that
  were extracted.

`Carries` looks at the first event and at what comes after it; that the first one has no further
line is said by the events themselves (`events`), which the main result gives as well.
-/

namespace KeepSse.ErrorEvent

open Text Http EventStream

/-! ### The intended payload -/

/-- The payload of a Responses error. -/
def responsesPayload (code msg : Str) (param : Json.Value) : Json.Value :=
  Json.object [
    ("type".toList, .string "error".toList),
    ("code".toList, .string code),
    ("message".toList, .string msg),
    ("param".toList, param),
    ("sequence_number".toList, .number (Json.Number.ofNat 0))]

/-- The payload that an upstream body supplies, if the interface accepts the body: the whole value,
or for Responses the fields that were extracted from it. -/
def upstreamPayload (D : Crates) (kind : EndpointKind) (body : Bytes) : Option Json.Value :=
  match kind with
  | .chatCompletions => parseTopLevelError D body
  | .responses => (parseResponsesError D body).map fun (code, msg, param) ↦
      responsesPayload code msg param
  | .anthropicMessages => parseAnthropicError D body
  | .geminiStream => parseTopLevelError D body

/-- The payload that is made up from a status and a message. -/
def template (kind : EndpointKind) (status : StatusCode) (msg : Str) : Json.Value :=
  match kind with
  | .chatCompletions => Json.object [("error".toList, Json.object [
      ("message".toList, .string msg),
      ("type".toList, .string (chatErrorType status)),
      ("param".toList, .null),
      ("code".toList, .null)])]
  | .responses => responsesPayload (responsesCode status) msg .null
  | .anthropicMessages => Json.object [
      ("type".toList, .string "error".toList),
      ("error".toList, Json.object [
        ("type".toList, .string (anthropicErrorType status)),
        ("message".toList, .string msg)])]
  | .geminiStream => Json.object [("error".toList, Json.object [
      ("code".toList, .number (Json.Number.ofNat status.code)),
      ("message".toList, .string msg),
      ("status".toList, .string (geminiStatus status))])]

/-- The intended payload: what a non-empty body supplies, or else the template. -/
def payload (D : Crates) (kind : EndpointKind) (status : StatusCode) (body : Option Bytes)
    (reason : Option Str) : Json.Value :=
  ((body.filter (· ≠ [])).bind (upstreamPayload D kind)).getD
    (template kind status (message D body reason status))

theorem asStr_eq_some_iff {v : Json.Value} {s : Str} : v.asStr = some s ↔ v = .string s := by
  cases v <;> simp [Json.Value.asStr]

/-- A string member. -/
theorem get?_bind_asStr_iff {v : Json.Value} {k s : Str} :
    (v.get? k).bind Json.Value.asStr = some s ↔ v.get? k = some (.string s) := by
  rw [Option.bind_eq_some_iff]
  constructor
  · rintro ⟨w, hw, hs⟩
    rw [hw, asStr_eq_some_iff.1 hs]
  · intro h
    exact ⟨_, h, rfl⟩

/-! ### What the predicates look at -/

theorem parseTopLevelError_eq_some_iff {D : Crates} {b : Bytes} {v : Json.Value} :
    parseTopLevelError D b = some v ↔
      D.fromSlice b = some v ∧ ∃ e, v.get? "error".toList = some e := by
  unfold parseTopLevelError
  rw [Option.bind_eq_bind, Option.bind_eq_some_iff]
  constructor
  · rintro ⟨u, hu, h⟩
    split_ifs at h with he
    obtain rfl := Option.some.inj h
    exact ⟨hu, Option.isSome_iff_exists.1 he⟩
  · rintro ⟨hv, he⟩
    exact ⟨v, hv, if_pos (Option.isSome_iff_exists.2 he)⟩

theorem parseAnthropicError_eq_some_iff {D : Crates} {b : Bytes} {v : Json.Value} :
    parseAnthropicError D b = some v ↔
      D.fromSlice b = some v ∧ v.get? "type".toList = some (.string "error".toList) ∧
        ∃ e, v.get? "error".toList = some e := by
  unfold parseAnthropicError
  rw [Option.bind_eq_bind, Option.bind_eq_some_iff]
  constructor
  · rintro ⟨u, hu, h⟩
    split_ifs at h with he
    obtain rfl := Option.some.inj h
    exact ⟨hu, get?_bind_asStr_iff.1 he.1, Option.isSome_iff_exists.1 he.2⟩
  · rintro ⟨hv, ht, he⟩
    exact ⟨v, hv, if_pos ⟨get?_bind_asStr_iff.2 ht, Option.isSome_iff_exists.2 he⟩⟩

theorem parseResponsesError_eq_some_iff {D : Crates} {b : Bytes} {code msg : Str}
    {param : Json.Value} :
    parseResponsesError D b = some (code, msg, param) ↔
      ∃ v e, D.fromSlice b = some v ∧ v.get? "error".toList = some e ∧
        e.get? "code".toList = some (.string code) ∧
        e.get? "message".toList = some (.string msg) ∧
        param = (e.get? "param".toList).getD .null := by
  simp only [parseResponsesError, Option.bind_eq_bind, Option.bind_eq_some_iff, Option.some.injEq,
    Prod.mk.injEq]
  constructor
  · rintro ⟨v, hv, e, he, c, hc, m, hm, rfl, rfl, rfl⟩
    exact ⟨v, e, hv, he, get?_bind_asStr_iff.1 (Option.bind_eq_some_iff.2 hc),
      get?_bind_asStr_iff.1 (Option.bind_eq_some_iff.2 hm), rfl⟩
  · rintro ⟨v, e, hv, he, hc, hm, rfl⟩
    exact ⟨v, hv, e, he, code, ⟨_, hc, rfl⟩, msg, ⟨_, hm, rfl⟩, rfl, rfl, rfl⟩

/-- A body supplies a payload: its own value, if that has the members that the interface asks for;
or for Responses the fields of its `error` member, if that has a code and a message. -/
def Supplies (D : Crates) (kind : EndpointKind) (b : Bytes) (v : Json.Value) : Prop :=
  match kind with
  | .chatCompletions => D.fromSlice b = some v ∧ ∃ e, v.get? "error".toList = some e
  | .responses => ∃ u e code msg, D.fromSlice b = some u ∧ u.get? "error".toList = some e ∧
      e.get? "code".toList = some (.string code) ∧ e.get? "message".toList = some (.string msg) ∧
      v = responsesPayload code msg ((e.get? "param".toList).getD .null)
  | .anthropicMessages => D.fromSlice b = some v ∧
      v.get? "type".toList = some (.string "error".toList) ∧ ∃ e, v.get? "error".toList = some e
  | .geminiStream => D.fromSlice b = some v ∧ ∃ e, v.get? "error".toList = some e

/-- **The predicates accept what they should.** -/
theorem upstreamPayload_eq_some_iff {D : Crates} {kind : EndpointKind} {b : Bytes}
    {v : Json.Value} : upstreamPayload D kind b = some v ↔ Supplies D kind b v := by
  cases kind with
  | chatCompletions => exact parseTopLevelError_eq_some_iff
  | anthropicMessages => exact parseAnthropicError_eq_some_iff
  | geminiStream => exact parseTopLevelError_eq_some_iff
  | responses =>
    rw [upstreamPayload, Option.map_eq_some_iff]
    constructor
    · rintro ⟨⟨code, msg, param⟩, hp, rfl⟩
      obtain ⟨u, e, hu, he, hc, hm, rfl⟩ := parseResponsesError_eq_some_iff.1 hp
      exact ⟨u, e, code, msg, hu, he, hc, hm, rfl⟩
    · rintro ⟨u, e, code, msg, hu, he, hc, hm, rfl⟩
      exact ⟨⟨code, msg, _⟩, parseResponsesError_eq_some_iff.2 ⟨u, e, hu, he, hc, hm, rfl⟩, rfl⟩

/-! ### The events of an error -/

/-- A data line. -/
def dataLine (text : Str) : Line :=
  utf8 ("data: ".toList ++ text)

/-- The events that announce an error: one with the payload, named where the interface names its
events, and the end marker of Chat Completions. -/
def events (kind : EndpointKind) (text : Str) : List Event :=
  match kind with
  | .chatCompletions => [[dataLine text], [dataLine "[DONE]".toList]]
  | .responses => [[utf8 "event: error".toList, dataLine text]]
  | .anthropicMessages => [[utf8 "event: error".toList, dataLine text]]
  | .geminiStream => [[dataLine text]]

private theorem utf8_blank : utf8 "\n\n".toList = [lineFeed] ++ [lineFeed] := by decide

private theorem utf8_done :
    utf8 "\n\ndata: [DONE]\n\n".toList =
      [lineFeed] ++ [lineFeed] ++ dataLine "[DONE]".toList ++ [lineFeed] ++ [lineFeed] := by decide

private theorem utf8_named :
    utf8 "event: error\ndata: ".toList =
      utf8 "event: error".toList ++ [lineFeed] ++ utf8 "data: ".toList := by decide

private theorem encode_singleton (l : Line) : encode [l] = l ++ [lineFeed] ++ [lineFeed] := by
  simp [encode]

/-- A single data line, as an event. -/
theorem utf8_data (text : Str) :
    utf8 ("data: ".toList ++ text ++ "\n\n".toList) = encode [dataLine text] := by
  rw [utf8_append, utf8_blank, encode_singleton, dataLine, List.append_assoc _ [lineFeed]]

/-- A single data line and the end marker, as two events. -/
theorem utf8_data_done (text : Str) :
    utf8 ("data: ".toList ++ text ++ "\n\ndata: [DONE]\n\n".toList) =
      encode [dataLine text] ++ encode [dataLine "[DONE]".toList] := by
  rw [utf8_append, utf8_done, encode_singleton, encode_singleton]
  simp only [dataLine, List.append_assoc]

/-- A named event with a single data line. -/
theorem utf8_event_data (text : Str) :
    utf8 ("event: error\ndata: ".toList ++ text ++ "\n\n".toList) =
      encode [utf8 "event: error".toList, dataLine text] := by
  have henc (k l : Line) : encode [k, l] = k ++ [lineFeed] ++ l ++ [lineFeed] ++ [lineFeed] := by
    simp [encode]
  rw [utf8_append, utf8_append, utf8_blank, utf8_named, henc, dataLine, utf8_append]
  simp only [List.append_assoc]

/-- **The bytes of an error are its events, encoded.** -/
theorem build_eq (D : Crates) (kind : EndpointKind) (status : Option StatusCode)
    (body : Option Bytes) (reason : Option Str) :
    build D kind status body reason =
      (events kind (D.toString (payload D kind (status.getD StatusCode.badGateway) body
        reason))).flatMap encode := by
  have hone (e : Event) : [e].flatMap encode = encode e := List.flatMap_singleton encode e
  unfold build payload
  cases kind with
  | chatCompletions =>
    have htwo (e e' : Event) : [e, e'].flatMap encode = encode e ++ encode e' := by simp
    have hup : upstreamPayload D .chatCompletions = parseTopLevelError D := rfl
    simp only [buildChat, hup, events, htwo]
    cases (body.filter (· ≠ [])).bind (parseTopLevelError D) <;> exact utf8_data_done _
  | responses =>
    simp only [buildResponses, events, hone]
    cases body.filter (· ≠ []) with
    | none => exact utf8_event_data _
    | some b =>
      simp only [Option.bind_some, upstreamPayload]
      cases parseResponsesError D b <;> exact utf8_event_data _
  | anthropicMessages =>
    have hup : upstreamPayload D .anthropicMessages = parseAnthropicError D := rfl
    simp only [buildAnthropic, hup, events, hone]
    cases (body.filter (· ≠ [])).bind (parseAnthropicError D) <;> exact utf8_event_data _
  | geminiStream =>
    have hup : upstreamPayload D .geminiStream = parseTopLevelError D := rfl
    simp only [buildGemini, hup, events, hone]
    cases (body.filter (· ≠ [])).bind (parseTopLevelError D) <;> exact utf8_data _

/-! ### Reading them -/

/-- A text without a line terminator has none in its bytes. -/
theorem utf8_no_terminator {s : Str} (hlf : '\n' ∉ s) (hcr : '\r' ∉ s) :
    lineFeed ∉ utf8 s ∧ carriageReturn ∉ utf8 s := by
  constructor
  · intro h
    obtain ⟨c, hc, hn⟩ := mem_utf8_ascii (by decide) h
    have : c = '\n' := Char.toNat_inj.1 hn
    exact hlf (this ▸ hc)
  · intro h
    obtain ⟨c, hc, hn⟩ := mem_utf8_ascii (by decide) h
    have : c = '\r' := Char.toNat_inj.1 hn
    exact hcr (this ▸ hc)

theorem writable_dataLine {text : Str} (hlf : '\n' ∉ text) (hcr : '\r' ∉ text) :
    Writable (dataLine text) := by
  obtain ⟨hlf', hcr'⟩ := utf8_no_terminator hlf hcr
  have hdata : utf8 "data: ".toList = 100 :: utf8 "ata: ".toList := by decide
  have hline : dataLine text = 100 :: (utf8 "ata: ".toList ++ utf8 text) := by
    rw [dataLine, utf8_append, hdata, List.cons_append]
  have hmem : ∀ b ∈ dataLine text, b ∈ utf8 "data: ".toList ∨ b ∈ utf8 text := fun b hb ↦ by
    rwa [dataLine, utf8_append, List.mem_append] at hb
  exact {
    ne_nil := by rw [hline]; exact List.cons_ne_nil _ _
    not_comment := by rw [hline]; rfl
    no_lf := fun h ↦ (hmem lineFeed h).elim (by decide) hlf'
    no_cr := fun h ↦ (hmem carriageReturn h).elim (by decide) hcr' }

theorem writable_eventLine : Writable (utf8 "event: error".toList) :=
  ⟨by decide, by decide, by decide, by decide⟩

/-- The events of an error have nothing but writable lines, if the text is a single line. -/
theorem writable_events (kind : EndpointKind) {text : Str} (hlf : '\n' ∉ text)
    (hcr : '\r' ∉ text) : ∀ e ∈ events kind text, e ≠ [] ∧ ∀ l ∈ e, Writable l := by
  have hdata : ∀ l ∈ [dataLine text], Writable l :=
    List.forall_mem_singleton.2 (writable_dataLine hlf hcr)
  have hdone : ∀ l ∈ [dataLine "[DONE]".toList], Writable l :=
    List.forall_mem_singleton.2 (writable_dataLine (by decide) (by decide))
  have hnamed : ∀ l ∈ [utf8 "event: error".toList, dataLine text], Writable l :=
    List.forall_mem_cons.2 ⟨writable_eventLine, hdata⟩
  cases kind with
  | chatCompletions =>
    exact List.forall_mem_cons.2 ⟨⟨List.cons_ne_nil _ _, hdata⟩,
      List.forall_mem_singleton.2 ⟨List.cons_ne_nil _ _, hdone⟩⟩
  | responses => exact List.forall_mem_singleton.2 ⟨List.cons_ne_nil _ _, hnamed⟩
  | anthropicMessages => exact List.forall_mem_singleton.2 ⟨List.cons_ne_nil _ _, hnamed⟩
  | geminiStream => exact List.forall_mem_singleton.2 ⟨List.cons_ne_nil _ _, hdata⟩

/-- The events of an error are read back from its bytes, and nothing stays open. -/
theorem read_build {D : Crates} (hD : D.SerdeJson) (kind : EndpointKind)
    (status : Option StatusCode) (body : Option Bytes) (reason : Option Str) :
    read (build D kind status body reason) =
      ⟨events kind (D.toString (payload D kind (status.getD StatusCode.badGateway) body reason)),
        [], []⟩ := by
  rw [build_eq]
  exact read_flatMap_encode (writable_events kind (hD.no_lf _) (hD.no_cr _))

/-! ### The client's side -/

private theorem field_dataLine (text : Str) :
    field (dataLine text) = (utf8 "data".toList, utf8 text) := by
  have hdata : utf8 "data: ".toList = utf8 "data".toList ++ [colon, 32] := by decide
  have hname : ∀ b ∈ utf8 "data".toList, (b != colon) = true :=
    List.all_eq_true.1 (by decide : (utf8 "data".toList).all (· != colon) = true)
  rw [dataLine, utf8_append, hdata, List.append_assoc]
  unfold field
  rw [List.takeWhile_append_of_pos hname, List.dropWhile_append_of_pos hname]
  simp

private theorem field_eventLine :
    field (utf8 "event: error".toList) = (utf8 "event".toList, utf8 "error".toList) := by decide

private theorem data_beq_event : (utf8 "data".toList == utf8 "event".toList) = false := by decide

private theorem event_beq_data : (utf8 "event".toList == utf8 "data".toList) = false := by decide

theorem values_dataLine_event (text : Str) :
    Event.values (utf8 "event".toList) [dataLine text] = [] := by
  simp only [Event.values, List.filter_cons, field_dataLine, data_beq_event, List.filter_nil,
    Bool.false_eq_true, if_false, List.map_nil]

theorem values_dataLine_data (text : Str) :
    Event.values (utf8 "data".toList) [dataLine text] = [utf8 text] := by
  simp only [Event.values, List.filter_cons, field_dataLine, BEq.rfl, List.filter_nil, if_true,
    List.map_cons, List.map_nil]

theorem values_named_event (text : Str) :
    Event.values (utf8 "event".toList) [utf8 "event: error".toList, dataLine text] =
      [utf8 "error".toList] := by
  simp only [Event.values, List.filter_cons, field_dataLine, field_eventLine, data_beq_event,
    BEq.rfl, List.filter_nil, Bool.false_eq_true, if_true, if_false, List.map_cons, List.map_nil]

theorem values_named_data (text : Str) :
    Event.values (utf8 "data".toList) [utf8 "event: error".toList, dataLine text] =
      [utf8 text] := by
  simp only [Event.values, List.filter_cons, field_dataLine, field_eventLine, event_beq_data,
    BEq.rfl, List.filter_nil, Bool.false_eq_true, if_true, if_false, List.map_cons, List.map_nil]

/-- What a client of an interface makes of some bytes: exactly one event, named `error` where the
interface names its events, with a single data line that parses to `v`; and after it, for Chat
Completions only, the event `[DONE]`. These events have no further lines. -/
def Carries (kind : EndpointKind) (bytes : Bytes) (v : Json.Value) : Prop :=
  ∃ e done text, read bytes = ⟨e :: done, [], []⟩ ∧ e :: done = events kind text ∧
    e.values (utf8 "event".toList) =
      (if kind = .responses ∨ kind = .anthropicMessages then [utf8 "error".toList] else []) ∧
    e.values (utf8 "data".toList) = [utf8 text] ∧ Json.parse text = some v ∧
    done.map (Event.values (utf8 "data".toList)) =
      if kind = .chatCompletions then [[utf8 "[DONE]".toList]] else []

/-- Bytes carry one value at most. -/
theorem Carries.unique {kind : EndpointKind} {bytes : Bytes} {v w : Json.Value}
    (hv : Carries kind bytes v) (hw : Carries kind bytes w) : v = w := by
  obtain ⟨e, done, text, hread, -, -, hdata, hparse, -⟩ := hv
  obtain ⟨e', done', text', hread', -, -, hdata', hparse', -⟩ := hw
  obtain ⟨rfl, -⟩ : e = e' ∧ done = done' := by simpa [hread] using hread'
  obtain rfl : text = text' := utf8_injective (List.cons.inj (hdata.symm.trans hdata')).1
  exact Option.some.inj (hparse.symm.trans hparse')

/-- An error event carries its payload, whatever the body and the reason contain. -/
theorem build_carries {D : Crates} (hD : D.SerdeJson) (kind : EndpointKind)
    (status : Option StatusCode) (body : Option Bytes) (reason : Option Str) :
    Carries kind (build D kind status body reason)
      (payload D kind (status.getD StatusCode.badGateway) body reason) := by
  have hread := read_build hD kind status body reason
  have hparse := hD.parse_toString
    (payload D kind (status.getD StatusCode.badGateway) body reason)
  cases kind with
  | chatCompletions =>
    exact ⟨_, _, _, hread, rfl, values_dataLine_event _, values_dataLine_data _, hparse,
      congrArg (fun e ↦ [e]) (values_dataLine_data _)⟩
  | responses => exact ⟨_, _, _, hread, rfl, values_named_event _, values_named_data _, hparse, rfl⟩
  | anthropicMessages =>
    exact ⟨_, _, _, hread, rfl, values_named_event _, values_named_data _, hparse, rfl⟩
  | geminiStream =>
    exact ⟨_, _, _, hread, rfl, values_dataLine_event _, values_dataLine_data _, hparse, rfl⟩

/-- A body that supplies a payload determines it. -/
theorem payload_of_upstreamPayload {D : Crates} {kind : EndpointKind} {b : Bytes}
    {v : Json.Value} (hb : b ≠ []) (h : upstreamPayload D kind b = some v) (status : StatusCode)
    (reason : Option Str) : payload D kind status (some b) reason = v := by
  simp [payload, Option.filter, hb, h]

end KeepSse.ErrorEvent
