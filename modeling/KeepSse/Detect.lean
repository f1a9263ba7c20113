import KeepSse.Crates

/-!
# Endpoints and the `stream` flag

What a request asks for: which of the four streaming interfaces its path names, and whether its body
or its headers ask for a stream.

The flag is read the way a derived `Deserialize` reads a one-field type: an object member by member
and an array element by element. So a second `stream` member is an error and not an update, and an
array of one boolean is as good as an object. What the reader walks is all that it checks: the
values of the other members are skipped (`Access`).
-/

namespace KeepSse

open Text Http

/-- A streaming interface. -/
inductive EndpointKind where
  /-- OpenAI Chat Completions. -/
  | chatCompletions
  /-- OpenAI Responses. -/
  | responses
  /-- Anthropic Messages. -/
  | anthropicMessages
  /-- Gemini `:streamGenerateContent` with `alt=sse`. -/
  | geminiStream
  deriving DecidableEq

/-! ### Endpoints -/

/-- Whether a query string has the pair `alt=sse`. -/
def hasAltSse (query : Str) : Bool :=
  (query.splitOn '&').any fun pair ↦
    let (k, v) := (splitOnce '=' pair).getD (pair, [])
    k == "alt".toList && v == "sse".toList

/-- The interface that a request names by the end of its path. -/
def matchEndpoint (method : Method) (path : Str) (query : Option Str) : Option EndpointKind :=
  if method ≠ Method.post then none
  else if "/chat/completions".toList.isSuffixOf path then some .chatCompletions
  else if "/responses".toList.isSuffixOf path then some .responses
  else if "/messages".toList.isSuffixOf path then some .anthropicMessages
  else do
    let lastSeg ← (path.splitOn '/').getLast?
    if ":streamGenerateContent".toList.isSuffixOf lastSeg && hasAltSse (query.getD []) then
      some .geminiStream
    else none

/-! ### The probe -/

/-- The part of a request body that is looked at. -/
structure Probe where
  stream : Bool

namespace Probe

/-- Fill a probe from the members of an object, given the flag if it was met already. -/
def visitMap (stream : Option Bool) : List (Str × Json.Value) → Option Probe
  | [] => some ⟨stream.getD false⟩
  | (k, v) :: ms =>
    if k = "stream".toList then
      match stream, v with
      | none, .bool b => visitMap (some b) ms
      | _, _ => none
    else visitMap stream ms

/-- Fill a probe from the elements of an array. -/
def visitSeq : List Bool → Option Probe
  | [] => some ⟨false⟩
  | [b] => some ⟨b⟩
  | _ => none

/-- The derived `Deserialize`. -/
def deserialize : Access → Option Probe
  | .map ms => visitMap none ms
  | .seq bs => visitSeq bs

end Probe

/-- The `stream` flag of a JSON body; `false` if there is none. -/
def probeStreamFlag (D : Crates) (jsonBody : Bytes) : Bool :=
  match (D.deserializeStruct jsonBody).bind Probe.deserialize with
  | some p => p.stream
  | none => false

/-- Whether the first `Accept` value is `text/event-stream` and nothing else. -/
def acceptsEventStream (headers : HeaderMap) : Bool :=
  match (headers.get HeaderName.accept).bind HeaderValue.toStr with
  | some s => trim s == "text/event-stream".toList
  | none => false

end KeepSse
