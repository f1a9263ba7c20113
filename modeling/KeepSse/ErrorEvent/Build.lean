import KeepSse.Crates
import KeepSse.Detect

/-!
# Error events

The event that tells a client that the upstream failed, for each of the four interfaces.

An upstream body that already is an error of the interface is passed through, re-serialized on one
line; any other failure goes into the interface's template, with a message that is the body's own
text, cut to `maxMsg` bytes, or the reason of the failure, or the status line.

The four builders are written out as the code has them: what each looks for in a body, the names
that it gives to a status, the members of its template and the frame around it. What they have in
common is brought out in `ErrorEvent.Payload`, and what a cut message is in `ErrorEvent.Truncation`.
-/

namespace KeepSse.ErrorEvent

open Text Http

/-- The longest message that is taken from a body, in bytes. -/
def maxMsg : ℕ := 4 * 1024

/-! ### The message -/

/-- The status line, as a message. -/
def statusFallback (D : Crates) (status : StatusCode) : Str :=
  decimal status.code ++ " ".toList ++ (D.canonicalReason status).getD "Bad Gateway".toList

/-- Step back from a position to the nearest character boundary. -/
def backOff (s : Str) : ℕ → ℕ
  | 0 => 0
  | i + 1 => if isCharBoundary s (i + 1) then i + 1 else backOff s i

theorem isCharBoundary_backOff (s : Str) (i : ℕ) : isCharBoundary s (backOff s i) = true := by
  induction i with
  | zero => rfl
  | succ i ih =>
    rw [backOff]
    split_ifs with h
    · exact h
    · exact ih

/-- The slice of a text up to where the back-off loop stops. It always exists: a slice that cuts
a character would be a panic. -/
def truncated (s : Str) : Str :=
  (sliceTo s (backOff s maxMsg)).get <| by
    obtain ⟨t, ht, -⟩ := exists_sliceTo (isCharBoundary_backOff s maxMsg)
    simp [ht]

/-- The message of a failure: the reason if there is one, else what the body says, else the
status line. -/
def message (D : Crates) (body : Option Bytes) (reason : Option Str) (status : StatusCode) : Str :=
  match reason with
  | some r => "upstream request failed: ".toList ++ r
  | none =>
    match body with
    | some b =>
      if b ≠ [] then
        match fromUtf8 b with
        | none => statusFallback D status
        | some s =>
          let trimmed := trim s
          if trimmed = [] then statusFallback D status
          else if byteLen trimmed ≤ maxMsg then trimmed
          else truncated trimmed
      else statusFallback D status
    | none => statusFallback D status

/-- A body that has a text is quoted, as far as it fits. -/
theorem message_of_utf8 (D : Crates) {s : Str} (hne : trim s ≠ []) (status : StatusCode) :
    message D (some (utf8 s)) none status =
      if byteLen (trim s) ≤ maxMsg then trim s else truncated (trim s) := by
  have hb : utf8 s ≠ [] := by
    intro h
    obtain rfl : s = [] := utf8_injective h
    exact hne rfl
  unfold message
  simp only
  rw [if_pos hb, fromUtf8_utf8]
  simp only
  rw [if_neg hne]

/-- A text of moderate length is its own message, less the white space around it. -/
theorem message_of_text (D : Crates) {s : Str} (hne : trim s ≠ [])
    (hlen : byteLen (trim s) ≤ maxMsg) (status : StatusCode) :
    message D (some (utf8 s)) none status = trim s := by
  rw [message_of_utf8 D hne, if_pos hlen]

/-! ### Upstream bodies that are errors already -/

/-- A JSON body with an `error` member. -/
def parseTopLevelError (D : Crates) (body : Bytes) : Option Json.Value := do
  let v ← D.fromSlice body
  if (v.get? "error".toList).isSome then some v else none

/-- The code, the message and the parameter in the `error` member of a JSON body. -/
def parseResponsesError (D : Crates) (body : Bytes) : Option (Str × Str × Json.Value) := do
  let v ← D.fromSlice body
  let e ← v.get? "error".toList
  let code ← (e.get? "code".toList).bind Json.Value.asStr
  let msg ← (e.get? "message".toList).bind Json.Value.asStr
  let param := (e.get? "param".toList).getD .null
  some (code, msg, param)

/-- A JSON body of type `error` with an `error` member. -/
def parseAnthropicError (D : Crates) (body : Bytes) : Option Json.Value := do
  let v ← D.fromSlice body
  if (v.get? "type".toList).bind Json.Value.asStr = some "error".toList ∧
      (v.get? "error".toList).isSome then
    some v
  else none

/-! ### OpenAI Chat Completions -/

def chatErrorType (status : StatusCode) : Str :=
  if status = StatusCode.tooManyRequests then "rate_limit_error".toList
  else if status.isClientError then "invalid_request_error".toList
  else "server_error".toList

def buildChat (D : Crates) (status : StatusCode) (body : Option Bytes) (reason : Option Str) :
    Bytes :=
  let s := "data: ".toList
  match (body.filter (· ≠ [])).bind (parseTopLevelError D) with
  | some value => utf8 (s ++ D.toString value ++ "\n\ndata: [DONE]\n\n".toList)
  | none =>
    let etype := chatErrorType status
    let msg := message D body reason status
    let payload := Json.object [("error".toList, Json.object [
      ("message".toList, .string msg),
      ("type".toList, .string etype),
      ("param".toList, .null),
      ("code".toList, .null)])]
    utf8 (s ++ D.toString payload ++ "\n\ndata: [DONE]\n\n".toList)

/-! ### OpenAI Responses -/

def responsesCode (status : StatusCode) : Str :=
  if status = StatusCode.tooManyRequests then "rate_limit_exceeded".toList
  else if status.isServerError ∨ status = StatusCode.badGateway then "server_error".toList
  else "invalid_request_error".toList

def buildResponses (D : Crates) (status : StatusCode) (body : Option Bytes)
    (reason : Option Str) : Bytes :=
  let (code, msg, param) :=
    match body.filter (· ≠ []) with
    | some b =>
      match parseResponsesError D b with
      | some (c, m, p) => (c, m, p)
      | none => (responsesCode status, message D body reason status, .null)
    | none => (responsesCode status, message D body reason status, .null)
  let payload := Json.object [
    ("type".toList, .string "error".toList),
    ("code".toList, .string code),
    ("message".toList, .string msg),
    ("param".toList, param),
    ("sequence_number".toList, .number (Json.Number.ofNat 0))]
  utf8 ("event: error\ndata: ".toList ++ D.toString payload ++ "\n\n".toList)

/-! ### Anthropic Messages -/

def anthropicErrorType (status : StatusCode) : Str :=
  match status.code with
  | 400 => "invalid_request_error".toList
  | 401 => "authentication_error".toList
  | 403 => "permission_error".toList
  | 404 => "not_found_error".toList
  | 413 => "request_too_large".toList
  | 429 => "rate_limit_error".toList
  | 529 => "overloaded_error".toList
  | _ => "api_error".toList

def buildAnthropic (D : Crates) (status : StatusCode) (body : Option Bytes)
    (reason : Option Str) : Bytes :=
  let s := "event: error\ndata: ".toList
  match (body.filter (· ≠ [])).bind (parseAnthropicError D) with
  | some value => utf8 (s ++ D.toString value ++ "\n\n".toList)
  | none =>
    let etype := anthropicErrorType status
    let msg := message D body reason status
    let payload := Json.object [
      ("type".toList, .string "error".toList),
      ("error".toList, Json.object [
        ("type".toList, .string etype),
        ("message".toList, .string msg)])]
    utf8 (s ++ D.toString payload ++ "\n\n".toList)

/-! ### Gemini -/

def geminiStatus (status : StatusCode) : Str :=
  match status.code with
  | 400 => "INVALID_ARGUMENT".toList
  | 401 => "UNAUTHENTICATED".toList
  | 403 => "PERMISSION_DENIED".toList
  | 404 => "NOT_FOUND".toList
  | 429 => "RESOURCE_EXHAUSTED".toList
  | 500 => "INTERNAL".toList
  | 503 => "UNAVAILABLE".toList
  | 504 => "DEADLINE_EXCEEDED".toList
  | _ => "UNKNOWN".toList

def buildGemini (D : Crates) (status : StatusCode) (body : Option Bytes) (reason : Option Str) :
    Bytes :=
  let s := "data: ".toList
  match (body.filter (· ≠ [])).bind (parseTopLevelError D) with
  | some value => utf8 (s ++ D.toString value ++ "\n\n".toList)
  | none =>
    let gstatus := geminiStatus status
    let code := status.code
    let msg := message D body reason status
    let payload := Json.object [("error".toList, Json.object [
      ("code".toList, .number (Json.Number.ofNat code)),
      ("message".toList, .string msg),
      ("status".toList, .string gstatus)])]
    utf8 (s ++ D.toString payload ++ "\n\n".toList)

/-! ### All interfaces -/

/-- The bytes of an error event. Without a status the failure counts as a bad gateway. -/
def build (D : Crates) (kind : EndpointKind) (status : Option StatusCode) (body : Option Bytes)
    (reason : Option Str) : Bytes :=
  let status := status.getD StatusCode.badGateway
  match kind with
  | .chatCompletions => buildChat D status body reason
  | .responses => buildResponses D status body reason
  | .anthropicMessages => buildAnthropic D status body reason
  | .geminiStream => buildGemini D status body reason

end KeepSse.ErrorEvent
