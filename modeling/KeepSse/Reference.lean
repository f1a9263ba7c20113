import KeepSse.Config
import KeepSse.Json.RoundTrip

/-!
# Reference crates

A concrete `Crates`: small stand-ins for the dependencies, which compute what the real ones
compute on simple inputs. Everything that this development assumes of a dependency is true of
them (`Crates.serdeJson_reference`), so no assumption is empty, and a run can be evaluated.
-/

namespace KeepSse

open Text Http

namespace Reference

/-- The reason phrases of the statuses that the gateway treats by name. -/
def canonicalReason (s : StatusCode) : Option Str :=
  [(200, "OK"), (400, "Bad Request"), (401, "Unauthorized"), (403, "Forbidden"),
    (404, "Not Found"), (413, "Payload Too Large"), (429, "Too Many Requests"),
    (500, "Internal Server Error"), (502, "Bad Gateway"), (503, "Service Unavailable"),
    (504, "Gateway Timeout")].lookup s.code |>.map String.toList

/-- An `http` URI: an authority, then a path or nothing. -/
def parseUri (s : Str) : Except Str Uri :=
  let rest := s.drop 7
  let a := rest.takeWhile (· ≠ '/')
  let p := rest.dropWhile (· ≠ '/')
  if "http://".toList.isPrefixOf s then
    if h : a ≠ [] ∧ a.all fun c ↦ 33 ≤ c.toNat && c.toNat < 127 then
      .ok (.absolute "http".toList ⟨a, h.1, h.2⟩
        (if hp : p ≠ [] then ⟨p, hp⟩ else PathAndQuery.slash))
    else .error "empty host".toList
  else .error "invalid format".toList

/-- A decoder of a body that is not in its format. -/
def invalidStream : ByteReader :=
  ⟨[], by simp, some ⟨.invalidInput, "invalid header".toList⟩⟩

/-- An object whose members' values are skipped, or an array of booleans, with nothing but white
space around it. -/
def deserializeStruct (b : Bytes) : Option Access :=
  let s := latin1 b
  let value := Json.value Json.rawString (s.length + 1)
  match Json.skipSpace s with
  | '{' :: s => do
    let (ms, r) ← Json.bracketed (Json.member Json.decodedString value) '}' s
    if Json.skipSpace r = [] then some (.map ms) else none
  | '[' :: s => do
    let (vs, r) ← Json.bracketed value ']' s
    let bs ← vs.mapM Json.Value.asBool
    if Json.skipSpace r = [] then some (.seq bs) else none
  | _ => none

/-- Thirty years on. -/
def farFuture (now : Instant) : Instant :=
  (now.checkedAdd ⟨86400 * 365 * 30⟩).getD now

end Reference

/-- The reference crates. -/
def Crates.reference : Crates where
  fromSlice b := (fromUtf8 b).bind Json.parse
  toString := Json.print
  deserializeStruct := Reference.deserializeStruct
  canonicalReason := Reference.canonicalReason
  parseUri := Reference.parseUri
  parsePathAndQuery s := if h : s ≠ [] then some ⟨s, h⟩ else none
  gzipDecoder _ := Reference.invalidStream
  zlibDecoder _ := Reference.invalidStream
  brotliDecoder _ := Reference.invalidStream
  zstdDecoder _ := Reference.invalidStream
  farFuture := Reference.farFuture

/-- The reference parser undoes the printer, here through the bytes of the text. -/
theorem Crates.reference_fromSlice {v : Json.Value} {s : Str} (h : Json.print v = s) :
    Crates.reference.fromSlice (utf8 s) = some v := by
  simp only [Crates.reference, fromUtf8_utf8, Option.bind_some, ← h, Json.parse_print]

/-- **What the gateway relies on in serde_json is true of the reference crates.** -/
theorem Crates.serdeJson_reference : Crates.reference.SerdeJson where
  parse_toString := Json.parse_print
  no_lf v hv := absurd (Json.printable_print v _ hv) (by decide)
  no_cr v hv := absurd (Json.printable_print v _ hv) (by decide)
  fromSlice_nil := by decide

/-! ### A configuration and a request -/

/-- The default configuration, in front of a local upstream. -/
def Config.reference : Config where
  listen := ⟨"0.0.0.0:8080".toList⟩
  upstream := "http://127.0.0.1:8081".toList
  heartbeatInterval := 60
  connectTimeout := 10
  maxProbeBody := 33554432
  shutdownTimeout := 30

def Authority.reference : Authority := ⟨"127.0.0.1:8081".toList, by decide, by decide⟩

/-- The default configuration, validated. -/
def ResolvedConfig.reference : ResolvedConfig where
  listen := ⟨"0.0.0.0:8080".toList⟩
  upstream := .absolute "http".toList Authority.reference PathAndQuery.slash
  upstreamAuthority := Authority.reference.text
  heartbeatInterval := ⟨60⟩
  connectTimeout := ⟨10⟩
  maxProbeBody := 33554432
  shutdownTimeout := ⟨30⟩

/-- The default configuration is accepted. -/
theorem ResolvedConfig.parse_reference :
    ResolvedConfig.parse .reference .reference = .ok .reference := rfl

/-- A chat request with a given `Connection` field. -/
def chatRequest (connection : HeaderValue) : Parts where
  method := Method.post
  uri := .origin ⟨"/v1/chat/completions".toList, by decide⟩
  version := .http11
  headers := [(HeaderName.host, ⟨utf8 "gateway".toList, by decide⟩),
    (HeaderName.connection, connection)]

end KeepSse
