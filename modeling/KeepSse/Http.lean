import KeepSse.Text

/-!
# HTTP messages

The message types an HTTP proxy handles, after hyper's and the `http` crate's: header multimaps,
request targets, statuses, bodies that arrive frame by frame.

A value that the crate's own constructors would refuse cannot be built here: names are lower-case
tokens, header values are free of control bytes, an authority is visible ASCII, and a request
target is one of the three forms of `Uri`, so that "has a scheme but no authority" has no
spelling.

A header map is a list of fields. Only its multimap reading is observable, so the laws are about
`getAll`: what each edit does to the values of the edited name, and that it leaves the values of
every other name alone, in order.
-/

namespace Http

open Text

/-! ### Header names and values -/

/-- The characters of a token, capitals excluded. -/
def isTokenChar (c : Char) : Bool :=
  ('a' ≤ c && c ≤ 'z') || ('0' ≤ c && c ≤ '9') || "!#$%&'*+-.^_`|~".toList.contains c

/-- A header name: a token in lower case, since names are compared without case. -/
structure HeaderName where
  text : Str
  ne_nil : text ≠ []
  token : text.all isTokenChar
  deriving DecidableEq

/-- The name that a text spells, in any case. -/
def HeaderName.tryFrom (s : Str) : Option HeaderName :=
  let t := toAsciiLower s
  if h : t ≠ [] ∧ t.all isTokenChar then some ⟨t, h.1, h.2⟩ else none

theorem HeaderName.tryFrom_eq_some_iff {s : Str} {n : HeaderName} :
    HeaderName.tryFrom s = some n ↔ toAsciiLower s = n.text := by
  rcases n with ⟨text, hne, htok⟩
  constructor
  · intro h
    simp only [tryFrom] at h
    split at h
    · simpa using congrArg (fun o : Option HeaderName ↦ o.map HeaderName.text) h
    · cases h
  · intro h
    simp only at h
    subst h
    simp [tryFrom, hne, htok]

namespace HeaderName

def connection : HeaderName := ⟨"connection".toList, by decide, by decide⟩
def host : HeaderName := ⟨"host".toList, by decide, by decide⟩
def accept : HeaderName := ⟨"accept".toList, by decide, by decide⟩
def contentLength : HeaderName := ⟨"content-length".toList, by decide, by decide⟩
def contentType : HeaderName := ⟨"content-type".toList, by decide, by decide⟩
def contentEncoding : HeaderName := ⟨"content-encoding".toList, by decide, by decide⟩
def cacheControl : HeaderName := ⟨"cache-control".toList, by decide, by decide⟩

end HeaderName

/-- A byte that a header value may hold: no control character, except the tab. -/
def isValueByte (b : UInt8) : Bool :=
  (32 ≤ b && b != 127) || b == 9

/-- A byte that is visible ASCII, a space or a tab. -/
def isVisibleAscii (b : UInt8) : Bool :=
  (32 ≤ b && b < 127) || b == 9

/-- A header value: opaque bytes, control characters excluded. -/
structure HeaderValue where
  bytes : Bytes
  valid : bytes.all isValueByte
  deriving DecidableEq

/-- The value of a text, if the text has no character that a value may not hold. -/
def HeaderValue.fromStr (s : Str) : Option HeaderValue :=
  if h : (utf8 s).all isValueByte then some ⟨utf8 s, h⟩ else none

/-- The text of a value, if all of it is visible ASCII. -/
def HeaderValue.toStr (v : HeaderValue) : Option Str :=
  if v.bytes.all isVisibleAscii then some (v.bytes.map fun b ↦ Char.ofNat b.toNat) else none

/-! ### Header maps -/

/-- A header multimap: its fields, in order. -/
abbrev HeaderMap := List (HeaderName × HeaderValue)

namespace HeaderMap

/-- The values of a name, in order. -/
def getAll (h : HeaderMap) (n : HeaderName) : List HeaderValue :=
  (h.filter fun f ↦ f.1 = n).map Prod.snd

/-- The first value of a name. -/
def get (h : HeaderMap) (n : HeaderName) : Option HeaderValue :=
  (h.getAll n).head?

/-- Delete every field of a name. -/
def remove (h : HeaderMap) (n : HeaderName) : HeaderMap :=
  h.filter fun f ↦ f.1 ≠ n

/-- Make a value the only one of its name. -/
def insert (h : HeaderMap) (n : HeaderName) (v : HeaderValue) : HeaderMap :=
  h.remove n ++ [(n, v)]

@[simp] theorem getAll_remove_self (h : HeaderMap) (n : HeaderName) :
    (h.remove n).getAll n = [] := by
  simp [getAll, remove, List.filter_filter]

theorem getAll_remove_of_ne (h : HeaderMap) {n m : HeaderName} (hne : m ≠ n) :
    (h.remove n).getAll m = h.getAll m := by
  simp only [getAll, remove, List.filter_filter]
  congr 1
  refine List.filter_congr fun f _ ↦ ?_
  by_cases hf : f.1 = m <;> simp [hf, hne]

theorem getAll_append (h h' : HeaderMap) (n : HeaderName) :
    getAll (h ++ h') n = h.getAll n ++ h'.getAll n := by
  simp [getAll]

@[simp] theorem getAll_insert_self (h : HeaderMap) (n : HeaderName) (v : HeaderValue) :
    (h.insert n v).getAll n = [v] := by
  rw [insert, getAll_append, getAll_remove_self]
  simp [getAll]

theorem getAll_insert_of_ne (h : HeaderMap) {n m : HeaderName} (v : HeaderValue) (hne : m ≠ n) :
    (h.insert n v).getAll m = h.getAll m := by
  rw [insert, getAll_append, getAll_remove_of_ne h hne]
  simp [getAll, hne.symm]

/-- Delete the fields of several names, one after the other. -/
def removeAll (h : HeaderMap) (ns : List HeaderName) : HeaderMap :=
  ns.foldl remove h

theorem getAll_removeAll (h : HeaderMap) (ns : List HeaderName) (m : HeaderName) :
    (h.removeAll ns).getAll m = if m ∈ ns then [] else h.getAll m := by
  induction ns generalizing h with
  | nil => simp [removeAll]
  | cons n ns ih =>
    rw [removeAll, List.foldl_cons, ← removeAll, ih]
    by_cases hm : m ∈ ns
    · simp [hm]
    · rcases eq_or_ne m n with rfl | hne
      · simp
      · simp [hm, hne, h.getAll_remove_of_ne hne]

/-- Names deleted one after the other are deleted at once. -/
theorem removeAll_eq_filter (h : HeaderMap) (ns : List HeaderName) :
    h.removeAll ns = h.filter fun f ↦ f.1 ∉ ns := by
  induction ns generalizing h with
  | nil => exact (List.filter_eq_self.2 (by simp)).symm
  | cons n ns ih =>
    rw [removeAll, List.foldl_cons, ← removeAll, ih, remove, List.filter_filter]
    refine List.filter_congr fun f _ ↦ ?_
    by_cases hf : f.1 = n <;> simp [hf]

/-- A name has a field. -/
def Contains (h : HeaderMap) (n : HeaderName) : Prop :=
  ∃ v, (n, v) ∈ h

theorem contains_iff_getAll_ne_nil {h : HeaderMap} {n : HeaderName} :
    h.Contains n ↔ h.getAll n ≠ [] := by
  rw [Contains, ne_eq, List.eq_nil_iff_forall_not_mem]
  simp [getAll]

end HeaderMap

/-! ### Request targets -/

/-- An authority: a non-empty text of visible ASCII characters. -/
structure Authority where
  text : Str
  ne_nil : text ≠ []
  visible : text.all fun c ↦ 33 ≤ c.toNat && c.toNat < 127
  deriving DecidableEq

/-- The path and the query of a target, as written. -/
structure PathAndQuery where
  text : Str
  ne_nil : text ≠ []
  deriving DecidableEq

namespace PathAndQuery

def slash : PathAndQuery := ⟨"/".toList, by decide⟩

/-- What stands before the `?`. -/
def path (p : PathAndQuery) : Str :=
  match p.text.takeWhile (· ≠ '?') with
  | [] => "/".toList
  | s => s

/-- What stands after the first `?`, if there is one. -/
def query (p : PathAndQuery) : Option Str :=
  match p.text.dropWhile (· ≠ '?') with
  | [] => none
  | _ :: q => some q

end PathAndQuery

/-- A request target: a path alone (or `*`), a full URI, or an authority alone. -/
inductive Uri where
  | origin (p : PathAndQuery)
  | absolute (scheme : Str) (a : Authority) (p : PathAndQuery)
  | authority (a : Authority)
  deriving DecidableEq

/-- The parts of a target, each of which may be missing. -/
structure UriParts where
  scheme : Option Str
  authority : Option Authority
  pathAndQuery : Option PathAndQuery

namespace Uri

def intoParts : Uri → UriParts
  | .origin p => ⟨none, none, some p⟩
  | .absolute s a p => ⟨some s, some a, some p⟩
  | .authority a => ⟨none, some a, none⟩

/-- Put parts together. A scheme needs the two other parts, and an authority with a path needs a
scheme. -/
def fromParts : UriParts → Option Uri
  | ⟨some s, some a, some p⟩ => some (.absolute s a p)
  | ⟨none, none, some p⟩ => some (.origin p)
  | ⟨none, some a, none⟩ => some (.authority a)
  | _ => none

def schemeStr (u : Uri) : Option Str := u.intoParts.scheme

def authority? (u : Uri) : Option Authority := u.intoParts.authority

def pathAndQuery? (u : Uri) : Option PathAndQuery := u.intoParts.pathAndQuery

def path (u : Uri) : Str :=
  match u.pathAndQuery? with
  | some p => p.path
  | none => []

def query (u : Uri) : Option Str :=
  u.pathAndQuery?.bind PathAndQuery.query

end Uri

/-! ### Statuses -/

/-- A status code: three digits. -/
structure StatusCode where
  code : ℕ
  lower : 100 ≤ code
  upper : code < 1000
  deriving DecidableEq

namespace StatusCode

def ok : StatusCode := ⟨200, by decide, by decide⟩
def badRequest : StatusCode := ⟨400, by decide, by decide⟩
def payloadTooLarge : StatusCode := ⟨413, by decide, by decide⟩
def tooManyRequests : StatusCode := ⟨429, by decide, by decide⟩
def badGateway : StatusCode := ⟨502, by decide, by decide⟩

def isSuccess (s : StatusCode) : Bool := 200 ≤ s.code && s.code < 300

def isClientError (s : StatusCode) : Bool := 400 ≤ s.code && s.code < 500

def isServerError (s : StatusCode) : Bool := 500 ≤ s.code && s.code < 600

end StatusCode

/-! ### Bodies -/

/-- A frame of a body that arrives over the wire. -/
inductive BodyFrame where
  | data (b : Bytes)
  | trailers (h : HeaderMap)
  deriving DecidableEq

/-- The data of a frame. -/
def BodyFrame.bytes : BodyFrame → Bytes
  | .data b => b
  | .trailers _ => []

/-- A body that arrives over the wire: its frames, and the error that broke it off, if any. -/
structure Incoming where
  frames : List BodyFrame
  failure : Option Str
  deriving DecidableEq

/-- All the data of a body. -/
def Incoming.bytes (b : Incoming) : Bytes :=
  b.frames.flatMap BodyFrame.bytes

/-- Why a body could not be collected. -/
inductive CollectError where
  | lengthLimit
  | read (e : Str)
  deriving DecidableEq

/-- Collect the remaining frames, while no more than `remaining` bytes of data come. -/
def collectFrom (remaining : ℕ) (acc : Bytes) (failure : Option Str) :
    List BodyFrame → Except CollectError Bytes
  | [] =>
    match failure with
    | none => .ok acc
    | some e => .error (.read e)
  | .data b :: fs =>
    if remaining < b.length then .error .lengthLimit
    else collectFrom (remaining - b.length) (acc ++ b) failure fs
  | .trailers _ :: fs => collectFrom remaining acc failure fs

/-- Collect a body of at most `limit` bytes: `Limited::new(body, limit).collect()`. -/
def Incoming.collectLimited (b : Incoming) (limit : ℕ) : Except CollectError Bytes :=
  collectFrom limit [] b.failure b.frames

/-- Collecting fails at the limit as soon as the data outgrows it, whatever comes after; else the
body's own failure counts; else the data is complete. -/
theorem collectFrom_eq (remaining : ℕ) (acc : Bytes) (failure : Option Str)
    (fs : List BodyFrame) :
    collectFrom remaining acc failure fs =
      if remaining < (fs.flatMap BodyFrame.bytes).length then .error .lengthLimit
      else match failure with
        | none => .ok (acc ++ fs.flatMap BodyFrame.bytes)
        | some e => .error (.read e) := by
  induction fs generalizing remaining acc with
  | nil => cases failure <;> simp [collectFrom]
  | cons f fs ih =>
    cases f with
    | trailers h => simp [collectFrom, ih, BodyFrame.bytes]
    | data b =>
      rw [collectFrom]
      by_cases hb : remaining < b.length
      · have : remaining < ((BodyFrame.data b :: fs).flatMap BodyFrame.bytes).length := by
          simp [BodyFrame.bytes]
          omega
        rw [if_pos hb, if_pos this]
      · rw [if_neg hb, ih]
        have hiff : remaining - b.length < (fs.flatMap BodyFrame.bytes).length ↔
            remaining < ((BodyFrame.data b :: fs).flatMap BodyFrame.bytes).length := by
          simp [BodyFrame.bytes]
          omega
        simp only [hiff]
        cases failure <;> simp [BodyFrame.bytes]

theorem Incoming.collectLimited_eq (b : Incoming) (limit : ℕ) :
    b.collectLimited limit =
      if limit < b.bytes.length then .error .lengthLimit
      else match b.failure with
        | none => .ok b.bytes
        | some e => .error (.read e) := by
  rw [collectLimited, collectFrom_eq]
  rfl

/-- The body of a message that is passed on: complete bytes, frames from the wire, or the
receiving end of a channel. -/
inductive BoxBody where
  | full (b : Bytes)
  | incoming (b : Incoming)
  | channel
  deriving DecidableEq

/-! ### Messages -/

/-- A request method. -/
structure Method where
  name : Str
  deriving DecidableEq

def Method.post : Method := ⟨"POST".toList⟩

inductive Version where
  | http09
  | http10
  | http11
  | http2
  | http3
  deriving DecidableEq

/-- The head of a request. -/
structure Parts where
  method : Method
  uri : Uri
  version : Version
  headers : HeaderMap
  deriving DecidableEq

/-- A request with a body. -/
structure Request (β : Type) where
  parts : Parts
  body : β
  deriving DecidableEq

/-- A response with a body. -/
structure Response (β : Type) where
  status : StatusCode
  headers : HeaderMap
  body : β
  deriving DecidableEq

end Http
