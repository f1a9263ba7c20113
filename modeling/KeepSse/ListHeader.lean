import KeepSse.Handle

/-!
# Lists over several field lines

A header that holds a list may be written on one field line or spread over several; what is said is
the same. Whether the gateway hears the same is the question here, for the two lists that it reads
before it decides where a request goes.

The two readers differ. The coding is read from all field lines, and several of them are a list of
several codings, which is refused in either form (`parseContentEncoding_joined`). The media types
are read from the first field line alone, and a list of several is refused only if the first line
shows that there are several. So the forms agree unless the first line holds one element, and that
element asks for an event stream (`sameRoute_iff`).

## What it rests on

* A list is written by joining elements with commas (`fieldLine`), spread in any way (`fieldLines`).
  The elements of a coding list are read back from its lines (`listElements_fieldLine`), because a
  coding has no comma in it; a media type may have one, and is never taken apart.
* A line with several elements has a comma (`comma_mem_fieldLine`), and `text/event-stream` has
  none: so a line that asks for an event stream and nothing else holds one element
  (`asksEventStream_fieldLine_iff`).
* Where a request goes depends on its headers through three readings (`handle_headless_congr`), the
  two here and the declared length, which the two forms have in common (`Spread`).

Every request can be written in both forms (`spread_withLists`), so nothing is special about the
pairs of requests that the result speaks of.
-/

namespace KeepSse

open Text Http

/-! ### Lists and field lines -/

abbrev comma : UInt8 := 44

/-- An element of a list header: any value that is not blank. -/
structure Element where
  value : HeaderValue
  ne_blank : ∃ b ∈ value.bytes, b ≠ 32 ∧ b ≠ 9

/-- An element of a `Content-Encoding` list has no comma; in an `Accept` list it may have one,
inside a quoted parameter. -/
structure CodingElement extends Element where
  no_comma : comma ∉ value.bytes

/-- A field line with some elements, separated by commas. Blanks around a comma belong to the
elements. -/
def fieldLine (group : List Element) : HeaderValue where
  bytes := [comma].intercalate (group.map fun e ↦ e.value.bytes)
  valid := by
    rw [List.all_eq_true]
    intro b hb
    rcases mem_intercalate hb with rfl | ⟨l, hl, hbl⟩
    · rfl
    · obtain ⟨e, -, rfl⟩ := List.mem_map.1 hl
      exact List.all_eq_true.1 e.value.valid b hbl

/-- The field lines of a list, spread as it is. -/
def fieldLines (groups : List (List Element)) : List HeaderValue :=
  groups.map fieldLine

/-- A spread list on one line, if there is anything to write. -/
def joined {α : Type} (groups : List (List α)) : List (List α) :=
  if groups = [] then [] else [groups.flatten]

/-- The elements of a spread `Content-Encoding` list. -/
def codingGroups (codings : List (List CodingElement)) : List (List Element) :=
  codings.map (List.map CodingElement.toElement)

theorem fieldLine_singleton (e : Element) : fieldLine [e] = e.value := by
  rcases e with ⟨⟨bytes, hvalid⟩, hblank⟩
  simp [fieldLine]

/-- A line with several elements has a comma. -/
theorem comma_mem_fieldLine {group : List Element} (h : 2 ≤ group.length) :
    comma ∈ (fieldLine group).bytes := by
  match group, h with
  | e :: e' :: group, _ =>
    simp [fieldLine]

/-- Several groups have several elements. -/
theorem two_le_length_flatten {α : Type} {g g' : List α} {groups : List (List α)}
    (h : ∀ l ∈ g :: g' :: groups, l ≠ []) : 2 ≤ (g :: g' :: groups).flatten.length := by
  have hg := List.length_pos_iff.2 (h g (by simp))
  have hg' := List.length_pos_iff.2 (h g' (by simp))
  simp only [List.flatten_cons, List.length_append]
  omega

/-! ### What the readers hear -/

/-- The text of a value, character by character. -/
theorem toStr_eq_some_iff {v : HeaderValue} {s : Str} : v.toStr = some s ↔
    (∀ b ∈ v.bytes, isVisibleAscii b = true) ∧ s = v.bytes.map fun b ↦ Char.ofNat b.toNat := by
  rw [HeaderValue.toStr, Option.ite_none_right_eq_some, List.all_eq_true, Option.some_inj,
    eq_comm (a := s)]

theorem isVisibleAscii_iff {b : UInt8} :
    isVisibleAscii b = true ↔ (32 ≤ b.toNat ∧ b.toNat < 127) ∨ b.toNat = 9 := by
  simp [isVisibleAscii, UInt8.le_iff_toNat_le, UInt8.lt_iff_toNat_lt, ← UInt8.toNat_inj]

theorem toNat_of_visible {b : UInt8} (hb : isVisibleAscii b = true) :
    (Char.ofNat b.toNat).toNat = b.toNat := by
  rw [isVisibleAscii_iff] at hb
  exact toNat_ofNat_of_ascii (by omega)

/-- A value asks for an event stream and nothing else. -/
def AsksEventStream (v : HeaderValue) : Prop :=
  v.toStr.map trim = some "text/event-stream".toList

instance (v : HeaderValue) : Decidable (AsksEventStream v) :=
  inferInstanceAs (Decidable (_ = _))

/-- Only the first `Accept` line is heard. -/
theorem acceptsEventStream_iff {h : HeaderMap} : acceptsEventStream h = true ↔
    ∃ v, (h.getAll HeaderName.accept).head? = some v ∧ AsksEventStream v := by
  rw [acceptsEventStream, HeaderMap.get]
  cases (h.getAll HeaderName.accept).head? with
  | none => simp
  | some v =>
    simp only [Option.bind_some, Option.some_inj, exists_eq_left', AsksEventStream]
    cases v.toStr with
    | none => simp
    | some s => simp

/-- A comma is not part of the media type. -/
theorem not_asksEventStream_of_comma {v : HeaderValue} (h : comma ∈ v.bytes) :
    ¬AsksEventStream v := by
  intro hasks
  obtain ⟨s, hs, htrim⟩ := Option.map_eq_some_iff.1 hasks
  obtain ⟨-, rfl⟩ := toStr_eq_some_iff.1 hs
  have hmem : Char.ofNat comma.toNat ∈ v.bytes.map fun b ↦ Char.ofNat b.toNat :=
    List.mem_map_of_mem h
  have hcomma := mem_trim hmem (by decide)
  rw [htrim] at hcomma
  exact absurd hcomma (by decide)

/-- The text of a value. -/
def asciiText (bytes : Bytes) : Str :=
  bytes.map fun b ↦ Char.ofNat b.toNat

/-- The text of an element is not blank. -/
theorem trim_asciiText_ne_nil (e : Element) (he : ∀ b ∈ e.value.bytes, isVisibleAscii b = true) :
    trim (asciiText e.value.bytes) ≠ [] := by
  obtain ⟨b, hb, hspace, htab⟩ := e.ne_blank
  refine trim_ne_nil_iff.2 ⟨Char.ofNat b.toNat, List.mem_map_of_mem hb, ?_⟩
  have hvisible := isVisibleAscii_iff.1 (he b hb)
  rw [ne_eq, ← UInt8.toNat_inj] at hspace htab
  simp only [UInt8.reduceToNat] at hspace htab
  rw [isWhiteSpace, toNat_of_visible (he b hb)]
  simp
  omega

/-- Nor has the text of a coding a comma. -/
theorem comma_not_mem_asciiText (e : CodingElement)
    (he : ∀ b ∈ e.value.bytes, isVisibleAscii b = true) : ',' ∉ asciiText e.value.bytes := by
  intro hmem
  obtain ⟨b, hb, hchar⟩ := List.mem_map.1 hmem
  have hnat := toNat_of_visible (he b hb)
  rw [hchar] at hnat
  have hcomma : b = comma := UInt8.toNat_inj.1 hnat.symm
  exact e.no_comma (hcomma ▸ hb)

/-- The elements of a line are what was written there. -/
theorem listElements_fieldLine {group : List CodingElement} (hne : group ≠ [])
    (hvisible : ∀ e ∈ group, ∀ b ∈ e.value.bytes, isVisibleAscii b = true) :
    listElements (asciiText (fieldLine (group.map CodingElement.toElement)).bytes) =
      group.map fun e ↦ trim (asciiText e.value.bytes) := by
  have hjoin : asciiText (fieldLine (group.map CodingElement.toElement)).bytes =
      [','].intercalate (group.map fun e ↦ asciiText e.value.bytes) := by
    rw [asciiText, fieldLine, map_intercalate, List.map_map, List.map_map,
      show Char.ofNat comma.toNat = ',' by decide]
    rfl
  have hcomma : ∀ l ∈ group.map fun e ↦ asciiText e.value.bytes, ',' ∉ l := by
    rintro l hl
    obtain ⟨e, he, rfl⟩ := List.mem_map.1 hl
    exact comma_not_mem_asciiText e (hvisible e he)
  rw [listElements, hjoin, List.splitOn_intercalate ',' hcomma (by simpa using hne), List.map_map,
    List.filter_eq_self.2]
  · rfl
  · rintro l hl
    obtain ⟨e, he, rfl⟩ := List.mem_map.1 hl
    exact decide_eq_true (trim_asciiText_ne_nil e.toElement (hvisible e he))

/-- A line with several codings is refused. -/
theorem parseContentEncoding_of_line {h : HeaderMap} (group : List CodingElement)
    (hline : h.getAll HeaderName.contentEncoding =
      [fieldLine (group.map CodingElement.toElement)])
    (hlen : 2 ≤ group.length) : parseContentEncoding h = none := by
  rw [parseContentEncoding, hline]
  simp only [Option.bind_eq_bind, Option.bind_eq_none_iff]
  intro s hs
  obtain ⟨hvisible, rfl⟩ := toStr_eq_some_iff.1 hs
  have helements := listElements_fieldLine (List.ne_nil_of_length_pos (by omega))
    fun e he b hb ↦ hvisible b
      (mem_intercalate_of_mem (List.mem_map_of_mem (List.mem_map_of_mem he)) hb)
  rw [← asciiText, helements]
  match group, hlen with
  | _ :: _ :: _, _ => rfl

/-- **The coding is heard the same in either form.** -/
theorem parseContentEncoding_joined {h h' : HeaderMap} {codings : List (List CodingElement)}
    (hne : ∀ g ∈ codings, g ≠ [])
    (hone : h.getAll HeaderName.contentEncoding = fieldLines (codingGroups (joined codings)))
    (hmany : h'.getAll HeaderName.contentEncoding = fieldLines (codingGroups codings)) :
    parseContentEncoding h = parseContentEncoding h' := by
  match codings, hne with
  | [], _ => rw [parseContentEncoding, parseContentEncoding, hone, hmany]; rfl
  | [g], _ =>
    have hsame : h.getAll HeaderName.contentEncoding = h'.getAll HeaderName.contentEncoding := by
      rw [hone, hmany]
      simp [joined]
    rw [parseContentEncoding, parseContentEncoding, hsame]
  | g :: g' :: codings, hne =>
    -- several lines are refused, and so is a line with several codings
    rw [parseContentEncoding_of_line (g :: g' :: codings).flatten hone
      (two_le_length_flatten hne), parseContentEncoding, hmany]
    rfl

/-- A line that asks for an event stream and nothing else has one element. -/
theorem asksEventStream_fieldLine_iff {group : List Element} (hne : group ≠ []) :
    AsksEventStream (fieldLine group) ↔ ∃ e, group = [e] ∧ AsksEventStream e.value := by
  match group, hne with
  | [e], _ => simp [fieldLine_singleton]
  | e :: e' :: group, _ =>
    have hcomma : comma ∈ (fieldLine (e :: e' :: group)).bytes := comma_mem_fieldLine (by simp)
    simp [not_asksEventStream_of_comma hcomma]

/-- The first line holds one of several media types, and asks for an event stream. -/
def FirstAlone (accept : List (List Element)) : Prop :=
  ∃ e g groups, accept = [e] :: g :: groups ∧ AsksEventStream e.value

/-- **The media types are heard the same in either form, and several of them are refused, unless the
first line holds one of them alone.** -/
theorem acceptsEventStream_joined_iff {h h' : HeaderMap} {accept : List (List Element)}
    (hne : ∀ g ∈ accept, g ≠ [])
    (hone : h.getAll HeaderName.accept = fieldLines (joined accept))
    (hmany : h'.getAll HeaderName.accept = fieldLines accept) :
    (acceptsEventStream h = acceptsEventStream h' ∧
        (2 ≤ accept.flatten.length → acceptsEventStream h' = false)) ↔ ¬FirstAlone accept := by
  have hsingle {h : HeaderMap} (group : List Element)
      (hline : h.getAll HeaderName.accept = [fieldLine group]) (hlen : 2 ≤ group.length) :
      acceptsEventStream h = false := by
    rw [← Bool.not_eq_true, acceptsEventStream_iff, hline]
    simpa using not_asksEventStream_of_comma (comma_mem_fieldLine hlen)
  match accept, hne with
  | [], _ =>
    rw [acceptsEventStream, acceptsEventStream, HeaderMap.get, HeaderMap.get, hone, hmany]
    simp [FirstAlone, joined]
  | [g], _ =>
    have hsame : acceptsEventStream h = acceptsEventStream h' := by
      rw [acceptsEventStream, acceptsEventStream, HeaderMap.get, HeaderMap.get, hone, hmany]
      simp [joined]
    refine iff_of_true ⟨hsame, fun hlen ↦ hsingle g hmany (by simpa using hlen)⟩ ?_
    rintro ⟨e, g', groups, heq, -⟩
    cases heq
  | g :: g' :: groups, hne =>
    -- the line that holds them all is refused, so both parts say that the spread form is, too
    have hlen := two_le_length_flatten hne
    rw [hsingle (g :: g' :: groups).flatten hone hlen]
    have hfirst : acceptsEventStream h' = true ↔ FirstAlone (g :: g' :: groups) := by
      rw [acceptsEventStream_iff, hmany, FirstAlone]
      simp [fieldLines, asksEventStream_fieldLine_iff (hne g (by simp))]
    rw [← hfirst, Bool.not_eq_true, eq_comm (a := false)]
    exact and_iff_left_of_imp fun h _ ↦ h

/-! ### Where the request goes -/

def withoutHeaders (parts : Parts) : Parts :=
  { parts with headers := [] }

/-- An exit without the headers of the request that it passes on. -/
def Exit.headless : Exit → Exit
  | .proxy req => .proxy { req with parts := withoutHeaders req.parts }
  | .proxyBuffered parts body => .proxyBuffered (withoutHeaders parts) body
  | .handleStream kind parts body => .handleStream kind (withoutHeaders parts) body
  | .respond resp => .respond resp

/-- Two requests that write the same two lists, one of them on single field lines. -/
structure Spread (req req' : Request Incoming) (accept : List (List Element))
    (codings : List (List CodingElement)) : Prop where
  parts : withoutHeaders req.parts = withoutHeaders req'.parts
  body : req.body = req'.body
  others : ∀ n, n ≠ HeaderName.accept → n ≠ HeaderName.contentEncoding →
    req.parts.headers.getAll n = req'.parts.headers.getAll n
  accept_ne_nil : ∀ g ∈ accept, g ≠ []
  accept_one : req.parts.headers.getAll HeaderName.accept = fieldLines (joined accept)
  accept_many : req'.parts.headers.getAll HeaderName.accept = fieldLines accept
  coding_ne_nil : ∀ g ∈ codings, g ≠ []
  coding_one : req.parts.headers.getAll HeaderName.contentEncoding =
    fieldLines (codingGroups (joined codings))
  coding_many : req'.parts.headers.getAll HeaderName.contentEncoding =
    fieldLines (codingGroups codings)

/-- Where a request goes depends on its headers through three readings. -/
theorem handle_headless_congr {profile : Profile} {D : Crates} {cfg : ResolvedConfig}
    {req req' : Request Incoming} (hparts : withoutHeaders req.parts = withoutHeaders req'.parts)
    (hbody : req.body = req'.body)
    (hlength : contentLength req.parts.headers = contentLength req'.parts.headers)
    (haccept : acceptsEventStream req.parts.headers = acceptsEventStream req'.parts.headers)
    (hcoding : parseContentEncoding req.parts.headers =
      parseContentEncoding req'.parts.headers) :
    (handle profile D cfg req).map Exit.headless =
      (handle profile D cfg req').map Exit.headless := by
  rcases req with ⟨⟨method, uri, version, headers⟩, body⟩
  rcases req' with ⟨⟨method', uri', version', headers'⟩, body'⟩
  obtain ⟨rfl, rfl, rfl, -⟩ := Parts.mk.inj hparts
  obtain rfl : body = body' := hbody
  simp only at hlength haccept hcoding
  have hprobe (collected : Bytes) : probeBody profile D cfg headers collected =
      probeBody profile D cfg headers' collected := by
    rw [probeBody, probeBody, hcoding]
  simp only [handle, hlength, haccept, hprobe]
  cases matchEndpoint method uri.path uri.query with
  | none => rfl
  | some kind =>
    cases body.collectLimited cfg.maxProbeBody.toNat with
    | error e => cases e <;> (simp only; split_ifs <;> rfl)
    | ok collected =>
      simp only
      split_ifs
      · rfl
      · rfl
      · rfl
      · cases probeBody profile D cfg headers' collected with
        | none => rfl
        | some probed =>
          simp only [Option.bind_eq_bind, Option.bind_some]
          split_ifs <;> rfl

/-- What is promised of two requests that differ in how their lists are written: both readers hear
the same, so the requests go the same way; and where there are several media types, the spread form
does not pass for a request for an event stream. -/
structure SameRoute (profile : Profile) (D : Crates) (cfg : ResolvedConfig)
    (req req' : Request Incoming) (accept : List (List Element)) : Prop where
  accepts : acceptsEventStream req.parts.headers = acceptsEventStream req'.parts.headers
  several : 2 ≤ accept.flatten.length → acceptsEventStream req'.parts.headers = false
  coding : parseContentEncoding req.parts.headers = parseContentEncoding req'.parts.headers
  route : (handle profile D cfg req).map Exit.headless =
    (handle profile D cfg req').map Exit.headless

/-- **The form of the lists does not matter unless the first `Accept` line holds one of several
media types, and that one is `text/event-stream`.** -/
theorem sameRoute_iff {profile : Profile} {D : Crates} {cfg : ResolvedConfig}
    {req req' : Request Incoming} {accept : List (List Element)}
    {codings : List (List CodingElement)} (h : Spread req req' accept codings) :
    SameRoute profile D cfg req req' accept ↔ ¬FirstAlone accept := by
  have hheard := acceptsEventStream_joined_iff h.accept_ne_nil h.accept_one h.accept_many
  have hcoding := parseContentEncoding_joined h.coding_ne_nil h.coding_one h.coding_many
  have hlength : contentLength req.parts.headers = contentLength req'.parts.headers := by
    rw [contentLength, contentLength, HeaderMap.get, HeaderMap.get,
      h.others _ (by decide) (by decide)]
  rw [← hheard]
  constructor
  · exact fun hsame ↦ ⟨hsame.accepts, hsame.several⟩
  · rintro ⟨haccept, hseveral⟩
    exact ⟨haccept, hseveral, hcoding, handle_headless_congr h.parts h.body hlength haccept hcoding⟩

/-! ### Requests to try -/

/-- A request with the two lists written on the given lines, behind its other fields. -/
def withLists (req : Request Incoming) (accept : List (List Element))
    (codings : List (List CodingElement)) : Request Incoming :=
  { req with parts := { req.parts with
    headers := req.parts.headers.removeAll [HeaderName.accept, HeaderName.contentEncoding] ++
      (fieldLines accept).map (HeaderName.accept, ·) ++
      (fieldLines (codingGroups codings)).map (HeaderName.contentEncoding, ·) } }

theorem getAll_map_self (n : HeaderName) (vs : List HeaderValue) :
    HeaderMap.getAll (vs.map (n, ·)) n = vs := by
  simp [HeaderMap.getAll, List.filter_map, Function.comp_def]

theorem getAll_map_of_ne {n m : HeaderName} (h : m ≠ n) (vs : List HeaderValue) :
    HeaderMap.getAll (vs.map (n, ·)) m = [] := by
  simp [HeaderMap.getAll, List.filter_map, Function.comp_def, h.symm]

/-- **Every request can be written in both forms.** -/
theorem spread_withLists (req : Request Incoming) {accept : List (List Element)}
    {codings : List (List CodingElement)} (haccept : ∀ g ∈ accept, g ≠ [])
    (hcoding : ∀ g ∈ codings, g ≠ []) :
    Spread (withLists req (joined accept) (joined codings)) (withLists req accept codings) accept
      codings := by
  have hne : HeaderName.contentEncoding ≠ HeaderName.accept := by decide
  have hread (n : HeaderName) (accept : List (List Element))
      (codings : List (List CodingElement)) :
      (withLists req accept codings).parts.headers.getAll n =
        (if n = HeaderName.accept then fieldLines accept
        else if n = HeaderName.contentEncoding then fieldLines (codingGroups codings)
        else req.parts.headers.getAll n) := by
    rw [withLists, HeaderMap.getAll_append, HeaderMap.getAll_append, HeaderMap.getAll_removeAll]
    rcases eq_or_ne n HeaderName.accept with rfl | ha
    · simp [getAll_map_self, getAll_map_of_ne hne.symm]
    · rcases eq_or_ne n HeaderName.contentEncoding with rfl | hce
      · simp [getAll_map_self, getAll_map_of_ne hne, hne]
      · simp [getAll_map_of_ne ha, getAll_map_of_ne hce, ha, hce]
  exact {
    parts := rfl
    body := rfl
    others := fun n ha hce ↦ by rw [hread, hread, if_neg ha, if_neg ha, if_neg hce, if_neg hce]
    accept_ne_nil := haccept
    accept_one := by rw [hread, if_pos rfl]
    accept_many := by rw [hread, if_pos rfl]
    coding_ne_nil := hcoding
    coding_one := by rw [hread, if_neg hne, if_pos rfl]
    coding_many := by rw [hread, if_neg hne, if_pos rfl] }

theorem eventStream_valid : (utf8 "text/event-stream".toList).all isValueByte = true := by decide

def eventStreamElement : Element where
  value := ⟨utf8 "text/event-stream".toList, eventStream_valid⟩
  ne_blank := ⟨116, by decide⟩

def jsonElement : Element where
  value := applicationJson
  ne_blank := ⟨97, by decide⟩

def identityElement : CodingElement where
  value := ⟨utf8 "identity".toList, by decide⟩
  ne_blank := ⟨105, by decide⟩
  no_comma := by decide

/-- A chat request that does not ask for a stream in its body. -/
def quietRequest : Request Incoming :=
  ⟨chatRequest ⟨utf8 "keep-alive".toList, by decide⟩, ⟨[.data (utf8 "\x7b\x7d".toList)], none⟩⟩

/-- The request with two media types and a coding, each list on one line. -/
def onOneLine (first second : Element) : Request Incoming :=
  withLists quietRequest (joined [[first], [second]]) (joined [[identityElement]])

/-- The request with a line for each media type. -/
def onTwoLines (first second : Element) : Request Incoming :=
  withLists quietRequest [[first], [second]] [[identityElement]]

/-- With JSON first, both forms are served alike. -/
theorem sameRoute_json_first :
    SameRoute .release .reference .reference (onOneLine jsonElement eventStreamElement)
      (onTwoLines jsonElement eventStreamElement) [[jsonElement], [eventStreamElement]] := by
  refine (sameRoute_iff (spread_withLists quietRequest (by simp) (by simp))).2 ?_
  rintro ⟨e, g, groups, heq, hasks⟩
  obtain rfl : jsonElement = e := by simpa using (List.cons.inj heq).1
  exact absurd hasks (by decide)

/-- In the other order, the request on one line is passed on, and the one on two lines is answered
with an event stream. -/
theorem not_sameRoute_event_stream_first :
    Spread (onOneLine eventStreamElement jsonElement) (onTwoLines eventStreamElement jsonElement)
        [[eventStreamElement], [jsonElement]] [[identityElement]] ∧
      (∃ parts body, handle .release .reference .reference
        (onOneLine eventStreamElement jsonElement) = some (.proxyBuffered parts body)) ∧
      (∃ kind parts body, handle .release .reference .reference
        (onTwoLines eventStreamElement jsonElement) = some (.handleStream kind parts body)) ∧
      ¬SameRoute .release .reference .reference (onOneLine eventStreamElement jsonElement)
        (onTwoLines eventStreamElement jsonElement) [[eventStreamElement], [jsonElement]] := by
  refine ⟨spread_withLists quietRequest (by simp) (by simp), ⟨_, _, rfl⟩, ⟨_, _, _, rfl⟩,
    fun h ↦ ?_⟩
  exact absurd (h.several (by decide)) (by decide)

end KeepSse
