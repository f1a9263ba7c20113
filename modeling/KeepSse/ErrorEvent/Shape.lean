import KeepSse.ErrorEvent.Payload

/-!
# When an error event is an error of its interface

Each interface documents the shape of its errors. The templates have it (`hasShape_template`), so
what an event looks like to a client depends on the bodies that are passed through or taken apart.
Two results say exactly which bodies keep the promise:

* a body that is passed through is checked for the presence of an `error` member, not for what it
  is; the event is recognisable if and only if that member is an object (`build_recognisable_iff`);
* a Responses body keeps its message if and only if it also has a string code
  (`build_responses_keepsMessage_iff`): without one the extraction gives up, and the message is the
  text of the whole body.

## What they rest on

* An event carries one value (`Carries.unique`), the payload of the failure (`build_carries`). So
  both are questions about payloads, and the bytes do not come up again.
* For the first, what a body supplies is its own value or, for Responses, an object that has the
  documented shape whatever is in it (`hasShape_of_upstreamPayload`, `hasShape_responsesPayload`).
  The converse holds because every other shape demands an object under `error`
  (`errorIsObject_of_hasShape`).
* For the second, the extraction succeeds where it finds two strings and nowhere else
  (`parseResponsesError_eq_some_iff`). What the event is when it fails is the template, with the
  body's own text for its message (`not_supplies_of_code`, `message_of_utf8`).
-/

namespace KeepSse.ErrorEvent

open Text Http EventStream

/-! ### The members of a payload -/

section

variable (code msg : Str) (param : Json.Value)

theorem responsesPayload_type : (responsesPayload code msg param).get? "type".toList =
    some (.string "error".toList) := rfl

theorem responsesPayload_code : (responsesPayload code msg param).get? "code".toList =
    some (.string code) := rfl

theorem responsesPayload_message : (responsesPayload code msg param).get? "message".toList =
    some (.string msg) := rfl

theorem responsesPayload_param : (responsesPayload code msg param).get? "param".toList =
    some param := rfl

theorem responsesPayload_sequence_number :
    (responsesPayload code msg param).get? "sequence_number".toList =
      some (.number (Json.Number.ofNat 0)) := rfl

end

/-- Only objects have members. -/
theorem isObject_of_get? {v w : Json.Value} {k : Str} (h : v.get? k = some w) :
    v.isObject = true := by
  cases v with
  | object ms => rfl
  | null => cases h
  | bool b => cases h
  | number n => cases h
  | string s => cases h
  | array xs => cases h

/-! ### The documented shapes -/

/-- The `error` member is an object. -/
def ErrorIsObject (v : Json.Value) : Prop :=
  ∃ e, v.get? "error".toList = some e ∧ e.isObject = true

/-- The shape that an interface documents for the payload of its error events. -/
def HasShape (kind : EndpointKind) (v : Json.Value) : Prop :=
  match kind with
  | .chatCompletions => ErrorIsObject v
  | .geminiStream => ErrorIsObject v
  | .anthropicMessages =>
    v.get? "type".toList = some (.string "error".toList) ∧ ErrorIsObject v
  | .responses =>
    v.get? "type".toList = some (.string "error".toList) ∧
      (∃ c, v.get? "code".toList = some (.string c)) ∧
      (∃ m, v.get? "message".toList = some (.string m)) ∧
      (∃ p, v.get? "param".toList = some p) ∧
      v.get? "sequence_number".toList = some (.number (Json.Number.ofNat 0))

/-- The shape that an interface documents for the bodies of its failed responses. A Responses body
has an `error` member; the other bodies have the shape of their events. -/
def HasBodyShape (kind : EndpointKind) (v : Json.Value) : Prop :=
  match kind with
  | .responses => ErrorIsObject v
  | kind => HasShape kind v

theorem hasShape_responsesPayload (code msg : Str) (param : Json.Value) :
    HasShape .responses (responsesPayload code msg param) :=
  ⟨responsesPayload_type code msg param, ⟨code, responsesPayload_code code msg param⟩,
    ⟨msg, responsesPayload_message code msg param⟩,
    ⟨param, responsesPayload_param code msg param⟩,
    responsesPayload_sequence_number code msg param⟩

/-- **The templates have the documented shapes.** -/
theorem hasShape_template (kind : EndpointKind) (status : StatusCode) (msg : Str) :
    HasShape kind (template kind status msg) := by
  cases kind with
  | chatCompletions => exact ⟨_, rfl, rfl⟩
  | responses => exact hasShape_responsesPayload _ _ _
  | anthropicMessages => exact ⟨rfl, _, rfl, rfl⟩
  | geminiStream => exact ⟨_, rfl, rfl⟩

/-! ### Recognisable errors -/

/-- The event of a failure is recognisable: its payload has the documented shape, and a body
without the documented shape went through the template. -/
def Recognisable (D : Crates) (kind : EndpointKind) (status : Option StatusCode)
    (body : Option Bytes) (reason : Option Str) : Prop :=
  ∃ v, Carries kind (build D kind status body reason) v ∧ HasShape kind v ∧
    ((∀ b u, body = some b → D.fromSlice b = some u → ¬ HasBodyShape kind u) →
      v = template kind (status.getD StatusCode.badGateway)
        (message D body reason (status.getD StatusCode.badGateway)))

/-- The body is not passed through with an `error` member that is no object: either the interface
passes nothing through, or wherever the body's value would be passed through, its `error` member
is an object. -/
def ErrorMemberFits (D : Crates) (kind : EndpointKind) (body : Option Bytes) : Prop :=
  kind = .responses ∨
    ∀ b u e, body = some b → D.fromSlice b = some u →
      (kind = .anthropicMessages → u.get? "type".toList = some (.string "error".toList)) →
      u.get? "error".toList = some e → e.isObject = true

/-- What a body supplies has the documented shape, and so has the body, if its `error` member is
an object where that matters. -/
theorem hasShape_of_upstreamPayload {D : Crates} {kind : EndpointKind} {b : Bytes}
    {v : Json.Value} (h : upstreamPayload D kind b = some v)
    (hfits : ErrorMemberFits D kind (some b)) :
    HasShape kind v ∧ ∃ u, D.fromSlice b = some u ∧ HasBodyShape kind u := by
  cases kind with
  | responses =>
    obtain ⟨⟨code, msg, param⟩, hp, rfl⟩ := Option.map_eq_some_iff.1 h
    obtain ⟨u, e, hu, he, hcode, -, -⟩ := parseResponsesError_eq_some_iff.1 hp
    exact ⟨hasShape_responsesPayload code msg param, u, hu, e, he, isObject_of_get? hcode⟩
  | anthropicMessages =>
    obtain ⟨hv, ht, e, he⟩ := parseAnthropicError_eq_some_iff.1 h
    obtain hk | hfits := hfits
    · cases hk
    · have hobj : ErrorIsObject v := ⟨e, he, hfits b v e rfl hv (fun _ ↦ ht) he⟩
      exact ⟨⟨ht, hobj⟩, v, hv, ht, hobj⟩
  | chatCompletions =>
    obtain ⟨hv, e, he⟩ := parseTopLevelError_eq_some_iff.1 h
    obtain hk | hfits := hfits
    · cases hk
    · have hobj : ErrorIsObject v := ⟨e, he, hfits b v e rfl hv (by simp) he⟩
      exact ⟨hobj, v, hv, hobj⟩
  | geminiStream =>
    obtain ⟨hv, e, he⟩ := parseTopLevelError_eq_some_iff.1 h
    obtain hk | hfits := hfits
    · cases hk
    · have hobj : ErrorIsObject v := ⟨e, he, hfits b v e rfl hv (by simp) he⟩
      exact ⟨hobj, v, hv, hobj⟩

/-- A shape other than that of Responses demands an object under `error`. -/
theorem errorIsObject_of_hasShape {kind : EndpointKind} {v : Json.Value} (h : HasShape kind v)
    (hk : kind ≠ .responses) : ErrorIsObject v := by
  cases kind with
  | chatCompletions => exact h
  | responses => exact absurd rfl hk
  | anthropicMessages => exact h.2
  | geminiStream => exact h

/-- The value of a body with an `error` member is passed through, for every interface that passes
values through. -/
theorem upstreamPayload_of_error {D : Crates} {kind : EndpointKind} {b : Bytes}
    {u e : Json.Value} (hk : kind ≠ .responses) (hu : D.fromSlice b = some u)
    (ht : kind = .anthropicMessages → u.get? "type".toList = some (.string "error".toList))
    (he : u.get? "error".toList = some e) : upstreamPayload D kind b = some u := by
  cases kind with
  | chatCompletions => exact parseTopLevelError_eq_some_iff.2 ⟨hu, e, he⟩
  | responses => exact absurd rfl hk
  | anthropicMessages => exact parseAnthropicError_eq_some_iff.2 ⟨hu, ht rfl, e, he⟩
  | geminiStream => exact parseTopLevelError_eq_some_iff.2 ⟨hu, e, he⟩

/-- **An error event is recognisable exactly if the `error` member that it passes through is an
object.** -/
theorem build_recognisable_iff {D : Crates} (hD : D.SerdeJson) (kind : EndpointKind)
    (status : Option StatusCode) (body : Option Bytes) (reason : Option Str) :
    Recognisable D kind status body reason ↔ ErrorMemberFits D kind body := by
  have hcarries := build_carries hD kind status body reason
  constructor
  · rintro ⟨v, hv, hshape, -⟩
    by_cases hk : kind = .responses
    · exact .inl hk
    · refine .inr fun b u e hb hu ht he ↦ ?_
      subst hb
      have hne : b ≠ [] := by
        rintro rfl
        simp [hD.fromSlice_nil] at hu
      -- the whole value is passed through, so its shape is the payload's
      obtain rfl : v = u := (hv.unique hcarries).trans
        (payload_of_upstreamPayload hne (upstreamPayload_of_error hk hu ht he) _ _)
      obtain ⟨e', he', hobj⟩ := errorIsObject_of_hasShape hshape hk
      rwa [Option.some.inj (he.symm.trans he')]
  · intro hfits
    refine ⟨_, hcarries, ?_⟩
    unfold payload
    cases hup : (body.filter (· ≠ [])).bind (upstreamPayload D kind) with
    | none => exact ⟨hasShape_template kind _ _, fun _ ↦ rfl⟩
    | some v =>
      obtain ⟨b, hb, hv⟩ := Option.bind_eq_some_iff.1 hup
      have hbody : body = some b := (Option.filter_eq_some_iff.1 hb).1
      subst hbody
      obtain ⟨hshape, u, hu, hbshape⟩ := hasShape_of_upstreamPayload hv hfits
      exact ⟨hshape, fun hnone ↦ absurd hbshape (hnone b u rfl hu)⟩

/-- A failed connection is announced in a recognisable way. -/
theorem build_recognisable_refused :
    Recognisable .reference .anthropicMessages none none (some "refused".toList) :=
  (build_recognisable_iff Crates.serdeJson_reference .anthropicMessages none none
    (some "refused".toList)).2 (.inr fun b u e hb ↦ by cases hb)

/-- A body whose `error` member is `null` is passed through, and its event is not recognisable. -/
theorem build_null_error :
    Carries .chatCompletions
        (build .reference .chatCompletions (some ⟨500, by decide, by decide⟩)
          (some (utf8 "\x7b\x22error\x22:null\x7d".toList)) none)
        (.object [("error".toList, .null)]) ∧
      ¬ Recognisable .reference .chatCompletions (some ⟨500, by decide, by decide⟩)
        (some (utf8 "\x7b\x22error\x22:null\x7d".toList)) none := by
  have hb : utf8 "\x7b\x22error\x22:null\x7d".toList ≠ [] := by decide
  have hfrom : Crates.reference.fromSlice (utf8 "\x7b\x22error\x22:null\x7d".toList) =
      some (.object [("error".toList, .null)]) := Crates.reference_fromSlice rfl
  have hup : upstreamPayload .reference .chatCompletions
      (utf8 "\x7b\x22error\x22:null\x7d".toList) =
        some (.object [("error".toList, .null)]) :=
    parseTopLevelError_eq_some_iff.2 ⟨hfrom, .null, rfl⟩
  have hcarries := build_carries Crates.serdeJson_reference .chatCompletions
    (some ⟨500, by decide, by decide⟩)
    (some (utf8 "\x7b\x22error\x22:null\x7d".toList)) none
  rw [payload_of_upstreamPayload hb hup] at hcarries
  refine ⟨hcarries, ?_⟩
  rintro ⟨v, hv, ⟨e, he, hobj⟩, -⟩
  obtain rfl := hv.unique hcarries
  obtain rfl : Json.Value.null = e := Option.some.inj he
  cases hobj

/-! ### Responses errors keep the upstream message -/

/-- A body whose value has an `error` member `e` with the string message `m`. -/
def HasErrorMessage (D : Crates) (b : Bytes) (e : Json.Value) (m : Str) : Prop :=
  ∃ v, D.fromSlice b = some v ∧ v.get? "error".toList = some e ∧
    e.get? "message".toList = some (.string m)

/-- The code of an `error` member, or the one of the status if it has none that is a string. -/
def codeOr (status : StatusCode) (e : Json.Value) : Str :=
  match e.get? "code".toList with
  | some (.string c) => c
  | _ => responsesCode status

/-- The Responses event keeps the message and the parameter of an `error` member, and its code if
that is a string. The body was taken apart, so its text, which would be the message otherwise, is
not used. -/
def KeepsMessage (D : Crates) (status : StatusCode) (b : Bytes) (e : Json.Value) (m : Str) :
    Prop :=
  (parseResponsesError D b).isSome = true ∧
    ∃ v, Carries .responses (build D .responses (some status) (some b) none) v ∧
      v.get? "message".toList = some (.string m) ∧
      v.get? "param".toList = some ((e.get? "param".toList).getD .null) ∧
      v.get? "code".toList = some (.string (codeOr status e))

/-- A body whose code is no string is not taken apart. -/
theorem not_supplies_of_code {D : Crates} {b : Bytes} {e : Json.Value} {m : Str}
    (hb : HasErrorMessage D b e m) (hcode : ¬∃ c, e.get? "code".toList = some (.string c))
    (v : Json.Value) : ¬Supplies D .responses b v := by
  obtain ⟨u, hu, he, -⟩ := hb
  rintro ⟨u', e', code, msg, hu', he', hc, -, -⟩
  obtain rfl := Option.some.inj (hu.symm.trans hu')
  obtain rfl := Option.some.inj (he.symm.trans he')
  exact hcode ⟨code, hc⟩

/-- **A Responses event keeps the upstream message exactly if the upstream code is a string.** For a
code that is `null`, a number or absent the event is the template, and its message is the text of
the whole body. -/
theorem build_responses_keepsMessage_iff {D : Crates} (hD : D.SerdeJson) (status : StatusCode)
    {b : Bytes} {e : Json.Value} {m : Str} (hb : HasErrorMessage D b e m) :
    (KeepsMessage D status b e m ↔ ∃ c, e.get? "code".toList = some (.string c)) ∧
      ((¬∃ c, e.get? "code".toList = some (.string c)) →
        Carries .responses (build D .responses (some status) (some b) none)
            (responsesPayload (responsesCode status) (message D (some b) none status) .null) ∧
          ∀ s, utf8 s = b → trim s ≠ [] → message D (some b) none status =
            if byteLen (trim s) ≤ maxMsg then trim s else truncated (trim s)) := by
  have hcarries := build_carries hD .responses (some status) (some b) none
  refine ⟨⟨?_, ?_⟩, fun hcode ↦ ⟨?_, ?_⟩⟩
  · rintro ⟨hsome, -⟩
    by_contra hcode
    obtain ⟨⟨code, msg, param⟩, hp⟩ := Option.isSome_iff_exists.1 hsome
    refine not_supplies_of_code hb hcode (responsesPayload code msg param) ?_
    rw [← upstreamPayload_eq_some_iff, upstreamPayload, hp]
    rfl
  · rintro ⟨c, hc⟩
    obtain ⟨v, hv, he, hm⟩ := hb
    have hp := parseResponsesError_eq_some_iff.2 ⟨v, e, hv, he, hc, hm, rfl⟩
    have hne : b ≠ [] := by
      rintro rfl
      simp [hD.fromSlice_nil] at hv
    have hup : upstreamPayload D .responses b =
        some (responsesPayload c m ((e.get? "param".toList).getD .null)) := by
      rw [upstreamPayload, hp]
      rfl
    rw [payload_of_upstreamPayload hne hup] at hcarries
    have hcode : codeOr status e = c := by rw [codeOr, hc]
    exact ⟨by rw [hp]; rfl, _, hcarries, responsesPayload_message c m _,
      responsesPayload_param c m _, by rw [hcode, responsesPayload_code]⟩
  · have hbind : ((some b).filter (· ≠ [])).bind (upstreamPayload D .responses) = none := by
      refine Option.bind_eq_none_iff.2 fun b' hb' ↦ ?_
      refine Option.eq_none_iff_forall_ne_some.2 fun v hv ↦ ?_
      obtain rfl := Option.some.inj (Option.filter_eq_some_iff.1 hb').1
      exact not_supplies_of_code hb hcode v (upstreamPayload_eq_some_iff.1 hv)
    rwa [payload, hbind] at hcarries
  · rintro s rfl hne
    exact message_of_utf8 D hne status

/-- The text of a body with a given `error` member. -/
def errorText (e : Json.Value) : Str :=
  Json.print (.object [("error".toList, e)])

/-- An upstream error with a given code and the message `slow down`. -/
def slowDown (code : Json.Value) : Json.Value :=
  .object [("code".toList, code), ("message".toList, .string "slow down".toList)]

theorem hasErrorMessage_slowDown (code : Json.Value) :
    HasErrorMessage .reference (utf8 (errorText (slowDown code))) (slowDown code)
      "slow down".toList :=
  ⟨_, Crates.reference_fromSlice rfl, rfl, rfl⟩

/-- A body with a string code keeps its message. -/
theorem build_responses_string_code :
    KeepsMessage .reference StatusCode.tooManyRequests
      (utf8 (errorText (slowDown (.string "quota".toList)))) (slowDown (.string "quota".toList))
      "slow down".toList :=
  (build_responses_keepsMessage_iff Crates.serdeJson_reference StatusCode.tooManyRequests
    (hasErrorMessage_slowDown _)).1.2 ⟨"quota".toList, rfl⟩

/-- A body with a null code loses its message: the message of the event is the body's own text. -/
theorem build_responses_null_code :
    HasErrorMessage .reference (utf8 (errorText (slowDown .null))) (slowDown .null)
        "slow down".toList ∧
      Carries .responses
        (build .reference .responses (some StatusCode.tooManyRequests)
          (some (utf8 (errorText (slowDown .null)))) none)
        (responsesPayload "rate_limit_exceeded".toList (errorText (slowDown .null)) .null) ∧
      ¬ KeepsMessage .reference StatusCode.tooManyRequests
        (utf8 (errorText (slowDown .null))) (slowDown .null) "slow down".toList := by
  have hnone : parseResponsesError .reference (utf8 (errorText (slowDown .null))) = none := by
    have hfrom : Crates.reference.fromSlice (utf8 (errorText (slowDown .null))) = some _ :=
      Crates.reference_fromSlice rfl
    rw [parseResponsesError, hfrom]
    rfl
  have htrim : trim (errorText (slowDown .null)) = errorText (slowDown .null) := by
    decide +kernel
  have hmsg : message .reference (some (utf8 (errorText (slowDown .null)))) none
      StatusCode.tooManyRequests = trim (errorText (slowDown .null)) :=
    message_of_text .reference (by decide +kernel) (by decide +kernel) _
  rw [htrim] at hmsg
  refine ⟨hasErrorMessage_slowDown .null, ?_, fun h ↦ ?_⟩
  · have hcarries := build_carries Crates.serdeJson_reference .responses
      (some StatusCode.tooManyRequests) (some (utf8 (errorText (slowDown .null)))) none
    have hbind : ((some (utf8 (errorText (slowDown .null)))).filter (· ≠ [])).bind
        (upstreamPayload .reference .responses) = none := by
      refine Option.bind_eq_none_iff.2 fun b hb ↦ ?_
      obtain rfl := Option.some.inj (Option.filter_eq_some_iff.1 hb).1
      rw [upstreamPayload, hnone]
      rfl
    rwa [payload, hbind, Option.getD_none, Option.getD_some, hmsg] at hcarries
  · have hsome := h.1
    rw [hnone] at hsome
    cases hsome

end KeepSse.ErrorEvent
