import KeepSse.Detect
import KeepSse.Encoding
import KeepSse.Json.Raw

/-!
# What the probe accepts

The probe for the `stream` flag is a derived `Deserialize`, run on a JSON text. It should accept the
objects that have the member `stream` once, with the value `true` (`AsksForStream`). It accepts
more, in two ways, and the main result names both (`probeStreamFlag_iff`):

* a derived type can be written as an array of its fields as well, and the text `[true]` is
  accepted;
* the values of the other members are skipped, and a skipped string is not decoded. So bytes are
  accepted that are no JSON text for the inside of a string only: it is not UTF-8, or it names half
  of a surrogate pair.

## What it rests on

The reader of the text is a dependency. What is relied on is that it walks the raw texts of
`Json.Raw`, with the names of the top-level members decoded (`IsAccess`), and only at the text in
question; that the two grammars differ in no more than the strings that are skipped is proved there.
The derived reader itself is read off its two visitors (`Probe.deserialize_eq_true_iff`).
-/

namespace KeepSse

open Text

/-- Some bytes are a JSON text of a value. -/
def IsDocument (b : Bytes) (v : Json.Value) : Prop :=
  ∃ s, utf8 s = b ∧ Json.IsText s v

theorem isDocument_iff {b : Bytes} {v : Json.Value} :
    IsDocument b v ↔ (fromUtf8 b).bind Json.parse = some v := by
  simp only [IsDocument, Option.bind_eq_some_iff, fromUtf8_eq_some_iff, Json.parse_eq_some_iff]

theorem IsDocument.unique {b : Bytes} {v v' : Json.Value} (h : IsDocument b v)
    (h' : IsDocument b v') : v = v' :=
  Option.some_inj.1 ((isDocument_iff.1 h).symm.trans (isDocument_iff.1 h'))

/-! ### What is walked -/

/-- What a derived reader is given of some bytes: the members of a raw object, their names decoded,
or the elements of an array of booleans. -/
def IsAccess (b : Bytes) : Access → Prop
  | .map ms => Json.Padded (Json.Bracketed '{' '}'
      (Json.MemberText Json.Decodes (Json.ValueText Json.RawText))) (latin1 b) ms
  | .seq bs => Json.Padded (Json.Bracketed '[' ']'
      (Json.Spaced (Json.ValueText Json.RawText))) (latin1 b) (bs.map .bool)


theorem mapM_asBool_eq_some_iff {vs : List Json.Value} {bs : List Bool} :
    vs.mapM Json.Value.asBool = some bs ↔ vs = bs.map .bool := by
  induction vs generalizing bs with
  | nil => cases bs <;> simp
  | cons v vs ih =>
    have hcons : (v :: vs).mapM Json.Value.asBool =
        v.asBool.bind fun b ↦ (vs.mapM Json.Value.asBool).bind fun bs ↦ some (b :: bs) := by
      rw [List.mapM_cons]
      rfl
    simp only [hcons, Option.bind_eq_some_iff, ih, Option.some_inj]
    constructor
    · rintro ⟨b, hb, bs, rfl, rfl⟩
      cases v with
      | bool b' => rw [Option.some_inj.1 hb, List.map_cons]
      | _ => cases hb
    · intro h
      cases bs with
      | nil => cases h
      | cons b bs =>
        obtain ⟨rfl, rfl⟩ := List.cons.inj h
        exact ⟨b, rfl, bs, rfl, rfl⟩

theorem deserializeStruct_eq_map_iff {b : Bytes} {ms : List (Str × Json.Value)} :
    Reference.deserializeStruct b = some (.map ms) ↔
      ∃ u r, Json.skipSpace (latin1 b) = '{' :: u ∧ Json.bracketed (Json.member Json.decodedString
        (Json.value Json.rawString ((latin1 b).length + 1))) '}' u = some (ms, r) ∧
        Json.skipSpace r = [] := by
  simp only [Reference.deserializeStruct]
  split
  · next u hskip => simp [hskip, Option.bind_eq_some_iff]
  · next u hskip => simp [hskip, Option.bind_eq_some_iff]
  · next h _ =>
    simp only [reduceCtorEq, false_iff]
    rintro ⟨u, r, hskip, -⟩
    exact h u hskip

theorem deserializeStruct_eq_seq_iff {b : Bytes} {bs : List Bool} :
    Reference.deserializeStruct b = some (.seq bs) ↔
      ∃ u r, Json.skipSpace (latin1 b) = '[' :: u ∧
        Json.bracketed (Json.value Json.rawString ((latin1 b).length + 1)) ']' u =
          some (bs.map .bool, r) ∧ Json.skipSpace r = [] := by
  simp only [Reference.deserializeStruct]
  split
  · next u hskip => simp [hskip, Option.bind_eq_some_iff]
  · next u hskip => simp [hskip, Option.bind_eq_some_iff, mapM_asBool_eq_some_iff]
  · next _ h =>
    simp only [reduceCtorEq, false_iff]
    rintro ⟨u, r, hskip, -⟩
    exact h u hskip

/-- **The reference crates give what is walked.** -/
theorem deserializeStruct_reference (b : Bytes) (a : Access) :
    Crates.reference.deserializeStruct b = some a ↔ IsAccess b a := by
  have hsound (n : ℕ) : ∀ s v r, Json.value Json.rawString n s = some (v, r) →
      ∃ t, s = t ++ r ∧ Json.Spaced (Json.ValueText Json.RawText) t v :=
    fun _ _ _ h ↦ Json.valueText_of_value Json.rawString_eq_some_iff h
  have hcomplete (n : ℕ) : ∀ t v r, t.length < n →
      Json.Spaced (Json.ValueText Json.RawText) t v → Json.EndsNumber r →
      Json.value Json.rawString n (t ++ r) = some (v, r) :=
    fun _ _ _ hlt h hr ↦ Json.value_of_spaced Json.rawString_eq_some_iff h hlt hr
  cases a with
  | map ms =>
    refine deserializeStruct_eq_map_iff.trans (Json.padded_bracketed_iff (by decide) (by decide)
      (by decide) (by decide) (fun _ _ hm ↦ hm.exists_skipSpace) ?_ ?_).symm
    · exact fun _ _ _ ↦ Json.memberText_of_member Json.decodedString_eq_some_iff (hsound _)
    · exact fun _ _ _ hlt hm hr ↦
        Json.member_of_memberText Json.decodedString_eq_some_iff (hcomplete _) hm hlt hr
  | seq bs =>
    exact deserializeStruct_eq_seq_iff.trans (Json.padded_bracketed_iff (by decide) (by decide)
      (by decide) (by decide) (fun _ _ hv ↦ Json.ValueText.exists_skipSpace hv) (hsound _)
      (hcomplete _)).symm

theorem IsAccess.unique {b : Bytes} {a a' : Access} (h : IsAccess b a) (h' : IsAccess b a') :
    a = a' :=
  Option.some_inj.1 (((deserializeStruct_reference b a).2 h).symm.trans
    ((deserializeStruct_reference b a').2 h'))

/-- **What is walked of an object** are its members, with the values not decoded. -/
theorem IsDocument.exists_isAccess {b : Bytes} {ms' : List (Str × Json.Value)}
    (h : IsDocument b (.object ms')) :
    ∃ ms, IsAccess b (.map ms) ∧ List.Forall₂ (Json.Matches Eq Json.Decoded) ms ms' := by
  obtain ⟨s, rfl, htext⟩ := h
  exact Json.exists_raw_of_object htext

/-- **And what is walked is an object** if the values of the members can be decoded. -/
theorem IsAccess.exists_isDocument {b : Bytes} {ms : List (Str × Json.Value)}
    (h : IsAccess b (.map ms)) (hms : ∀ m ∈ ms, Json.Decodable m.2) :
    ∃ ms', IsDocument b (.object ms') ∧ List.Forall₂ (Json.Matches Eq Json.Decoded) ms ms' := by
  obtain ⟨s, ms', hs, htext, hdecoded⟩ := Json.exists_object_of_raw h hms
  exact ⟨ms', ⟨s, latin1_injective hs, htext⟩, hdecoded⟩

/-- Booleans are no strings: an array of them is walked as it is. -/
theorem isAccess_true_iff {b : Bytes} :
    IsAccess b (.seq [true]) ↔ IsDocument b (.array [.bool true]) := by
  constructor
  · intro h
    have hdecodable : Json.Decodable (.array [.bool true]) :=
      ⟨_, .array (.cons (.bool true) .nil)⟩
    obtain ⟨s, vs, hs, htext, hdecoded⟩ := Json.exists_array_of_raw h hdecodable
    obtain ⟨v, vs, hv, hvs, rfl⟩ := List.forall₂_cons_left_iff.1 hdecoded
    obtain rfl := Json.decoded_bool_iff.1 hv
    obtain rfl := List.forall₂_nil_left_iff.1 hvs
    exact ⟨s, latin1_injective hs, htext⟩
  · rintro ⟨s, rfl, htext⟩
    obtain ⟨us, haccess, hdecoded⟩ := Json.exists_raw_of_array htext
    obtain ⟨u, us, hu, hus, rfl⟩ := List.forall₂_cons_right_iff.1 hdecoded
    obtain rfl := Json.decoded_to_bool_iff.1 hu
    obtain rfl := List.forall₂_nil_right_iff.1 hus
    exact haccess

/-! ### The derived reader -/

namespace Probe

/-- The members that the probe looks at. -/
def streams (ms : List (Str × Json.Value)) : List (Str × Json.Value) :=
  ms.filter fun m ↦ m.1 = "stream".toList

variable {k : Str} {v : Json.Value} {ms ms' : List (Str × Json.Value)}

theorem streams_cons_of_eq (h : k = "stream".toList) :
    streams ((k, v) :: ms) = (k, v) :: streams ms :=
  List.filter_cons_of_pos (decide_eq_true h)

theorem streams_cons_of_ne (h : k ≠ "stream".toList) : streams ((k, v) :: ms) = streams ms :=
  List.filter_cons_of_neg (by simpa only [decide_eq_true_eq] using h)

/-- Members that match are looked at together. -/
theorem forall₂_streams (h : List.Forall₂ (Json.Matches Eq Json.Decoded) ms ms') :
    List.Forall₂ (Json.Matches Eq Json.Decoded) (streams ms) (streams ms') := by
  induction h with
  | nil => exact .nil
  | cons hm h ih =>
    obtain @⟨k, _, u, v, rfl, hv⟩ := hm
    by_cases hk : k = "stream".toList
    · rw [streams_cons_of_eq hk, streams_cons_of_eq hk]
      exact .cons (.mk rfl hv) ih
    · rw [streams_cons_of_ne hk, streams_cons_of_ne hk]
      exact ih

/-- A boolean is the same decoded or not, and so is what the probe asks for. -/
theorem streams_eq_true_iff (h : List.Forall₂ (Json.Matches Eq Json.Decoded) ms ms') :
    streams ms = [("stream".toList, .bool true)] ↔
      streams ms' = [("stream".toList, .bool true)] := by
  have hstreams := forall₂_streams h
  constructor
  · intro hms
    rw [hms] at hstreams
    obtain ⟨m, l, hm, hl, heq⟩ := List.forall₂_cons_left_iff.1 hstreams
    obtain ⟨rfl, hv⟩ := hm
    rw [heq, Json.decoded_bool_iff.1 hv, List.forall₂_nil_left_iff.1 hl]
  · intro hms'
    rw [hms'] at hstreams
    obtain ⟨m, l, hm, hl, heq⟩ := List.forall₂_cons_right_iff.1 hstreams
    obtain ⟨rfl, hv⟩ := hm
    rw [heq, Json.decoded_to_bool_iff.1 hv, List.forall₂_nil_right_iff.1 hl]

theorem visitMap_cons (stream : Option Bool) :
    visitMap stream ((k, v) :: ms) =
      if k = "stream".toList then
        match stream, v with
        | none, .bool b => visitMap (some b) ms
        | _, _ => none
      else visitMap stream ms := rfl

/-- Once the flag was met it must not be met again. -/
theorem visitMap_some_eq_some_iff {b : Bool} {p : Probe} :
    visitMap (some b) ms = some p ↔ p = ⟨b⟩ ∧ streams ms = [] := by
  induction ms with
  | nil => simp [visitMap, streams, eq_comm]
  | cons m ms ih =>
    rcases m with ⟨k, v⟩
    by_cases hk : k = "stream".toList
    · rw [visitMap_cons, if_pos hk, streams_cons_of_eq hk]
      simp
    · rw [visitMap_cons, if_neg hk, streams_cons_of_ne hk, ih]

/-- **An object is accepted if it has the member once, and it is `true`.** -/
theorem visitMap_none_eq_true_iff :
    visitMap none ms = some ⟨true⟩ ↔ streams ms = [("stream".toList, .bool true)] := by
  induction ms with
  | nil => simp [visitMap, streams]
  | cons m ms ih =>
    rcases m with ⟨k, v⟩
    by_cases hk : k = "stream".toList
    · rw [visitMap_cons, if_pos hk, streams_cons_of_eq hk, hk, List.cons_eq_cons]
      cases v with
      | bool b =>
        simp only [visitMap_some_eq_some_iff]
        cases b <;> simp
      | _ => simp
    · rw [visitMap_cons, if_neg hk, streams_cons_of_ne hk, ih]

/-- An array is accepted if it is `[true]`. -/
theorem visitSeq_eq_true_iff {bs : List Bool} : visitSeq bs = some ⟨true⟩ ↔ bs = [true] := by
  match bs with
  | [] => simp [visitSeq]
  | [b] => simp [visitSeq]
  | _ :: _ :: _ => simp [visitSeq]

/-- What the derived reader accepts. -/
theorem deserialize_eq_true_iff {a : Access} : deserialize a = some ⟨true⟩ ↔
    (∃ ms, a = .map ms ∧ streams ms = [("stream".toList, .bool true)]) ∨ a = .seq [true] := by
  cases a with
  | map ms => simp [deserialize, visitMap_none_eq_true_iff]
  | seq bs => simp [deserialize, visitSeq_eq_true_iff]

end Probe

/-! ### The flag -/

theorem probeStreamFlag_eq_true_iff {D : Crates} {b : Bytes} : probeStreamFlag D b = true ↔
    ∃ a, D.deserializeStruct b = some a ∧ Probe.deserialize a = some ⟨true⟩ := by
  rw [probeStreamFlag]
  simp only [← Option.bind_eq_some_iff]
  cases (D.deserializeStruct b).bind Probe.deserialize with
  | none => simp
  | some p =>
    rcases p with ⟨stream⟩
    simp

/-- The text is one object, which has the member `stream` once, with the value `true`. -/
def AsksForStream (b : Bytes) : Prop :=
  ∃ ms, IsDocument b (.object ms) ∧ Probe.streams ms = [("stream".toList, .bool true)]

/-- To ask for a stream is to be walked to the flag, with nothing in the skipped values that could
not be decoded. -/
theorem asksForStream_iff {b : Bytes} : AsksForStream b ↔
    ∃ ms, IsAccess b (.map ms) ∧ Probe.streams ms = [("stream".toList, .bool true)] ∧
      ∀ m ∈ ms, Json.Decodable m.2 := by
  constructor
  · rintro ⟨ms', hdocument, hstream⟩
    obtain ⟨ms, haccess, hdecoded⟩ := hdocument.exists_isAccess
    refine ⟨ms, haccess, (Probe.streams_eq_true_iff hdecoded).2 hstream, fun m hm ↦ ?_⟩
    obtain ⟨_, -, hv⟩ := Json.exists_of_forall₂ hdecoded m hm
    exact ⟨_, hv⟩
  · rintro ⟨ms, haccess, hstream, hms⟩
    obtain ⟨ms', hdocument, hdecoded⟩ := haccess.exists_isDocument hms
    exact ⟨ms', hdocument, (Probe.streams_eq_true_iff hdecoded).1 hstream⟩

/-- **The probe accepts what it should, except for two kinds of bodies**: the array `[true]`, and
the objects with the flag and a string that is skipped and could not be decoded. -/
theorem probeStreamFlag_iff {D : Crates} {b : Bytes}
    (h : ∀ a, D.deserializeStruct b = some a ↔ IsAccess b a) :
    (probeStreamFlag D b = true ↔ AsksForStream b) ↔
      ¬IsDocument b (.array [.bool true]) ∧
        ∀ ms, IsAccess b (.map ms) → Probe.streams ms = [("stream".toList, .bool true)] →
          ∀ m ∈ ms, Json.Decodable m.2 := by
  have hflag : probeStreamFlag D b = true ↔
      (∃ ms, IsAccess b (.map ms) ∧ Probe.streams ms = [("stream".toList, .bool true)]) ∨
        IsDocument b (.array [.bool true]) := by
    rw [probeStreamFlag_eq_true_iff, ← isAccess_true_iff]
    simp only [h, Probe.deserialize_eq_true_iff]
    constructor
    · rintro ⟨a, ha, ⟨ms, rfl, hms⟩ | rfl⟩
      · exact .inl ⟨ms, ha, hms⟩
      · exact .inr ha
    · rintro (⟨ms, ha, hms⟩ | ha)
      · exact ⟨_, ha, .inl ⟨ms, rfl, hms⟩⟩
      · exact ⟨_, ha, .inr rfl⟩
  constructor
  · intro hiff
    constructor
    · -- an array is no object
      intro harray
      obtain ⟨ms, hobject, -⟩ := hiff.1 (hflag.2 (.inr harray))
      cases harray.unique hobject
    · intro ms haccess hstream
      have hasks : AsksForStream b := hiff.1 (hflag.2 (.inl ⟨ms, haccess, hstream⟩))
      obtain ⟨ms', haccess', -, hdecodable⟩ := asksForStream_iff.1 hasks
      cases haccess.unique haccess'
      exact hdecodable
  · rintro ⟨harray, hdecodable⟩
    rw [hflag, or_iff_left harray, asksForStream_iff]
    constructor
    · exact fun ⟨ms, haccess, hstream⟩ ↦ ⟨ms, haccess, hstream, hdecodable ms haccess hstream⟩
    · exact fun ⟨ms, haccess, hstream, _⟩ ↦ ⟨ms, haccess, hstream⟩

/-- The body that asks for a stream is accepted as it should be. -/
theorem probeStreamFlag_streamBody :
    probeStreamFlag .reference streamBody = true ↔ AsksForStream streamBody := by
  have hwalked : IsAccess streamBody (.map [("stream".toList, .bool true)]) :=
    (deserializeStruct_reference _ _).1 rfl
  refine (probeStreamFlag_iff (deserializeStruct_reference streamBody)).2 ⟨?_, ?_⟩
  · intro harray
    cases hwalked.unique (isAccess_true_iff.2 harray)
  · intro ms haccess _ m hm
    cases hwalked.unique haccess
    cases List.mem_singleton.1 hm
    exact ⟨_, .bool true⟩

/-- A body with the flag and one more member, with the given inside of a string. -/
def bodyWith (inside : Bytes) : Bytes :=
  utf8 "\x7b\"a\":\"".toList ++ inside ++ utf8 "\",\"stream\":true\x7d".toList

/-- The body `[true]` has no member at all, and is accepted. So are objects that are no JSON texts:
with a byte in a skipped string that is no UTF-8, and with half of a surrogate pair there. -/
theorem probeStreamFlag_array :
    (probeStreamFlag .reference (utf8 "[true]".toList) = true ∧
      ¬AsksForStream (utf8 "[true]".toList)) ∧
    (probeStreamFlag .reference (bodyWith [0xff]) = true ∧ ¬AsksForStream (bodyWith [0xff])) ∧
    (probeStreamFlag .reference (bodyWith (utf8 "\\ud800".toList)) = true ∧
      ¬AsksForStream (bodyWith (utf8 "\\ud800".toList))) := by
  have hnone {b : Bytes} (hb : (fromUtf8 b).bind Json.parse = none) : ¬AsksForStream b := by
    rintro ⟨ms, hobject, -⟩
    rw [isDocument_iff, hb] at hobject
    cases hobject
  refine ⟨⟨rfl, ?_⟩, ⟨rfl, hnone rfl⟩, rfl, hnone rfl⟩
  rintro ⟨ms, hobject, -⟩
  have harray : IsDocument (utf8 "[true]".toList) (.array [.bool true]) := isDocument_iff.2 rfl
  cases harray.unique hobject

end KeepSse
