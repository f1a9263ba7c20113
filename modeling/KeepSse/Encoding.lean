import KeepSse.Reference

/-!
# Content codings

Which coding a message names, and decoding with a bound on the size of the output.

A decoder is a byte reader. The bound is applied by reading one byte more than it allows: an output
that reaches that byte is too long, and an output that ends before it is whole. Decoding is exact in
this way (`ExactWithin`) except where the one byte more overflows (`decodeBytes_exactWithin_iff`).

## What it rests on

* What comes of a bounded read is a matter of the reader's whole output and its end
  (`readToEnd_eq`), so no proof looks at pieces again. This is the only induction.
* Away from the top of `usize` the bound is the limit and one more, and reading to it tells a full
  output from a cut one (`decodeAsync_eq`). At the top it wraps to nothing in a release build and
  panics in a debug build (`decodeAsync_of_eq_max`), and what a release build returns there is right
  by chance only, for a reader that is empty (`exactWithin_ok_nil_iff`).
* The identity coding compares lengths and adds nothing, so it is exact at every limit
  (`decodeBytes_identity_exactWithin`).

Of the decoders nothing is assumed: each is a reader with some output, in some pieces, and some end.
-/

namespace KeepSse

open Text Http

/-- A content coding. -/
inductive Coding where
  | identity
  | gzip
  | deflate
  | br
  | zstd
  deriving DecidableEq

/-- The coding of a token, in any case. -/
def Coding.parse (s : Str) : Option Coding :=
  if eqIgnoreAsciiCase s "identity".toList then some .identity
  else
    let t := toAsciiLower s
    if t = "gzip".toList ∨ t = "x-gzip".toList then some .gzip
    else if t = "deflate".toList then some .deflate
    else if t = "br".toList then some .br
    else if t = "zstd".toList then some .zstd
    else none

/-- The coding of a message: `identity` if it names none, and nothing if it names several or one
that is unknown. -/
def parseContentEncoding (headers : HeaderMap) : Option Coding :=
  match headers.getAll HeaderName.contentEncoding with
  | [] => some .identity
  | [first] => do
    let s ← first.toStr
    match listElements s with
    | [part] => Coding.parse part
    | _ => none
  | _ => none

/-! ### Reading to the end of a bounded reader -/

/-- `read_to_end` on a reader that is cut after `limit` bytes: at the cut the end is clean, and
what the reader would have yielded next is not asked for. -/
def readToEnd (failure : Option IoError) : ℕ → Bytes → List Bytes → Except IoError Bytes
  | 0, out, _ => .ok out
  | _ + 1, out, [] =>
    match failure with
    | none => .ok out
    | some e => .error e
  | limit + 1, out, p :: ps =>
    readToEnd failure (limit + 1 - p.length) (out ++ p.take (limit + 1)) ps

/-- The outcome of a bounded read is decided by the whole output and how it ends: an output that
reaches the cut is cut there, and a shorter one is read to its end. -/
theorem readToEnd_eq (failure : Option IoError) (limit : ℕ) (out : Bytes) (ps : List Bytes) :
    readToEnd failure limit out ps =
      if limit ≤ ps.flatten.length then .ok (out ++ ps.flatten.take limit)
      else match failure with
        | none => .ok (out ++ ps.flatten)
        | some e => .error e := by
  induction ps generalizing limit out with
  | nil =>
    cases limit with
    | zero => simp [readToEnd]
    | succ limit => cases failure <;> simp [readToEnd]
  | cons p ps ih =>
    cases limit with
    | zero => simp [readToEnd]
    | succ limit =>
      have hiff : limit + 1 - p.length ≤ ps.flatten.length ↔
          limit + 1 ≤ (p :: ps).flatten.length := by
        simp
        omega
      rw [readToEnd, ih]
      simp only [hiff]
      by_cases hle : limit + 1 ≤ (p :: ps).flatten.length
      · rw [if_pos hle, if_pos hle, List.flatten_cons, List.take_append, List.append_assoc]
      · have hp : p.length ≤ limit + 1 := by
          simp only [List.flatten_cons, List.length_append] at hle
          omega
        rw [if_neg hle, if_neg hle, List.take_of_length_le hp]
        cases failure <;> simp

/-! ### Decoding -/

/-- The error of an output that is over the limit. -/
def exceedsLimit (maxOut : UInt64) : IoError :=
  ⟨.invalidData, "decoded size exceeds limit ".toList ++ decimal maxOut.toNat⟩

/-- The error of an identity body that is over the limit. -/
def sizeExceedsLimit (size : ℕ) (maxOut : UInt64) : IoError :=
  ⟨.invalidData, "decoded size ".toList ++ decimal size ++ " exceeds limit ".toList ++
    decimal maxOut.toNat⟩

/-- Read a decoder to its end, at most `maxOut` bytes; `none` is a panic. -/
def decodeAsync (profile : Profile) (decoder : ByteReader) (maxOut : UInt64) :
    Option (Except IoError Bytes) := do
  -- one byte more than the limit: whoever gets that far is over it
  let limit ← profile.addU64 maxOut 1
  match readToEnd decoder.failure limit.toNat [] decoder.pieces with
  | .error e => some (.error e)
  | .ok out =>
    if maxOut.toNat < out.length then some (.error (exceedsLimit maxOut)) else some (.ok out)

/-- Decode a body in one go, to at most `maxOut` bytes; `none` is a panic. -/
def decodeBytes (profile : Profile) (D : Crates) (coding : Coding) (input : Bytes)
    (maxOut : UInt64) : Option (Except IoError Bytes) :=
  match coding with
  | .identity =>
    if maxOut.toNat < input.length then some (.error (sizeExceedsLimit input.length maxOut))
    else some (.ok input)
  | .gzip => decodeAsync profile (D.gzipDecoder input) maxOut
  | .deflate => decodeAsync profile (D.zlibDecoder input) maxOut
  | .br => decodeAsync profile (D.brotliDecoder input) maxOut
  | .zstd => decodeAsync profile (D.zstdDecoder input) maxOut

/-! ### What a bounded decoder owes -/

/-- The decoder of a body, as a reader. -/
def Coding.decoder (D : Crates) (coding : Coding) (input : Bytes) : ByteReader :=
  match coding with
  | .identity => ByteReader.ofBytes input
  | .gzip => D.gzipDecoder input
  | .deflate => D.zlibDecoder input
  | .br => D.brotliDecoder input
  | .zstd => D.zstdDecoder input

/-- A result is exact for a reader and a limit: it is the reader's whole output precisely when the
reader ends cleanly within the limit, it says so when the output is too long, and it is the
reader's error when that comes first. In particular no result is an output cut short. -/
structure ExactWithin (r : ByteReader) (maxOut : ℕ) (res : Option (Except IoError Bytes)) :
    Prop where
  ok : ∀ out, res = some (.ok out) ↔
    r.failure = none ∧ r.output.length ≤ maxOut ∧ out = r.output
  too_long : maxOut < r.output.length → ∃ e, res = some (.error e) ∧ e.kind = .invalidData
  failed : ∀ e, r.failure = some e → r.output.length ≤ maxOut → res = some (.error e)

/-- A panic is exact for no reader. -/
theorem not_exactWithin_none (r : ByteReader) (maxOut : ℕ) : ¬ ExactWithin r maxOut none := by
  intro h
  rcases Nat.lt_or_ge maxOut r.output.length with hlt | hle
  · obtain ⟨e, he, -⟩ := h.too_long hlt
    cases he
  · cases hf : r.failure with
    | none => cases (h.ok r.output).2 ⟨hf, hle, rfl⟩
    | some e => cases h.failed e hf hle

/-- The empty output is exact for the readers that are empty and end cleanly. -/
theorem exactWithin_ok_nil_iff {r : ByteReader} {maxOut : ℕ} :
    ExactWithin r maxOut (some (.ok [])) ↔ r.output = [] ∧ r.failure = none := by
  constructor
  · intro h
    obtain ⟨hf, -, hout⟩ := (h.ok []).1 rfl
    exact ⟨hout.symm, hf⟩
  · rintro ⟨hout, hf⟩
    exact ⟨fun out ↦ by simp [hout, hf, eq_comm], fun h ↦ by simp [hout] at h,
      fun e he ↦ by simp [hf] at he⟩

/-- The exact result: too long an output is refused with some `InvalidData` error, and any other
reader is read to its end. -/
theorem exactWithin_whole (r : ByteReader) (maxOut : ℕ) {tooLong : IoError}
    (hkind : tooLong.kind = .invalidData) :
    ExactWithin r maxOut
      (if maxOut < r.output.length then some (.error tooLong)
      else match r.failure with
        | none => some (.ok r.output)
        | some e => some (.error e)) := by
  rcases Nat.lt_or_ge maxOut r.output.length with hlong | hfit
  · rw [if_pos hlong]
    exact ⟨fun out ↦ by simp [Nat.not_le.2 hlong], fun _ ↦ ⟨tooLong, rfl, hkind⟩,
      fun e _ hle ↦ absurd hle (Nat.not_le.2 hlong)⟩
  · rw [if_neg (Nat.not_lt.2 hfit)]
    cases hf : r.failure with
    | none =>
      exact ⟨fun out ↦ by simp [hf, hfit, eq_comm],
        fun hlong ↦ absurd hlong (Nat.not_lt.2 hfit), fun e he ↦ by simp [hf] at he⟩
    | some e =>
      refine ⟨fun out ↦ by simp [hf], fun hlong ↦ absurd hlong (Nat.not_lt.2 hfit), ?_⟩
      intro e' he _
      rw [Option.some.inj (hf.symm.trans he)]

/-- Away from the top of `usize` the bound is the limit and one more, and reading to it tells a
full output from a cut one. -/
theorem decodeAsync_eq (profile : Profile) (r : ByteReader) {maxOut : UInt64}
    (h : maxOut.toNat ≠ 2 ^ 64 - 1) :
    decodeAsync profile r maxOut =
      if maxOut.toNat < r.output.length then some (.error (exceedsLimit maxOut))
      else match r.failure with
        | none => some (.ok r.output)
        | some e => some (.error e) := by
  have hlt : maxOut.toNat + (1 : UInt64).toNat < 2 ^ 64 := by
    have := maxOut.toNat_lt
    simp only [UInt64.toNat_one]
    omega
  obtain ⟨limit, hlimit, hnat⟩ := profile.addU64_eq_some hlt
  simp only [UInt64.toNat_one] at hnat
  rw [decodeAsync, hlimit, Option.bind_eq_bind, Option.bind_some, readToEnd_eq, hnat,
    ← ByteReader.output]
  rcases Nat.lt_or_ge maxOut.toNat r.output.length with hlong | hfit
  · have htake : maxOut.toNat < (r.output.take (maxOut.toNat + 1)).length := by
      rw [List.length_take]
      omega
    rw [if_pos hlong, if_pos (Nat.succ_le_of_lt hlong)]
    exact if_pos htake
  · rw [if_neg (Nat.not_lt.2 hfit), if_neg (by omega)]
    cases r.failure with
    | none => exact if_neg (Nat.not_lt.2 hfit)
    | some e => rfl

/-- At the top of `usize` the bound overflows: to nothing at all in a release build, and to a panic
in a debug build. -/
theorem decodeAsync_of_eq_max (profile : Profile) (r : ByteReader) {maxOut : UInt64}
    (h : maxOut.toNat = 2 ^ 64 - 1) :
    decodeAsync profile r maxOut =
      match profile with
      | .release => some (.ok [])
      | .debug => none := by
  obtain rfl : maxOut = -1 := UInt64.toNat_inj.1 h
  cases profile with
  | release => simp [decodeAsync, Profile.addU64, readToEnd]
  | debug => rfl

/-- The identity coding compares lengths and reads nothing. -/
theorem decodeBytes_identity_exactWithin (profile : Profile) (D : Crates) (input : Bytes)
    (maxOut : UInt64) :
    ExactWithin (ByteReader.ofBytes input) maxOut.toNat
      (decodeBytes profile D .identity input maxOut) := by
  have hkind : (sizeExceedsLimit input.length maxOut).kind = .invalidData := rfl
  have h := exactWithin_whole (ByteReader.ofBytes input) maxOut.toNat hkind
  rwa [ByteReader.output_ofBytes] at h

/-- A coding other than the identity reads its decoder. -/
theorem decodeBytes_eq_decodeAsync (profile : Profile) (D : Crates) {coding : Coding}
    (h : coding ≠ .identity) (input : Bytes) (maxOut : UInt64) :
    decodeBytes profile D coding input maxOut =
      decodeAsync profile (coding.decoder D input) maxOut := by
  cases coding with
  | identity => exact absurd rfl h
  | gzip => rfl
  | deflate => rfl
  | br => rfl
  | zstd => rfl

/-- Decoding panics only in a debug build, and there only where the bound overflows. -/
theorem decodeBytes_isSome {profile : Profile} (D : Crates) (coding : Coding) (input : Bytes)
    {maxOut : UInt64} (h : profile = .release ∨ maxOut.toNat ≠ 2 ^ 64 - 1) :
    (decodeBytes profile D coding input maxOut).isSome = true := by
  by_cases hid : coding = .identity
  · subst hid
    unfold decodeBytes
    split_ifs
    · rfl
    · rfl
  · rw [decodeBytes_eq_decodeAsync profile D hid]
    by_cases hmax : maxOut.toNat = 2 ^ 64 - 1
    · obtain rfl := h.resolve_right (not_not_intro hmax)
      rw [decodeAsync_of_eq_max .release _ hmax]
      rfl
    · rw [decodeAsync_eq profile _ hmax]
      split_ifs
      · rfl
      · cases (coding.decoder D input).failure with
        | none => rfl
        | some e => rfl

/-- **Decoding is exact except where the bound overflows**, that is at the largest limit of all,
for a coding that is decoded. There a release build returns nothing, which is right only for a
decoder that yields nothing and ends cleanly. -/
theorem decodeBytes_exactWithin_iff (profile : Profile) (D : Crates) (coding : Coding)
    (input : Bytes) (maxOut : UInt64) :
    ExactWithin (coding.decoder D input) maxOut.toNat
        (decodeBytes profile D coding input maxOut) ↔
      coding = .identity ∨ maxOut.toNat ≠ 2 ^ 64 - 1 ∨
        (profile = .release ∧ (coding.decoder D input).output = [] ∧
          (coding.decoder D input).failure = none) := by
  by_cases hid : coding = .identity
  · subst hid
    exact ⟨fun _ ↦ .inl rfl, fun _ ↦ decodeBytes_identity_exactWithin profile D input maxOut⟩
  · rw [decodeBytes_eq_decodeAsync profile D hid]
    by_cases hmax : maxOut.toNat = 2 ^ 64 - 1
    · rw [decodeAsync_of_eq_max profile _ hmax]
      cases profile with
      | release => simp [exactWithin_ok_nil_iff, hid, hmax]
      | debug => simp [not_exactWithin_none, hid, hmax]
    · rw [decodeAsync_eq profile _ hmax]
      exact ⟨fun _ ↦ .inr (.inl hmax), fun _ ↦ exactWithin_whole _ _ rfl⟩

/-- A small JSON body. -/
def streamBody : Bytes :=
  utf8 "\x7b\x22stream\x22:true\x7d".toList

/-- The body, as gzip writes it. -/
def gzippedStreamBody : Bytes :=
  [31, 139, 8, 0, 0, 0, 0, 0, 2, 3, 171, 86, 42, 46, 41, 74, 77, 204, 85, 178, 42, 41, 42, 77,
    173, 5, 0, 52, 119, 214, 198, 15, 0, 0, 0]

/-- Crates whose gzip decoder knows the body. -/
def Crates.gunzip : Crates :=
  { Crates.reference with
    gzipDecoder := fun input ↦
      if input = gzippedStreamBody then ByteReader.ofBytes streamBody else Reference.invalidStream }

/-- The largest limit that a configuration can set. -/
def usizeMax : UInt64 := 18446744073709551615

/-- At the largest limit the body is decoded to nothing, or not at all. -/
theorem decodeBytes_largest_limit :
    decodeBytes .release .gunzip .gzip gzippedStreamBody usizeMax = some (.ok []) ∧
      decodeBytes .debug .gunzip .gzip gzippedStreamBody usizeMax = none ∧
      ∀ profile, ¬ ExactWithin (Coding.gzip.decoder .gunzip gzippedStreamBody) usizeMax.toNat
        (decodeBytes profile .gunzip .gzip gzippedStreamBody usizeMax) := by
  have hmax : usizeMax.toNat = 2 ^ 64 - 1 := by decide
  have hrelease : decodeBytes .release .gunzip .gzip gzippedStreamBody usizeMax =
      some (.ok []) := decodeAsync_of_eq_max .release _ hmax
  have hdebug : decodeBytes .debug .gunzip .gzip gzippedStreamBody usizeMax = none :=
    decodeAsync_of_eq_max .debug _ hmax
  have hreader : Coding.gzip.decoder .gunzip gzippedStreamBody = ByteReader.ofBytes streamBody := by
    simp [Coding.decoder, Crates.gunzip]
  refine ⟨hrelease, hdebug, fun profile ↦ ?_⟩
  cases profile with
  | release =>
    rw [hrelease, exactWithin_ok_nil_iff, hreader, ByteReader.output_ofBytes]
    exact fun h ↦ absurd h.1 (by decide)
  | debug =>
    rw [hdebug]
    exact not_exactWithin_none _ _

end KeepSse
