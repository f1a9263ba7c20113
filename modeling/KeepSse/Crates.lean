import KeepSse.Http
import KeepSse.Json.Basic

/-!
# What the gateway takes from its dependencies

The gateway calls code that is not its own: serde_json, the decompressors, the URI parser, the
reason phrases of hyper, tokio's clock. That code enters as data, a `Crates`, and everything else
in this development is a function of it. A result that relies on how one of these functions
behaves says so in a hypothesis about that function; most rely on none.

Also here are the types that such a function takes or returns: points in time, with the range
that the standard library gives them, and byte readers.
-/

namespace KeepSse

open Text Http

/-! ### Arithmetic of the compiled code -/

/-- How the code was compiled: an integer overflow wraps in a release build and panics in a debug
build. -/
inductive Profile where
  | release
  | debug
  deriving DecidableEq

/-- `a + b` on `u64`; `none` is a panic. -/
def Profile.addU64 (p : Profile) (a b : UInt64) : Option UInt64 :=
  match p with
  | .release => some (a + b)
  | .debug => if a.toNat + b.toNat < 2 ^ 64 then some (a + b) else none

/-- Without an overflow both builds compute the sum. -/
theorem Profile.addU64_eq_some {a b : UInt64} (h : a.toNat + b.toNat < 2 ^ 64) (p : Profile) :
    ∃ c, p.addU64 a b = some c ∧ c.toNat = a.toNat + b.toNat := by
  refine ⟨a + b, ?_, ?_⟩
  · cases p with
    | release => rfl
    | debug => simp only [addU64, if_pos h]
  · rw [UInt64.toNat_add, Nat.mod_eq_of_lt h]

/-! ### Time -/

/-- A duration of whole seconds, as `Duration::from_secs` makes it from a `u64`. -/
structure Duration where
  secs : UInt64
  deriving DecidableEq

def Duration.nanos (d : Duration) : ℤ :=
  d.secs.toNat * 10 ^ 9

theorem Duration.nanos_nonneg (d : Duration) : 0 ≤ d.nanos := by
  unfold nanos
  omega

/-- A reading of the monotonic clock: signed 64-bit seconds and the nanoseconds of the second,
here as one number of nanoseconds. -/
@[ext]
structure Instant where
  nanos : ℤ
  lower : -(2 ^ 63) * 10 ^ 9 ≤ nanos
  upper : nanos < 2 ^ 63 * 10 ^ 9
  deriving DecidableEq

namespace Instant

instance : LE Instant := ⟨fun s t ↦ s.nanos ≤ t.nanos⟩

instance (s t : Instant) : Decidable (s ≤ t) := inferInstanceAs (Decidable (s.nanos ≤ t.nanos))

/-- The sum of an instant and a duration fits the seconds of an instant. -/
def Fits (t : Instant) (d : Duration) : Prop :=
  t.nanos + d.nanos < 2 ^ 63 * 10 ^ 9

instance (t : Instant) (d : Duration) : Decidable (t.Fits d) :=
  inferInstanceAs (Decidable (_ < _))

/-- `Instant::checked_add`; the operator `+` panics where this is `none`. -/
def checkedAdd (t : Instant) (d : Duration) : Option Instant :=
  if h : t.Fits d then
    some ⟨t.nanos + d.nanos, by have := t.lower; unfold Duration.nanos; omega, h⟩
  else none

theorem checkedAdd_isSome_iff {t : Instant} {d : Duration} :
    (t.checkedAdd d).isSome ↔ t.Fits d := by
  unfold checkedAdd
  split_ifs with h <;> simp [h]

/-- A timer can be reset to the sum of an instant and a duration. tokio counts in milliseconds and
rounds a deadline up, by an addition of its own that has to stay in range as well. -/
def Resets (t : Instant) (d : Duration) : Prop :=
  t.nanos + d.nanos + 999999 < 2 ^ 63 * 10 ^ 9

instance (t : Instant) (d : Duration) : Decidable (t.Resets d) :=
  inferInstanceAs (Decidable (_ < _))

theorem Resets.fits {t : Instant} {d : Duration} (h : t.Resets d) : t.Fits d := by
  unfold Resets at h
  unfold Fits
  omega

/-- `Sleep::reset(t + d)`: the new deadline; `none` is a panic, of the sum or of its rounding. -/
def reset (t : Instant) (d : Duration) : Option Instant :=
  (t.checkedAdd d).filter fun _ ↦ t.Resets d

theorem reset_eq_some_iff {t deadline : Instant} {d : Duration} :
    t.reset d = some deadline ↔ t.checkedAdd d = some deadline ∧ t.Resets d := by
  rw [reset, Option.filter_eq_some_iff, decide_eq_true_iff]

end Instant

/-! ### Readers -/

inductive IoErrorKind where
  | invalidData
  | invalidInput
  | unexpectedEof
  | other
  deriving DecidableEq

/-- An I/O error: its kind and its text. -/
structure IoError where
  kind : IoErrorKind
  message : Str
  deriving DecidableEq

/-- A byte reader: the pieces that its reads yield, none of them empty, and the error that it ends
with, if it does not end cleanly. -/
structure ByteReader where
  pieces : List Bytes
  ne_nil : ∀ p ∈ pieces, p ≠ []
  failure : Option IoError

/-- All the bytes that a reader yields. -/
def ByteReader.output (r : ByteReader) : Bytes :=
  r.pieces.flatten

/-- The reader of a byte slice. -/
def ByteReader.ofBytes (b : Bytes) : ByteReader where
  pieces := if b = [] then [] else [b]
  ne_nil := by
    intro p hp
    split_ifs at hp with hb
    · cases hp
    · rwa [List.mem_singleton.1 hp]
  failure := none

@[simp] theorem ByteReader.output_ofBytes (b : Bytes) : (ByteReader.ofBytes b).output = b := by
  unfold ByteReader.ofBytes ByteReader.output
  split_ifs with hb <;> simp [hb]

/-! ### The crates -/

/-- What a derived reader of a struct of a flag is given to walk: the members of an object, in their
order and with repeated names, or the elements of an array. The value of a member that the reader
does not know is skipped: it is here as in the text, the strings in it not decoded. -/
inductive Access where
  | map (members : List (Str × Json.Value))
  | seq (elements : List Bool)

/-- The functions of the dependencies that the gateway calls. -/
structure Crates where
  /-- `serde_json::from_slice::<Value>`. -/
  fromSlice : Bytes → Option Json.Value
  /-- `serde_json::to_string`, which does not fail on a `Value`. -/
  toString : Json.Value → Str
  /-- `Deserializer::deserialize_struct` on a whole text, for a struct of a flag: what it gives the
  derived reader to walk. -/
  deserializeStruct : Bytes → Option Access
  /-- `StatusCode::canonical_reason`. -/
  canonicalReason : StatusCode → Option Str
  /-- `str::parse::<Uri>`, with the text of the error. -/
  parseUri : Str → Except Str Uri
  /-- `str::parse::<PathAndQuery>`. -/
  parsePathAndQuery : Str → Option PathAndQuery
  /-- `GzipDecoder::new`. -/
  gzipDecoder : Bytes → ByteReader
  /-- `ZlibDecoder::new`. -/
  zlibDecoder : Bytes → ByteReader
  /-- `BrotliDecoder::new`. -/
  brotliDecoder : Bytes → ByteReader
  /-- `ZstdDecoder::new`. -/
  zstdDecoder : Bytes → ByteReader
  /-- The deadline that tokio's `sleep` uses when the real one is out of range: far in the future
  of the given instant. -/
  farFuture : Instant → Instant

/-- What the gateway relies on in serde_json: the text of a value is a JSON text of that value on
a single line, and no empty input is a JSON text. -/
structure Crates.SerdeJson (D : Crates) : Prop where
  parse_toString : ∀ v, Json.parse (D.toString v) = some v
  no_lf : ∀ v, '\n' ∉ D.toString v
  no_cr : ∀ v, '\r' ∉ D.toString v
  fromSlice_nil : D.fromSlice [] = none

/-- `tokio::time::sleep`: the deadline of a timer that is started now. Its first poll rounds the
deadline as `Instant.reset` does; that panic is left out here. -/
def Crates.sleep (D : Crates) (now : Instant) (d : Duration) : Instant :=
  match now.checkedAdd d with
  | some deadline => deadline
  | none => D.farFuture now

end KeepSse
