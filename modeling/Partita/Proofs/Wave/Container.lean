import Mathlib.Tactic.NormNum
import Partita.Wave.Encode

/-! The container that wave files are. A reader that takes every length from the bytes
themselves, and has to come out even at each of them, finds in an encoded file what its
header was made from, and the samples frame by frame. -/
namespace Partita.Wave

variable {α : Type}

@[simp] theorem length_bytesOf (width n : Nat) : (bytesOf width n).length = width := by
  induction width generalizing n with
  | zero => rfl
  | succ width ih => rw [bytesOf, List.length_cons, ih]

@[simp] theorem ofBytes_bytesOf (width n : Nat) : ofBytes (bytesOf width n) = n % 256 ^ width := by
  induction width generalizing n with
  | zero => simp [bytesOf, ofBytes, Nat.mod_one]
  | succ width ih =>
    rw [bytesOf, ofBytes, ih, Nat.pow_succ', Nat.mod_mul]
    congr 1
    exact UInt8.toNat_ofNat_of_lt' (Nat.mod_lt n (by norm_num))

def cut? (width : Nat) (bytes : List UInt8) : Option (List UInt8 × List UInt8) :=
  if bytes.length < width then none else some (bytes.splitAt width)

theorem cut?_append {width : Nat} {field : List UInt8} (size : field.length = width) (rest : List UInt8) :
    cut? width (field ++ rest) = some (field, rest) := by
  subst size
  simp [cut?]

/-- Takes numbers off the front, each of so many bytes. -/
def numbers? : List Nat → List UInt8 → Option (List Nat × List UInt8)
  | [], bytes => some ([], bytes)
  | width :: widths, bytes => do
    let (field, rest) ← cut? width bytes
    let (values, rest) ← numbers? widths rest
    return (ofBytes field :: values, rest)

/-- Numbers one after the other, each with the bytes it takes. -/
def fieldBytes (fields : List (Nat × Nat)) : List UInt8 := fields.flatMap fun (width, n) => bytesOf width n

theorem numbers?_fieldBytes (fields : List (Nat × Nat)) :
    numbers? (fields.map Prod.fst) (fieldBytes fields) = some (fields.map fun (width, n) => n % 256 ^ width, []) := by
  induction fields with
  | nil => rfl
  | cons field fields ih =>
    have first : fieldBytes (field :: fields) = bytesOf field.1 field.2 ++ fieldBytes fields := rfl
    simp only [first, List.map_cons, numbers?, cut?_append (length_bytesOf field.1 field.2), Option.bind_eq_bind,
      Option.bind_some, ih, ofBytes_bytesOf, Option.pure_def]

/-- A part of a file, with a name of four bytes. -/
structure Chunk where
  name : List UInt8
  body : List UInt8
  deriving DecidableEq, Repr

namespace Chunk

/-- Takes a part off the front: a name, a length, a body of that length, and a byte more
if it is odd. -/
def read? (bytes : List UInt8) : Option (Chunk × List UInt8) := do
  let (name, rest) ← cut? 4 bytes
  let (size, rest) ← cut? 4 rest
  let (body, rest) ← cut? (ofBytes size) rest
  let (_, rest) ← cut? (ofBytes size % 2) rest
  return (⟨name, body⟩, rest)

/-- The parts that bytes consist of, at most `fuel` of them. -/
def all? : (fuel : Nat) → List UInt8 → Option (List Chunk)
  | _, [] => some []
  | 0, _ => none
  | fuel + 1, bytes => do
    let (chunk, rest) ← read? bytes
    return chunk :: (← all? fuel rest)

def bytes (c : Chunk) : List UInt8 := c.name ++ (bytesOf 4 c.body.length ++ c.body)

/-- A part that stands in a file as it is. -/
structure Regular (c : Chunk) : Prop where
  name : c.name.length = 4
  size : c.body.length < 4294967296
  even : c.body.length % 2 = 0

theorem read?_bytes {c : Chunk} (regular : c.Regular) (rest : List UInt8) :
    read? (c.bytes ++ rest) = some (c, rest) := by
  have size : ofBytes (bytesOf 4 c.body.length) = c.body.length := by
    rw [ofBytes_bytesOf]
    exact Nat.mod_eq_of_lt regular.size
  have even : cut? 0 rest = some ([], rest) := @cut?_append 0 [] rfl rest
  simp only [read?, bytes, List.append_assoc, cut?_append regular.name, cut?_append (length_bytesOf 4 _), size,
    cut?_append (rfl : c.body.length = c.body.length), regular.even, even, Option.bind_eq_bind, Option.bind_some,
    Option.pure_def]

theorem all?_flatMap {chunks : List Chunk} (regular : ∀ c ∈ chunks, c.Regular) {fuel : Nat}
    (enough : chunks.length ≤ fuel) : all? fuel (chunks.flatMap bytes) = some chunks := by
  induction chunks generalizing fuel with
  | nil => cases fuel <;> rfl
  | cons c rest ih =>
    obtain ⟨here, later⟩ := List.forall_mem_cons.mp regular
    obtain ⟨fuel, rfl⟩ : ∃ more, fuel = more + 1 := 
      Nat.exists_eq_add_one.mpr (Nat.lt_of_lt_of_le (Nat.zero_lt_succ _) enough)
    have filled : c.bytes ++ rest.flatMap bytes ≠ [] := by
      have : c.name ≠ [] := List.ne_nil_of_length_pos (by rw [here.name]; decide)
      simp [bytes, this]
    rw [List.flatMap_cons, all?]
    · simp only [read?_bytes here, ih later (by simpa using enough), Option.bind_eq_bind, Option.bind_some,
        Option.pure_def]
    · exact filled

end Chunk

/-- What a wave file holds, as it is read from the bytes. -/
structure Recording where
  format : Nat
  channels : Nat
  rate : Nat
  byteRate : Nat
  frameBytes : Nat
  bits : Nat
  samples : List Int
  deriving DecidableEq, Repr

namespace Recording

def value (format bits n : Nat) : Int := if format = 1 then (n : Int).bmod (2 ^ bits) else n

/-- Reads a wave file. Every length is taken from the bytes, and nothing may be left over
at the end of a part. -/
def read? (bytes : List UInt8) : Option Recording := do
  let (riff, []) ← Chunk.read? bytes | none
  let (form, rest) ← cut? 4 riff.body
  let [sheet, data] ← Chunk.all? rest.length rest | none
  guard (riff.name = ascii "RIFF" ∧ form = ascii "WAVE" ∧ sheet.name = ascii "fmt " ∧ data.name = ascii "data")
  let ([format, channels, rate, byteRate, frameBytes, bits], []) ← numbers? [2, 2, 4, 4, 2, 2] sheet.body | none
  let count := data.body.length / frameBytes * channels
  let (samples, []) ← numbers? (.replicate count (bits / 8)) data.body | none
  return ⟨format, channels, rate, byteRate, frameBytes, bits, samples.map (value format bits)⟩

end Recording

/-- What the header says of the samples. -/
def Header.sheet (h : Header) : List (Nat × Nat) :=
  [(2, h.format), (2, h.channels), (4, h.rate.toNat), (4, h.byteRate.toNat), (2, h.frameBytes), (2, h.bits)]

def Payload.fields [Interchange α] : Payload α → List (Nat × Nat)
  | .integers samples => samples.toList.map fun n => (2, (n % 65536).toNat)
  | .singles samples => samples.toList.map fun x => (4, Interchange.singleBits x)

namespace File

variable [Interchange α]

def sheet (f : File α) : Chunk := ⟨ascii "fmt ", fieldBytes f.header.sheet⟩

def data (f : File α) : Chunk := ⟨ascii "data", fieldBytes f.payload.fields⟩

def riff (f : File α) : Chunk := ⟨ascii "RIFF", ascii "WAVE" ++ [f.sheet, f.data].flatMap Chunk.bytes⟩

theorem payload_bytes (f : File α) : f.payload.bytes = f.data.body := by
  simp only [data, fieldBytes]
  cases f.payload with
  | integers samples => rw [Payload.bytes, Payload.fields, List.flatMap_map]; rfl
  | singles samples => rw [Payload.bytes, Payload.fields, List.flatMap_map]

omit [Interchange α] in
theorem sheet_length (f : File α) : f.sheet.body.length = 16 := by
  simp [sheet, Header.sheet, fieldBytes]

theorem riff_length (f : File α) : f.riff.body.length = 36 + f.data.body.length := by
  have named : (ascii "WAVE").length = 4 ∧ f.sheet.name.length = 4 ∧ f.data.name.length = 4 := ⟨rfl, rfl, rfl⟩
  simp [riff, Chunk.bytes, sheet_length, named]
  omega

theorem bytes_eq {f : File α} (sized : f.header.payload = f.data.body.length) : f.bytes = f.riff.bytes := by
  rw [Chunk.bytes, riff_length, bytes, payload_bytes, Header.encode, sized]
  simp only [riff, Chunk.bytes, sheet_length, List.flatMap_cons, List.flatMap_nil, List.append_assoc, List.append_nil]
  simp only [sheet, data, Header.sheet, fieldBytes, List.flatMap_cons, List.flatMap_nil, List.append_assoc, List.append_nil]

/-- A file whose header agrees with itself and with the samples that follow it. -/
structure Regular (f : File α) (values : List Nat) : Prop where
  fits : f.header.fits = true
  narrow : ∀ n ∈ [f.header.format, f.header.channels, f.header.frameBytes, f.header.bits], n < 65536
  fields : f.payload.fields = values.map (f.header.bits / 8, ·)
  payload : f.header.payload = values.length * (f.header.bits / 8)
  even : f.header.payload % 2 = 0
  count : f.header.payload / f.header.frameBytes * f.header.channels = values.length

theorem Regular.length_data {f : File α} {values : List Nat} (regular : f.Regular values) :
    f.header.payload = f.data.body.length := by
  rw [regular.payload, data, regular.fields, fieldBytes, List.flatMap_map]
  simp [List.length_flatMap, List.map_const']

theorem Regular.length_bytes {f : File α} {values : List Nat} (regular : f.Regular values) :
    f.bytes.length = 44 + f.header.payload := by
  have named : f.riff.name.length = 4 := rfl
  rw [bytes_eq regular.length_data, Chunk.bytes, List.length_append, List.length_append, named, length_bytesOf,
    riff_length, ← regular.length_data]
  omega

theorem Regular.read? {f : File α} {values : List Nat} (regular : f.Regular values) :
    Recording.read? f.bytes = some ⟨f.header.format, f.header.channels, f.header.rate.toNat, f.header.byteRate.toNat,
      f.header.frameBytes, f.header.bits,
      values.map fun n => Recording.value f.header.format f.header.bits (n % 256 ^ (f.header.bits / 8))⟩ := by
  have fits := regular.fits
  have payload := regular.length_data
  have even := regular.even
  simp only [Header.fits, Bool.and_eq_true, decide_eq_true_eq] at fits
  obtain ⟨⟨rate, byteRate⟩, size⟩ := fits
  have whole : f.riff.Regular := by
    refine ⟨rfl, ?_, ?_⟩
    · rw [riff_length, ← payload]; omega
    · rw [riff_length, ← payload]; omega
  have parts : ∀ c ∈ [f.sheet, f.data], c.Regular := by
    simp only [List.forall_mem_cons, List.not_mem_nil, false_imp_iff, implies_true, and_true]
    refine ⟨⟨rfl, ?_, ?_⟩, rfl, ?_, payload ▸ even⟩
    · rw [sheet_length]; decide
    · rw [sheet_length]
    · rw [← payload]; omega
  have opened : Chunk.read? f.bytes = some (f.riff, []) := by
    rw [bytes_eq payload]
    simpa using Chunk.read?_bytes whole []
  have form : cut? 4 f.riff.body = some (ascii "WAVE", [f.sheet, f.data].flatMap Chunk.bytes) :=
    cut?_append rfl _
  have split : Chunk.all? ([f.sheet, f.data].flatMap Chunk.bytes).length ([f.sheet, f.data].flatMap Chunk.bytes) =
      some [f.sheet, f.data] := by
    refine Chunk.all?_flatMap parts ?_
    simp [Chunk.bytes]
    omega
  have sheet : numbers? [2, 2, 4, 4, 2, 2] f.sheet.body = some ([f.header.format, f.header.channels,
      f.header.rate.toNat, f.header.byteRate.toNat, f.header.frameBytes, f.header.bits], []) := by
    have narrow := regular.narrow
    simp only [List.forall_mem_cons, List.not_mem_nil, false_imp_iff, implies_true, and_true] at narrow
    obtain ⟨format, channels, frameBytes, bits⟩ := narrow
    rw [show [2, 2, 4, 4, 2, 2] = f.header.sheet.map Prod.fst from rfl, File.sheet, numbers?_fieldBytes]
    simp only [Header.sheet, List.map_cons, List.map_nil, Option.some.injEq, Prod.mk.injEq, List.cons.injEq, and_true]
    omega
  have samples : numbers? (.replicate values.length (f.header.bits / 8)) f.data.body =
      some (values.map (· % 256 ^ (f.header.bits / 8)), []) := by
    have widths : .replicate values.length (f.header.bits / 8) = f.payload.fields.map Prod.fst := by
      rw [regular.fields, List.map_map]
      exact List.map_const'.symm
    rw [widths, File.data, numbers?_fieldBytes, regular.fields, List.map_map]
    rfl
  have named : f.riff.name = ascii "RIFF" ∧ ascii "WAVE" = ascii "WAVE" ∧ f.sheet.name = ascii "fmt " ∧
      f.data.name = ascii "data" := ⟨rfl, rfl, rfl, rfl⟩
  simp only [Recording.read?, opened, form, split, sheet, named, ← payload, regular.count, samples,
    Option.bind_eq_bind, Option.bind_some, List.map_map, and_self, guard_true, Option.pure_def]
  rfl

end File

end Partita.Wave
