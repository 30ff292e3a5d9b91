import Partita.Proofs.Wave.Container
import Partita.Proofs.Performance.Exact

/-! Encoded audio. What the header says follows from the shape of the audio alone, and
an encoding is refused for its channels, or for a number that does not fit its field, and
for nothing else. -/
namespace Partita

namespace Audio

variable {α : Type}

/-- Audio of one or two dimensions, with a column for each channel. -/
structure Rectangular (a : Audio α) : Prop where
  depth : a.shape.length = 1 ∨ a.shape.length = 2
  width : a.columns.size = a.channelCount
  height : ∀ c ∈ a.columns, c.size = a.frames

theorem toList_eq_getD [Inhabited α] (xs : Array α) :
    xs.toList = (List.range xs.size).map (xs.getD · default) := by
  refine List.ext_getElem (by simp) fun i here _ => ?_
  simp at here
  simp [here]

theorem interleaved_pair [Inhabited α] (l r : Array α) (n : Nat) (out : Array α) :
    (n.fold (fun i _ out => (out.push (l.getD i default)).push (r.getD i default)) out).toList =
      out.toList ++ (List.range n).flatMap fun i => [l.getD i default, r.getD i default] := by
  induction n with
  | zero => simp
  | succ n ih =>
    simp only [Nat.fold_succ, Array.toList_push, ih, List.range_succ, List.flatMap_append, List.flatMap_cons,
      List.flatMap_nil, List.append_assoc, List.append_nil, List.cons_append, List.nil_append]

/-- One or two channels, frame by frame. -/
theorem Rectangular.interleaved [Inhabited α] {a : Audio α} (rect : a.Rectangular)
    (few : a.channelCount = 1 ∨ a.channelCount = 2) :
    a.interleaved.toList = (List.range a.frames).flatMap fun i => a.columns.toList.map (·.getD i default) := by
  have width : a.columns.toList.length = a.channelCount := rect.width
  rcases columns : a.columns.toList with _ | ⟨c, _ | ⟨d, _ | _⟩⟩
  · simp [columns] at width; omega
  · have height : c.size = a.frames := rect.height c (by simp [← Array.mem_toList_iff, columns])
    simp only [Audio.interleaved, columns, List.map_cons, List.map_nil]
    rw [toList_eq_getD c, height, List.map_eq_flatMap]
  · simp only [Audio.interleaved, columns, List.map_cons, List.map_nil]
    exact interleaved_pair _ _ _ _
  · simp [columns] at width; omega

end Audio

namespace Wave

variable {α : Type} [Scalar α]

/-- The header of encoded audio. -/
def headerOf (a : Audio α) (rate : Int) (float : Bool) : Header :=
  let bits := if float then 32 else 16
  ⟨if float then 3 else 1, a.channelCount, rate, bits, a.frames * a.channelCount * (bits / 8)⟩

def framesOf (a : Audio α) : List α := (List.range a.frames).flatMap fun i => a.columns.toList.map (·.getD i 0)

def payloadOf (a : Audio α) (float : Bool) : Payload α :=
  if float then .singles ((framesOf a).map fun x => Scalar.toSingle (Scalar.clamp (-1) 1 x)).toArray
  else .integers ((framesOf a).map quantizeOr).toArray

theorem length_framesOf {a : Audio α} (rect : a.Rectangular) :
    (framesOf a).length = a.frames * a.channelCount := by
  simp [framesOf, List.length_flatMap, rect.width, List.map_const']

/-- An encoding refuses what it cannot write, the channels first. -/
theorem encode_eq {a : Audio α} (rect : a.Rectangular) (rate : Int) (float : Bool) :
    encode a rate float =
      if a.channelCount = 1 ∨ a.channelCount = 2 then
        if (headerOf a rate float).fits then .ok ⟨headerOf a rate float, payloadOf a float⟩ else .error .fieldRange
      else .error (.channelCount a.channelCount) := by
  have deep : (a.shape.length != 1 && a.shape.length != 2) = false := by
    obtain one | two := rect.depth <;> simp [*]
  simp only [encode, deep, Bool.false_eq_true, if_false]
  by_cases few : a.channelCount = 1 ∨ a.channelCount = 2
  · have kept : (a.channelCount != 1 && a.channelCount != 2) = false := by
      obtain one | two := few <;> simp [*]
    have samples := @Audio.Rectangular.interleaved _ ⟨(0 : α)⟩ a rect few
    have count : (@Audio.interleaved α ⟨0⟩ a).size = a.frames * a.channelCount := by
      rw [← Array.length_toList, samples]
      exact length_framesOf rect
    have written : (if float then Payload.singles ((@Audio.interleaved α ⟨0⟩ a).map fun x =>
        Scalar.toSingle (Scalar.clamp (-1) 1 x)) else .integers ((@Audio.interleaved α ⟨0⟩ a).map quantizeOr)) =
        payloadOf a float := by
      rw [← (@Audio.interleaved α ⟨0⟩ a).toArray_toList, samples, List.map_toArray, List.map_toArray]
      rfl
    simp only [kept, Bool.false_eq_true, if_false, if_pos few, count]
    rw [written]
    rfl
  · have dropped : (a.channelCount != 1 && a.channelCount != 2) = true := by simpa using few
    simp only [dropped, if_true, if_neg few]
    rfl

variable [Interchange α]

/-- The number that the bytes of a sample hold. -/
def sampleBits (float : Bool) (x : α) : Nat :=
  if float then Interchange.singleBits (Scalar.toSingle (Scalar.clamp (-1) 1 x)) else (quantizeOr x % 65536).toNat

omit [Scalar α] [Interchange α] in
theorem headerOf_frameBytes (a : Audio α) (rate : Int) (float : Bool) :
    (headerOf a rate float).frameBytes = a.channelCount * (if float then 4 else 2) := by
  cases float <;> simp [headerOf, Header.frameBytes] <;> omega

/-- What is encoded agrees with its header. -/
theorem encoded_regular {a : Audio α} (rect : a.Rectangular) {rate : Int} {float : Bool}
    (few : a.channelCount = 1 ∨ a.channelCount = 2) (fits : (headerOf a rate float).fits = true) :
    File.Regular ⟨headerOf a rate float, payloadOf a float⟩ ((framesOf a).map (sampleBits float)) where
  fits := fits
  narrow := by
    simp only [List.forall_mem_cons, List.not_mem_nil, false_imp_iff, implies_true, and_true, headerOf_frameBytes]
    cases float <;> simp [headerOf] <;> omega
  fields := by
    cases float <;> simp [payloadOf, Payload.fields, headerOf, sampleBits]
  payload := by
    rw [List.length_map, length_framesOf rect]
    rfl
  even := by
    cases float <;> simp only [headerOf, if_true, if_false, Bool.false_eq_true] <;> omega
  count := by
    rw [headerOf_frameBytes, List.length_map, length_framesOf rect]
    have frames : (headerOf a rate float).payload =
        a.frames * (a.channelCount * (if float then 4 else 2)) := by
      cases float <;> simp [headerOf, Nat.mul_assoc]
    rw [frames, Nat.mul_div_cancel]
    · rfl
    · cases float <;> simp <;> omega

def sampleValue (float : Bool) (x : α) : Int :=
  if float then Interchange.singleBits (Scalar.toSingle (Scalar.clamp (-1) 1 x)) else quantizeOr x

/-- What is left of a number in the bytes of a sample. -/
def wrapped (float : Bool) (n : Int) : Int := if float then n % 4294967296 else n.bmod 65536

theorem value_sampleBits (a : Audio α) (rate : Int) (float : Bool) (x : α) :
    Recording.value (headerOf a rate float).format (headerOf a rate float).bits
        (sampleBits float x % 256 ^ ((headerOf a rate float).bits / 8)) =
      wrapped float (sampleValue float x) := by
  cases float with
  | true => simp [headerOf, Recording.value, sampleBits, wrapped, sampleValue]
  | false =>
    simp [headerOf, Recording.value, sampleBits, wrapped, sampleValue, Int.bmod]
    omega

/-- What is relied on of the arithmetic for a sample to fit its bytes: numbers are in line
with each other, and what lies between zero and one keeps to its side and below the scale
when it is scaled and cut off. -/
structure Levels (α : Type) [Scalar α] [Interchange α] : Prop where
  le_of_not_lt : ∀ a b : α, (a == a) = true → (b == b) = true → ¬ a < b → b ≤ a
  one : ((1 : α) == 1) = true
  neg_one : ((-1 : α) == -1) = true
  irrefl : ∀ a : α, ¬ a < a
  signs : ¬ (1 : α) < -1
  positive : ∀ (c : α) (n : Nat), n ≤ 65536 → ¬ c < 0 → c ≤ 1 →
    ∃ z, Scalar.truncate (c * Scalar.ofInt n) = .ok z ∧ 0 ≤ z ∧ z ≤ n
  negative : ∀ (c : α) (n : Nat), n ≤ 65536 → c < 0 → -1 ≤ c →
    ∃ z, Scalar.truncate (c * Scalar.ofInt n) = .ok z ∧ -n ≤ z ∧ z ≤ 0
  word : ∀ x : α, Interchange.singleBits x < 4294967296

theorem Levels.clamp (laws : Levels α) {x : α} (number : (x == x) = true) :
    -1 ≤ Scalar.clamp (-1) 1 x ∧ Scalar.clamp (-1) 1 x ≤ 1 := by
  have above : -1 ≤ Scalar.max x (-1) ∧ (Scalar.max x (-1) == Scalar.max x (-1)) = true := by
    rw [Scalar.max]
    split
    · exact ⟨laws.le_of_not_lt _ _ laws.neg_one laws.neg_one (laws.irrefl _), laws.neg_one⟩
    · exact ⟨laws.le_of_not_lt _ _ number laws.neg_one ‹_›, number⟩
  rw [Scalar.clamp, Scalar.min]
  split
  · exact ⟨laws.le_of_not_lt _ _ laws.one laws.neg_one laws.signs,
      laws.le_of_not_lt _ _ laws.one laws.one (laws.irrefl _)⟩
  · exact ⟨above.1, laws.le_of_not_lt _ _ laws.one above.2 ‹_›⟩

theorem Levels.quantizeOr (laws : Levels α) {x : α} (number : (x == x) = true) :
    -32768 ≤ quantizeOr x ∧ quantizeOr x ≤ 32767 := by
  obtain ⟨low, high⟩ := laws.clamp number
  rw [Wave.quantizeOr, quantize]
  split
  · obtain ⟨z, cut, least, most⟩ := laws.negative _ 32768 (by decide) ‹_› low
    have : Scalar.toInt (Scalar.clamp (-1) 1 x * 32768) = .ok z := by
      rw [Scalar.toInt]; exact congrArg (Except.mapError _) cut
    simp only [this, Except.toOption, Option.getD_some]
    omega
  · obtain ⟨z, cut, least, most⟩ := laws.positive _ 32767 (by decide) ‹_› high
    have : Scalar.toInt (Scalar.clamp (-1) 1 x * 32767) = .ok z := by
      rw [Scalar.toInt]; exact congrArg (Except.mapError _) cut
    simp only [this, Except.toOption, Option.getD_some]
    omega

theorem Levels.wrapped (laws : Levels α) (float : Bool) {x : α} (number : (x == x) = true) :
    wrapped float (sampleValue float x) = sampleValue float x := by
  cases float with
  | true =>
    have word := laws.word (Scalar.toSingle (Scalar.clamp (-1) 1 x))
    simp only [Wave.wrapped, sampleValue, if_true]
    omega
  | false =>
    have fits := laws.quantizeOr number
    simp only [Wave.wrapped, sampleValue, Bool.false_eq_true, if_false, Int.bmod]
    split <;> omega

def InWord (n : Int) : Prop := 0 ≤ n ∧ n < 4294967296

instance (n : Int) : Decidable (InWord n) := inferInstanceAs (Decidable (0 ≤ n ∧ n < 4294967296))

/-- Audio of one or two channels is encoded whenever its numbers fit their fields, and a
reader that follows the lengths in the bytes to their end finds what was encoded. -/
theorem encode_consistent {a : Audio α} (rect : a.Rectangular) (rate : Int) (float : Bool) :
    let width := if float then 4 else 2
    let frameBytes := a.channelCount * width
    let fits := InWord (36 + a.frames * frameBytes : Nat) ∧ InWord rate ∧ InWord (rate * frameBytes)
    ((∃ e, encode a rate float = .error e ∧ e.kind = "InvalidAudioError") ↔
        ¬ (a.channelCount = 1 ∨ a.channelCount = 2)) ∧
      (a.channelCount = 1 ∨ a.channelCount = 2 →
        (encode a rate float = .error .fieldRange ↔ ¬ fits) ∧
        (fits → ∃ file samples, encode a rate float = .ok file ∧
          file.bytes.length = 44 + a.frames * frameBytes ∧
          Recording.read? file.bytes = some ⟨if float then 3 else 1, a.channelCount, rate.toNat,
            (rate * frameBytes).toNat, frameBytes, 8 * width, samples⟩ ∧
          samples.length = a.frames * a.channelCount ∧
          samples = (framesOf a).map (fun x => wrapped float (sampleValue float x)) ∧
          (Levels α → (∀ x ∈ framesOf a, (x == x) = true) → samples = (framesOf a).map (sampleValue float)))) := by
  intro width frameBytes fits
  have align : (headerOf a rate float).frameBytes = frameBytes := headerOf_frameBytes a rate float
  have size : (headerOf a rate float).payload = a.frames * frameBytes := by
    cases float <;> simp [headerOf, frameBytes, width, Nat.mul_assoc]
  have fitting : (headerOf a rate float).fits = true ↔ fits := by
    rw [Header.fits, Header.byteRate, align, size]
    simp only [Bool.and_eq_true, decide_eq_true_eq, fits, InWord, Nat.cast_add, Nat.cast_ofNat]
    constructor
    · rintro ⟨⟨rate, byteRate⟩, size⟩
      exact ⟨size, rate, byteRate⟩
    · rintro ⟨size, rate, byteRate⟩
      exact ⟨⟨rate, byteRate⟩, size⟩
  rw [encode_eq rect]
  refine ⟨?_, fun few => ⟨?_, fun all => ?_⟩⟩
  · by_cases few : a.channelCount = 1 ∨ a.channelCount = 2
    · rw [if_pos few]
      simp only [few, not_true_eq_false, iff_false, not_exists, not_and]
      intro e raised
      split at raised <;> cases raised
      decide
    · rw [if_neg few]
      exact iff_of_true ⟨_, rfl, rfl⟩ few
  · rw [if_pos few, ← fitting]
    split <;> simp [*]
  · have fits' := fitting.mpr all
    rw [if_pos few, if_pos fits']
    have regular := encoded_regular rect few fits'
    have values : ((framesOf a).map (sampleBits float)).map (fun n => Recording.value (headerOf a rate float).format
        (headerOf a rate float).bits (n % 256 ^ ((headerOf a rate float).bits / 8))) =
        (framesOf a).map fun x => wrapped float (sampleValue float x) := by
      rw [List.map_map]
      exact List.map_congr_left fun x _ => value_sampleBits a rate float x
    refine ⟨_, _, rfl, ?_, ?_, ?_, rfl, fun laws numbers => ?_⟩
    · rw [regular.length_bytes, size]
    · rw [regular.read?, values, align, Header.byteRate, align]
      cases float <;> rfl
    · rw [List.length_map, length_framesOf rect]
    · exact List.map_congr_left fun x member => laws.wrapped float (numbers x member)

end Wave

namespace Exact

/-- Numbers in fixed point, with sixteen bits after it. -/
instance : Wave.Interchange ℚ where
  singleBits x := (⌊x * 65536⌋ % 4294967296).toNat
  ofSingleBits n := n / 65536
  ofDoubleBits n := n / 65536

theorem levels : Wave.Levels ℚ where
  le_of_not_lt _ _ _ _ := le_of_not_gt
  one := beq_self_eq_true _
  neg_one := beq_self_eq_true _
  irrefl := lt_irrefl
  signs := by norm_num
  positive c n _ above below := by
    have least : 0 ≤ c := by exact_mod_cast not_lt.mp above
    have most : c ≤ 1 := by exact_mod_cast below
    have scaled : 0 ≤ c * n ∧ c * n ≤ n := ⟨by positivity, mul_le_of_le_one_left (by positivity) most⟩
    refine ⟨⌊c * n⌋, ?_, Int.floor_nonneg.mpr scaled.1, ?_⟩
    · exact congrArg Except.ok (if_neg (not_lt.mpr scaled.1))
    · exact_mod_cast (Int.floor_le _).trans scaled.2
  negative c n _ below above := by
    have most : c ≤ 0 := by exact_mod_cast le_of_lt below
    have least : -1 ≤ c := by exact_mod_cast above
    have scaled : 0 ≤ -(c * n) ∧ -(c * n) ≤ n := by
      rw [← neg_mul]
      exact ⟨mul_nonneg (by linarith) (by positivity), mul_le_of_le_one_left (by positivity) (by linarith)⟩
    refine ⟨-⌊-(c * n)⌋, ?_, ?_, neg_nonpos.mpr (Int.floor_nonneg.mpr scaled.1)⟩
    · by_cases zero : c * n < 0
      · exact congrArg Except.ok (if_pos zero)
      · have none : c * n = 0 := le_antisymm (neg_nonneg.mp scaled.1) (not_lt.mp zero)
        refine (congrArg Except.ok (if_neg zero)).trans ?_
        change Except.ok ⌊c * ((n : Int) : ℚ)⌋ = _
        rw [Int.cast_natCast, none]
        rfl
    · have : ((⌊-(c * n)⌋ : Int) : ℚ) ≤ n := (Int.floor_le _).trans scaled.2
      have : ⌊-(c * n)⌋ ≤ (n : Int) := by exact_mod_cast this
      omega
  word x := by
    change (⌊x * 65536⌋ % 4294967296).toNat < 4294967296
    omega

end Exact

namespace Wave

def duet : Audio ℚ := ⟨[3, 2], #[#[1 / 2, -2, 0], #[-1 / 2, 1, 3]]⟩

theorem encode_consistent_duet :
    duet.Rectangular ∧ ∃ file samples, encode duet 8000 false = .ok file ∧ file.bytes.length = 56 ∧
      Recording.read? file.bytes = some ⟨1, 2, 8000, 32000, 4, 16, samples⟩ ∧
      samples = [16383, -16384, -32768, 32767, 0, 32767] := by
  have rect : duet.Rectangular := ⟨by decide, by decide, by decide⟩
  obtain ⟨-, few⟩ := encode_consistent rect 8000 false
  obtain ⟨-, written⟩ := few (.inr rfl)
  obtain ⟨file, samples, encoded, size, read, -, -, exact⟩ := written ⟨by decide, by decide, by decide⟩
  refine ⟨rect, file, samples, encoded, size, read, ?_⟩
  rw [exact Exact.levels fun x _ => beq_self_eq_true x]
  decide +kernel

end Wave

end Partita
