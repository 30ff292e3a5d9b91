import Mathlib.Tactic.FieldSimp
import Mathlib.Tactic.Linarith
import Partita.Proofs.Wave.Encoding

/-! Sixteen-bit samples. A level is clipped, scaled to the extreme of its side and cut off
toward zero; an integer stands for a level of no greater magnitude, less than a step away.
Levels that integers stand for are encoded as these integers again, byte for byte. -/
namespace Partita

namespace Audio

theorem map_rectangular {α β : Type} (f : α → β) {a : Audio α} (rect : a.Rectangular) : (a.map f).Rectangular where
  depth := rect.depth
  width := (Array.size_map ..).trans rect.width
  height c member := by
    obtain ⟨d, there, rfl⟩ := Array.mem_map.mp member
    exact (Array.size_map ..).trans (rect.height d there)

end Audio

namespace Wave

def clip (x : ℚ) : ℚ := min (max x (-1)) 1

/-- The level that an integer stands for, in parts of the extreme of its side. -/
def levelOf (v : ℤ) : ℚ := if 0 ≤ v then v / 32767 else v / 32768

def InRange (v : ℤ) : Prop := -32768 ≤ v ∧ v ≤ 32767

theorem clip_mem (x : ℚ) : -1 ≤ clip x ∧ clip x ≤ 1 := ⟨le_min (le_max_right _ _) (by norm_num), min_le_right _ _⟩

theorem clip_mono {x y : ℚ} (ordered : x ≤ y) : clip x ≤ clip y := min_le_min_right _ (max_le_max_right _ ordered)

theorem clip_eq_self {x : ℚ} (low : -1 ≤ x) (high : x ≤ 1) : clip x = x := by
  rw [clip, max_eq_left low, min_eq_left high]

theorem levelOf_nonpos {v : ℤ} (below : v ≤ 0) : levelOf v = v / 32768 := by
  rcases below.lt_or_eq with less | rfl
  · rw [levelOf, if_neg (not_le.mpr less)]
  · norm_num [levelOf]

theorem clamp_eq_clip (x : ℚ) : Scalar.clamp (-1) 1 x = clip x := by
  rw [Scalar.clamp, Scalar.min_eq, Scalar.max_eq]
  rfl

/-- Levels are scaled on either side of zero to its own extreme, and cut off. -/
theorem quantizeOr_eq (x : ℚ) : quantizeOr x = if clip x < 0 then -⌊-clip x * 32768⌋ else ⌊clip x * 32767⌋ := by
  have cut (y : ℚ) : Scalar.toInt y = .ok (if y < 0 then -⌊-y⌋ else ⌊y⌋) := rfl
  have scaled : quantize x = Scalar.toInt (if clip x < 0 then clip x * 32768 else clip x * 32767) := by
    rw [← clamp_eq_clip]
    rfl
  rw [quantizeOr, scaled]
  split
  · have below : clip x * 32768 < 0 := by linarith
    simp only [cut, if_pos below, neg_mul]
    rfl
  · have above : ¬ clip x * 32767 < 0 := by linarith
    simp only [cut, if_neg above]
    rfl

/-- The integer of a level, told for either side of zero. -/
theorem quantizeOr_cases (x : ℚ) :
    (clip x < 0 ∧ ∃ n : ℤ, quantizeOr x = -n ∧ 0 ≤ n ∧ n ≤ 32768 ∧
        (n : ℚ) ≤ -clip x * 32768 ∧ -clip x * 32768 < n + 1) ∨
      (0 ≤ clip x ∧ ∃ n : ℤ, quantizeOr x = n ∧ 0 ≤ n ∧ n ≤ 32767 ∧
        (n : ℚ) ≤ clip x * 32767 ∧ clip x * 32767 < n + 1) := by
  obtain ⟨low, high⟩ := clip_mem x
  rcases lt_or_ge (clip x) 0 with below | above
  · refine .inl ⟨below, _, (quantizeOr_eq x).trans (if_pos below), ?_, ?_, Int.floor_le _, Int.lt_floor_add_one _⟩
    · exact Int.floor_nonneg.mpr (by linarith)
    · exact Int.floor_le_iff.mpr (by push_cast; linarith)
  · refine .inr ⟨above, _, (quantizeOr_eq x).trans (if_neg (not_lt.mpr above)), ?_, ?_, Int.floor_le _,
      Int.lt_floor_add_one _⟩
    · exact Int.floor_nonneg.mpr (by linarith)
    · exact Int.floor_le_iff.mpr (by push_cast; linarith)

theorem quantizeOr_inRange (x : ℚ) : InRange (quantizeOr x) := by
  rcases quantizeOr_cases x with ⟨-, n, rounded, least, most, -⟩ | ⟨-, n, rounded, least, most, -⟩ <;>
    rw [rounded, InRange] <;> omega

theorem quantizeOr_mono {x y : ℚ} (ordered : x ≤ y) : quantizeOr x ≤ quantizeOr y := by
  have clipped := clip_mono ordered
  rw [quantizeOr_eq, quantizeOr_eq]
  split_ifs with first second second
  · exact neg_le_neg (Int.floor_le_floor (by linarith))
  · have : 0 ≤ ⌊-clip x * 32768⌋ := Int.floor_nonneg.mpr (by linarith)
    have : 0 ≤ ⌊clip y * 32767⌋ := Int.floor_nonneg.mpr (by linarith)
    omega
  · linarith
  · exact Int.floor_le_floor (by linarith)

/-- What an integer stands for is closer to zero than the level it was made of, and less
than a step away. -/
theorem levelOf_quantizeOr (x : ℚ) :
    |levelOf (quantizeOr x)| ≤ |clip x| ∧ |levelOf (quantizeOr x) - clip x| < 1 / 32767 := by
  rcases quantizeOr_cases x with ⟨below, n, rounded, least, -, low, high⟩ | ⟨above, n, rounded, least, -, low, high⟩
  · have level : levelOf (quantizeOr x) = -(n / 32768) := by
      rw [rounded, levelOf_nonpos (by omega)]
      push_cast
      ring
    have positive : (0 : ℚ) ≤ n := by exact_mod_cast least
    have inner : (n : ℚ) / 32768 ≤ -clip x := by linarith
    have near : -clip x - n / 32768 < 1 / 32767 := by linarith
    rw [level, abs_neg, abs_of_nonneg (by positivity), abs_of_neg below, abs_of_nonneg (by linarith)]
    exact ⟨inner, by linarith⟩
  · have level : levelOf (quantizeOr x) = n / 32767 := by rw [rounded, levelOf, if_pos least]
    have positive : (0 : ℚ) ≤ n := by exact_mod_cast least
    have inner : (n : ℚ) / 32767 ≤ clip x := by linarith
    rw [level, abs_of_nonneg (by positivity), abs_of_nonneg above, abs_of_nonpos (by linarith)]
    exact ⟨inner, by linarith⟩

/-- An integer is the one that its own level is encoded as. -/
theorem quantizeOr_levelOf {v : ℤ} (fits : InRange v) : quantizeOr (levelOf v) = v := by
  obtain ⟨low, high⟩ := fits
  have low : (-32768 : ℚ) ≤ v := by exact_mod_cast low
  have high : (v : ℚ) ≤ 32767 := by exact_mod_cast high
  rw [quantizeOr_eq]
  rcases lt_or_ge v 0 with below | above
  · have negative : (v : ℚ) < 0 := by exact_mod_cast below
    have level : levelOf v = v / 32768 := levelOf_nonpos below.le
    have whole : -(v / 32768 : ℚ) * 32768 = ((-v : ℤ) : ℚ) := by push_cast; ring
    rw [level, clip_eq_self (by linarith) (by linarith), if_pos (by linarith), whole, Int.floor_intCast, neg_neg]
  · have positive : (0 : ℚ) ≤ v := by exact_mod_cast above
    have level : levelOf v = v / 32767 := if_pos above
    have whole : (v / 32767 : ℚ) * 32767 = v := by ring
    rw [level, clip_eq_self (by linarith) (by linarith), if_neg (by linarith), whole, Int.floor_intCast]

/-- The two bytes of an integer hold it in two's complement. -/
theorem ofBytesSigned_integerBytes {v : ℤ} (fits : InRange v) : ofBytesSigned (integerBytes v) = v := by
  obtain ⟨low, high⟩ := fits
  rw [ofBytesSigned, integerBytes, ofBytes_bytesOf, length_bytesOf]
  simp only [Nat.pow_eq]
  split <;> omega

theorem levelOf_zero : levelOf 0 = 0 := by norm_num [levelOf]

/-- The levels of integers stand in the places of the integers. -/
theorem framesOf_map_levelOf {b : Audio ℤ} (rect : b.Rectangular) (few : b.channelCount = 1 ∨ b.channelCount = 2) :
    framesOf (b.map levelOf) = b.interleaved.toList.map levelOf := by
  have level (c : Array ℤ) (i : ℕ) : (c.map levelOf).getD i 0 = levelOf (c.getD i 0) := by
    by_cases here : i < c.size <;> simp [here, levelOf_zero]
  rw [rect.interleaved few, framesOf, List.map_flatMap]
  refine List.flatMap_congr fun i _ => ?_
  simp only [Audio.map, Array.toList_map, List.map_map]
  exact List.map_congr_left fun c _ => level c i

theorem payload_bytes_of_encoded {a : Audio ℚ} (rect : a.Rectangular) {rate : ℤ} {file : File ℚ}
    (encoded : encode a rate false = .ok file) :
    file.payload.bytes = (framesOf a).flatMap fun x => integerBytes (quantizeOr x) := by
  rw [encode_eq rect] at encoded
  split at encoded
  · split at encoded
    · obtain rfl := Except.ok.inj encoded
      simp [payloadOf, Payload.bytes, List.flatMap_map]
    · cases encoded
  · cases encoded

/-- Samples are encoded frame by frame in two bytes each, as integers of sixteen bits that
grow with the samples and stand for levels no further from zero, less than a step away; and
the levels of integers are encoded as the bytes of these integers. -/
theorem integers_are_exact {a : Audio ℚ} (rect : a.Rectangular) (few : a.channelCount = 1 ∨ a.channelCount = 2)
    (rate : ℤ) :
    ((∃ file, encode a rate false = .ok file) ↔ (headerOf a rate false).fits = true) ∧
      (∀ file, encode a rate false = .ok file →
        file.payload.bytes = (framesOf a).flatMap fun x => integerBytes (quantizeOr x)) ∧
      (∀ x : ℚ, InRange (quantizeOr x) ∧ ofBytesSigned (integerBytes (quantizeOr x)) = quantizeOr x ∧
        |levelOf (quantizeOr x)| ≤ |clip x| ∧ |levelOf (quantizeOr x) - clip x| < 1 / 32767) ∧
      (∀ x y : ℚ, x ≤ y → quantizeOr x ≤ quantizeOr y) ∧
      ∀ b : Audio ℤ, b.Rectangular → (b.channelCount = 1 ∨ b.channelCount = 2) →
        (∀ v ∈ b.interleaved, InRange v) → ∀ file, encode (b.map levelOf) rate false = .ok file →
          file.payload.bytes = b.interleaved.toList.flatMap integerBytes := by
  refine ⟨?_, fun file => payload_bytes_of_encoded rect, fun x => ?_, fun x y => quantizeOr_mono, ?_⟩
  · rw [encode_eq rect, if_pos few]
    constructor
    · rintro ⟨file, encoded⟩
      by_contra refused
      rw [if_neg refused] at encoded
      cases encoded
    · exact fun fits => ⟨_, if_pos fits⟩
  · obtain ⟨inner, near⟩ := levelOf_quantizeOr x
    exact ⟨quantizeOr_inRange x, ofBytesSigned_integerBytes (quantizeOr_inRange x), inner, near⟩
  · intro b rect few fits file encoded
    rw [payload_bytes_of_encoded (Audio.map_rectangular levelOf rect) encoded, framesOf_map_levelOf rect few,
      List.flatMap_map]
    refine List.flatMap_congr fun v member => ?_
    rw [quantizeOr_levelOf (fits v (Array.mem_toList_iff.mp member))]

def steps : Audio ℤ := ⟨[3, 2], #[#[-32768, -1, 0], #[32767, 1, -16384]]⟩

theorem integers_are_exact_steps : duet.Rectangular ∧ duet.channelCount = 2 ∧ steps.Rectangular ∧
    steps.channelCount = 2 ∧ (∀ v ∈ steps.interleaved, InRange v) ∧
    (∃ file, encode duet 8000 false = .ok file) ∧
    ∃ file, encode (steps.map levelOf) 8000 false = .ok file ∧
      file.payload.bytes = steps.interleaved.toList.flatMap integerBytes := by
  have rect : duet.Rectangular := ⟨by decide, by decide, by decide⟩
  have whole : steps.Rectangular := ⟨by decide, by decide, by decide⟩
  have fits : ∀ v ∈ steps.interleaved, InRange v := by
    intro v member
    have : v ∈ [-32768, 32767, -1, 1, 0, -16384] := by
      rw [← Array.mem_toList_iff, whole.interleaved (.inr rfl)] at member
      exact member
    simp only [List.mem_cons, List.not_mem_nil, or_false] at this
    unfold InRange
    omega
  obtain ⟨encodes, -, -, -, again⟩ := integers_are_exact rect (.inr rfl) 8000
  have levels := Audio.map_rectangular levelOf whole
  obtain ⟨file, encoded⟩ := (integers_are_exact levels (.inr rfl) 8000).1.mpr (by decide)
  exact ⟨rect, rfl, whole, rfl, fits, encodes.mpr (by decide), file, encoded,
    again steps whole (.inr rfl) fits file encoded⟩

end Wave

end Partita
