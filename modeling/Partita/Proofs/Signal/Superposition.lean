import Partita.Proofs.Whole

/-! Mixing is superposition. What a note adds to a frame of a buffer depends on the note, on
where it starts, on the sample rate and on the length of the buffer, never on what the buffer
already holds. Notes may therefore be added in any order; the buffer ends up with the sum of
what each of them adds alone. -/
namespace Partita

namespace Audio

section shape

variable {α : Type}

/-- One channel without an axis of its own, or any number of them along an axis, all as long
as the shape says. -/
structure Regular (a : Audio α) : Prop where
  shape : a.shape = [a.frames] ∧ a.columns.size = 1 ∨ a.shape = [a.frames, a.columns.size]
  framed : ∀ c ∈ a.columns, c.size = a.frames

def channel (a : Audio α) (k : ℕ) : Array α := a.columns.getD (if a.columns.size = 1 then 0 else k) #[]

/-- A note can be added to a buffer if it has the same axes, and as many channels or a single one. -/
def Takes (buffer note : Audio α) : Prop :=
  note.isMono = buffer.isMono ∧ (note.columns.size = 1 ∨ note.columns.size = buffer.columns.size)

variable {a buffer note : Audio α}

theorem Regular.size_channel_le (regular : a.Regular) (k : ℕ) : (a.channel k).size ≤ a.frames := by
  unfold channel
  generalize (if a.columns.size = 1 then 0 else k) = place
  by_cases inside : place < a.columns.size
  · rw [← Array.getElem_eq_getD (h := inside)]
    exact (regular.framed _ (Array.getElem_mem inside)).le
  · simp [Array.getD, inside]

/-- The channels of a note as they meet those of a buffer. -/
theorem spread_eq (regular : buffer.Regular) (takes : buffer.Takes note) :
    (if (!note.isMono && note.columns.size == 1) = true then
      Array.replicate buffer.columns.size (note.columns.getD 0 #[]) else note.columns) =
        Array.ofFn fun k : Fin buffer.columns.size => note.channel k := by
  obtain ⟨alike, paired⟩ := takes
  by_cases single : note.columns.size = 1
  · have all (k : ℕ) : note.channel k = note.columns.getD 0 #[] := by rw [channel, if_pos single]
    simp only [single, all, beq_self_eq_true, Bool.and_true]
    split
    · exact Array.ext (by simp) fun k _ _ => by simp
    · rename_i mono
      have one : buffer.columns.size = 1 := by
        obtain ⟨-, one⟩ | deep := regular.shape
        · exact one
        · rw [alike] at mono
          simp [isMono, deep] at mono
      refine Array.ext (by simp [single, one]) fun k inside _ => ?_
      obtain rfl : k = 0 := by omega
      simp [Array.getD, single]
  · have many : note.columns.size = buffer.columns.size := paired.resolve_left single
    rw [if_neg (by simp [single])]
    refine Array.ext (by simp [many]) fun k inside _ => ?_
    simp [channel, single, Array.getD, inside]

end shape

noncomputable def superpose (a : Audio ℝ) (f : ℕ → ℕ → ℝ) : Audio ℝ :=
  a.withColumns (a.columns.mapIdx fun k c => c.mapIdx fun i x => x + f k i)

section superpose

variable (a : Audio ℝ) (f g : ℕ → ℕ → ℝ)

@[simp]
theorem frames_superpose : (a.superpose f).frames = a.frames := rfl

@[simp]
theorem isMono_superpose : (a.superpose f).isMono = a.isMono := rfl

@[simp]
theorem size_superpose : (a.superpose f).columns.size = a.columns.size := Array.size_mapIdx

theorem superpose_superpose : (a.superpose f).superpose g = a.superpose fun k i => f k i + g k i := by
  have columns : ((a.superpose f).superpose g).columns = (a.superpose fun k i => f k i + g k i).columns := by
    refine Array.ext (by simp) fun k _ _ => Array.ext (by simp [superpose, withColumns]) fun i _ _ => ?_
    simp only [superpose, withColumns, Array.getElem_mapIdx, add_assoc]
  exact congrArg (Audio.mk a.shape) columns

theorem superpose_silence : (a.superpose fun _ _ => 0) = a := by
  have columns : (a.superpose fun _ _ => 0).columns = a.columns := by
    refine Array.ext (by simp) fun k _ _ => Array.ext (by simp [superpose, withColumns]) fun i _ _ => ?_
    simp only [superpose, withColumns, Array.getElem_mapIdx, add_zero]
  exact congrArg (Audio.mk a.shape) columns

variable {a}

theorem getD_superpose {k i : ℕ} (inside : i < (a.channel k).size) : ((a.superpose f).channel k).getD i 0 =
    (a.channel k).getD i 0 + f (if a.columns.size = 1 then 0 else k) i := by
  unfold channel at inside ⊢
  rw [size_superpose]
  generalize (if a.columns.size = 1 then 0 else k) = place at inside ⊢
  by_cases there : place < a.columns.size
  · have inside : i < a.columns[place].size := by simpa [Array.getD, there] using inside
    simp [superpose, withColumns, Array.getD, there, inside]
  · simp [Array.getD, there] at inside

theorem size_channel_superpose (k : ℕ) : ((a.superpose f).channel k).size = (a.channel k).size := by
  unfold channel
  rw [size_superpose]
  generalize (if a.columns.size = 1 then 0 else k) = place
  by_cases there : place < a.columns.size <;> simp [superpose, withColumns, Array.getD, there]

theorem getD_superpose_of_silent {k i : ℕ} (silent : ∀ k, f k i = 0) :
    ((a.superpose f).channel k).getD i 0 = (a.channel k).getD i 0 := by
  by_cases inside : i < (a.channel k).size
  · rw [getD_superpose f inside, silent, add_zero]
  · simp [Array.getD, size_channel_superpose, inside]

theorem Regular.superpose (regular : a.Regular) : (a.superpose f).Regular := by
  refine ⟨by rw [size_superpose]; exact regular.shape, fun c member => ?_⟩
  obtain ⟨k, inside, rfl⟩ := Array.mem_mapIdx.mp member
  rw [Array.size_mapIdx]
  exact regular.framed _ (Array.getElem_mem inside)

theorem Takes.superpose {note : Audio ℝ} (takes : a.Takes note) : (a.superpose f).Takes note := by
  rwa [Takes, isMono_superpose, size_superpose]

end superpose

end Audio

namespace Signal

/-- The gain of a sample of a note that is cut after `available` samples: over the last
hundredth of a second of what is left, and over a quarter of it at most, it falls evenly to
nothing. -/
noncomputable def cutGain (rate : ℤ) (available i : ℕ) : ℝ :=
  let fade := min (rate / 100).toNat (available / 4)
  if 1 < fade ∧ available - fade ≤ i then 1 - (i - (available - fade) : ℕ) / (fade - 1) else 1

/-- What a note that starts at an index adds to a frame of a buffer of `frames` frames: its own
sample there if all of it fits, and a faded one if not. -/
noncomputable def contribution (frames : ℕ) (rate : ℤ) (note : Array ℝ) (start : ℤ) (i : ℕ) : ℝ :=
  if 0 ≤ start ∧ start ≤ i ∧ (i : ℤ) < min (start + note.size) frames then
    note.getD (i - start.toNat) 0 *
      if start + note.size ≤ frames then 1 else cutGain rate (frames - start.toNat) (i - start.toNat)
  else 0

section contribution

variable {frames : ℕ} {rate : ℤ} {note : Array ℝ} {offset : ℕ}

theorem cutGain_short {available : ℕ} (short : ¬ 1 < min (rate / 100).toNat (available / 4)) (i : ℕ) :
    cutGain rate available i = 1 := if_neg fun several => short several.1

theorem contribution_outside {start : ℤ} (outside : start < 0 ∨ (frames : ℤ) ≤ start) (i : ℕ) :
    contribution frames rate note start i = 0 := if_neg (by omega)

theorem contribution_whole (fits : offset + note.size ≤ frames) (i : ℕ) : contribution frames rate note offset i =
    if offset ≤ i ∧ i < offset + note.size then note.getD (i - offset) 0 else 0 := by
  unfold contribution
  rw [if_pos (by omega : (offset : ℤ) + note.size ≤ frames), mul_one, Int.toNat_natCast]
  exact if_congr (by omega) rfl rfl

theorem contribution_cut (long : frames < offset + note.size) (i : ℕ) : contribution frames rate note offset i =
    if offset ≤ i ∧ i < frames then note.getD (i - offset) 0 * cutGain rate (frames - offset) (i - offset) else 0 := by
  unfold contribution
  rw [if_neg (by omega : ¬ (offset : ℤ) + note.size ≤ frames), Int.toNat_natCast]
  exact if_congr (by omega) rfl rfl

end contribution

open Exact

variable [Venue]

theorem fadeLength_eq (rate : ℤ) (available : ℕ) :
    @fadeLength ℝ _ rate available = .ok (min (rate / 100).toNat (available / 4)) := by
  have hundredth : Scalar.ofInt rate * @OfScientific.ofScientific ℝ Scalar.instOfScientific 1 true 2 =
      (rate : ℝ) / (100 : ℕ) := by
    rw [real_decimal]
    change (rate : ℝ) * _ = _
    push_cast
    ring
  have whole : ⌊(rate : ℝ) / (100 : ℕ)⌋ = rate / 100 := by
    rw [Int.floor_div_natCast, Int.floor_intCast]
    rfl
  unfold fadeLength
  rw [hundredth, toInt_eq]
  refine congrArg Except.ok ?_
  -- a negative rate is rounded towards zero, which still leaves nothing to fade
  split
  · rename_i negative
    have above : ⌈(rate : ℝ) / (100 : ℕ)⌉ ≤ 0 := Int.ceil_le.mpr (by exact_mod_cast negative.le)
    have below : rate / 100 ≤ 0 := by
      rw [← whole]
      exact (Int.floor_le_ceil _).trans above
    omega
  · rw [whole]
    omega

/-- A sample of the fade is the sample times its gain. -/
theorem cutGain_eq {rate : ℤ} {available fade : ℕ} (told : fade = min (rate / 100).toNat (available / 4))
    (several : 1 < fade) (x : ℝ) (i : ℕ) :
    (if i < available - fade then x else x * rampAt 1 0 fade (i - (available - fade))) =
      x * cutGain rate available i := by
  unfold cutGain
  rw [← told]
  by_cases early : i < available - fade
  · rw [if_pos early, if_neg (by omega), mul_one]
  · rw [if_neg early, if_pos ⟨several, by omega⟩, real_ramp 1 0 several]
    ring

theorem addAt_eq (buffer : Array ℝ) (offset : ℕ) (sample : ℕ → ℝ) (count : ℕ) : addAt buffer offset sample count =
    buffer.mapIdx fun i x => x + if offset ≤ i ∧ i < offset + count then sample (i - offset) else 0 := by
  refine Array.ext (by simp) fun i inside here => ?_
  rw [getElem_addAt (by simpa using here), Array.getElem_mapIdx]
  split
  · rfl
  · exact (add_zero _).symm

theorem overlay_superposes (buffer note : Array ℝ) (start rate : ℤ) : overlay buffer note start rate =
    .ok (buffer.mapIdx fun i x => x + contribution buffer.size rate note start i) := by
  unfold overlay
  by_cases outside : start < 0 ∨ (buffer.size : ℤ) ≤ start
  · rw [if_pos (by simpa using outside)]
    refine congrArg Except.ok (Array.ext (by simp) fun i inside here => ?_)
    rw [Array.getElem_mapIdx, contribution_outside outside, add_zero]
  rw [if_neg (by simpa using outside)]
  obtain ⟨offset, rfl⟩ := Int.eq_ofNat_of_zero_le (show 0 ≤ start by omega)
  simp only [Int.toNat_natCast, real_natural, Nat.cast_zero, Nat.cast_one]
  by_cases fits : offset + note.size ≤ buffer.size
  · rw [if_pos fits, addAt_eq]
    simp only [contribution_whole fits]
    rfl
  rw [if_neg fits, fadeLength_eq]
  have room : offset + (buffer.size - offset) = buffer.size := by omega
  simp only [bind, Except.bind, pure, Except.pure, addAt_eq, room, contribution_cut (not_le.mp fits)]
  split
  · rename_i several
    simp only [cutGain_eq rfl several]
  · rename_i short
    simp only [cutGain_short short, mul_one]

theorem overlayAudio_superposes {buffer note : Audio ℝ} (regular : buffer.Regular) (takes : buffer.Takes note)
    (start rate : ℤ) : overlayAudio buffer note start rate =
      .ok (buffer.superpose fun k i => contribution buffer.frames rate (note.channel k) start i) := by
  unfold overlayAudio
  by_cases outside : start < 0 ∨ (buffer.frames : ℤ) ≤ start
  · rw [if_pos (by simpa using outside)]
    simp only [contribution_outside outside, Audio.superpose_silence]
    rfl
  rw [if_neg (by simpa using outside)]
  simp only [Audio.spread_eq regular takes]
  rw [if_neg (by simp [takes.1])]
  have each : ∀ pair ∈ (buffer.columns.zip (Array.ofFn fun k : Fin buffer.columns.size => note.channel k)).toList,
      overlay pair.1 pair.2 start rate =
        .ok (pair.1.mapIdx fun i x => x + contribution buffer.frames rate pair.2 start i) := by
    rintro ⟨c, n⟩ member
    have size : c.size = buffer.frames := regular.framed c (Array.of_mem_zip (Array.mem_toList_iff.mp member)).1
    rw [← size]
    exact overlay_superposes c n start rate
  rw [Array.mapM_eq_mapM_toList, Whole.mapM_ok each]
  refine congrArg (fun columns => Except.ok (buffer.withColumns columns)) (Array.ext (by simp) fun k inside _ => ?_)
  simp

/-- Notes that are added one after the other add up. -/
theorem foldlM_superposes (rate : ℤ) {notes : List (Audio ℝ × ℤ)} {buffer : Audio ℝ} (regular : buffer.Regular)
    (takes : ∀ note ∈ notes, buffer.Takes note.1) :
    notes.foldlM (fun b note => overlayAudio b note.1 note.2 rate) buffer = .ok (buffer.superpose fun k i =>
      (notes.map fun note => contribution buffer.frames rate (note.1.channel k) note.2 i).sum) := by
  induction notes generalizing buffer with
  | nil =>
    simp only [List.map_nil, List.sum_nil, Audio.superpose_silence]
    rfl
  | cons note rest ih =>
    rw [List.foldlM_cons, overlayAudio_superposes regular (takes note (by simp))]
    -- the buffer with the first note has the frames of the buffer without it, and so the same contributions
    have added := ih (regular.superpose fun k i => contribution buffer.frames rate (note.1.channel k) note.2 i)
      fun later member => (takes later (by simp [member])).superpose _
    rw [Audio.superpose_superpose, Audio.frames_superpose] at added
    simp only [List.map_cons, List.sum_cons]
    exact added

/-- A note changes a buffer only where it sounds, and by an amount that the buffer has no part
in but for its length. Notes that are added in any order leave the same buffer, with the sum
of what each of them adds. -/
theorem mixing_superposes (rate : ℤ) {buffer : Audio ℝ} (regular : buffer.Regular) {notes : List (Audio ℝ × ℤ)}
    (fitting : ∀ note ∈ notes, note.1.Regular ∧ buffer.Takes note.1) :
    (∀ note ∈ notes, ∃ out, overlayAudio buffer note.1 note.2 rate = .ok out ∧
      out = buffer.superpose (fun k i => contribution buffer.frames rate (note.1.channel k) note.2 i) ∧
      ∀ k i, (out.channel k).getD i 0 ≠ (buffer.channel k).getD i 0 → 0 ≤ note.2 ∧ note.2 < buffer.frames ∧
        max note.2 0 ≤ i ∧ i < min (note.2 + note.1.frames) buffer.frames) ∧
      ∃ out, (∀ order : List (Audio ℝ × ℤ), order.Perm notes →
        order.foldlM (fun b note => overlayAudio b note.1 note.2 rate) buffer = .ok out) ∧
        out = buffer.superpose fun k i =>
          (notes.map fun note => contribution buffer.frames rate (note.1.channel k) note.2 i).sum := by
  refine ⟨fun note member => ⟨_, overlayAudio_superposes regular (fitting note member).2 note.2 rate, rfl,
    fun k i changed => ?_⟩, _, fun order same => ?_, rfl⟩
  · by_contra elsewhere
    refine changed (Audio.getD_superpose_of_silent _ fun k => if_neg fun sounding => elsewhere ?_)
    have long := (fitting note member).1.size_channel_le k
    omega
  · have takes : ∀ note ∈ order, buffer.Takes note.1 := fun note member => (fitting note (same.subset member)).2
    rw [foldlM_superposes rate regular takes]
    refine congrArg (fun added => Except.ok (buffer.superpose added)) (funext fun k => funext fun i => ?_)
    exact (same.map _).sum_eq

noncomputable def hum : Audio ℝ := ⟨[8, 2], #[Array.replicate 8 1, Array.replicate 8 2]⟩

noncomputable def drone : Audio ℝ := ⟨[20, 1], #[Array.replicate 20 4]⟩

noncomputable def tick : Audio ℝ := ⟨[1, 2], #[#[16], #[32]]⟩

omit [Venue] in
theorem hum_channel {i : ℕ} (inside : i < 8) : (hum.channel 1).getD i 0 = 2 := by
  simp [hum, Audio.channel, Array.getD, inside]

omit [Venue] in
theorem contribution_drone {i : ℕ} (inside : i < 8) :
    contribution hum.frames 1000 (drone.channel 1) 0 i = 4 * cutGain 1000 8 i := by
  have cut : contribution 8 1000 (Array.replicate 20 4) (0 : ℕ) i = _ := contribution_cut (by simp) i
  rw [if_pos ⟨i.zero_le, inside⟩] at cut
  refine cut.trans ?_
  simp [Array.getD, show i < 20 by omega]

omit [Venue] in
theorem contribution_tick (i : ℕ) :
    contribution hum.frames 1000 (tick.channel 1) 7 i = if i = 7 then 32 else 0 := by
  have whole : contribution 8 1000 #[32] (7 : ℕ) i = _ := contribution_whole (by decide) i
  refine whole.trans ?_
  by_cases last : i = 7
  · simp [last]
  · rw [if_neg last, if_neg (by simp; omega)]

omit [Venue] in
theorem mixing_superposes_drone : letI := ideal
    hum.Regular ∧ (∀ note ∈ [(drone, (0 : ℤ)), (tick, 7)], note.1.Regular ∧ hum.Takes note.1) ∧
      ∃ out, [(drone, 0), (tick, 7)].foldlM (fun b note => overlayAudio b note.1 note.2 1000) hum = .ok out ∧
        [(tick, 7), (drone, 0)].foldlM (fun b note => overlayAudio b note.1 note.2 1000) hum = .ok out ∧
        (out.channel 1).getD 5 0 = 6 ∧ (out.channel 1).getD 7 0 = 34 := by
  let venue := ideal
  have regular : hum.Regular := ⟨.inr rfl, by simp [hum, Audio.frames]⟩
  have fitting : ∀ note ∈ [(drone, (0 : ℤ)), (tick, 7)], note.1.Regular ∧ hum.Takes note.1 := by
    simp only [List.mem_cons, List.not_mem_nil, or_false, forall_eq_or_imp, forall_eq]
    exact ⟨⟨⟨.inr rfl, by simp [drone, Audio.frames]⟩, rfl, .inl rfl⟩, ⟨.inr rfl, by simp [tick, Audio.frames]⟩, rfl,
      .inr rfl⟩
  obtain ⟨-, out, ordered, sum⟩ := mixing_superposes 1000 regular fitting
  have long : (hum.channel 1).size = 8 := by simp [hum, Audio.channel]
  have sounding (i : ℕ) (inside : i < 8) :
      (out.channel 1).getD i 0 = 2 + (4 * cutGain 1000 8 i + if i = 7 then 32 else 0) := by
    rw [sum, Audio.getD_superpose _ (long ▸ inside), hum_channel inside, ← contribution_drone inside,
      ← contribution_tick i, if_neg (by decide), List.map_cons, List.map_cons, List.map_nil, List.sum_cons,
      List.sum_cons, List.sum_nil, add_zero]
  refine ⟨regular, fitting, out, ordered _ (.refl _), ordered _ (.swap _ _ _), ?_, ?_⟩
  · rw [sounding 5 (by decide)]
    norm_num [cutGain]
  · rw [sounding 7 (by decide)]
    norm_num [cutGain]

end Signal

end Partita
