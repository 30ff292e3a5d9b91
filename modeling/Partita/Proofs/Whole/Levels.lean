import Partita.Proofs.Mix.Faults
import Partita.Proofs.Signal.Limiter
import Partita.Proofs.Whole

/-! Compressor and limiter on whole arrays. The peaks of frames are continued with silence
to whole blocks and laid out as a table with a row for each block; the gain of each row is
repeated for all frames of the block, and cut where the signal ends. -/
namespace Partita.Whole

open Signal

section definitions

variable {α : Type} [Scalar α]

/-- The peaks of frames, over one channel or more. -/
def framePeaks : List (Array α) → Except Fault (Array α)
  | [] => .error .lengthMismatch
  | first :: rest => rest.foldlM (fun top c => zip Scalar.peak top (c.map Scalar.abs)) (first.map Scalar.abs)

def rowPeak (row : Array α) : α := row.foldl Scalar.peak (row.getD 0 0)

def padded (x : Array α) (size : ℕ) : Array α := x ++ Array.replicate (size - x.size) 0

def blockLevels (channels : List (Array α)) (block : ℕ) : Except Fault (Array α) := do
  let peaks ← framePeaks channels
  let count := (peaks.size + block - 1) / block
  let rows ← reshape (padded peaks (count * block)) count block
  let least : α := 1e-5
  let scale : α := 20
  return rows.map fun row => scale * Scalar.log10 (Scalar.peak (rowPeak row) least)

def reduced (channels : List (Array α)) (reduction : Array α) (block : ℕ) : Except Fault (Reduced α) := do
  let gains := repeatEach (reduction.map gainOf) block
  let turned ← channels.mapM fun c => zip (· * ·) c (gains.extract 0 c.size)
  return ⟨turned, reduction.foldl Scalar.peak 0, reduction.back?.getD 0⟩

def compress (channels : List (Array α)) (threshold ratio attack release : α) (rate : ℤ) (block : ℕ) :
    Except Fault (Reduced α) := do
  if (channels.headD #[]).size == 0 || ratio ≤ 1 then return ⟨channels, 0, 0⟩
  let seconds ← blockSeconds block rate
  let factor := 1 - 1 / ratio
  let levels ← blockLevels channels block
  let targets := levels.map fun level => Scalar.max (level - threshold) 0 * factor
  reduced channels (smooth targets (keep seconds attack) (keep seconds release)) block

def limit (channels : List (Array α)) (threshold release : α) (rate : ℤ) (block : ℕ) :
    Except Fault (Reduced α) := do
  if (channels.headD #[]).size == 0 then return ⟨channels, 0, 0⟩
  let seconds ← blockSeconds block rate
  let levels ← blockLevels channels block
  let targets := levels.map fun level => Scalar.max (level - threshold) 0
  let reduction ← zip Scalar.peak (smooth targets 0 (keep seconds release)) targets
  reduced channels reduction block

end definitions

section gains

variable {α : Type} [Scalar α] {frames block : ℕ}

/-- The blocks of a signal reach to its end. -/
theorem blocks_cover (frames : ℕ) (grouped : 0 < block) : frames ≤ (frames + block - 1) / block * block := by
  have whole := Nat.div_add_mod (frames + block - 1) block
  have rest := Nat.mod_lt (frames + block - 1) grouped
  rw [Nat.mul_comm] at whole
  omega

theorem size_padded {x : Array α} {size : ℕ} (fits : x.size ≤ size) : (padded x size).size = size := by
  simp only [padded, Array.size_append, Array.size_replicate]
  omega

omit [Scalar α] in
/-- The first channel tells the length. -/
theorem size_headD {channels : List (Array α)} (some : channels ≠ []) (framed : ∀ c ∈ channels, c.size = frames) :
    (channels.headD #[]).size = frames := by
  obtain ⟨first, rest, rfl⟩ := List.exists_cons_of_ne_nil some
  exact framed first (by simp)

/-- Repeated for its block and cut at the end, a gain meets the frames it is for. -/
theorem zip_gains {c : Array α} (framed : c.size = frames) (grouped : 0 < block) {reduction : Array α}
    (enough : reduction.size = (frames + block - 1) / block) :
    zip (· * ·) c ((repeatEach (reduction.map gainOf) block).extract 0 c.size) = .ok (gained reduction block c) := by
  have covered : frames ≤ reduction.size * block := enough ▸ blocks_cover frames grouped
  have same : c.size = ((repeatEach (reduction.map gainOf) block).extract 0 c.size).size := by
    rw [Array.size_extract, size_repeatEach, Array.size_map]
    omega
  rw [zip_ok same]
  refine congrArg Except.ok (Array.ext ?_ fun i inside here => ?_)
  · rw [Array.size_zipWith, ← same, size_gained, Nat.min_self]
  · have below : i < c.size := by rwa [size_gained] at here
    have there : i / block < (reduction.map gainOf).size := by
      rw [Array.size_map, enough]
      exact block_lt grouped (framed ▸ below)
    simp only [Array.getElem_zipWith, Array.getElem_extract, Nat.zero_add, getElem_repeatEach grouped there, gained,
      Array.getElem_mapIdx, Array.getD, there, dif_pos]
    rfl

theorem reduced_ok {channels : List (Array α)} (framed : ∀ c ∈ channels, c.size = frames) (grouped : 0 < block)
    {reduction : Array α} (enough : reduction.size = (frames + block - 1) / block) :
    reduced channels reduction block = .ok (Signal.reduced channels reduction block) := by
  unfold reduced
  dsimp only
  rw [mapM_ok fun c member => zip_gains (framed c member) grouped enough]
  rfl

/-- One channel after the other, the peaks of all frames grow together. -/
theorem foldPeaks_ok {rest : List (Array α)} (framed : ∀ c ∈ rest, c.size = frames) {top : Array α}
    (whole : top.size = frames) : ∃ peaks,
      rest.foldlM (fun top c => zip Scalar.peak top (c.map Scalar.abs)) top = .ok peaks ∧ peaks.size = frames ∧
        ∀ i < frames, peaks.getD i 0 =
          rest.foldl (fun top c => Scalar.peak top (Scalar.abs (c.getD i 0))) (top.getD i 0) := by
  induction rest generalizing top with
  | nil => exact ⟨top, rfl, whole, fun i _ => rfl⟩
  | cons c rest ih =>
    have size : c.size = frames := framed c (by simp)
    have same : top.size = (c.map Scalar.abs).size := by rw [Array.size_map, whole, size]
    have kept : (Array.zipWith Scalar.peak top (c.map Scalar.abs)).size = frames := by
      rw [Array.size_zipWith, ← same, Nat.min_self, whole]
    obtain ⟨peaks, folded, sized, each⟩ := ih (fun d member => framed d (by simp [member])) kept
    refine ⟨peaks, ?_, sized, fun i inside => ?_⟩
    · rw [List.foldlM_cons, zip_ok same]
      exact folded
    · rw [each i inside, List.foldl_cons]
      simp [Array.getD, inside, whole, size]

end gains

section levels

variable [Exact.Venue] {frames block : ℕ}

open Exact

theorem framePeak_nonneg (channels : List (Array ℝ)) (i : ℕ) : 0 ≤ framePeak channels i :=
  (framePeak_le_iff.mp le_rfl).1

theorem framePeaks_ok {channels : List (Array ℝ)} (some : channels ≠ []) (framed : ∀ c ∈ channels, c.size = frames) :
    ∃ peaks, framePeaks channels = .ok peaks ∧ peaks.size = frames ∧
      ∀ i (inside : i < peaks.size), peaks[i] = framePeak channels i := by
  obtain ⟨first, rest, rfl⟩ := List.exists_cons_of_ne_nil some
  have size : first.size = frames := framed first (by simp)
  have others : ∀ c ∈ rest, c.size = frames := fun c member => framed c (by simp [member])
  have whole : (first.map Scalar.abs).size = frames := by rw [Array.size_map, size]
  obtain ⟨peaks, folded, sized, each⟩ := foldPeaks_ok others whole
  refine ⟨peaks, folded, sized, fun i inside => ?_⟩
  have here : i < first.size := by omega
  -- the first channel is compared with silence, which is never above it
  have start (x : ℝ) : Scalar.peak (@OfNat.ofNat ℝ 0 (Scalar.instOfNat 0)) (Scalar.abs x) = Scalar.abs x := by
    rw [real_peak, real_abs, real_natural, Nat.cast_zero, max_eq_right (abs_nonneg _)]
  have mapped (z : ℝ) : (first.map Scalar.abs).getD i z = Scalar.abs (first.getD i z) := by simp [Array.getD, here]
  rw [Array.getElem_eq_getD (@OfNat.ofNat ℝ 0 (Scalar.instOfNat 0)), each i (sized ▸ inside), framePeak,
    List.foldl_cons, start, mapped]

theorem rowPeak_le_iff {row : Array ℝ} (some : 0 < row.size) {b : ℝ} :
    rowPeak row ≤ b ↔ ∀ i (inside : i < row.size), row[i] ≤ b := by
  have first (x : ℝ) : row.getD 0 x = row[0] := by simp [Array.getD, some]
  rw [rowPeak, ← Array.foldl_toList, first]
  refine (foldl_peak_le_iff (f := fun x : ℝ => x)).trans ⟨fun ⟨_, all⟩ i inside => ?_, fun all => ⟨all 0 some, ?_⟩⟩
  · exact all _ (Array.getElem_mem_toList inside)
  · intro x member
    obtain ⟨i, inside, rfl⟩ := Array.mem_iff_getElem.mp (Array.mem_toList_iff.mp member)
    exact all i inside

theorem getElem_padded {x : Array ℝ} {size i : ℕ} (inside : i < (padded x size).size) :
    (padded x size)[i] = if here : i < x.size then x[i] else 0 := by
  unfold padded
  simp only [Array.getElem_append, Array.getElem_replicate, real_natural, Nat.cast_zero]

/-- The largest number in a row of the padded peaks is the peak of the block. -/
theorem rowPeak_eq {channels : List (Array ℝ)} {peaks : Array ℝ} (sized : peaks.size = frames)
    (each : ∀ i (inside : i < peaks.size), peaks[i] = framePeak channels i) (grouped : 0 < block) {k : ℕ}
    (there : k < (frames + block - 1) / block) :
    rowPeak ((padded peaks ((frames + block - 1) / block * block)).extract (block * k) (block * k + block)) =
      blockPeak channels frames block k := by
  have row : block * k + block ≤ (frames + block - 1) / block * block := by
    rw [← Nat.mul_succ, Nat.mul_comm]
    exact Nat.mul_le_mul_right block there
  have begun : block * k < frames := by
    have reached := (Nat.mul_le_mul_right block there).trans (Nat.div_mul_le_self (frames + block - 1) block)
    rw [Nat.succ_mul, Nat.mul_comm] at reached
    omega
  have long := size_padded (sized ▸ blocks_cover frames grouped : peaks.size ≤ (frames + block - 1) / block * block)
  have width : ((padded peaks ((frames + block - 1) / block * block)).extract (block * k) (block * k + block)).size =
      block := by
    rw [Array.size_extract, long]
    omega
  refine eq_of_forall_ge_iff fun b => ?_
  rw [rowPeak_le_iff (by omega), blockPeak_le_iff]
  simp only [Array.getElem_extract, getElem_padded, each, sized, width]
  constructor
  · intro all
    have within (j : ℕ) (inside : j < min block (frames - block * k)) : framePeak channels (block * k + j) ≤ b := by
      have := all j (by omega)
      rwa [dif_pos (by omega)] at this
    exact ⟨(framePeak_nonneg channels _).trans (within 0 (by omega)), within⟩
  · rintro ⟨above, within⟩ j inside
    split
    · exact within j (by omega)
    · exact above

theorem blockLevels_ok {channels : List (Array ℝ)} (some : channels ≠ []) (framed : ∀ c ∈ channels, c.size = frames)
    (grouped : 0 < block) : blockLevels channels block = .ok (Signal.blockLevels channels frames block) := by
  obtain ⟨peaks, found, sized, each⟩ := framePeaks_ok some framed
  have whole := size_padded (sized ▸ blocks_cover frames grouped : peaks.size ≤ (frames + block - 1) / block * block)
  unfold blockLevels
  rw [found]
  simp only [bind, Except.bind, sized, reshape, if_pos whole]
  refine congrArg Except.ok (Array.ext (by simp [Signal.blockLevels, sized]) fun k inside here => ?_)
  have there : k < (frames + block - 1) / block := by rwa [size_blockLevels] at here
  simp only [Array.getElem_map, Array.getElem_ofFn, Signal.blockLevels, rowPeak_eq sized each grouped there]

/-- Channels of a length, as many as before. -/
def Framed (frames count : ℕ) (r : Reduced ℝ) : Prop := r.channels.length = count ∧ ∀ c ∈ r.channels, c.size = frames

theorem reduced_agrees {channels : List (Array ℝ)} (framed : ∀ c ∈ channels, c.size = frames) (grouped : 0 < block)
    {reduction : Array ℝ} (enough : reduction.size = (frames + block - 1) / block) :
    Agrees (Framed frames channels.length) (reduced channels reduction block)
      (.ok (Signal.reduced channels reduction block)) := by
  refine .of_ok (reduced_ok framed grouped enough) ⟨List.length_map _, ?_⟩
  rw [reduced_channels, List.forall_mem_map]
  exact fun c member => (size_gained ..).trans (framed c member)

theorem compress_agrees {channels : List (Array ℝ)} (some : channels ≠ []) (framed : ∀ c ∈ channels, c.size = frames)
    (grouped : 0 < block) {rate : ℤ} (positive : 0 < rate) (threshold ratio attack release : ℝ) :
    Agrees (Framed frames channels.length) (compress channels threshold ratio attack release rate block)
      (Signal.compress channels frames threshold ratio attack release rate block) := by
  unfold compress Signal.compress
  rw [size_headD some framed, blockSeconds_ok grouped.ne' positive, blockLevels_ok some framed grouped]
  refine .ite (fun _ => .pure ⟨rfl, framed⟩) fun _ => reduced_agrees framed grouped ?_
  rw [size_smooth, Array.size_map, size_blockLevels]

theorem limit_agrees {channels : List (Array ℝ)} (some : channels ≠ []) (framed : ∀ c ∈ channels, c.size = frames)
    (grouped : 0 < block) {rate : ℤ} (positive : 0 < rate) (threshold release : ℝ) :
    Agrees (Framed frames channels.length) (limit channels threshold release rate block)
      (Signal.limit channels frames threshold release rate block) := by
  unfold limit Signal.limit
  rw [size_headD some framed, blockSeconds_ok grouped.ne' positive, blockLevels_ok some framed grouped]
  refine .ite (fun _ => .pure ⟨rfl, framed⟩) fun _ => ?_
  refine .bind_ok (zip_ok (size_smooth ..) _) (reduced_agrees framed grouped ?_)
  rw [Array.size_zipWith, size_smooth, Nat.min_self, Array.size_map, size_blockLevels]

end levels

end Partita.Whole
