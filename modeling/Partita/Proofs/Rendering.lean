import Partita.Proofs.Estimate
import Partita.Proofs.Performance.Budget
import Partita.Studio.Basic

/-! The estimate bounds the performance. Its prices are enough for every line of a script
on whose text an estimate can rely, so that the main block returns before the estimate is
used up, and a render is never cut off. -/
namespace Partita

open Score

/-- Whether a verb can have a deed that takes time or changes it. -/
def Deed.IsOf {α : Type} (verb : String) : Deed α → Prop
  | .pause .. => verb = "wait" ∨ verb = "waitsec"
  | .play _ => verb = "play"
  | .settle => verb = "waitforfinish"
  | .tempo _ => verb = "bpm" ∨ verb = "tempo"
  | _ => True

theorem Score.Command.deed_isOf {α : Type} [Scalar α] (c : Command) (bpm : α) (has : String → Bool)
    (block : String) (position : α) : (c.deed bpm has block position).IsOf c.verb := by
  unfold Command.deed
  split
  all_goals
    repeat' split
    all_goals simp [Deed.IsOf, *]

theorem Estimate.deed_within {bpm : ℚ} (positive : 0 < bpm) {c : Command} (measured : c.isMeasured = true)
    (blocks : Blocks) {price : String → ℚ} (prices : ∀ name, 0 ≤ price name) (has : String → Bool)
    (block : String) (position : ℚ) : (c.deed bpm has block position).Within blocks price (fare bpm price c) := by
  have verb := c.deed_isOf bpm has block position
  constructor
  case nonneg => exact fare_nonneg positive prices measured
  case pause =>
    intro seconds beats deed
    rw [deed] at verb
    obtain ⟨read, nonneg⟩ := commandSeconds_ok positive measured
    obtain rfl := Except.ok.inj ((commandSeconds_of_pause deed).symm.trans read)
    have own : fare bpm price c = timing bpm c := by
      rcases verb with verb | verb <;> simp [fare, verb]
    rw [own, Scalar.max_eq]
    exact max_le nonneg (le_refl _)
  case play =>
    intro names deed child cast
    rw [deed, Deed.IsOf] at verb
    rw [fare, if_pos verb, ← Command.deed_play deed]
    exact le_longest (List.mem_map_of_mem (Blocks.mem_cast.mp cast).1)
  case settle =>
    intro deed
    rw [deed, Deed.IsOf] at verb
    rw [fare, if_neg (by simp [verb]), if_pos verb]
    exact le_refl _
  case tempo =>
    intro bpm deed
    rw [deed] at verb
    rcases verb with verb | verb <;> simp [Command.isMeasured, verb] at measured

theorem Estimate.covers {piece : Piece ℚ} (acyclic : piece.blocks.Acyclic)
    (measured : piece.blocks.isMeasured = true) (positive : 0 < piece.bpm) :
    piece.Covers (lineFare piece.bpm (price piece.blocks piece.bpm)) (price piece.blocks piece.bpm) where
  lines {name lines line} found member position := by
    have prices := seconds_nonneg measured positive piece.blocks.length
    cases parsed : Command.parse? line with
    | none =>
      simp only [lineFare, parsed, Piece.deed_none parsed]
      exact ⟨le_refl 0, by simp, by simp, by simp, by simp⟩
    | some c =>
      have listed : c ∈ commandsOf lines := List.mem_filterMap.mpr ⟨line, member, parsed⟩
      have reliable := (piece.blocks.measured measured found).1 c listed
      simp only [lineFare, parsed, Piece.deed_some parsed]
      exact deed_within positive reliable _ prices _ _ _
  blocks {name lines} reached found := by
    obtain ⟨reliable, flat⟩ := piece.blocks.measured measured found
    have enough := cost_unrolled_le positive (seconds_nonneg measured positive piece.blocks.length) reliable flat
    have tail : (0 : ℚ) ≤ tailSeconds := by decide +kernel
    rw [price_eq acyclic reached found]
    exact enough.trans (le_add_of_nonneg_right tail)

namespace Studio

theorem records_yield (records : Array Record) :
    Yields (forIn records PUnit.unit fun r _ => do
      record (.log r)
      pure (ForInStep.yield PUnit.unit) : StudioM ℚ PUnit) PUnit.unit := by
  rw [← Array.forIn_toList]
  induction records.toList with
  | nil => exact .of_pure _
  | cons r rest ih =>
    rw [List.forIn_cons]
    exact Yields.bind (fun _ => rfl) ih

theorem renderSeconds_of_script {s : Studio ℚ} {whole : ℚ} (main : s.blocks.contains mainName = true)
    (told : Yields (Estimate.script s.blocks s.config.bpm) whole) :
    (runFrom renderSeconds s).1 = .ok (Estimate.renderSeconds whole) := by
  have estimated : (runFrom estimate s).1 = .ok whole := by
    have result := told #[]
    rcases ran : runFrom (Estimate.script s.blocks s.config.bpm) #[] with ⟨outcome, records⟩
    rw [ran] at result
    obtain rfl : outcome = .ok whole := result
    unfold runFrom at ran
    unfold estimate
    rw [runFrom_get_bind, ran]
    exact (records_yield records).bind (.of_pure whole) s
  unfold renderSeconds
  rw [runFrom_get_bind, main]
  rcases ran : runFrom estimate s with ⟨outcome, t⟩
  rw [ran] at estimated
  obtain rfl : outcome = .ok whole := estimated
  exact congrArg Prod.fst (runFrom_bind_ok ran)

/-- A performance that fits into its mix is mixed like one that fills it. -/
theorem finishRender_of_le {m : Mixdown ℚ} {position : ℚ} (fits : position ≤ m.plan.duration) :
    finishRender m position = finishRender m m.plan.duration := by
  unfold finishRender
  rw [if_neg (not_lt.mpr fits), if_neg (lt_irrefl _)]

end Studio

namespace Performance

/-- The estimate bounds the performance: if the text can be relied on and nothing fails or
is stopped, the main block returns within the estimate of its block, in whatever order the
turns are taken, and its render is not cut off. -/
theorem returns_within_estimate {p : Performance ℚ} {time : ℚ} {ms : List (Moment ℚ)} {outcome : Outcome ℚ}
    (prepared : p.Prepared) (tempo : 0 < p.config.bpm) (grace : p.config.finishGrace ≤ 1)
    (acyclic : p.blocks.Acyclic) (measured : p.blocks.isMeasured = true)
    (ran : Execution (p.take ⟨time, .begin⟩) ms) (turns : ∀ m ∈ ms, m.act.actor?.isSome = true)
    (returned : p.returned? time ms = some outcome) :
    ∃ position main whole, outcome = .finished position ∧
      Yields (Estimate.block p.blocks p.config.bpm mainName) main ∧
      Yields (Estimate.script p.blocks p.config.bpm) whole ∧
      position ≤ main ∧ main ≤ whole ∧ whole ≤ Estimate.renderSeconds whole ∧
      (∀ s : Studio ℚ, s.blocks = p.blocks → s.config = p.config → s.blocks.contains mainName = true →
        (runFrom Studio.renderSeconds s).1 = .ok (Estimate.renderSeconds whole)) ∧
      ∀ m : Mixdown ℚ, m.plan.duration = Estimate.renderSeconds whole →
        Studio.finishRender m position = Studio.finishRender m m.plan.duration := by
  have bpm : p.piece.bpm = p.config.bpm := by
    obtain ⟨_, _, _, _, rfl⟩ := prepared.fresh
    rfl
  have covers : p.piece.Covers _ _ := Estimate.covers acyclic measured (bpm ▸ tempo)
  rw [bpm] at covers
  have nonneg := Estimate.seconds_nonneg measured tempo p.blocks.length mainName
  obtain ⟨position, rfl, within⟩ := prepared.returned_le grace covers nonneg ran turns returned
  have longer := Estimate.price_le_script nonneg
  have script := Estimate.script_yields acyclic measured tempo
  have rendered := Estimate.le_renderSeconds (nonneg.trans longer)
  refine ⟨position, _, _, rfl, Estimate.block_yields acyclic measured tempo, script, within, longer, rendered,
    fun s blocks config main => ?_, fun m duration => ?_⟩
  · exact Studio.renderSeconds_of_script main (by rw [blocks, config]; exact script)
  · refine Studio.finishRender_of_le ?_
    rw [duration]
    exact within.trans (longer.trans rendered)

def medley : Performance ℚ :=
  initial [("main", ["play together far near", "loop 3", "waitsec 1", "end", "waitforfinish"]),
    ("far", ["wait 4", "play near"]), ("near", ["tone c4 1", "waitsec 1", "waitforfinish"])] default (.virtual 0) {}

def rehearsed : List (Moment ℚ) :=
  [.wake 0 .go, .step 0, .wake 2 .go, .step 2, .step 2, .wake 2 .go, .step 2, .wake 2 .timeout, .step 2,
    .wake 1 .go, .step 1, .wake 1 .go, .step 1, .wake 3 .go, .step 3, .step 3, .wake 3 .go, .step 3,
    .wake 3 .timeout, .step 3, .wake 1 .go, .step 1, .wake 0 .go, .step 0, .step 0, .wake 0 .go, .step 0, .step 0,
    .wake 0 .go, .step 0, .step 0, .wake 0 .go, .step 0, .step 0, .wake 0 .go, .step 0].map (⟨0, ·⟩)

theorem returns_within_estimate_medley :
    medley.Prepared ∧ 0 < medley.config.bpm ∧ medley.config.finishGrace ≤ 1 ∧ medley.blocks.Acyclic ∧
      medley.blocks.isMeasured = true ∧ Execution (medley.take ⟨0, .begin⟩) rehearsed ∧
      (∀ m ∈ rehearsed, m.act.actor?.isSome = true) ∧
      ∃ outcome, medley.returned? 0 rehearsed = some outcome ∧
        ∃ position main whole, outcome = .finished position ∧
          Yields (Estimate.block medley.blocks medley.config.bpm mainName) main ∧
          Yields (Estimate.script medley.blocks medley.config.bpm) whole ∧
          position ≤ main ∧ main ≤ whole ∧ whole ≤ Estimate.renderSeconds whole := by
  have prepared : medley.Prepared := ⟨⟨_, _, _, _, rfl⟩, rfl, .of_settings rfl rfl rfl⟩
  have tempo : 0 < medley.config.bpm := by decide +kernel
  have grace : medley.config.finishGrace ≤ 1 := by decide +kernel
  have acyclic : medley.blocks.Acyclic :=
    .of_rank (fun name => if name = "main" then 2 else if name = "far" then 1 else 0) (by decide +kernel)
  have measured : medley.blocks.isMeasured = true := by decide +kernel
  have ran : Execution (medley.take ⟨0, .begin⟩) rehearsed := by decide +kernel
  have turns : ∀ m ∈ rehearsed, m.act.actor?.isSome = true := by decide +kernel
  have ends : (medley.returned? 0 rehearsed).isSome = true := by decide +kernel
  obtain ⟨outcome, returned⟩ := Option.isSome_iff_exists.mp ends
  obtain ⟨position, main, whole, finished, block, script, within, longer, rendered, -⟩ :=
    returns_within_estimate prepared tempo grace acyclic measured ran turns returned
  exact ⟨prepared, tempo, grace, acyclic, measured, ran, turns, outcome, returned, position, main, whole, finished,
    block, script, within, longer, rendered⟩

end Performance

end Partita
