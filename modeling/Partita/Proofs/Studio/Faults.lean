import Partita.Proofs.Mix.Faults
import Partita.Studio.Basic

/-! What can go wrong in a studio when a script is rendered. Before there is a mix, the
length of the script may not be told; from there on every fault is one that a render
passes on to its callers or puts into words of its own, unless a note asks for more samples
than an index counts. -/
namespace Partita

open Score

variable {α : Type}

namespace Studio

variable [Scalar α]

def estimated (s : Studio α) (room : Option Nat := none) : Except Fault α :=
  (runFrom (Estimate.script s.blocks s.config.bpm room) #[]).1

omit [Scalar α] in
theorem runFrom_records (s : Studio α) (records : Array Record) : ∃ journal,
    runFrom (forIn records PUnit.unit fun r _ => do
      record (.log r)
      pure (ForInStep.yield PUnit.unit) : StudioM α PUnit) s = (.ok ⟨⟩, { s with journal := journal }) := by
  rw [← Array.forIn_toList]
  induction records.toList generalizing s with
  | nil => exact ⟨s.journal, rfl⟩
  | cons r rest ih =>
    obtain ⟨journal, ran⟩ := ih { s with journal := s.journal.push (.log r) }
    exact ⟨journal, by rw [List.forIn_cons]; exact ran⟩

theorem runFrom_estimate (s : Studio α) (room : Option Nat) : ∃ journal,
    runFrom (estimate room) s = (s.estimated room, { s with journal := journal }) := by
  rcases ran : runFrom (Estimate.script s.blocks s.config.bpm room) #[] with ⟨result, records⟩
  obtain ⟨journal, told⟩ := runFrom_records s records
  refine ⟨journal, ?_⟩
  rw [estimated, ran]
  unfold runFrom at ran
  rw [estimate, runFrom_get_bind, ran]
  dsimp only
  rw [runFrom_bind_ok told]
  cases result <;> rfl

theorem runFrom_renderSeconds (s : Studio α) (room : Option Nat) : ∃ journal, runFrom (renderSeconds room) s =
    (if s.blocks.contains mainName then (s.estimated room).map Estimate.renderSeconds else .error .noMain,
      { s with journal := journal }) := by
  unfold renderSeconds
  rw [runFrom_get_bind]
  cases s.blocks.contains mainName with
  | false => exact ⟨s.journal, rfl⟩
  | true =>
    obtain ⟨journal, told⟩ := runFrom_estimate s room
    change ∃ journal, runFrom (estimate room >>= _) s = _
    cases result : s.estimated room with
    | error f =>
      rw [result] at told
      exact ⟨journal, runFrom_bind_error told⟩
    | ok seconds =>
      rw [result] at told
      rw [runFrom_bind_ok told]
      exact ⟨_, rfl⟩

omit [Scalar α] in
/-- A mix into which samples are put is the same but for its samples. -/
theorem stock_ok {m n : Mixdown α} {samples : List (String × Audio α)} (stocked : stock m samples = .ok n) :
    ∃ stored, n = ⟨m.plan, { m.engine with samples := stored }⟩ := by
  induction samples generalizing m with
  | nil =>
    cases stocked
    exact ⟨_, rfl⟩
  | cons sample rest ih =>
    simp only [stock, List.foldlM_cons, Engine.addSample, bind, Except.bind, pure, Except.pure] at stocked
    cases stored : Engine.sampleOfAudio sample.1 sample.2 with
    | error f =>
      rw [stored] at stocked
      cases stocked
    | ok audio =>
      rw [stored] at stocked
      exact ih (m := ⟨m.plan, { m.engine with samples := assign sample.1 audio m.engine.samples }⟩) stocked

omit [Scalar α] in
theorem stock_confined (m : Mixdown α) (samples : List (String × Audio α)) :
    Confined (fun f => f.kind = "InvalidAudioError") (stock m samples) := by
  refine .foldlM (fun m sample _ => ?_) m
  have stored : Confined (fun f => f.kind = "InvalidAudioError") (Engine.sampleOfAudio sample.1 sample.2) := by
    unfold Engine.sampleOfAudio
    split
    · exact .of_ok _
    · exact .of_ok _
    · exact .of_ok _
    · exact .of_error rfl
  exact (stored.bind fun _ => .of_ok _).bind fun _ => .of_ok _

end Studio

namespace Fault

/-- The faults that a render passes on to its callers or puts into words of its own. -/
def IsTold (f : Fault) : Prop := f.kind ∈ renderKinds ∨ f.kind ∈ failureKinds

instance (f : Fault) : Decidable f.IsTold := inferInstanceAs (Decidable (_ ∨ _))

theorem IsTold.inRender {f : Fault} (told : f.IsTold) : f.inRender.kind ∈ renderKinds := by
  unfold Fault.inRender
  by_cases own : f.kind ∈ renderKinds
  · rwa [if_pos (List.contains_iff_mem.mpr own)]
  · rw [if_neg (by simpa using own), if_pos (List.contains_iff_mem.mpr (told.resolve_left own))]
    simp [kind, renderKinds]

theorem IsNumeric.isTold {f : Fault} (numeric : f.IsNumeric) : f.IsTold := by
  rcases numeric with kind | kind
  · exact .inr (by rw [kind]; decide)
  · exact .inr (by rw [kind]; decide)

end Fault

namespace Studio

variable [Acoustic α]

/-- A studio that mixes at a positive rate, with the tools that come with it. -/
structure Standard (s : Studio α) : Prop where
  positive : 0 < s.config.renderRate
  mixes : s.tools.newMix = Mixdown.ofConfig
  renders : s.tools.render = Mixdown.render

theorem Standard.journal {s : Studio α} (standard : s.Standard) (journal : Array (Event α)) :
    ({ s with journal := journal } : Studio α).Standard :=
  ⟨standard.positive, standard.mixes, standard.renders⟩

theorem runFrom_prepare {s : Studio α} (mixes : s.tools.newMix = Mixdown.ofConfig) (seconds : α) :
    (∃ f, runFrom (prepare seconds) s = (.error f, s) ∧ f.IsTold) ∨
      ∃ m, runFrom (prepare seconds) s = (.ok m, s) ∧ m.plan.rate = s.config.renderRate ∧ m.engine.Stocked := by
  have made :
      runFrom (prepare seconds) s = (Mixdown.ofConfig seconds s.config >>= fun m => stock m s.samples, s) := by
    rw [prepare, runFrom_get_bind, mixes]
    cases Mixdown.ofConfig seconds s.config >>= fun m => stock m s.samples <;> rfl
  rw [made]
  cases planned : MixPlan.ofConfig seconds s.config with
  | error f =>
    refine .inl ⟨f, by simp [Mixdown.ofConfig, planned, Except.map, bind, Except.bind], ?_⟩
    have sized : Confined Fault.IsTold (MixPlan.ofConfig seconds s.config) :=
      .of_if (fun _ => .of_error (.inl (by simp [Fault.kind, Fault.renderKinds]))) fun _ => .of_ok _
    exact sized f planned
  | ok plan =>
    have rate : plan.rate = s.config.renderRate := by
      unfold MixPlan.ofConfig MixPlan.make at planned
      split at planned
      · cases planned
      · cases planned
        rfl
    have same : (Mixdown.ofConfig seconds s.config >>= fun m => stock m s.samples) =
        stock (Mixdown.ofPlan plan) s.samples := by
      simp [Mixdown.ofConfig, planned, Except.map, bind, Except.bind]
    rw [same]
    cases stocked : stock (Mixdown.ofPlan plan) s.samples with
    | error f =>
      have kind := stock_confined _ _ f stocked
      exact .inl ⟨f, rfl, .inr (by rw [kind]; decide)⟩
    | ok m =>
      obtain ⟨_, rfl⟩ := stock_ok stocked
      refine .inr ⟨_, rfl, rate, ?_⟩
      intro cue member
      simp [Mixdown.ofPlan] at member

theorem finishRender_told (signed : Scalar.Signed α) {s : Studio α} (renders : s.tools.render = Mixdown.render)
    {m : Mixdown α} (positive : 0 < m.plan.rate) (stocked : m.engine.Stocked) (position : α) {f : Fault}
    (failed : (runFrom (finishRender m position) s).1 = .error f) :
    f.IsTold ∨ f = .paddingLimit ∧ Mix.plays (Mix.hasEndlessTail m.plan.rate) m.engine = true := by
  have mixed : Confined (fun f => f.IsTold ∨
      f = .paddingLimit ∧ Mix.plays (Mix.hasEndlessTail m.plan.rate) m.engine = true) (Mixdown.render m).1 := by
    unfold Mixdown.render
    split
    · exact .of_error (.inl (.inl (by decide)))
    · exact fun f failed => (Mix.render_confined signed positive stocked f failed).imp_left Fault.IsNumeric.isTold
  unfold finishRender at failed
  -- Whether the end is cut off makes no difference to what can fail.
  split at failed
  all_goals
    simp only [log, record, runFrom_modify_bind, runFrom_get_bind, renders] at failed
    cases result : (Mixdown.render m).1 with
    | ok rendered =>
      rw [result] at failed
      cases failed
    | error g =>
      rw [result] at failed
      cases failed
      exact mixed f result

end Studio

end Partita
