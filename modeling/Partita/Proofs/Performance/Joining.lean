import Partita.Proofs.Performance.Exact
import Partita.Proofs.Performance.Reading

/-! Whom a run waits for. A run that plays blocks goes on when all the runs that it
has started are over, and until then neither reads a line nor ends. Two things can
come in between, and both begin with the engine: a play that is broken off leaves its
first runs to themselves, and a run that fails ends whoever waits for it, whatever
becomes of the others. -/
namespace Partita.Performance

open Score

variable {α : Type} [Scalar α]

theorem take_outcome {p : Performance α} {m : Moment α} {j : Nat} {outcome : Outcome α}
    (ended : p.outcome? j = some outcome) (ready : p.enabled m.act = true) :
    (p.take m).outcome? j = some outcome := by
  obtain ⟨run, found, status⟩ := outcome?_eq_some.mp ended
  have other : m.act.actor? ≠ some j := by
    intro own
    obtain ⟨r, there, live, -⟩ := take_turn own ready
    obtain rfl := Option.some.inj (found.symm.trans there)
    simp [Run.isLive, status] at live
  exact outcome?_eq_some.mpr ⟨run, take_other found ready other, status⟩

theorem take_hasFailed {p : Performance α} {m : Moment α} {j : Nat} {f : Fault}
    (failed : p.hasFailed f j = true) (ready : p.enabled m.act = true) : (p.take m).hasFailed f j = true := by
  unfold hasFailed at failed ⊢
  split at failed
  · rename_i ended
    rw [take_outcome ended ready]
    exact failed
  · contradiction

/-- A run waits for some runs, or need not any more: they are all over, or one has
failed. -/
def Joins (id : Nat) (children : List Nat) (p : Performance α) : Prop :=
  (∃ run, p.runs[id]? = some run ∧ run.status = .playing children) ∨
    (∀ c ∈ children, (p.outcome? c).isSome = true) ∨ ∃ c ∈ children, ∃ f, p.hasFailed f c = true

namespace Joins

variable {id : Nat} {children : List Nat} {p : Performance α} {m : Moment α}

omit [Scalar α] in
theorem woken {run : Run α} {act : Act α} (found : p.runs[id]? = some run) (playing : run.status = .playing children)
    (turn : act.actor? = some id) (uncancelled : act ≠ .wake id .cancel) (ready : p.enabled act = true) :
    children.all p.hasFinished = true ∨ ∃ c ∈ children, ∃ f, p.hasFailed f c = true := by
  cases act with
  | step j =>
    cases turn
    simp [enabled, found, playing] at ready
  | wake j w =>
    cases turn
    simp only [enabled, found, playing] at ready
    cases w with
    | go => exact .inl ready
    | timeout => contradiction
    | fail f =>
      obtain ⟨c, member, failed⟩ := List.any_eq_true.mp ready
      exact .inr ⟨c, member, f, failed⟩
    | cancel => contradiction
  | _ => cases turn

theorem take (joins : p.Joins id children) (ready : p.enabled m.act = true)
    (uncancelled : m.act ≠ .wake id .cancel) : (p.take m).Joins id children := by
  have finished {c : Nat} (spent : (p.outcome? c).isSome = true) : ((p.take m).outcome? c).isSome = true := by
    obtain ⟨outcome, ended⟩ := Option.isSome_iff_exists.mp spent
    rw [take_outcome ended ready]
    rfl
  rcases joins with ⟨run, found, playing⟩ | all | ⟨c, member, f, failed⟩
  · by_cases own : m.act.actor? = some id
    · rcases woken found playing own uncancelled ready with all | ⟨c, member, f, failed⟩
      · refine .inr (.inl fun c member => finished ?_)
        have done := List.all_eq_true.mp all c member
        unfold hasFinished at done
        split at done <;> simp_all
      · exact .inr (.inr ⟨c, member, f, take_hasFailed failed ready⟩)
    · exact .inl ⟨run, take_other found ready own, playing⟩
  · exact .inr (.inl fun c member => finished (all c member))
  · exact .inr (.inr ⟨c, member, f, take_hasFailed failed ready⟩)

theorem after {ms : List (Moment α)} (joins : p.Joins id children) (ran : Execution p ms)
    (uncancelled : ∀ n ∈ ms, n.act ≠ .wake id .cancel) : (p.after ms).Joins id children := by
  induction ms generalizing p with
  | nil => exact joins
  | cons m rest ih =>
    obtain ⟨now, later⟩ := List.forall_mem_cons.mp uncancelled
    exact ih (joins.take ran.1 now) ran.2 later

omit [Scalar α] in
/-- While one of the runs that it waits for goes on and none has failed, a run cannot
take a turn, and has not ended. -/
theorem suspended (joins : p.Joins id children) {c : Nat} (member : c ∈ children) (unfinished : p.outcome? c = none) :
    (p.outcome? id = none ∧ ∀ act : Act α, act.actor? = some id → act ≠ .wake id .cancel →
      p.enabled act = false) ∨ ∃ d ∈ children, ∃ f, p.hasFailed f d = true := by
  rcases joins with ⟨run, found, playing⟩ | all | failed
  · by_cases failed : ∃ d ∈ children, ∃ f, p.hasFailed f d = true
    · exact .inr failed
    · refine .inl ⟨by simp [outcome?, found, playing], fun act turn uncancelled => ?_⟩
      by_contra ready
      rcases woken found playing turn uncancelled (by simpa using ready) with all | some
      · have done := List.all_eq_true.mp all c member
        simp [hasFinished, unfinished] at done
      · exact failed some
  · simpa [unfinished] using all c member
  · exact .inr failed

end Joins

/-- The runs that a run starts in its turn are those that it then waits for, unless the
engine broke the play off. -/
theorem take_joins {p : Performance α} {m : Moment α} {id child : Nat} (turn : m.act.actor? = some id)
    (ready : p.enabled m.act = true) (old : p.runs.size ≤ child) (new : child < (p.take m).runs.size) :
    (p.take m).Joins id (List.range' p.runs.size ((p.take m).runs.size - p.runs.size)) ∨
      ∃ run, p.runs[id]? = some run ∧ p.BrokenOff run ((p.take m).runs.size - p.runs.size) := by
  obtain ⟨run, found, -, turned⟩ := take_turn turn ready
  generalize p.take m = q at turned new
  cases turned with
  | goes going moves awaited =>
    have size := going.runs.size
    rw [size, Nat.add_sub_cancel_left]
    rcases awaited with rfl | playing | broken
    · simp only [List.length_nil] at size
      omega
    · exact .inl (.inl ⟨_, going.runs.found, playing⟩)
    · exact .inr ⟨run, found, broken⟩
  | @ends q run' started outcome going moves broken _ _ _ =>
    have size : (q.closed id run' outcome).runs.size = p.runs.size + started.length := by
      rw [← going.runs.size]
      exact Array.size_modify
    rw [size, Nat.add_sub_cancel_left]
    rcases broken with rfl | broken
    · simp only [List.length_nil] at size
      omega
    · exact .inr ⟨run, found, broken⟩
  | vanishes _ _ _ =>
    simp only [onRun, Array.size_modify] at new
    omega

/-- The engine fails no call, and no run has failed. -/
structure Unfailing (p : Performance α) : Prop where
  faultless : p.engine.Faultless
  runs : ∀ (f : Fault) (j : Nat), p.hasFailed f j = false

namespace Unfailing

variable {p q : Performance α}

omit [Scalar α] in
theorem transfer (unfailing : p.Unfailing) (engine : p.engine.Alike q.engine)
    (runs : ∀ (j : Nat) (r : Run α) (f : Fault), q.runs[j]? = some r → r.status = .ended (.failed f) →
      p.runs[j]? = some r) : q.Unfailing where
  faultless := unfailing.faultless.alike engine
  runs f j := by
    unfold hasFailed
    split
    · rename_i g ended
      obtain ⟨r, there, status⟩ := outcome?_eq_some.mp ended
      have before := unfailing.runs f j
      simpa [hasFailed, outcome?, runs j r g there status, status] using before
    · rfl

omit [Scalar α] in
theorem of_succeeds {id : Nat} {run' : Run α} {started : List (Run α)} (unfailing : p.Unfailing)
    (engine : p.engine.Alike q.engine) (runs : Succeeds id run' started p.runs q.runs)
    (own : ∀ f, run'.status ≠ .ended (.failed f)) (new : ∀ r ∈ started, r.status = .created) : q.Unfailing := by
  refine unfailing.transfer engine fun j r f there status => ?_
  rcases runs.origin there with ⟨-, rfl⟩ | ⟨-, before⟩ | ⟨-, listed⟩
  · exact absurd status (own f)
  · exact before
  · rw [new r (List.mem_of_getElem? listed)] at status
    contradiction

theorem stable : Stable (Unfailing (α := α)) where
  aside unfailing still := unfailing.transfer still.engine fun _ _ _ there _ => still.runs ▸ there
  addRun position _ _ unfailing _ := by
    refine unfailing.transfer (.refl _) fun j r f there status => ?_
    simp only [addRun, Array.getElem?_push] at there
    split at there
    · obtain rfl := Option.some.inj there
      contradiction
    · exact there
  opened _ unfailing := unfailing.transfer (.refl _) fun _ _ _ there _ => there
  stopped unfailing := unfailing.transfer (.refl _) fun _ _ _ there _ => there
  cleared unfailing := unfailing.transfer (.refl _) fun _ _ _ there _ => there

theorem turn {id : Nat} {run place : Run α} (unfailing : p.Unfailing) (found : p.runs[id]? = some run)
    (turn : Turn id run place p q) : q.Unfailing := by
  cases turn with
  | goes going moves _ =>
    refine unfailing.of_succeeds going.engine going.runs (fun f ended => ?_) fun r new => (going.fresh r new).status
    have live := moves.live
    simp [Run.isLive, ended] at live
  | ends outcome going moves _ _ _ failed =>
    refine unfailing.of_succeeds going.engine (going.runs.modify (·.withStatus (.ended outcome)))
      (fun f ended => ?_) fun r new => (going.fresh r new).status
    obtain rfl : outcome = .failed f := by simpa [Run.withStatus] using ended
    rcases failed f rfl with faulty | ⟨child, before⟩
    · exact faulty unfailing.faultless
    · rw [unfailing.runs f child] at before
      contradiction
  | vanishes _ _ _ =>
    exact unfailing.of_succeeds (.refl _) ((Succeeds.refl found).modify (·.withStatus (.ended .cancelled)))
      (by simp [Run.withStatus]) (by simp)

theorem take {m : Moment α} (unfailing : p.Unfailing) (ready : p.enabled m.act = true) : (p.take m).Unfailing :=
  stable.take unfailing ready (fun _ found _ turned => unfailing.turn found turned)
    (.inr (unfailing.transfer (.refl _) fun _ _ _ there _ => there))

end Unfailing

theorem Fresh.unfailing {p : Performance α} (fresh : p.Fresh) (faultless : p.engine.Faultless) : p.Unfailing := by
  refine ⟨faultless, fun f j => ?_⟩
  obtain ⟨blocks, config, clock, engine, rfl⟩ := fresh
  simp [hasFailed, outcome?, initial]

theorem Along.append {P : Performance α → Moment α → Prop} {p : Performance α} {xs ys : List (Moment α)} :
    Along P p (xs ++ ys) ↔ Along P p xs ∧ Along P (p.after xs) ys := by
  induction xs generalizing p with
  | nil => simp [Along, after]
  | cons m rest ih => simp [Along, ih, after, and_assoc]

/-- A run neither takes a turn nor ends while a run that it has started in some turn is
not over, unless it is cancelled. Only an engine at fault can make it otherwise: by
breaking off the play, or by the failure of a run that was started in the same turn. -/
theorem run_awaits_its_plays {p : Performance α} {xs ys : List (Moment α)} {m : Moment α} (id child : Nat)
    (fresh : p.Fresh) (ran : Execution p (xs ++ m :: ys)) (turn : m.act.actor? = some id)
    (uncancelled : ∀ n ∈ ys, n.act ≠ .wake id .cancel)
    (old : (p.after xs).runs.size ≤ child) (new : child < (p.after (xs ++ [m])).runs.size)
    (unfinished : (p.after (xs ++ m :: ys)).outcome? child = none) :
    ((p.after (xs ++ m :: ys)).outcome? id = none ∧ ∀ act : Act α, act.actor? = some id →
        act ≠ .wake id .cancel → (p.after (xs ++ m :: ys)).enabled act = false) ∨
      ¬ p.engine.Faultless ∧
        ((∃ run, (p.after xs).runs[id]? = some run ∧
            (p.after xs).BrokenOff run ((p.after (xs ++ [m])).runs.size - (p.after xs).runs.size)) ∨
          ∃ sibling f, (p.after xs).runs.size ≤ sibling ∧ sibling < (p.after (xs ++ [m])).runs.size ∧
            (p.after (xs ++ m :: ys)).hasFailed f sibling = true) := by
  obtain ⟨before, now, later⟩ := Along.append.mp ran
  have started : p.after (xs ++ [m]) = (p.after xs).take m := by simp [after]
  have last : p.after (xs ++ m :: ys) = ((p.after xs).take m).after ys := by simp [after]
  have unfailing (faultless : p.engine.Faultless) : (p.after (xs ++ m :: ys)).Unfailing :=
    ran.invariant (fun _ _ holds ready => holds.take ready) (fresh.unfailing faultless)
  rw [started] at new ⊢
  rcases take_joins turn now old new with joins | ⟨run, found, broken⟩
  · have joined := joins.after later uncancelled
    rw [← last] at joined
    have member : child ∈ List.range' (p.after xs).runs.size
        (((p.after xs).take m).runs.size - (p.after xs).runs.size) := by
      rw [List.mem_range'_1]
      omega
    rcases joined.suspended member unfinished with waits | ⟨sibling, listed, f, failed⟩
    · exact .inl waits
    · refine .inr ⟨fun faultless => ?_, .inr ⟨sibling, f, ?_⟩⟩
      · rw [(unfailing faultless).runs f sibling] at failed
        contradiction
      · rw [List.mem_range'_1] at listed
        exact ⟨by omega, by omega, failed⟩
  · refine .inr ⟨fun faultless => ?_, .inl ⟨run, found, broken⟩⟩
    have sound : (p.after xs).Unfailing := Execution.invariant
      (fun _ _ holds ready => holds.take ready) before (fresh.unfailing faultless)
    exact broken.1 sound.faultless

def pair (engine : Engine ℚ) : Performance ℚ :=
  initial [("main", ["play together a b"]), ("a", ["waitsec 1"]), ("b", [])] default (.virtual 0) engine

def intoPlay : List (Moment ℚ) := [⟨0, .begin⟩, ⟨0, .wake 0 .go⟩]

theorem run_awaits_its_plays_pair :
    Execution (pair {}) (intoPlay ++ ⟨0, .step 0⟩ :: [⟨0, .wake 2 .go⟩, ⟨0, .step 2⟩]) ∧
      (((pair {}).after (intoPlay ++ ⟨0, .step 0⟩ :: [⟨0, .wake 2 .go⟩, ⟨0, .step 2⟩])).outcome? 0 = none ∧
        ∀ act : Act ℚ, act.actor? = some 0 → act ≠ .wake 0 .cancel →
          ((pair {}).after (intoPlay ++ ⟨0, .step 0⟩ :: [⟨0, .wake 2 .go⟩, ⟨0, .step 2⟩])).enabled act = false) := by
  have ran : Execution (pair {}) (intoPlay ++ ⟨0, .step 0⟩ :: [⟨0, .wake 2 .go⟩, ⟨0, .step 2⟩]) := by
    decide +kernel
  have faultless : (pair {}).engine.Faultless := .of_settings rfl rfl rfl
  have unfinished : (((pair {}).after (intoPlay ++ ⟨0, .step 0⟩ ::
      [⟨0, .wake 2 .go⟩, ⟨0, .step 2⟩])).outcome? 1).isNone = true := by decide +kernel
  refine ⟨ran, ?_⟩
  rcases run_awaits_its_plays 0 1 ⟨_, _, _, _, rfl⟩ ran rfl (by simp) (by decide +kernel)
    (by decide +kernel) (Option.isNone_iff_eq_none.mp unfinished) with waits | ⟨faulty, -⟩
  · exact waits
  · exact absurd faultless faulty

/-- The engine has no voice for the second of two blocks: the main run is over while
the run of the first has not begun. -/
theorem broken_play_is_not_awaited :
    let p := pair { failing := [("b", ["full", "direct", "raw"])] }
    Execution p (intoPlay ++ [⟨0, .step 0⟩]) ∧ (p.after intoPlay).runs.size = 1 ∧
      (p.after (intoPlay ++ [⟨0, .step 0⟩])).runs.size = 2 ∧
      ((p.after (intoPlay ++ [⟨0, .step 0⟩])).outcome? 0).isSome = true ∧
      ((p.after (intoPlay ++ [⟨0, .step 0⟩])).outcome? 1).isSome = false := by
  decide +kernel

/-- A voice that cannot be brought in line breaks the play off as well; unless the engine is not
set up for it, the main run reads on. -/
example : [false, true].map (fun setup =>
      let p := pair { refused := [⟨"set_pan", "b", setup⟩] }
      let q := p.after (intoPlay ++ [⟨0, .step 0⟩])
      (q.runs.size, q.enabled (.step 0), q.hasFailed (.callUnsupported "set_pan") 0)) =
    [(2, true, false), (2, false, true)] := by
  decide +kernel

end Partita.Performance
