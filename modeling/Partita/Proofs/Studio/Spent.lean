import Partita.Proofs.Performance.Tending
import Partita.Proofs.Studio.Faults
import Partita.Proofs.Studio.Reach

/-! What is over, and stays so. A run that has ended, or belongs to an earlier generation, never
dispatches a command again, whatever happens to its performance later; and a studio in which
making a mix or mixing goes wrong is what it was, but for its journal. -/
namespace Partita

open Score

variable {α : Type}

namespace Performance

variable {p q : Performance α} {count : Nat} {F : Fault → Prop}

/-- The first runs of a performance are over, or belong to an earlier generation. -/
structure Spent (count : Nat) (p : Performance α) : Prop where
  there : count ≤ p.runs.size
  past : ∀ (i : Nat) (r : Run α), i < count → p.runs[i]? = some r →
    r.isLive = false ∨ r.generation < p.session.generation

theorem Bygone.spent (bygone : p.Bygone count) : p.Spent count :=
  ⟨bygone.there, fun i r old there => .inr (bygone.earlier i r old there)⟩

theorem Spent.of_finished (finished : ∀ i < p.runs.size, p.hasFinished i = true) : p.Spent p.runs.size where
  there := Nat.le_refl _
  past i r old there := by
    obtain ⟨s, position, same, ended⟩ := hasFinished_eq_true.mp (finished i old)
    obtain rfl := Option.some.inj (there.symm.trans same)
    exact .inl (by simp [Run.isLive, ended])

theorem Spent.course (spent : p.Spent count) (course : p.Course F q) : q.Spent count where
  there := Nat.le_trans spent.there course.size
  past i s old there := by
    rcases course.runs i s there with ⟨r, before, stays⟩ | ⟨new, -⟩
    · rcases spent.past i r old before with gone | earlier
      · exact .inl (stays.gone gone)
      · exact .inr (stays.generation ▸ Nat.lt_of_lt_of_le earlier course.generation)
    · exact absurd (Nat.lt_of_lt_of_le old spent.there) (Nat.not_lt.mpr new)

/-- Such a run dispatches nothing. -/
theorem Spent.undispatched (spent : p.Spent count) {i : Nat} (old : i < count)
    (enabled : p.enabled (.step i) = true) : p.dispatched? i (.step i) = none := by
  obtain ⟨r, there⟩ : ∃ r, p.runs[i]? = some r :=
    ⟨_, Array.getElem?_eq_getElem (Nat.lt_of_lt_of_le old spent.there)⟩
  rcases spent.past i r old there with gone | earlier
  · cases status : r.status <;> simp_all [Performance.enabled, Run.isLive]
  · simp [dispatched?, read?, there, next?_orphan earlier]

end Performance

/-- Ending a part at once leaves it no run that may dispatch a command. -/
theorem Stage.execPart_forceStop_spent [Scalar α] {s : Stage α} {part : Nat} {x y : Part α}
    (found : s.parts[part]? = some x) (obliging : (s.mounted x).Obliging) (dated : x.performance.Dated)
    (stopped : (s.execPart part Performance.forceStop).parts[part]? = some y) :
    y.performance.Spent y.performance.runs.size := by
  obtain ⟨q, ran⟩ := Performance.forceStop_obliged obliging
  have done : s.onPart part Performance.forceStop = (.ok (), s.execPart part Performance.forceStop) :=
    Prod.ext (by rw [onPart_eq found, ran]) rfl
  obtain ⟨x', q, there, still, parts⟩ := onPart_forceStop_cleared done
  obtain rfl := Option.some.inj (found.symm.trans there)
  rw [parts, stored_part found q] at stopped
  obtain rfl := Option.some.inj stopped
  have bygone : q.Bygone q.runs.size := by
    have behind : q.Bygone x.performance.runs.size := Performance.Dated.bygone (p := s.mounted x) dated still
    have same : q.runs.size = x.performance.runs.size := congrArg Array.size still.runs
    rwa [same]
  exact ⟨Nat.le_refl _, bygone.spent.past⟩

namespace Hall

variable {h k : Hall α} {part : Nat}

/-- All runs of a part are over, or belong to an earlier generation. -/
def Quit (h : Hall α) (part : Nat) : Prop :=
  ∀ x, h.stage.parts[part]? = some x → x.performance.Spent x.performance.runs.size

theorem dispatched?_enabled {run : Nat} {c : Command} {x : Part α} (found : h.stage.parts[part]? = some x)
    (dispatches : h.dispatched? = some (part, run, c)) : x.performance.enabled (.step run) = true := by
  unfold dispatched? at dispatches
  split at dispatches
  · contradiction
  · split at dispatches
    · obtain ⟨y, there, dispatches⟩ := Option.bind_eq_some_iff.mp dispatches
      split at dispatches
      · rename_i enabled
        obtain ⟨d, -, same⟩ := Option.map_eq_some_iff.mp dispatches
        cases same
        obtain rfl := Option.some.inj (found.symm.trans there)
        exact enabled
      · contradiction
    · contradiction

/-- Whatever calls are made later, and however they go on, no run of a part that has quit
dispatches a command. -/
theorem Quit.undispatched [Scalar α] (quit : h.Quit part) (reached : h.Reaches k) {run : Nat} {c : Command}
    (dispatches : k.dispatched? = some (part, run, c)) : h.runCount part ≤ run := by
  refine Nat.le_of_not_lt fun old => ?_
  obtain ⟨z, there, read⟩ := dispatched?_eq_some dispatches
  rcases reached.follows.parts part z there with ⟨x, before, -, course⟩ | ⟨new, -⟩
  · simp only [runCount, before, Option.map_some, Option.getD_some] at old
    have none := ((quit x before).course course).undispatched old (dispatched?_enabled there dispatches)
    cases none.symm.trans read
  · simp [runCount, Array.getElem?_eq_none new] at old

end Hall

namespace Studio

variable {s t u : Studio α}

/-- A later state of a studio, in which nothing is new but what its journal says. -/
def Same (s t : Studio α) : Prop := t = { s with journal := t.journal }

theorem Same.trans (first : s.Same t) (second : t.Same u) : s.Same u := by
  unfold Same at first second ⊢
  rw [second, first]

theorem runFrom_prepare_eq (s : Studio α) (seconds : α) :
    runFrom (prepare seconds) s = (s.tools.newMix seconds s.config >>= fun m => stock m s.samples, s) := by
  rw [prepare, runFrom_get_bind]
  cases s.tools.newMix seconds s.config >>= fun m => stock m s.samples <;> rfl

theorem prepare_obliging {seconds : α} {n : Mixdown α}
    (willing : ∀ m, s.tools.newMix seconds s.config = .ok m → m.engine.Obliging)
    (made : (runFrom (prepare seconds) s).1 = .ok n) : n.engine.Obliging := by
  rw [runFrom_prepare_eq] at made
  cases fresh : s.tools.newMix seconds s.config with
  | error f =>
    rw [fresh] at made
    cases made
  | ok m =>
    rw [fresh] at made
    obtain ⟨_, rfl⟩ := stock_ok made
    exact willing m fresh

/-- A mix that fails is not kept. -/
theorem finishRender_failed [Scalar α] {m : Mixdown α} {position : α} {f : Fault}
    (failed : runFrom (finishRender m position) s = (.error f, t)) : s.Same t := by
  unfold finishRender at failed
  -- Whether the end is cut off makes no difference but to the journal.
  split at failed
  all_goals
    simp only [log, record, runFrom_modify_bind, runFrom_get_bind] at failed
    cases result : (s.tools.render m).1 with
    | ok rendered =>
      rw [result] at failed
      cases failed
    | error g =>
      rw [result] at failed
      cases failed
      rfl

end Studio

theorem Hall.onStudio_stage {β : Type} {h k : Hall α} {act : StudioM α β} {result : Except Fault β}
    (ran : h.onStudio act = (result, k)) : k.stage.loop = h.stage.loop ∧ k.stage.listeners = h.stage.listeners ∧
      k.stage.parts = h.stage.parts := by
  cases ran
  exact ⟨rfl, rfl, rfl⟩

/-- An operation on the studio of a hall that leaves it as it is. -/
theorem Hall.onStudio_same {β : Type} {h k : Hall α} {act : StudioM α β} {result : Except Fault β}
    (still : ∀ t, runFrom act { h.studio with journal := #[] } = (result, t) →
      Studio.Same { h.studio with journal := #[] } t)
    (ran : h.onStudio act = (result, k)) : h.studio.Same k.studio := by
  rcases made : runFrom act { h.studio with journal := #[] } with ⟨result', t⟩
  have same : h.onStudio act = (result', { h with
      studio := { t with journal := #[] }
      stage := { h.stage with journal := h.stage.journal ++ t.journal } }) := by
    unfold runFrom at made
    simp only [onStudio, made]
  obtain ⟨rfl, rfl⟩ := Prod.mk.inj (ran.symm.trans same)
  have kept := still t made
  unfold Studio.Same at kept ⊢
  rw [kept]

end Partita
