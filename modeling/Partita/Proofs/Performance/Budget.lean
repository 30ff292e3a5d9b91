import Mathlib.Algebra.Order.BigOperators.Group.List
import Mathlib.Tactic.Linarith
import Partita.Proofs.Performance.Confluence
import Partita.Proofs.Performance.Settling

/-! Performances on a budget. Given fares for lines and prices for blocks that cover a
piece, every run gets a limit: the price of its block on top of the level of the run that
started it. What a run has not used of its limit is enough for the lines ahead of it, and
the limits of all other runs lie below the level of the main run, so that going on from the
latest end never takes it too far. -/
namespace Partita

open Score

/-- A fare that is enough for what a line means, with prices for the blocks it plays. The
tempo stays. -/
structure Deed.Within (blocks : Blocks) (price : String → ℚ) (fare : ℚ) (d : Deed ℚ) : Prop where
  nonneg : 0 ≤ fare
  pause : ∀ seconds beats, d = .pause seconds beats → Scalar.max 0 seconds ≤ fare
  play : ∀ names, d = .play names → ∀ child ∈ blocks.cast names, price child.1 ≤ fare
  settle : d = .settle → 1 ≤ fare
  tempo : ∀ bpm, d ≠ .tempo bpm

structure Piece.Covers (piece : Piece ℚ) (fare price : String → ℚ) : Prop where
  lines : ∀ {name : String} {lines : List String} {line : String}, piece.blocks.lines? name = some lines →
    line ∈ lines → ∀ position, (piece.deed name position line).Within piece.blocks price (fare line)
  blocks : ∀ {name : String} {lines : List String}, piece.blocks.Reached name →
    piece.blocks.lines? name = some lines → ((unrolled (fun line => [line]) lines).map fare).sum ≤ price name

def Run.left (fare : String → ℚ) (r : Run ℚ) : ℚ := ((r.ahead fun line => [line]).map fare).sum

def Status.reserve : Status ℚ → ℚ
  | .settling _ => 1
  | _ => 0

/-- How far a run with a limit may have come. -/
def Run.level (fare : String → ℚ) (limit : ℚ) (r : Run ℚ) : ℚ := limit - r.left fare - r.status.reserve

/-- How far a run will have come when it goes on, given the limits of those it waits for. -/
def Run.due (limit : Nat → ℚ) (r : Run ℚ) : ℚ := match r.status with
  | .waiting seconds _ => r.position + Scalar.max 0 seconds
  | .playing children => Scalar.maximum r.position (children.map limit)
  | .ended (.finished position) => Scalar.max r.position position
  | _ => r.position

theorem Run.level_withStatus (fare : String → ℚ) (limit : ℚ) (r : Run ℚ) (status : Status ℚ) :
    (r.withStatus status).level fare limit = limit - r.left fare - status.reserve := rfl

theorem Run.position_le_due (limit : Nat → ℚ) (r : Run ℚ) : r.position ≤ r.due limit := by
  unfold Run.due
  split
  · rw [Scalar.max_eq]
    exact le_add_of_nonneg_right (le_max_left ..)
  · exact (Scalar.maximum_le_iff.mp (le_refl _)).1
  · rw [Scalar.max_eq]
    exact le_max_left ..
  · exact le_refl _

theorem Run.due_congr {f g : Nat → ℚ} {r : Run ℚ}
    (same : ∀ children, r.status = .playing children → ∀ c ∈ children, f c = g c) : r.due f = r.due g := by
  unfold Run.due
  split
  case h_2 children playing => rw [List.map_congr_left (same children playing)]
  all_goals rfl

namespace Performance

variable {piece : Piece ℚ} {fare price : String → ℚ} {limit : Nat → ℚ} {p q : Performance ℚ} {id : Nat}
  {run run' : Run ℚ} {started : List (Run ℚ)}

/-- A run with a limit: it has come to a place in its block, and what is left of the limit
is enough for the lines ahead. -/
structure Allotted (piece : Piece ℚ) (fare : String → ℚ) (limit : Nat → ℚ) (i : Nat) (r : Run ℚ) : Prop where
  aligned : r.Aligned fun line => [line]
  reached : piece.blocks.Reached r.name
  due : r.due limit ≤ r.level fare (limit i)

/-- A performance in which nothing goes wrong and every run keeps within its limit. No other
run, and no end so far, lies beyond what the main run may have come to. -/
structure Budgeted (piece : Piece ℚ) (fare : String → ℚ) (limit : Nat → ℚ) (p : Performance ℚ) : Prop where
  untroubled : p.Untroubled
  attended : p.Attended
  books : p.Accounted
  plays : p.piece = piece
  grace : p.config.finishGrace ≤ 1
  runs : ∀ (i : Nat) (r : Run ℚ), p.runs[i]? = some r → Allotted piece fare limit i r
  others : ∀ main, p.runs[0]? = some main → ∀ i, i ≠ 0 → i < p.runs.size → limit i ≤ main.level fare (limit 0)
  latest : ∀ main, p.runs[0]? = some main → p.session.latestFinish ≤ main.level fare (limit 0)

theorem left_nonneg (covers : p.piece.Covers fare price) (calm : run.Calm p) : 0 ≤ run.left fare := by
  obtain ⟨lines, defined, same⟩ := calm.block
  refine List.sum_nonneg fun x member => ?_
  obtain ⟨line, ahead, rfl⟩ := List.mem_map.mp member
  have listed : line ∈ lines := by simpa [same] using Run.mem_of_mem_ahead ahead
  exact (covers.lines defined listed run.position).nonneg

theorem left_read (covers : p.piece.Covers fare price) (calm : run.Calm p)
    (aligned : run.Aligned fun line => [line]) {line : String} (next : run.next? p.session = some line) :
    run.left fare = fare line + (run.read line).left fare ∧
      (p.piece.deed run.name run.position line).Within p.piece.blocks price (fare line) := by
  obtain ⟨-, lines, defined, member⟩ := calm.mem_lines next
  refine ⟨?_, covers.lines defined member run.position⟩
  unfold Run.left
  rw [(ahead_next calm aligned next).1, List.map_cons, List.sum_cons]

theorem level_le (covers : p.piece.Covers fare price) (calm : run.Calm p) (limit : ℚ) :
    run.level fare limit ≤ limit := by
  have left := left_nonneg covers calm
  have reserve : 0 ≤ run.status.reserve := by
    unfold Status.reserve
    split <;> norm_num
  rw [Run.level]
  linarith

theorem Budgeted.finished_le (budget : Budgeted piece fare limit p) (covers : p.piece.Covers fare price) {i : Nat}
    {x : ℚ} (ended : p.outcome? i = some (.finished x)) : x ≤ limit i := by
  obtain ⟨r, there, status⟩ := outcome?_eq_some.mp ended
  have due := (budget.runs i r there).due
  simp only [Run.due, status, Scalar.max_eq] at due
  exact (le_max_right ..).trans (due.trans (level_le covers (budget.untroubled.runs i r there) _))

/-- A run that has read a line may come further by the fare of that line. -/
theorem level_read (covers : p.piece.Covers fare price) (calm : run.Calm p)
    (aligned : run.Aligned fun line => [line]) {line : String} (next : run.next? p.session = some line)
    (running : run.status = .running) {status : Status ℚ} (free : status.reserve = 0) (limit : ℚ) :
    ((run.read line).withStatus status).level fare limit = run.level fare limit + fare line := by
  have none : run.status.reserve = 0 := by rw [running]; rfl
  rw [Run.level_withStatus, free, Run.level, none, (left_read covers calm aligned next).1]
  ring

theorem Asks.paid {place : Run ℚ} (asks : Asks p run place) (covers : p.piece.Covers fare price)
    (calm : run.Calm p) (aligned : run.Aligned fun line => [line]) (limit : ℚ) :
    run.level fare limit + 1 ≤ limit - place.left fare ∧ place.position = run.position := by
  cases asks with
  | @reads line running next deed =>
    obtain ⟨left, within⟩ := left_read covers calm aligned next
    have enough := within.settle deed
    refine ⟨?_, run.read_position line⟩
    simp only [Run.level, running, Status.reserve, left]
    linarith
  | again settling =>
    refine ⟨?_, rfl⟩
    simp only [Run.level, settling, Status.reserve]
    linarith

/-- The limits after a turn from a level: new runs get the prices of their blocks. -/
def limitsAfter (price : String → ℚ) (limit : Nat → ℚ) (p : Performance ℚ) (level : ℚ) (started : List (Run ℚ)) :
    Nat → ℚ :=
  extended limit p.runs.size (started.map fun r => level + price r.name)

/-- What a turn does to the budget of a run: it goes on within its limit from a level that
does not fall, and the runs that it starts there stay below. -/
structure Spends (fare price : String → ℚ) (limit : ℚ) (later : Nat → ℚ) (run run' : Run ℚ)
    (started : List (Run ℚ)) : Prop where
  due : run'.due later ≤ run'.level fare limit
  rises : run.level fare limit ≤ run'.level fare limit
  below : ∀ r ∈ started, run.level fare limit + price r.name ≤ run'.level fare limit
  here : ∀ r ∈ started, r.position ≤ run.level fare limit

/-- A run that plays others is due when it was, or when the last of these has to be over. -/
theorem due_play_le {names : List String} {level bound : ℚ} (limit : Nat → ℚ) (line : String)
    (here : run.position ≤ bound)
    (below : ∀ r ∈ (Deed.play names).started p.blocks p.session.generation run.position, level + price r.name ≤ bound) :
    ((run.read line).withStatus ((Deed.play names).status p.blocks p.runs.size)).due
      (limitsAfter price limit p level ((Deed.play names).started p.blocks p.session.generation run.position)) ≤ bound := by
  have position : (run.read line).position = run.position := run.read_position line
  rw [Deed.status]
  by_cases none : p.blocks.cast names = []
  · simp only [none, if_true, Run.due, Run.withStatus, position]
    exact here
  · simp only [none, if_false, Run.due, Run.withStatus, position]
    have length : (p.blocks.cast names).length = (((Deed.play names).started p.blocks p.session.generation
        run.position).map fun r => level + price r.name).length := by
      simp [Deed.started]
    rw [length, limitsAfter, map_extended, Scalar.maximum_le_iff]
    refine ⟨here, fun x member => ?_⟩
    obtain ⟨r, listed, rfl⟩ := List.mem_map.mp member
    exact below r listed

section spends

variable (covers : p.piece.Covers fare price) (budget : Budgeted piece fare limit p)
  (found : p.runs[id]? = some run)
include covers budget found

theorem read_spends {line : String} (running : run.status = .running) (next : run.next? p.session = some line)
    {d : Deed ℚ} (deed : p.piece.deed run.name run.position line = d) :
    let started := d.started p.blocks p.session.generation run.position
    Spends fare price (limit id) (limitsAfter price limit p (run.level fare (limit id)) started) run
      ((run.read line).withStatus (d.status p.blocks p.runs.size)) started := by
  intro started
  have allotted := budget.runs id run found
  have within := (left_read covers (budget.untroubled.runs id run found) allotted.aligned next).2
  have position : (run.read line).position = run.position := run.read_position line
  have due : run.position ≤ run.level fare (limit id) := (run.position_le_due limit).trans allotted.due
  have paid {status : Status ℚ} (free : status.reserve = 0) :
      ((run.read line).withStatus status).level fare (limit id) = run.level fare (limit id) + fare line :=
    level_read covers (budget.untroubled.runs id run found) allotted.aligned next running free _
  have nonneg := within.nonneg
  rw [deed] at within
  have alone (status : Status ℚ) {later : Nat → ℚ} (free : status.reserve = 0)
      (enough : ((run.read line).withStatus status).due later ≤ run.level fare (limit id) + fare line) :
      Spends fare price (limit id) later run ((run.read line).withStatus status) [] := by
    refine ⟨?_, ?_, by simp, by simp⟩
    · rw [paid free]
      exact enough
    · rw [paid free]
      linarith
  cases d with
  | pause seconds beats =>
    have enough := within.pause seconds beats rfl
    refine alone (.waiting seconds beats) rfl ?_
    simp only [Run.due, Run.withStatus, position]
    linarith
  | play names =>
    have enough := within.play names rfl
    have free : (Deed.status p.blocks p.runs.size (.play names) : Status ℚ).reserve = 0 := by
      rw [Deed.status]
      split <;> rfl
    have below : ∀ r ∈ started, run.level fare (limit id) + price r.name ≤ run.level fare (limit id) + fare line := by
      intro r member
      obtain ⟨child, cast, rfl⟩ := List.mem_map.mp member
      exact add_le_add_right (enough child cast) _
    refine ⟨?_, ?_, ?_, fun r member => ?_⟩
    · rw [paid free]
      exact due_play_le limit line (by linarith) below
    · rw [paid free]
      linarith
    · rw [paid free]
      exact below
    · obtain ⟨child, -, rfl⟩ := List.mem_map.mp member
      exact due
  | tempo bpm => exact absurd rfl (within.tempo bpm)
  | _ =>
    refine alone .running rfl ?_
    simp only [Run.due, Run.withStatus, position]
    linarith

theorem Advances.spends {events : List (Event ℚ)} (advances : Advances p run run' started events) :
    Spends fare price (limit id) (limitsAfter price limit p (run.level fare (limit id)) started) run run' started := by
  have allotted := budget.runs id run found
  have due := allotted.due
  have resting {position : ℚ} {status : Status ℚ} {later : Nat → ℚ} (free : run.status.reserve = status.reserve)
      (within : ({ run with position := position, status := status } : Run ℚ).due later ≤ run.level fare (limit id)) :
      Spends fare price (limit id) later run { run with position := position, status := status } [] := by
    have same : ({ run with position := position, status := status } : Run ℚ).level fare (limit id) =
        run.level fare (limit id) := by
      rw [Run.level, Run.level, free]
      rfl
    exact ⟨by rw [same]; exact within, by rw [same], by simp, by simp⟩
  cases advances with
  | starts created =>
    refine resting (by rw [created]; rfl) ?_
    simpa only [Run.due, created] using due
  | resumes waiting =>
    refine resting (by rw [waiting]; rfl) ?_
    simpa only [Run.due, waiting] using due
  | @rejoins children playing all =>
    refine resting (by rw [playing]; rfl) ?_
    simp only [Run.due, playing] at due ⊢
    obtain ⟨here, later⟩ := Scalar.maximum_le_iff.mp due
    refine Scalar.maximum_le_iff.mpr ⟨here, fun x member => ?_⟩
    obtain ⟨c, listed, ended⟩ := mem_finishedAt.mp member
    exact (budget.finished_le covers ended).trans (later _ (List.mem_map_of_mem listed))
  | reads running next deed => exact read_spends covers budget found running next deed
  | ends running spent =>
    refine resting (by rw [running]; rfl) ?_
    simp only [Run.due, running, Scalar.max_eq, max_self] at due ⊢
    exact due

theorem Proceeds.spends (proceeds : Proceeds p run run' started) :
    Spends fare price (limit id) (limitsAfter price limit p (run.level fare (limit id)) started) run run' started := by
  have calm := budget.untroubled.runs id run found
  have allotted := budget.runs id run found
  have due : run.position ≤ run.level fare (limit id) := (run.position_le_due limit).trans allotted.due
  -- The second that asking costs is set aside, or else left over.
  have asking {place : Run ℚ} (asks : Asks p run place) (status : Status ℚ) {later : Nat → ℚ}
      (cheap : status.reserve ≤ 1) (still : (place.withStatus status).due later = place.position) :
      Spends fare price (limit id) later run (place.withStatus status) [] := by
    obtain ⟨paid, position⟩ := asks.paid covers calm allotted.aligned (limit id)
    have rises : run.level fare (limit id) ≤ (place.withStatus status).level fare (limit id) := by
      rw [Run.level_withStatus]
      linarith
    refine ⟨?_, rises, by simp, by simp⟩
    rw [still, position]
    exact due.trans rises
  cases proceeds with
  | advances advances => exact advances.spends covers budget found
  | waits asks deadline => exact asking asks (.settling deadline) (le_refl 1) rfl
  | passes asks => exact asking asks .running zero_le_one rfl
  | @settles place asks quiet =>
    obtain ⟨paid, position⟩ := asks.paid covers calm allotted.aligned (limit id)
    -- Only the main run finds the session settled, and no end so far is beyond its level.
    have main : id = 0 := by
      by_contra other
      have two := budget.books.two_le_active budget.untroubled budget.attended found asks.live other
      omega
    have latest := main ▸ budget.latest run (main ▸ found)
    have grace := budget.grace
    have level : ({ place with
        position := Scalar.max place.position p.session.latestFinish
        status := .waiting p.config.finishGrace none } : Run ℚ).level fare (limit id) =
          limit id - place.left fare - 0 := rfl
    refine ⟨?_, ?_, by simp, by simp⟩
    · rw [level]
      simp only [Run.due, Scalar.max_eq, position]
      have jump := max_le due latest
      have pause : max 0 p.config.finishGrace ≤ 1 := max_le zero_le_one grace
      linarith
    · rw [level]
      linarith

end spends

/-- The latest end moves at most to where the run has come whose turn it is. -/
theorem Turn.latest_le {place : Run ℚ} (turn : Turn id run place p q) (there : q.runs[id]? = some run') :
    q.config = p.config ∧ q.session.latestFinish ≤ max p.session.latestFinish run'.position := by
  cases turn with
  | goes going moves _ => exact ⟨going.config, by rw [going.latest]; exact le_max_left ..⟩
  | @ends q ended _ outcome going moves _ _ _ _ =>
    have own : ended.withStatus (.ended outcome) = run' :=
      Option.some.inj ((going.runs.modify (·.withStatus (.ended outcome))).found.symm.trans there)
    refine ⟨going.config, ?_⟩
    rw [← own, ← going.latest]
    simp only [closed, onRun, counted, Session.runFinished, Session.notify, Run.withStatus]
    split
    · rw [Scalar.max_eq]
    · exact le_max_left ..
  | vanishes _ _ _ => exact ⟨rfl, le_max_left ..⟩

theorem newRun_level (covers : piece.Covers fare price) {block : String × List String}
    (found : piece.blocks.lines? block.1 = some block.2) (reached : piece.blocks.Reached block.1) (generation : Nat)
    (position level : ℚ) : level ≤ (newRun generation position block).level fare (level + price block.1) := by
  have enough := covers.blocks reached found
  have ahead : (newRun generation position block).left fare =
      ((unrolled (fun line => [line]) block.2).map fare).sum := by
    rw [Run.left, (newRun_ahead _ generation position block.1 block.2).1]
  have none : (newRun generation position block).status.reserve = 0 := rfl
  rw [Run.level, ahead, none]
  linarith

section turn

variable {sounds : List (Event ℚ)} (covers : p.piece.Covers fare price) (budget : Budgeted p.piece fare limit p)
  (found : p.runs[id]? = some run) (proceeds : Proceeds p run run' started)
  (advance : Advance id run' started sounds p q)
include covers budget found proceeds advance

theorem Advance.allotted (i : Nat) (r : Run ℚ) (there : q.runs[i]? = some r) :
    Allotted p.piece fare (limitsAfter price limit p (run.level fare (limit id)) started) i r := by
  have before := budget.runs id run found
  have kept := proceeds.kept (budget.untroubled.runs id run found) before.aligned
  have spends := proceeds.spends covers budget found
  have old (j : Nat) (present : j < p.runs.size) :
      limitsAfter price limit p (run.level fare (limit id)) started j = limit j := extended_old limit _ present
  rcases advance.runs.origin there with ⟨rfl, rfl⟩ | ⟨-, there⟩ | ⟨later, listed⟩
  · refine ⟨kept.aligned, kept.name ▸ before.reached, ?_⟩
    rw [old i (Array.getElem?_eq_some_iff.mp found).1]
    exact spends.due
  · -- Another run keeps its limit, and those that it waits for are old and keep theirs.
    have same := budget.runs i r there
    refine ⟨same.aligned, same.reached, ?_⟩
    rw [old i (Array.getElem?_eq_some_iff.mp there).1, Run.due_congr fun children playing c member =>
      old c (budget.attended.children i r there children playing c member).2]
    exact same.due
  · have member := List.mem_of_getElem? listed
    obtain ⟨position, block, rfl, defined, edge⟩ := kept.plays r member
    have reached : p.piece.blocks.Reached block.1 := before.reached.tail edge
    refine ⟨(newRun_ahead ..).2, reached, ?_⟩
    rw [limitsAfter, extended_new limit later (by rw [List.getElem?_map, listed]; rfl)]
    exact (spends.here _ member).trans (newRun_level covers defined reached ..)

theorem Advance.below_main (untroubled : q.Untroubled) {main main' : Run ℚ} (first : p.runs[0]? = some main)
    (first' : q.runs[0]? = some main') :
    main.level fare (limit 0) ≤ main'.level fare (limit 0) ∧
      run'.level fare (limit id) ≤ main'.level fare (limit 0) := by
  have spends := proceeds.spends covers budget found
  by_cases own : id = 0
  · subst own
    obtain rfl := Option.some.inj (found.symm.trans first)
    obtain rfl := Option.some.inj (advance.runs.found.symm.trans first')
    exact ⟨spends.rises, le_refl _⟩
  · -- The main run is where it was, and its level is beyond the limits of all others.
    obtain rfl := Option.some.inj ((advance.runs.other (Ne.symm own) first).symm.trans first')
    have covers' : q.piece.Covers fare price := advance.toKeeps.piece ▸ covers
    have within := level_le covers' (untroubled.runs id run' advance.runs.found) (limit id)
    have present := (Array.getElem?_eq_some_iff.mp found).1
    exact ⟨le_refl _, within.trans (budget.others main first id own present)⟩

end turn

theorem Budgeted.take {m : Moment ℚ} (budget : Budgeted piece fare limit p) (covers : piece.Covers fare price)
    (turn : m.act.actor?.isSome = true) (ready : p.enabled m.act = true) :
    ∃ later, Budgeted piece fare later (p.take m) ∧ later 0 = limit 0 := by
  obtain rfl := budget.plays
  obtain ⟨id, turn⟩ := Option.isSome_iff_exists.mp turn
  have tempo (r : Run ℚ) (line : String) (there : p.runs[id]? = some r) (next : r.next? p.session = some line)
      (bpm : ℚ) : p.piece.deed r.name r.position line ≠ .tempo bpm := by
    obtain ⟨-, lines, defined, member⟩ := (budget.untroubled.runs id r there).mem_lines next
    exact (covers.lines defined member r.position).tempo bpm
  obtain ⟨run, run', started, sounds, found, proceeds, advance⟩ := take_proceeds budget.untroubled tempo turn ready
  obtain ⟨_, _, _, turned⟩ := take_turn turn ready
  obtain ⟨config, latest⟩ := turned.latest_le advance.runs.found
  have kept := proceeds.kept (budget.untroubled.runs id run found) (budget.runs id run found).aligned
  have spends := proceeds.spends covers budget found
  have untroubled := advance.untroubled budget.untroubled found kept
  have present := (Array.getElem?_eq_some_iff.mp found).1
  have first : p.runs[0]? = some p.runs[0] := Array.getElem?_eq_getElem (by omega)
  have zero : limitsAfter price limit p (run.level fare (limit id)) started 0 = limit 0 :=
    extended_old limit _ (by omega)
  refine ⟨_, ⟨untroubled, budget.attended.turn found kept advance.runs, budget.books.take ready,
    advance.toKeeps.piece, config ▸ budget.grace, advance.allotted covers budget found proceeds,
    fun main there i other bound => ?_, fun main there => ?_⟩, zero⟩
  · obtain ⟨rises, within⟩ := advance.below_main covers budget found proceeds untroubled first there
    rw [zero]
    by_cases old : i < p.runs.size
    · rw [limitsAfter, extended_old limit _ old]
      exact (budget.others _ first i other old).trans rises
    · have size := advance.runs.size
      have new : i - p.runs.size < started.length := by omega
      have listed : started[i - p.runs.size]? = some started[i - p.runs.size] := List.getElem?_eq_getElem new
      rw [limitsAfter, extended_new limit (by omega) (by rw [List.getElem?_map, listed]; rfl)]
      exact (spends.below _ (List.mem_of_getElem? listed)).trans within
  · obtain ⟨rises, within⟩ := advance.below_main covers budget found proceeds untroubled first there
    rw [zero]
    refine latest.trans (max_le ((budget.latest _ first).trans rises) ?_)
    exact (run'.position_le_due _).trans (spends.due.trans within)

theorem Execution.budgeted {ms : List (Moment ℚ)} (covers : piece.Covers fare price)
    (budget : Budgeted piece fare limit p) (ran : Execution p ms) (turns : ∀ m ∈ ms, m.act.actor?.isSome = true) :
    ∃ later, Budgeted piece fare later (p.after ms) ∧ later 0 = limit 0 := by
  induction ms generalizing p limit with
  | nil => exact ⟨limit, budget, rfl⟩
  | cons m rest ih =>
    obtain ⟨now, others⟩ := List.forall_mem_cons.mp turns
    obtain ⟨later, next, same⟩ := budget.take covers now ran.1
    obtain ⟨last, final, same'⟩ := ih next ran.2 others
    exact ⟨last, final, same'.trans same⟩

theorem begin_unfinished (p : Performance ℚ) (time : ℚ) : (p.take ⟨time, .begin⟩).config = p.config ∧
    (p.take ⟨time, .begin⟩).session.latestFinish = 0 := by
  have still := (begin_adds p time).2
  obtain ⟨_, _, added, -⟩ := addRuns_eq 0 (p.opened time) (p.blocks.cast [mainName])
  rw [added] at still
  exact ⟨still.config, by rw [still.session]; rfl⟩

/-- A performance that has just started has the price of its main block for a limit. -/
theorem Prepared.budgeted (prepared : p.Prepared) (grace : p.config.finishGrace ≤ 1)
    (covers : p.piece.Covers fare price) (time : ℚ) :
    Budgeted p.piece fare (fun _ => price mainName) (p.take ⟨time, .begin⟩) := by
  obtain ⟨untroubled, plays, -⟩ := prepared.begin time
  have books : (p.take ⟨time, .begin⟩).Accounted := prepared.fresh.accounted.take (m := ⟨time, .begin⟩) rfl
  have started := begin_unfinished p time
  have level {i : Nat} {r : Run ℚ} (there : (p.take ⟨time, .begin⟩).runs[i]? = some r) :
      Allotted p.piece fare (fun _ => price mainName) i r ∧ 0 ≤ r.level fare (price mainName) := by
    obtain ⟨-, block, cast, rfl⟩ := prepared.fresh.only time there
    obtain ⟨name, defined⟩ := Blocks.mem_cast.mp cast
    have name : block.1 = mainName := List.mem_singleton.mp name
    have reached : p.piece.blocks.Reached block.1 := by
      rw [name]
      exact .refl
    have enough := newRun_level covers defined reached p.session.generation 0 0
    rw [zero_add, name] at enough
    exact ⟨⟨(newRun_ahead ..).2, reached, enough⟩, enough⟩
  refine ⟨untroubled, prepared.fresh.attended time, books, plays, started.1 ▸ grace, fun i r there => (level there).1,
    fun main there i other bound => ?_, fun main there => ?_⟩
  · have there := Array.getElem?_eq_getElem bound
    exact absurd (prepared.fresh.only time there).1 other
  · rw [started.2]
    exact (level there).2

theorem Prepared.returned_le {time : ℚ} {ms : List (Moment ℚ)} {outcome : Outcome ℚ} (prepared : p.Prepared)
    (grace : p.config.finishGrace ≤ 1) (covers : p.piece.Covers fare price) (nonneg : 0 ≤ price mainName)
    (ran : Execution (p.take ⟨time, .begin⟩) ms) (turns : ∀ m ∈ ms, m.act.actor?.isSome = true)
    (returned : p.returned? time ms = some outcome) :
    ∃ position, outcome = .finished position ∧ position ≤ price mainName := by
  rw [prepared.fresh.returned] at returned
  split at returned
  · exact ⟨0, (Option.some.inj returned).symm, nonneg⟩
  · obtain ⟨later, budget, same⟩ := ran.budgeted covers (prepared.budgeted grace covers time) turns
    obtain ⟨position, rfl⟩ := budget.untroubled.finished returned
    have covers' := budget.plays.symm ▸ covers
    exact ⟨position, rfl, (budget.finished_le covers' returned).trans (le_of_eq same)⟩

end Performance

end Partita
