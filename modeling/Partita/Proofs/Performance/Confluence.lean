import Mathlib.Algebra.Order.Group.Multiset
import Mathlib.Tactic.Abel
import Partita.Proofs.Performance.Exact
import Partita.Proofs.Performance.Forecast

/-! Schedule independence. On a virtual clock, as long as nothing goes wrong, it does
not matter in which order the runs take their turns: what has sounded and what is
still to come of all runs together is at every moment what the piece comes to, and
so is the number of turns. -/
namespace Partita.Performance

open Score

variable {α : Type}

theorem Succeeds.split {id : Nat} {run run' : Run α} {started : List (Run α)} {before after : Array (Run α)}
    (succeeds : Succeeds id run' started before after) (found : before[id]? = some run) :
    ∃ front back, before.toList = front ++ run :: back ∧ after.toList = front ++ run' :: back ++ started := by
  obtain ⟨present, same⟩ := Array.getElem?_eq_some_iff.mp found
  refine ⟨before.toList.take id, before.toList.drop (id + 1), ?_, ?_⟩
  · rw [← same, ← Array.getElem_toList, List.cons_getElem_drop_succ, List.take_append_drop]
  · rw [succeeds.runs, Array.toList_append, Array.toList_modify,
      List.modify_eq_take_cons_drop (by simpa using present)]

variable [Scalar α]

/-- The notes and samples of an act, as a recorder would enter them. -/
def uttered (p : Performance α) (m : Moment α) : List (Event α) := ((p.taped true #[]).take m).sounding

/-- The notes and samples of a sequence of acts, each with the block that plays it. -/
def heard : Performance α → List (Moment α) → List (String × Event α)
  | _, [] => []
  | p, m :: rest =>
    ((m.act.actor?.bind (p.runs[·]?)).toList.flatMap fun run => (p.uttered m).map (run.name, ·)) ++
      heard (p.take m) rest

/-- Whether a run can go on: it is about to read a line, or what it waits for has happened. -/
def isReady (p : Performance α) (id : Nat) : Bool := p.enabled (.step id) || p.enabled (.wake id .go)

def outlook (piece : Piece α) (ends : Nat → α) (p : Performance α) : List (Rendition α) :=
  p.runs.toList.map (·.fate piece ends)

def returned? (p : Performance α) (time : α) (ms : List (Moment α)) : Option (Outcome α) :=
  match (runFrom (begin time) p).1 with
  | .ok (some id) => ((p.take ⟨time, .begin⟩).after ms).outcome? id
  | .ok none => some (.finished 0)
  | .error f => some (.failed f)

/-- A turn moves what happens in it out of what is to come, and nothing else. -/
theorem Advance.outlook {piece : Piece α} {ends : Nat → α} {p q : Performance α} {id : Nat}
    {run run' : Run α} {started : List (Run α)} {events sounds : List (Event α)}
    (acyclic : piece.blocks.Acyclic) (foretold : Foretold piece ends p) (found : p.runs[id]? = some run)
    (advances : Advances p run run' started events) (advance : Advance id run' started sounds p q) :
    let later := endsAfter piece ends p started
    ((p.outlook piece ends).flatMap (·.sounds)).Perm
        (events.map (run.name, ·) ++ (q.outlook piece later).flatMap (·.sounds)) ∧
      Rendition.turnsOf (p.outlook piece ends) = 1 + Rendition.turnsOf (q.outlook piece later) := by
  intro later
  obtain ⟨front, back, before, after⟩ := advance.runs.split found
  have same : ∀ r ∈ p.runs.toList, r.fate piece ends = r.fate piece later := by
    intro r member
    obtain ⟨i, there⟩ := Array.mem_iff_getElem?.mp (Array.mem_def.mpr member)
    refine Run.fate_congr fun children playing c waited => ?_
    exact (extended_old ends _ (foretold.attended.children i r there children playing c waited).2).symm
  have own : run.fate piece later = run.fate piece ends := (same run (by simp [before])).symm
  have told : p.outlook piece ends = front.map (·.fate piece later) ++
      run.fate piece ends :: back.map (·.fate piece later) := by
    rw [Performance.outlook, List.map_congr_left same, before, List.map_append, List.map_cons, own]
  have now : q.outlook piece later = front.map (·.fate piece later) ++ run'.fate piece later ::
      back.map (·.fate piece later) ++ started.map (·.fate piece later) := by
    rw [Performance.outlook, after, List.map_append, List.map_append, List.map_cons]
  have fate : run.fate piece ends = (run'.fate piece later).after
      (events.map (run.name, ·) ++ (started.map (·.fate piece later)).flatMap (·.sounds))
      (1 + Rendition.turnsOf (started.map (·.fate piece later))) := advances.fate acyclic foretold found
  rw [told, now, fate]
  constructor
  · simp only [List.flatMap_append, List.flatMap_cons, Rendition.after, ← Multiset.coe_eq_coe,
      ← Multiset.coe_add]
    abel
  · simp only [Rendition.turnsOf_append, Rendition.turnsOf_cons, Rendition.after]
    omega

/-- What turns do to a performance whose end can be told: the end stays the same, what
is heard comes out of what was to come, and it is entered if it is recorded. -/
structure Tally (piece : Piece α) (ends later : Nat → α) (p q : Performance α)
    (heard : List (String × Event α)) (turns : Nat) : Prop where
  foretold : Foretold piece later q
  main : 0 < p.runs.size → later 0 = ends 0
  size : p.runs.size ≤ q.runs.size
  sounds : ((p.outlook piece ends).flatMap (·.sounds)).Perm (heard ++ (q.outlook piece later).flatMap (·.sounds))
  turns : Rendition.turnsOf (p.outlook piece ends) = turns + Rendition.turnsOf (q.outlook piece later)
  recorder : q.engine.recorder = p.engine.recorder
  sounding : q.sounding = p.sounding ++ p.engine.recorded (heard.map (·.2))

namespace Tally

variable {piece : Piece α} {ends later last : Nat → α} {p q r : Performance α}
  {a b : List (String × Event α)} {m n : Nat}

theorem refl (foretold : Foretold piece ends p) : Tally piece ends ends p p [] 0 :=
  ⟨foretold, fun _ => rfl, Nat.le_refl _, .refl _, (Nat.zero_add _).symm, rfl, by simp⟩

theorem trans (first : Tally piece ends later p q a m) (second : Tally piece later last q r b n) :
    Tally piece ends last p r (a ++ b) (m + n) where
  foretold := second.foretold
  main present := (second.main (Nat.lt_of_lt_of_le present first.size)).trans (first.main present)
  size := first.size.trans second.size
  sounds := by
    rw [List.append_assoc]
    exact first.sounds.trans (second.sounds.append_left a)
  turns := by rw [first.turns, second.turns, Nat.add_assoc]
  recorder := second.recorder.trans first.recorder
  sounding := by
    simp only [second.sounding, first.sounding, Engine.recorded, first.recorder]
    split <;> simp

end Tally

theorem Advance.tally {piece : Piece α} {ends : Nat → α} {p q : Performance α} {id : Nat} {run run' : Run α}
    {started : List (Run α)} {events : List (Event α)} (acyclic : piece.blocks.Acyclic)
    (foretold : Foretold piece ends p) (found : p.runs[id]? = some run)
    (advances : Advances p run run' started events)
    (advance : Advance id run' started (p.engine.recorded events) p q) :
    Tally piece ends (endsAfter piece ends p started) p q (events.map (run.name, ·)) 1 := by
  obtain ⟨sounds, turns⟩ := advance.outlook acyclic foretold found advances
  exact ⟨advance.keeps_foretold acyclic foretold found advances, extended_old ends _,
    by simp [advance.runs.size], sounds, turns, advance.engine.recorder, by simp [advance.sounding]⟩

/-- What is heard in a turn, if it sounds the same with a recorder. -/
theorem heard_turn {p : Performance α} {m : Moment α} {id : Nat} {run run' : Run α} {started : List (Run α)}
    {events : List (Event α)} (turn : m.act.actor? = some id) (found : p.runs[id]? = some run)
    (taken : Advance id run' started events (p.taped true #[]) ((p.taped true #[]).take m)) :
    p.heard [m] = events.map (run.name, ·) := by
  have uttered : p.uttered m = events := taken.sounding
  simp [heard, turn, found, uttered]

theorem Foretold.take {piece : Piece α} {ends : Nat → α} {p : Performance α} {m : Moment α}
    (acyclic : piece.blocks.Acyclic) (foretold : Foretold piece ends p)
    (turn : m.act.actor?.isSome = true) (ready : p.enabled m.act = true) :
    ∃ later, Tally piece ends later p (p.take m) (p.heard [m]) 1 := by
  obtain ⟨id, turn⟩ := Option.isSome_iff_exists.mp turn
  obtain ⟨run, run', started, events, found, advances, taken⟩ :=
    take_advances foretold.calm.virtually (fun run _ => foretold.calm.inTime run m.time) turn ready
  rw [heard_turn turn found (taken true #[])]
  exact ⟨_, (taken p.engine.recorder p.journal).tally acyclic foretold found advances⟩

theorem Execution.tally {piece : Piece α} {ends : Nat → α} {p : Performance α} {ms : List (Moment α)}
    (acyclic : piece.blocks.Acyclic) (foretold : Foretold piece ends p) (ran : Execution p ms)
    (turns : ∀ m ∈ ms, m.act.actor?.isSome = true) :
    ∃ later, Tally piece ends later p (p.after ms) (p.heard ms) ms.length := by
  induction ms generalizing p ends with
  | nil => exact ⟨ends, .refl foretold⟩
  | cons m rest ih =>
    obtain ⟨now, others⟩ := List.forall_mem_cons.mp turns
    obtain ⟨later, first⟩ := foretold.take acyclic now ran.1
    obtain ⟨last, second⟩ := ih first.foretold ran.2 others
    have heard : p.heard (m :: rest) = p.heard [m] ++ (p.take m).heard rest := by
      simp [Performance.heard]
    rw [heard, List.length_cons, Nat.add_comm]
    exact ⟨last, first.trans second⟩

theorem outlook_over (piece : Piece α) (ends : Nat → α) {p : Performance α}
    (spent : ∀ (i : Nat) (r : Run α), p.runs[i]? = some r → r.isLive = false) :
    (p.outlook piece ends).flatMap (·.sounds) = [] ∧ Rendition.turnsOf (p.outlook piece ends) = 0 := by
  have each : ∀ r ∈ p.runs.toList, (r.fate piece ends).sounds = [] ∧ (r.fate piece ends).turns = 0 := by
    intro r member
    obtain ⟨i, there⟩ := Array.mem_iff_getElem?.mp (Array.mem_def.mpr member)
    have ended := spent i r there
    unfold Run.fate
    unfold Run.isLive at ended
    split at ended
    · rename_i outcome status
      rw [status]
      cases outcome <;> exact ⟨rfl, rfl⟩
    · contradiction
  constructor
  · simpa [Performance.outlook] using fun r member => (each r (by simpa using member)).1
  · refine Rendition.turnsOf_eq_zero fun fate member => ?_
    obtain ⟨r, listed, rfl⟩ := List.mem_map.mp member
    exact (each r listed).2

/-- While a run is live, it or a run that it waits for is ready to go on. -/
theorem Foretold.ready {piece : Piece α} {ends : Nat → α} {p : Performance α}
    (foretold : Foretold piece ends p) {i : Nat} {r : Run α} (there : p.runs[i]? = some r)
    (live : r.isLive = true) : ∃ j, p.isReady j = true := by
  -- The runs that a run waits for are later ones, and there are only so many.
  induction left : p.runs.size - i using Nat.strongRecOn generalizing i r with
  | ind n ih =>
    have woken (ready : p.wakes i r.status .go = true) : ∃ j, p.isReady j = true :=
      ⟨i, by simp [isReady, enabled, there, ready]⟩
    cases status : r.status with
    | created => exact woken (by rw [status]; rfl)
    | running => exact ⟨i, by simp [isReady, enabled, there, status]⟩
    | waiting seconds beats => exact woken (by rw [status]; rfl)
    | settling deadline => exact woken (by rw [status]; rfl)
    | ended outcome => simp [Run.isLive, status] at live
    | playing children =>
      cases all : children.all p.hasFinished with
      | true => exact woken (by rw [status]; exact all)
      | false =>
        obtain ⟨c, member, unfinished⟩ := List.all_eq_false.mp all
        obtain ⟨later, present⟩ := foretold.attended.children i r there children status c member
        have found : p.runs[c]? = some p.runs[c] := Array.getElem?_eq_getElem present
        refine ih (p.runs.size - c) (by omega) found ?_ rfl
        have calm := (foretold.calm.runs c _ found).status
        cases at_ : p.runs[c].status with
        | ended outcome => cases outcome <;> simp_all [hasFinished, outcome?, Status.isCalm]
        | _ => simp [Run.isLive, at_]

theorem Foretold.proceeds {piece : Piece α} {ends : Nat → α} {p : Performance α}
    (foretold : Foretold piece ends p) {i : Nat} {r : Run α} (there : p.runs[i]? = some r)
    (live : r.isLive = true) : ∃ act : Act α, act.actor?.isSome = true ∧ p.enabled act = true := by
  obtain ⟨j, ready⟩ := foretold.ready there live
  rcases Bool.or_eq_true_iff.mp ready with step | woken
  · exact ⟨.step j, rfl, step⟩
  · exact ⟨.wake j .go, rfl, woken⟩

/-- A performance that is about to start with nothing to go wrong. -/
structure Clear (p : Performance α) : Prop where
  fresh : p.Fresh
  virtual : p.clock.isVirtual = true
  faultless : p.engine.Faultless
  steady : p.blocks.isSteady = true

theorem begin_adds (p : Performance α) (time : α) :
    (runFrom (begin time) p).1 = .ok (if p.blocks.cast [mainName] = [] then none else some p.runs.size) ∧
      ((p.opened time).addRuns 0 (p.blocks.cast [mainName])).Aside [] (p.take ⟨time, .begin⟩) := by
  rcases begin_cases p time with ⟨q, missing, ran, still⟩ | ⟨lines, q, found, ran, still⟩
  · have none : p.blocks.cast [mainName] = [] := by simp [Blocks.cast, missing]
    simp only [take, ran, none]
    exact ⟨rfl, still⟩
  · have one : p.blocks.cast [mainName] = [(mainName, lines)] := by simp [Blocks.cast, found]
    simp only [take, ran, one]
    exact ⟨rfl, still⟩

/-- The only run of a performance that has just started is one of the main block. -/
theorem Fresh.only {p : Performance α} (fresh : p.Fresh) (time : α) {i : Nat} {r : Run α}
    (there : (p.take ⟨time, .begin⟩).runs[i]? = some r) :
    i = 0 ∧ ∃ block ∈ p.blocks.cast [mainName], r = newRun p.session.generation 0 block := by
  have none : p.runs = #[] := by
    obtain ⟨_, _, _, _, rfl⟩ := fresh
    rfl
  have still := (begin_adds p time).2
  obtain ⟨changes, outbox, added, -⟩ := addRuns_eq 0 (p.opened time) (p.blocks.cast [mainName])
  have few : (p.blocks.cast [mainName]).length ≤ 1 := List.length_filterMap_le ..
  have bound := (Array.getElem?_eq_some_iff.mp there).1
  have member := Array.mem_of_getElem? there
  rw [still.runs, added] at bound member
  simp only [opened, none, Session.start, Array.empty_append, List.size_toArray, List.length_map, List.mem_toArray,
    List.mem_map] at bound member
  obtain ⟨block, cast, rfl⟩ := member
  exact ⟨by omega, block, cast, rfl⟩

/-- The main block comes to what the piece comes to. -/
theorem main_fate (piece : Piece α) (acyclic : piece.blocks.Acyclic) {block : String × List String}
    (main : block ∈ piece.blocks.cast [mainName]) (ends : Nat → α) (generation : Nat) :
    (newRun generation 0 block).fate piece ends = piece.rendition := by
  obtain ⟨name, found⟩ := Blocks.mem_cast.mp main
  obtain ⟨name', lines⟩ := block
  obtain rfl : name' = mainName := by simpa using name
  exact newRun_fate piece acyclic found .refl ends generation 0

/-- Starting leaves a performance in which nothing has gone wrong, with at most one run. -/
theorem Fresh.begin {p : Performance α} (fresh : p.Fresh) (faultless : p.engine.Faultless) (time : α) :
    (p.take ⟨time, .begin⟩).virtually.Untroubled ∧ (p.take ⟨time, .begin⟩).piece = p.piece ∧
      (p.take ⟨time, .begin⟩).sounding = [] ∧ (p.take ⟨time, .begin⟩).engine.recorder = p.engine.recorder ∧
      (p.take ⟨time, .begin⟩).runs.toList = (p.blocks.cast [mainName]).map (newRun p.session.generation 0) ∧
      (p.take ⟨time, .begin⟩).clock = p.clock.start time := by
  have still := (begin_adds p time).2
  obtain ⟨changes, outbox, added, asked⟩ := addRuns_eq 0 (p.opened time) (p.blocks.cast [mainName])
  rw [added] at still
  generalize p.take ⟨time, .begin⟩ = q at still
  obtain ⟨runs, unasked, silent⟩ : p.runs = #[] ∧ p.outbox = #[] ∧ p.journal = #[] := by
    obtain ⟨_, _, _, _, rfl⟩ := fresh
    exact ⟨rfl, rfl, rfl⟩
  have listed : q.runs.toList = (p.blocks.cast [mainName]).map (newRun p.session.generation 0) := by
    rw [still.runs]
    simp [opened, runs, Session.start]
  refine ⟨⟨rfl, ?_, faultless.alike still.engine, ?_, ?_⟩, ?_, ?_, still.engine.recorder, listed, still.clock⟩
  · change q.session.playing = true
    rw [still.session]
    rfl
  · intro id
    change q.isAsked id = false
    rw [isAsked, still.outbox]
    refine (asked id).trans ?_
    simp [opened, unasked]
  · intro i r there
    have member : r ∈ q.runs.toList := Array.mem_toList_iff.mpr (Array.mem_of_getElem? there)
    rw [listed] at member
    obtain ⟨block, cast, rfl⟩ := List.mem_map.mp member
    obtain ⟨name, found⟩ := Blocks.mem_cast.mp cast
    refine ⟨⟨block.2, still.blocks ▸ found, rfl⟩, ?_, fun other => ?_, rfl⟩
    · change _ = q.session.generation
      rw [still.session]
      rfl
    · exact absurd (List.mem_singleton.mp name) other
  · have samples : q.engine.hasSample = p.engine.hasSample := by
      funext name
      simp only [Engine.hasSample, still.engine.samples]
      rfl
    rw [piece, still.blocks, still.session, samples]
    rfl
  · obtain ⟨entries, grown, sounds, -⟩ := still.journal
    rw [sounding, grown, List.filter_append, sounds]
    simp [opened, silent]

/-- A performance that is about to start on a virtual clock, with an engine that carries
out every call. -/
structure Prepared (p : Performance α) : Prop where
  fresh : p.Fresh
  virtual : p.clock.isVirtual = true
  faultless : p.engine.Faultless

theorem Prepared.begin_virtual {p : Performance α} (prepared : p.Prepared) (time : α) :
    (p.take ⟨time, .begin⟩).clock.isVirtual = true := by
  obtain ⟨-, -, -, -, -, clock⟩ := prepared.fresh.begin prepared.faultless time
  rw [clock, Clock.start_isVirtual, prepared.virtual]

theorem Prepared.begin {p : Performance α} (prepared : p.Prepared) (time : α) :
    (p.take ⟨time, .begin⟩).Untroubled ∧ (p.take ⟨time, .begin⟩).piece = p.piece ∧
      (p.take ⟨time, .begin⟩).sounding = [] ∧ (p.take ⟨time, .begin⟩).engine.recorder = p.engine.recorder ∧
      (p.take ⟨time, .begin⟩).runs.toList = (p.blocks.cast [mainName]).map (newRun p.session.generation 0) := by
  obtain ⟨untroubled, plays, silent, recorder, listed, -⟩ := prepared.fresh.begin prepared.faultless time
  exact ⟨untroubled.of_virtually (prepared.begin_virtual time), plays, silent, recorder, listed⟩

/-- Nobody waits or is waited for when a performance has just started. -/
theorem Fresh.attended {p : Performance α} (fresh : p.Fresh) (time : α) : (p.take ⟨time, .begin⟩).Attended where
  children i r there children playing := by
    obtain ⟨-, block, -, rfl⟩ := fresh.only time there
    simp [newRun] at playing
  waited i r there _ other := absurd (fresh.only time there).1 other

/-- Once it has started, it can be told where a steady performance ends. -/
theorem Fresh.foretold {p : Performance α} (fresh : p.Fresh) (faultless : p.engine.Faultless)
    (steady : p.blocks.isSteady = true) (acyclic : p.blocks.Acyclic) (time : α) :
    Foretold p.piece (fun _ => p.piece.rendition.finish) (p.take ⟨time, .begin⟩).virtually := by
  obtain ⟨untroubled, plays, -⟩ := fresh.begin faultless time
  have attended := fresh.attended time
  refine ⟨⟨untroubled, ?_, fun i r there deadline => ?_⟩, plays, fun i r there => ?_,
    attended.children, attended.waited⟩
  · have blocks : (p.take ⟨time, .begin⟩).blocks = p.blocks := congrArg Piece.blocks plays
    exact (congrArg Blocks.isSteady blocks).trans steady
  · obtain ⟨-, block, -, rfl⟩ := fresh.only time there
    simp [newRun]
  · obtain ⟨-, block, cast, rfl⟩ := fresh.only time there
    obtain ⟨name, -⟩ := Blocks.mem_cast.mp cast
    refine ⟨(newRun_ahead ..).2, ?_, ?_⟩
    · change p.blocks.Reached block.1
      rw [List.mem_singleton.mp name]
      exact .refl
    · rw [main_fate p.piece acyclic cast]

theorem Clear.prepared {p : Performance α} (clear : p.Clear) : p.Prepared :=
  ⟨clear.fresh, clear.virtual, clear.faultless⟩

theorem Clear.foretold {p : Performance α} (clear : p.Clear) (acyclic : p.blocks.Acyclic) (time : α) :
    Foretold p.piece (fun _ => p.piece.rendition.finish) (p.take ⟨time, .begin⟩) :=
  (clear.fresh.foretold clear.faultless clear.steady acyclic time).of_virtually (clear.prepared.begin_virtual time)

theorem rendition_of_missing (piece : Piece α) (missing : piece.blocks.lines? mainName = none) :
    piece.rendition = ⟨0, [], 0⟩ := by
  unfold Piece.rendition Piece.renderAll
  cases piece.blocks.length with
  | zero => rfl
  | succ depth => simp only [Piece.render, missing]

/-- What is to come of all runs, once the main block has been started, is what the piece
comes to. -/
theorem main_outlook {p q : Performance α} (acyclic : p.blocks.Acyclic)
    (listed : q.runs.toList = (p.blocks.cast [mainName]).map (newRun p.session.generation 0)) (ends : Nat → α) :
    (q.outlook p.piece ends).flatMap (·.sounds) = p.piece.rendition.sounds ∧
      Rendition.turnsOf (q.outlook p.piece ends) = p.piece.rendition.turns := by
  rw [Performance.outlook, listed, List.map_map]
  cases found : p.blocks.lines? mainName with
  | none =>
    rw [rendition_of_missing p.piece found]
    simp [Blocks.cast, found]
  | some lines =>
    have cast : p.blocks.cast [mainName] = [(mainName, lines)] := by simp [Blocks.cast, found]
    have member : (mainName, lines) ∈ p.piece.blocks.cast [mainName] := by
      change _ ∈ p.blocks.cast [mainName]
      simp [cast]
    simp [cast, main_fate p.piece acyclic member]

theorem Clear.outlook {p : Performance α} (clear : p.Clear) (acyclic : p.blocks.Acyclic) (time : α)
    (ends : Nat → α) :
    (((p.take ⟨time, .begin⟩).outlook p.piece ends).flatMap (·.sounds)) = p.piece.rendition.sounds ∧
      Rendition.turnsOf ((p.take ⟨time, .begin⟩).outlook p.piece ends) = p.piece.rendition.turns :=
  main_outlook acyclic (clear.prepared.begin time).2.2.2.2 ends

theorem Clear.starts {p : Performance α} (clear : p.Clear) (time : α) {lines : List String}
    (found : p.blocks.lines? mainName = some lines) : 0 < (p.take ⟨time, .begin⟩).runs.size := by
  obtain ⟨-, -, -, -, listed⟩ := clear.prepared.begin time
  rw [← Array.length_toList, listed]
  simp [Blocks.cast, found]

/-- The main block returns when the first run ends, and at once if there is none. -/
theorem Fresh.returned {p : Performance α} (fresh : p.Fresh) (time : α) (ms : List (Moment α)) :
    p.returned? time ms = match p.blocks.lines? mainName with
      | none => some (.finished 0)
      | some _ => ((p.take ⟨time, .begin⟩).after ms).outcome? 0 := by
  have size : p.runs.size = 0 := by
    obtain ⟨_, _, _, _, rfl⟩ := fresh
    rfl
  rw [returned?, (begin_adds p time).1, size]
  cases found : p.blocks.lines? mainName <;> simp [Blocks.cast, found]

/-- The order in which the runs take their turns does not matter. No execution has more
turns than the piece, and each can go on until the main block returns. When it returns,
it does so where the piece ends, and the notes and samples that were played, each with
its block, are those of the piece. A recorder has entered them and no others. -/
theorem schedule_independent {p : Performance α} {time : α} {ms : List (Moment α)} (clear : p.Clear)
    (acyclic : p.blocks.Acyclic) (ran : Execution (p.take ⟨time, .begin⟩) ms)
    (turns : ∀ m ∈ ms, m.act.actor?.isSome = true) :
    let q := p.take ⟨time, .begin⟩
    let whole := p.piece.rendition
    ms.length ≤ whole.turns ∧
      (p.returned? time ms = none → ∃ act : Act α, act.actor?.isSome = true ∧ (q.after ms).enabled act = true) ∧
      (∀ outcome, p.returned? time ms = some outcome →
        outcome = .finished whole.finish ∧ (q.heard ms).Perm whole.sounds ∧ ms.length = whole.turns) ∧
      (p.engine.recorder = true → (q.after ms).sounding = (q.heard ms).map (·.2)) := by
  intro q whole
  obtain ⟨later, tally⟩ := ran.tally acyclic (clear.foretold acyclic time) turns
  obtain ⟨-, -, silent, recorder, listed⟩ := clear.prepared.begin time
  obtain ⟨sounds, count⟩ := clear.outlook acyclic time fun _ => whole.finish
  have played : whole.sounds.Perm _ := sounds ▸ tally.sounds
  have taken : whole.turns = ms.length + _ := count ▸ tally.turns
  rw [clear.fresh.returned]
  refine ⟨by omega, fun waiting => ?_, fun outcome ended => ?_, fun recording => ?_⟩
  · cases found : p.blocks.lines? mainName with
    | none => simp [found] at waiting
    | some lines =>
      have present : 0 < ((p.take ⟨time, .begin⟩).after ms).runs.size :=
        Nat.lt_of_lt_of_le (clear.starts time found) tally.size
      have there := Array.getElem?_eq_getElem present
      refine tally.foretold.proceeds there ?_
      simp only [found, outcome?, there, Option.bind_some] at waiting
      unfold Run.isLive
      split at waiting <;> simp_all
  · cases found : p.blocks.lines? mainName with
    | none =>
      have empty : whole = ⟨0, [], 0⟩ := rendition_of_missing p.piece found
      have none : whole.turns = 0 := by rw [empty]
      rw [found] at ended
      cases ended
      refine ⟨by rw [empty], ?_, by omega⟩
      rw [empty] at played ⊢
      rw [(List.append_eq_nil_iff.mp played.nil_eq.symm).1]
    | some lines =>
      rw [found] at ended
      obtain ⟨finished, main, there, spent⟩ := tally.foretold.ended ended
      obtain ⟨unheard, left⟩ := outlook_over p.piece later (tally.foretold.attended.past there spent)
      rw [unheard, List.append_nil] at played
      rw [finished, tally.main (clear.starts time found)]
      exact ⟨rfl, played.symm, by omega⟩
  · rw [tally.sounding, silent, List.nil_append, Engine.recorded, recorder, if_pos recording]

def duet : Performance ℚ :=
  initial [("main", ["play together high low", "sample bell"]), ("high", ["tone a5 1", "waitsec 3"]),
    ("low", ["loop 2", "play high", "end"])] default (.virtual 0) { samples := [("bell", default)] }

def alternating : List (Moment ℚ) :=
  [.wake 0 .go, .step 0, .wake 2 .go, .wake 1 .go, .step 2, .step 1, .step 2, .step 1, .wake 3 .go, .wake 1 .go,
    .step 3, .step 1, .step 3, .wake 3 .go, .step 3, .wake 2 .go, .step 2, .step 2, .wake 4 .go, .step 4, .step 4,
    .wake 4 .go, .step 4, .wake 2 .go, .step 2, .step 2, .wake 0 .go, .step 0, .step 0].map (⟨0, ·⟩)

theorem schedule_independent_duet :
    duet.Clear ∧ duet.blocks.Acyclic ∧ Execution (duet.take ⟨0, .begin⟩) alternating ∧
      duet.piece.rendition.finish = 6 ∧ ∃ outcome, duet.returned? 0 alternating = some outcome ∧
        outcome = .finished duet.piece.rendition.finish ∧
        ((duet.take ⟨0, .begin⟩).heard alternating).Perm duet.piece.rendition.sounds := by
  have clear : duet.Clear :=
    ⟨⟨_, _, _, _, rfl⟩, rfl, .of_settings rfl rfl rfl, by decide +kernel⟩
  have acyclic : duet.blocks.Acyclic :=
    .of_rank (fun name => if name = "main" then 2 else if name = "low" then 1 else 0) (by decide +kernel)
  obtain ⟨ran, ends⟩ : Execution (duet.take ⟨0, .begin⟩) alternating ∧ (duet.returned? 0 alternating).isSome = true := by
    decide +kernel
  obtain ⟨outcome, returned⟩ := Option.isSome_iff_exists.mp ends
  obtain ⟨finished, heard, -⟩ :=
    (schedule_independent clear acyclic ran (by decide +kernel)).2.2.1 outcome returned
  exact ⟨clear, acyclic, ran, by decide +kernel, outcome, returned, finished, heard⟩

end Partita.Performance
