import Partita.Proofs.Performance.Attendance

/-! What is still to come of a run, told from where it has come to. While nothing
goes wrong a turn moves a part of what was to come into what has happened, and
neither adds to it nor takes anything away. -/
namespace Partita

open Score

variable {α : Type}

def extended (ends : Nat → α) (size : Nat) (new : List α) : Nat → α :=
  fun i => if i < size then ends i else new[i - size]?.getD (ends i)

theorem extended_old (ends : Nat → α) {size i : Nat} (new : List α) (old : i < size) :
    extended ends size new i = ends i := if_pos old

theorem extended_new (ends : Nat → α) {size i : Nat} {new : List α} {position : α} (later : size ≤ i)
    (there : new[i - size]? = some position) : extended ends size new i = position := by
  simp [extended, Nat.not_lt.mpr later, there]

theorem map_extended (ends : Nat → α) (size : Nat) (new : List α) :
    (List.range' size new.length).map (extended ends size new) = new := by
  refine List.ext_getElem (by simp) fun i _ there => ?_
  rw [List.getElem_map, List.getElem_range']
  exact extended_new ends (by omega) (by simp [there])

variable [Scalar α]

/-- What comes of the lines ahead of a run from a position on. -/
def Run.onward (piece : Piece α) (r : Run α) (position : α) : Rendition α :=
  piece.follow piece.renderAll r.name position (r.ahead fun line => [line])

@[simp] theorem Run.onward_withStatus (piece : Piece α) (r : Run α) (status : Status α) :
    (r.withStatus status).onward piece = r.onward piece := rfl

/-- A run with a line ahead of it carries out what the line means first. -/
theorem Run.onward_read {r : Run α} {line : String} (piece : Piece α) (position : α)
    (ahead : (r.ahead fun line => [line]) = line :: (r.read line).ahead fun line => [line]) :
    r.onward piece position = piece.carry piece.renderAll r.name position
      ((r.read line).onward piece) (piece.deed r.name position line) := by
  have rest : (r.read line).onward piece =
      (piece.follow piece.renderAll r.name · ((r.read line).ahead fun line => [line])) := by
    funext position
    rw [onward, r.read_name]
  rw [onward, ahead, Piece.follow, rest]

/-- What is still to come of a run, given where the runs end that it waits for. -/
def Run.fate (piece : Piece α) (ends : Nat → α) (r : Run α) : Rendition α :=
  match r.status with
  | .created => (r.onward piece r.position).after [] 1
  | .running => r.onward piece r.position
  | .waiting seconds _ => (r.onward piece (r.position + Scalar.max 0 seconds)).after [] 1
  | .playing children => (r.onward piece (Scalar.maximum r.position (children.map ends))).after [] 1
  | .ended (.finished position) => ⟨position, [], 0⟩
  | .settling _ | .ended _ => ⟨r.position, [], 0⟩

section status

variable (piece : Piece α) (ends : Nat → α) (r : Run α)

@[simp] theorem Run.fate_running : (r.withStatus .running).fate piece ends = r.onward piece r.position := rfl

@[simp] theorem Run.fate_waiting (seconds : α) (beats : Option α) :
    (r.withStatus (.waiting seconds beats)).fate piece ends =
      (r.onward piece (r.position + Scalar.max 0 seconds)).after [] 1 := rfl

@[simp] theorem Run.fate_playing (children : List Nat) : (r.withStatus (.playing children)).fate piece ends =
    (r.onward piece (Scalar.maximum r.position (children.map ends))).after [] 1 := rfl

end status

theorem Run.fate_congr {piece : Piece α} {f g : Nat → α} {r : Run α}
    (same : ∀ children, r.status = .playing children → ∀ c ∈ children, f c = g c) :
    r.fate piece f = r.fate piece g := by
  unfold Run.fate
  split
  case h_4 children playing => rw [List.map_congr_left (same children playing)]
  all_goals rfl

namespace Performance

/-- The first turns of a run and all that follows are what its block comes to. -/
theorem newRun_fate (piece : Piece α) (acyclic : piece.blocks.Acyclic) {block : String × List String}
    (found : piece.blocks.lines? block.1 = some block.2) (reached : piece.blocks.Reached block.1)
    (ends : Nat → α) (generation : Nat) (position : α) :
    (newRun generation position block).fate piece ends = piece.renderAll block.1 position := by
  rw [Piece.renderAll_eq acyclic reached found]
  exact congrArg (fun lines => (piece.follow piece.renderAll block.1 position lines).after [] 1)
    (newRun_ahead _ generation position block.1 block.2).1

/-- What is told of a run: it has come to a place in its block, and it will end where it
is said to. -/
structure Told (piece : Piece α) (ends : Nat → α) (i : Nat) (r : Run α) : Prop where
  aligned : r.Aligned fun line => [line]
  reached : piece.blocks.Reached r.name
  finish : (r.fate piece ends).finish = ends i

/-- A performance in which nothing goes wrong and whose end can be told. -/
structure Foretold (piece : Piece α) (ends : Nat → α) (p : Performance α) : Prop where
  calm : p.Calm
  plays : p.piece = piece
  runs : ∀ (i : Nat) (r : Run α), p.runs[i]? = some r → Told piece ends i r
  attended : p.Attended

theorem Foretold.of_virtually {piece : Piece α} {ends : Nat → α} {p : Performance α}
    (foretold : Foretold piece ends p.virtually) (virtual : p.clock.isVirtual = true) : Foretold piece ends p where
  calm := ⟨foretold.calm.toUntroubled.of_virtually virtual, foretold.calm.steady, foretold.calm.unsettled⟩
  plays := foretold.plays
  runs := foretold.runs
  attended := ⟨foretold.attended.children, foretold.attended.waited⟩

section advances

variable {piece : Piece α} {ends : Nat → α} {p : Performance α} {id : Nat} {run run' : Run α}
  {started : List (Run α)} {events : List (Event α)}

/-- A run that has ended ended in the ordinary way, where it was said to. -/
theorem Foretold.ended (foretold : Foretold piece ends p) {i : Nat} {outcome : Outcome α}
    (ended : p.outcome? i = some outcome) :
    outcome = .finished (ends i) ∧ ∃ r, p.runs[i]? = some r ∧ r.isLive = false := by
  obtain ⟨r, there, status⟩ := outcome?_eq_some.mp ended
  have calm := (foretold.calm.runs i r there).status
  have told := (foretold.runs i r there).finish
  refine ⟨?_, r, there, by simp [Run.isLive, status]⟩
  cases outcome with
  | finished position =>
    simp only [Run.fate, status] at told
    rw [told]
  | _ => simp [status, Status.isCalm] at calm

omit [Scalar α] in
theorem finishedAt_cons {c : Nat} {position : α} (ended : p.outcome? c = some (.finished position))
    (rest : List Nat) : p.finishedAt (c :: rest) = position :: p.finishedAt rest := by
  obtain ⟨r, there, status⟩ := outcome?_eq_some.mp ended
  simp [finishedAt, there, status]

omit [Scalar α] in
theorem mem_finishedAt {children : List Nat} {position : α} :
    position ∈ p.finishedAt children ↔ ∃ c ∈ children, p.outcome? c = some (.finished position) := by
  simp only [finishedAt, outcome?, List.mem_filterMap]
  refine exists_congr fun c => and_congr_right fun _ => ?_
  cases p.runs[c]? with
  | none => simp
  | some r =>
    obtain ⟨_, _, _, _, _, _, status⟩ := r
    cases status with
    | ended outcome => cases outcome <;> simp
    | _ => simp

theorem Foretold.finishedAt (foretold : Foretold piece ends p) {children : List Nat}
    (all : children.all p.hasFinished = true) : p.finishedAt children = children.map ends := by
  induction children with
  | nil => rfl
  | cons c rest ih =>
    obtain ⟨first, others⟩ := Bool.and_eq_true_iff.mp all
    unfold hasFinished at first
    split at first
    · rename_i position ended
      obtain ⟨⟨⟩, -⟩ := foretold.ended ended
      rw [finishedAt_cons ended, ih others]
      rfl
    · contradiction

def endsAfter (piece : Piece α) (ends : Nat → α) (p : Performance α) (started : List (Run α)) : Nat → α :=
  extended ends p.runs.size (started.map fun r => (r.fate piece ends).finish)

theorem started_fate (acyclic : p.blocks.Acyclic) {line : String} {names lines : List String} {position : α}
    (reached : p.blocks.Reached run.name) (defined : p.blocks.lines? run.name = some lines)
    (member : line ∈ lines) (deed : p.piece.deed run.name position line = .play names) (ends : Nat → α)
    (generation : Nat) :
    ((p.blocks.cast names).map (newRun generation position)).map (·.fate p.piece ends) =
      (p.blocks.cast names).map fun child => p.piece.renderAll child.1 position := by
  rw [List.map_map]
  refine List.map_congr_left fun child cast => ?_
  have played : p.blocks.Plays run.name child.1 :=
    Piece.plays_of_deed p.piece defined member deed cast
  exact newRun_fate p.piece acyclic (Blocks.mem_cast.mp cast).2 (reached.tail played) ends generation position

/-- A turn in which a run reads a line takes from what is to come what the line means. -/
theorem read_fate (acyclic : p.blocks.Acyclic) {line : String} {lines : List String} {d : Deed α}
    (reached : p.blocks.Reached run.name) (defined : p.blocks.lines? run.name = some lines)
    (member : line ∈ lines) (running : run.status = .running)
    (ahead : (run.ahead fun line => [line]) = line :: (run.read line).ahead fun line => [line])
    (deed : p.piece.deed run.name run.position line = d) (generation : Nat) :
    let started := d.started p.blocks generation run.position
    let fates := started.map (·.fate p.piece (endsAfter p.piece ends p started))
    run.fate p.piece ends =
      (((run.read line).withStatus (d.status p.blocks p.runs.size)).fate p.piece
        (endsAfter p.piece ends p started)).after
        (d.events.map (run.name, ·) ++ fates.flatMap (·.sounds)) (1 + Rendition.turnsOf fates) := by
  intro started fates
  have now : run.fate p.piece ends = run.onward p.piece run.position := by
    simp only [Run.fate, running]
  rw [now, run.onward_read p.piece run.position ahead, deed]
  have position := run.read_position line
  cases d with
  | pause seconds beats => simp [Piece.carry, Deed.status, Deed.events, Deed.started, started, fates, position]
  | sound event => simp [Piece.carry, Deed.status, Deed.events, Deed.started, started, fates, position]
  | play names =>
    have parts : fates = (p.blocks.cast names).map fun child => p.piece.renderAll child.1 run.position :=
      started_fate acyclic reached defined member deed _ generation
    have told : (started.map fun r => (r.fate p.piece ends).finish) = fates.map (·.finish) := by
      rw [parts, ← started_fate acyclic reached defined member deed ends generation, List.map_map]
      rfl
    have ended : (List.range' p.runs.size (p.blocks.cast names).length).map (endsAfter p.piece ends p started) =
        fates.map (·.finish) := by
      have length : (p.blocks.cast names).length = (fates.map (·.finish)).length := by simp [parts]
      rw [endsAfter, told, length, map_extended]
    have carried (onward : α → Rendition α) :
        p.piece.carry p.piece.renderAll run.name run.position onward (.play names) =
          (onward (Scalar.maximum run.position (fates.map (·.finish)))).after (fates.flatMap (·.sounds))
            ((if fates.isEmpty then 1 else 2) + Rendition.turnsOf fates) := by
      rw [parts]
      rfl
    rw [carried, Deed.status]
    by_cases none : p.blocks.cast names = []
    · have empty : fates = [] := by rw [parts, none]; rfl
      simp [none, empty, Deed.events, position, Scalar.maximum]
    · have some : fates.isEmpty = false := by simp [parts, none]
      have turns : 2 + Rendition.turnsOf fates = 1 + Rendition.turnsOf fates + 1 := by omega
      rw [if_neg none, Run.fate_playing, ended, position, some]
      simp [Deed.events, turns]
  | _ => simp [Piece.carry, Deed.status, Deed.events, Deed.started, started, fates, position]

/-- What was to come of a run is what happens in its turn, what is to come of the runs
that it starts, and what is to come of it then. -/
theorem Advances.fate (acyclic : piece.blocks.Acyclic) (foretold : Foretold piece ends p)
    (found : p.runs[id]? = some run) (advances : Advances p run run' started events) :
    let fates := started.map (·.fate piece (endsAfter piece ends p started))
    run.fate piece ends = (run'.fate piece (endsAfter piece ends p started)).after
      (events.map (run.name, ·) ++ fates.flatMap (·.sounds)) (1 + Rendition.turnsOf fates) := by
  obtain rfl := foretold.plays
  cases advances with
  | starts created =>
    rw [Run.fate_running]
    simp [Run.fate, created]
  | resumes waiting =>
    simp only [Run.fate, waiting]
    rfl
  | rejoins playing all =>
    simp only [Run.fate, playing, foretold.finishedAt all]
    rfl
  | reads running next deed =>
    have calm := foretold.calm.runs id run found
    obtain ⟨-, lines, defined, member⟩ := calm.mem_lines next
    have told := foretold.runs id run found
    exact read_fate acyclic told.reached defined member running (ahead_next calm told.aligned next).1 deed _
  | ends running spent =>
    have calm := foretold.calm
    have behind : (run.ahead fun line => [line]) = [] := by
      apply Run.ahead_over
      simpa [Run.next?, calm.playing, (calm.runs id run found).generation] using spent
    simp only [Run.fate, running, Run.onward, behind]
    rfl

theorem Foretold.kept (foretold : Foretold piece ends p) (found : p.runs[id]? = some run)
    (advances : Advances p run run' started events) : Kept p run run' started :=
  advances.kept (foretold.calm.runs id run found) (foretold.runs id run found).aligned

theorem Advances.unsettled (advances : Advances p run run' started events) (deadline : α) :
    run'.status ≠ .settling deadline := by
  cases advances with
  | reads running next deed =>
    simp only [Run.withStatus, Deed.status]
    split
    · simp
    · split <;> simp
    · simp
  | _ => simp [Run.withStatus]

variable (acyclic : piece.blocks.Acyclic) (foretold : Foretold piece ends p) (found : p.runs[id]? = some run)
  (advances : Advances p run run' started events) {q : Performance α} {sounds : List (Event α)}
  (advance : Advance id run' started sounds p q)
include foretold found advances advance

theorem Advance.calm : q.Calm := by
  have kept := foretold.kept found advances
  refine ⟨advance.untroubled foretold.calm.toUntroubled found kept, ?_, ?_⟩
  · rw [advance.blocks]
    exact foretold.calm.steady
  · intro i r there deadline
    rcases advance.runs.origin there with ⟨rfl, rfl⟩ | ⟨-, there⟩ | ⟨-, listed⟩
    · exact advances.unsettled deadline
    · exact foretold.calm.unsettled i r there deadline
    · obtain ⟨position, block, rfl, -⟩ := kept.plays r (List.mem_of_getElem? listed)
      simp [newRun]

include acyclic

/-- After a turn the runs end where they were said to, and so do those that it starts. -/
theorem Advance.told (i : Nat) (r : Run α) (there : q.runs[i]? = some r) :
    Told piece (endsAfter piece ends p started) i r := by
  have kept := foretold.kept found advances
  have old (j : Nat) (present : j < p.runs.size) : endsAfter piece ends p started j = ends j :=
    extended_old ends _ present
  rcases advance.runs.origin there with ⟨rfl, rfl⟩ | ⟨-, there⟩ | ⟨later, listed⟩
  · have before := foretold.runs i run found
    have present := (Array.getElem?_eq_some_iff.mp found).1
    refine ⟨kept.aligned, kept.name ▸ before.reached, ?_⟩
    rw [old i present, ← before.finish, advances.fate acyclic foretold found]
    rfl
  · have before := foretold.runs i r there
    have present := (Array.getElem?_eq_some_iff.mp there).1
    refine ⟨before.aligned, before.reached, ?_⟩
    rw [old i present, ← before.finish]
    refine congrArg Rendition.finish (Run.fate_congr fun children playing c member => ?_)
    exact old c (foretold.attended.children i r there children playing c member).2
  · obtain ⟨position, block, rfl, defined, plays⟩ := kept.plays r (List.mem_of_getElem? listed)
    obtain rfl := foretold.plays
    refine ⟨(newRun_ahead ..).2, (foretold.runs id run found).reached.tail plays, ?_⟩
    exact (extended_new ends later (by rw [List.getElem?_map, listed]; rfl)).symm

/-- A turn leaves a performance whose end can be told. -/
theorem Advance.keeps_foretold : Foretold piece (endsAfter piece ends p started) q where
  calm := advance.calm foretold found advances
  plays := by rw [advance.toKeeps.piece, foretold.plays]
  runs := advance.told acyclic foretold found advances
  attended := foretold.attended.turn found (foretold.kept found advances) advance.runs

end advances

end Performance

end Partita
