import Partita.Proofs.Performance.Step

/-! The structural unrolling of a block, and the loop stack of a run as what is left
of it. The unrolling is read off the lines from the last one to the first; a run
reaches the same lines with a cursor and a stack of open loops. -/
namespace Partita

open Score

namespace Score

/-- What a line is to the loops of its block. -/
inductive Bracket where
  | opens (passes : Int)
  | closes
  | neither

/-- A loop whose count has too many digits to be read does not open. -/
def Command.bracket (c : Command) : Bracket :=
  if c.verb == "loop" then
    match countOr (c.arg? 0) 1 with
    | .ok passes => .opens passes
    | .error _ => .neither
  else if c.isLoopEnd then .closes
  else .neither

@[irreducible] def bracketOf (line : String) : Bracket := ((Command.parse? line).map Command.bracket).getD .neither

variable {β : Type}

/-- What some lines give when loops are unrolled, cut at the ends that close no loop
of these lines. A loop that one of them closes has what is in it repeated; one that
nothing closes goes on to the end. -/
def segments (emit : String → List β) : List String → List β × List (List β)
  | [] => ([], [])
  | line :: rest =>
    let (first, others) := segments emit rest
    match bracketOf line with
    | .neither => (emit line ++ first, others)
    | .closes => (emit line, first :: others)
    | .opens passes =>
      match others with
      | [] => (emit line ++ first, [])
      | next :: more => (emit line ++ (List.replicate (max 1 passes).toNat first).flatten ++ next, more)

/-- What the lines of a block give when loops are unrolled. An end that closes no
loop does nothing. -/
def unrolled (emit : String → List β) (lines : List String) : List β :=
  (segments emit lines).1 ++ (segments emit lines).2.flatten

def Command.isPlain (c : Command) : Bool := c.verb != "loop" && !c.isLoopEnd

def plain (line : String) : List Command := ((Command.parse? line).filter Command.isPlain).toList

/-- The commands of a block when loops are unrolled. -/
def unroll (lines : List String) : List Command := unrolled plain lines

/-- What is still to come of a block after `cut` with some open loops: the rest of the
pass of each, its further passes, and what follows it. -/
def owed (emit : String → List β) (lines : List String) :
    List β × List (List β) → List LoopFrame → List β
  | cut, [] => cut.1 ++ cut.2.flatten
  | (first, []), _ :: _ => first
  | (first, next :: more), frame :: rest =>
    first ++ (List.replicate (frame.remaining - 1).toNat (segments emit (lines.drop frame.body)).1).flatten ++
      owed emit lines (next, more) rest

/-- The open loops end where the cuts are. -/
def Nested (emit : String → List β) (lines : List String) : List (List β) → List LoopFrame → Prop
  | next :: more, frame :: rest =>
    (segments emit (lines.drop frame.body)).2 = next :: more ∧ Nested emit lines more rest
  | _, _ => True

theorem owed_cons (emit : String → List β) (lines : List String) (xs first : List β)
    (others : List (List β)) (loops : List LoopFrame) :
    owed emit lines (xs ++ first, others) loops = xs ++ owed emit lines (first, others) loops := by
  cases loops with
  | nil => simp [owed]
  | cons frame rest => cases others <;> simp [owed]

theorem replicate_passes (passes : Int) (xs : List β) :
    (List.replicate (max 1 passes).toNat xs).flatten =
      xs ++ (List.replicate (passes - 1).toNat xs).flatten := by
  have count : (max 1 passes).toNat = (passes - 1).toNat + 1 := by omega
  rw [count, List.replicate_succ, List.flatten_cons]

end Score

namespace Run

variable {α β : Type}

/-- What is still to come of the block of a run. -/
def ahead (emit : String → List β) (r : Run α) : List β :=
  owed emit r.lines.toList (segments emit (r.lines.toList.drop r.cursor)) r.loops

def Aligned (emit : String → List β) (r : Run α) : Prop :=
  Nested emit r.lines.toList (segments emit (r.lines.toList.drop r.cursor)).2 r.loops

def read (line : String) (r : Run α) : Run α := match bracketOf line with
  | .neither => r.advance
  | .opens passes => r.advance.openLoop passes
  | .closes => r.advance.closeLoop

/-- A loop that is opened or closed is all that a line changes beside the cursor. -/
theorem read_eq (r : Run α) (line : String) :
    ∃ cursor loops, r.read line = { r with cursor := cursor, loops := loops } := by
  unfold read
  split
  · exact ⟨_, _, rfl⟩
  · exact ⟨_, _, rfl⟩
  · unfold closeLoop
    repeat' split
    all_goals exact ⟨_, _, rfl⟩

theorem read_name (r : Run α) (line : String) : (r.read line).name = r.name := by
  obtain ⟨_, _, same⟩ := r.read_eq line
  rw [same]

theorem read_lines (r : Run α) (line : String) : (r.read line).lines = r.lines := by
  obtain ⟨_, _, same⟩ := r.read_eq line
  rw [same]

theorem read_generation (r : Run α) (line : String) : (r.read line).generation = r.generation := by
  obtain ⟨_, _, same⟩ := r.read_eq line
  rw [same]

theorem read_position (r : Run α) (line : String) : (r.read line).position = r.position := by
  obtain ⟨_, _, same⟩ := r.read_eq line
  rw [same]

theorem drop_cursor {r : Run α} {line : String} (there : r.lines[r.cursor]? = some line) :
    r.lines.toList.drop r.cursor = line :: r.lines.toList.drop (r.cursor + 1) := by
  obtain ⟨bound, same⟩ := Array.getElem?_eq_some_iff.mp there
  rw [List.drop_eq_getElem_cons (by simpa using bound)]
  simp [same]

section read

variable {emit : String → List β} {r : Run α} {line : String} {first : List β} {others : List (List β)}
  (there : r.lines[r.cursor]? = some line)
  (cut : segments emit (r.lines.toList.drop (r.cursor + 1)) = (first, others))
include there cut

theorem read_neither (bracket : bracketOf line = .neither) (aligned : r.Aligned emit) :
    r.ahead emit = emit line ++ r.advance.ahead emit ∧ r.advance.Aligned emit := by
  simp only [Aligned, drop_cursor there, segments, cut, bracket] at aligned
  constructor
  · simp only [ahead, drop_cursor there, segments, cut, bracket, advance]
    exact owed_cons ..
  · simpa only [Aligned, advance, cut] using aligned

/-- A loop that is opened has its first pass ahead, and the others on the stack. -/
theorem read_opens {passes : Int} (bracket : bracketOf line = .opens passes) (aligned : r.Aligned emit) :
    r.ahead emit = emit line ++ (r.advance.openLoop passes).ahead emit ∧
      (r.advance.openLoop passes).Aligned emit := by
  simp only [Aligned, drop_cursor there, segments, cut, bracket] at aligned
  simp only [Aligned, ahead, drop_cursor there, segments, cut, bracket, advance, openLoop]
  cases others with
  | nil =>
    refine ⟨?_, trivial⟩
    cases r.loops <;> simp [owed]
  | cons next more =>
    refine ⟨?_, by simp [cut], aligned⟩
    rw [replicate_passes, owed_cons, owed, cut]
    simp

/-- At the end of a pass the stack gives the next one, or what follows the loop. -/
theorem read_closes (bracket : bracketOf line = .closes) (aligned : r.Aligned emit) :
    r.ahead emit = emit line ++ r.advance.closeLoop.ahead emit ∧ r.advance.closeLoop.Aligned emit := by
  simp only [Aligned, drop_cursor there, segments, cut, bracket] at aligned
  simp only [ahead, drop_cursor there, segments, cut, bracket]
  have opened : r.advance.loops = r.loops := rfl
  unfold closeLoop
  cases loops : r.loops with
  | nil =>
    simp only [loops, Aligned, advance, cut]
    exact ⟨rfl, by simp [Nested]⟩
  | cons frame rest =>
    rw [loops] at aligned
    obtain ⟨ends, outer⟩ := aligned
    rcases pass : segments emit (r.lines.toList.drop frame.body) with ⟨body, after⟩
    rw [pass] at ends
    obtain rfl : after = first :: others := ends
    simp only [opened, loops]
    split
    · rename_i again
      have left : (frame.remaining - 1).toNat = (frame.remaining - 1 - 1).toNat + 1 := by omega
      simp only [Aligned, advance, pass, owed, left, List.replicate_succ, List.flatten_cons]
      exact ⟨by simp, by simp [pass], outer⟩
    · rename_i spent
      have none : (frame.remaining - 1).toNat = 0 := by omega
      simp only [Aligned, advance, cut, owed, none]
      exact ⟨by simp, outer⟩

end read

/-- A run that reads a line has that line less ahead of it. -/
theorem ahead_read {emit : String → List β} {r : Run α} {line : String}
    (there : r.lines[r.cursor]? = some line) (aligned : r.Aligned emit) :
    r.ahead emit = emit line ++ (r.read line).ahead emit ∧ (r.read line).Aligned emit := by
  rcases cut : segments emit (r.lines.toList.drop (r.cursor + 1)) with ⟨first, others⟩
  unfold read
  split
  · exact read_neither there cut ‹_› aligned
  · exact read_opens there cut ‹_› aligned
  · exact read_closes there cut ‹_› aligned

theorem ahead_over {emit : String → List β} {r : Run α} (spent : r.lines[r.cursor]? = none) :
    r.ahead emit = [] := by
  have none : r.lines.toList.drop r.cursor = [] := by
    simpa using Array.getElem?_eq_none_iff.mp spent
  rw [ahead, none]
  cases r.loops <;> rfl

end Run

theorem Performance.newRun_ahead {α β : Type} (emit : String → List β) (generation : Nat) (position : α)
    (name : String) (lines : List String) :
    (newRun generation position (name, lines)).ahead emit = unrolled emit lines ∧
      (newRun generation position (name, lines)).Aligned emit := by
  simp [Run.ahead, Run.Aligned, newRun, unrolled, owed, Nested]

/-- Where a deed takes a run that has read its line. -/
def Deed.place {α : Type} (d : Deed α) (r : Run α) : Run α := match d with
  | .openLoop passes => r.openLoop passes
  | .closeLoop => r.closeLoop
  | _ => r

theorem Score.Command.place_deed {α : Type} [Scalar α] (c : Command) (bpm : α) (has : String → Bool)
    (block : String) (position : α) (r : Run α) :
    (c.deed bpm has block position).place r = match c.bracket with
      | .neither => r
      | .opens passes => r.openLoop passes
      | .closes => r.closeLoop := by
  by_cases loop : c.verb = "loop"
  · simp only [Command.deed, Command.bracket, loop, beq_self_eq_true, if_true]
    cases countOr (c.arg? 0) 1 <;> rfl
  by_cases ends : c.verb = "end"
  · simp only [Command.deed, Command.bracket, ends]
    cases c.isLoopEnd <;> rfl
  have opens : (c.verb == "loop") = false := by simpa using loop
  have closes : c.isLoopEnd = false := by simp [Command.isLoopEnd, ends]
  simp only [Command.bracket, opens, closes, Bool.false_eq_true, if_false]
  unfold Command.deed
  split
  case h_5 => contradiction
  case h_6 => contradiction
  all_goals
    repeat' split
    all_goals rfl

theorem Run.read_command {α : Type} [Scalar α] {line : String} {c : Command}
    (parsed : Command.parse? line = some c) (bpm : α) (has : String → Bool) (block : String) (position : α)
    (r : Run α) : r.read line = (c.deed bpm has block position).place r.advance := by
  simp only [Run.read, bracketOf, parsed, Option.map_some, Option.getD_some, Command.place_deed]

end Partita
