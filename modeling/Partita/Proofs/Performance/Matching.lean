import Mathlib.Data.List.TakeWhile
import Partita.Proofs.Performance.Cursor
import Partita.Proofs.Score.Brackets

/-! How a run and an estimate match ends with loops. A run pushes and pops frames while it
jumps back; at each of its steps the frames are the loops that a scan of the lines before
the cursor leaves open. An end is therefore met with the frame of the loop that an estimate
matches it with. -/
namespace Partita

open Score Estimate

namespace Score

def Command.isCounted (c : Command) : Bool :=
  c.verb != "loop" || (c.arg? 0).all fun token => token.toList.countP Text.isDigit ≤ maxIntegerDigits

theorem count?_of_short {token : String} (short : token.toList.countP Text.isDigit ≤ maxIntegerDigits) :
    ∃ n, count? token = .ok n := by
  have signed (cs : List Char) : (readSign cs).2.Sublist cs := by
    unfold readSign
    split
    · exact List.sublist_cons_self ..
    · exact List.sublist_cons_self ..
    · exact List.Sublist.refl _
  have inside : ((readSign (Text.skipBlank token.toList)).2.takeWhile Text.isDigit).Sublist token.toList :=
    (List.takeWhile_sublist _).trans ((signed _).trans (List.dropWhile_sublist _))
  have few : List.countP Text.isDigit _ ≤ List.countP Text.isDigit _ := inside.countP_le
  rw [List.countP_eq_length.mpr fun c member => List.mem_takeWhile_imp member] at few
  unfold count?
  dsimp only
  split
  · exact ⟨none, rfl⟩
  · rw [if_neg (by omega)]
    exact ⟨some _, rfl⟩

theorem countOr_of_counted {c : Command} (loop : c.verb = "loop") (counted : c.isCounted = true) (default : Int) :
    ∃ passes, countOr (c.arg? 0) default = .ok passes := by
  unfold Command.isCounted at counted
  cases token : c.arg? 0 with
  | none => exact ⟨default, rfl⟩
  | some t =>
    simp only [loop, token, bne_self_eq_false, Bool.false_or, Option.all_some, decide_eq_true_eq] at counted
    obtain ⟨n, read⟩ := count?_of_short counted
    simp only [countOr, read]
    cases n with
    | none => exact ⟨default, rfl⟩
    | some n => exact ⟨if n == 0 then default else n, rfl⟩

/-- What a line is to the loops of its block when all counts can be read. -/
theorem bracketOf_of_counted {line : String} {c : Command} (parsed : Command.parse? line = some c)
    (counted : c.isCounted = true) :
    (c.verb = "loop" ∧ ∃ passes, bracketOf line = .opens passes) ∨
      (c.isLoopEnd = true ∧ bracketOf line = .closes) ∨
      (c.verb ≠ "loop" ∧ c.isLoopEnd = false ∧ bracketOf line = .neither) := by
  have here : bracketOf line = c.bracket := by simp [bracketOf, parsed]
  cases c.role with
  | opens loop =>
    obtain ⟨passes, read⟩ := countOr_of_counted loop counted 1
    exact .inl ⟨loop, passes, by simp [here, Command.bracket, loop, read]⟩
  | closes other ends => exact .inr (.inl ⟨ends, by simp [here, Command.bracket, other, ends]⟩)
  | plain other stays => exact .inr (.inr ⟨other, stays, by simp [here, Command.bracket, other, stays]⟩)

/-- A block of commands, one on each line, whose loops can be counted. -/
structure Dense (lines : List String) : Prop where
  significant : ∀ line ∈ lines, isBlankOrComment line = false
  counted : ∀ c ∈ commandsOf lines, c.isCounted = true

namespace Dense

variable {lines : List String}

/-- The command at an index stands on the line at that index. -/
theorem command_at (dense : Dense lines) (i : Nat) : (commandsOf lines)[i]? = lines[i]?.bind Command.parse? :=
  commandsOf_getElem? dense.significant i

theorem of_line (dense : Dense lines) {i : Nat} {line : String} (there : lines[i]? = some line) :
    ∃ c, Command.parse? line = some c ∧ (commandsOf lines)[i]? = some c ∧ c.isCounted = true := by
  obtain ⟨c, parsed⟩ := Command.exists_parse? (dense.significant line (List.mem_of_getElem? there))
  have found : (commandsOf lines)[i]? = some c := by rw [dense.command_at, there, Option.bind_some, parsed]
  exact ⟨c, parsed, found, dense.counted c (List.mem_of_getElem? found)⟩

end Dense

theorem openLoops_take_succ {cs : List Command} {n : Nat} {c : Command} (there : cs[n]? = some c) :
    openLoops (cs.take (n + 1)) = reopened c n (openLoops (cs.take n)) := by
  have bound := (List.getElem?_eq_some_iff.mp there).1
  rw [List.take_add_one, there, Option.toList_some, openLoops_snoc, List.length_take_of_le (by omega)]

/-- The loop at an index is the one that an estimate ends at another index. -/
structure Spans (cs : List Command) (i j : Nat) : Prop where
  before : i < j
  loop : ∃ c, cs[i]? = some c ∧ c.verb = "loop"
  body : loopBody 0 (cs.drop (i + 1)) = some ((cs.take j).drop (i + 1))

/-- Around a loop and a command after it. -/
theorem split_around {cs : List Command} {i j : Nat} {opening closing : Command} (before : i < j)
    (opens : cs[i]? = some opening) (closes : cs[j]? = some closing) :
    cs.take j = cs.take i ++ opening :: (cs.take j).drop (i + 1) ∧
      cs.drop (i + 1) = (cs.take j).drop (i + 1) ++ closing :: cs.drop (j + 1) ∧ (cs.take i).length = i := by
  have cut {xs : List Command} {n : Nat} {c : Command} (there : xs[n]? = some c) :
      xs.take n ++ c :: xs.drop (n + 1) = xs := by
    obtain ⟨bound, rfl⟩ := List.getElem?_eq_some_iff.mp there
    rw [List.cons_getElem_drop_succ, List.take_append_drop]
  have second := (List.getElem?_eq_some_iff.mp closes).1
  have first := cut ((List.getElem?_take_of_lt before).trans opens)
  rw [List.take_take, Nat.min_eq_left (by omega)] at first
  refine ⟨first.symm, ?_, List.length_take_of_le (by omega)⟩
  have inside : i + 1 ≤ (cs.take j).length := by
    rw [List.length_take_of_le (by omega)]
    omega
  rw [← List.drop_append_of_le_length inside, cut closes]

/-- At an end with open loops, exactly the innermost of them is enclosed by it. -/
theorem spans_iff {cs : List Command} {j place : Nat} {others : List Nat} {closing : Command}
    (there : cs[j]? = some closing) (closes : closing.isLoopEnd = true)
    (opened : openLoops (cs.take j) = place :: others) :
    ∃ i, place = i + 1 ∧ ∀ k, Spans cs k j ↔ k = i := by
  obtain ⟨outer, opening, inner, cut, opens, -, rfl, -⟩ := openLoops_eq_cons opened
  have bound := (List.getElem?_eq_some_iff.mp there).1
  have before : outer.length < j := by
    have length := congrArg List.length cut
    simp only [List.length_take_of_le (Nat.le_of_lt bound), List.length_append, List.length_cons] at length
    omega
  have found : cs[outer.length]? = some opening := by
    rw [← List.getElem?_take_of_lt before, cut]
    simp
  -- what `loopBody` finds is decided by the innermost open loop
  have decided (k : Nat) (c : Command) (small : k < j) (here : cs[k]? = some c) (loop : c.verb = "loop") :
      loopBody 0 (cs.drop (k + 1)) = some ((cs.take j).drop (k + 1)) ↔ outer.length = k := by
    obtain ⟨front, back, length⟩ := split_around small here there
    rw [back, loopBody_eq_some_iff_opened (cs.take k) _ loop closes, ← front, opened, length]
    simp
  refine ⟨outer.length, rfl, fun k => ⟨fun spans => ?_, ?_⟩⟩
  · obtain ⟨c, here, loop⟩ := spans.loop
    exact ((decided k c spans.before here loop).mp spans.body).symm
  · rintro rfl
    exact ⟨before, ⟨opening, found, opens⟩, (decided _ opening before found opens).mpr rfl⟩

/-- A loop with a body is ended by the command after it. -/
theorem spans_of_body {cs body : List Command} {i : Nat} {opening : Command} (here : cs[i]? = some opening)
    (loop : opening.verb = "loop") (found : loopBody 0 (cs.drop (i + 1)) = some body) :
    ∃ j closing, cs[j]? = some closing ∧ closing.isLoopEnd = true ∧ Spans cs i j := by
  obtain ⟨-, closing, rest, closes, after⟩ := loopBody_eq_some_iff.mp found
  have there : cs[i + 1 + body.length]? = some closing := by
    rw [← List.getElem?_drop, after]
    simp
  refine ⟨i + 1 + body.length, closing, there, closes, by omega, ⟨opening, here, loop⟩, ?_⟩
  rw [found, List.drop_take, after]
  simp

/-- A loop is left open by a scan of everything exactly if it has no body. -/
theorem mem_openLoops_iff {cs : List Command} {i : Nat} {opening : Command} (here : cs[i]? = some opening)
    (loop : opening.verb = "loop") : i + 1 ∈ openLoops cs ↔ loopBody 0 (cs.drop (i + 1)) = none := by
  obtain ⟨bound, rfl⟩ := List.getElem?_eq_some_iff.mp here
  have length : (cs.take i).length = i := List.length_take_of_le (by omega)
  have cut := loopBody_eq_none_iff_mem (cs.take i) (cs.drop (i + 1)) loop
  rw [← List.drop_eq_getElem_cons bound, List.take_append_drop, length] at cut
  exact cut.symm

end Score

namespace Run

variable {α : Type}

def opened (r : Run α) : List Nat := r.loops.map LoopFrame.body

/-- A run that has no line ahead of it has read its last one. -/
theorem spent_of_ahead {r : Run α} (done : r.ahead (fun line => [line]) = []) : r.lines[r.cursor]? = none := by
  cases there : r.lines[r.cursor]? with
  | none => rfl
  | some line =>
    rw [ahead, drop_cursor there] at done
    have first (cut : List String × List (List String)) (loops : List LoopFrame)
        (none : owed (fun line => [line]) r.lines.toList cut loops = []) : cut.1 = [] := by
      unfold owed at none
      split at none <;> simp_all
    have none := first _ _ done
    unfold segments at none
    dsimp only at none
    split at none
    · simp at none
    · simp at none
    · split at none <;> simp at none

/-- The frames are the loops that a scan of the lines before the cursor leaves open. -/
def Matched (r : Run α) : Prop := r.opened = openLoops ((commandsOf r.lines.toList).take r.cursor)

/-- A line that is read keeps the frames in line with the scan, and the cursor moves on by
one line or goes back. -/
theorem Matched.read {r : Run α} (matched : r.Matched) (dense : Dense r.lines.toList) {line : String}
    (there : r.lines[r.cursor]? = some line) : (r.read line).Matched ∧ (r.read line).cursor ≤ r.cursor + 1 := by
  obtain ⟨c, parsed, found, counted⟩ := dense.of_line (by simpa using there)
  have scanned := openLoops_take_succ found
  unfold Matched at matched
  rw [← matched] at scanned
  rcases bracketOf_of_counted parsed counted with ⟨loop, passes, bracket⟩ | ⟨ends, bracket⟩ | ⟨other, stays, bracket⟩
  · simp only [Run.read, bracket]
    rw [reopened_loop _ _ loop] at scanned
    exact ⟨scanned.symm, Nat.le_refl _⟩
  · simp only [Run.read, bracket]
    rw [reopened_end _ _ ends] at scanned
    unfold closeLoop
    split
    · rename_i none
      have same : r.loops = [] := none
      refine ⟨?_, Nat.le_refl _⟩
      unfold opened at scanned
      rw [same] at scanned
      simp only [Matched, opened, advance, same]
      exact scanned.symm
    · rename_i frame rest loops
      have same : r.loops = frame :: rest := loops
      have stack : openLoops ((commandsOf r.lines.toList).take r.cursor) = frame.body :: rest.map LoopFrame.body := by
        rw [← matched, opened, same, List.map_cons]
      split
      · obtain ⟨within, back⟩ := openLoops_take stack
        have earlier : frame.body ≤ r.cursor := within.trans (List.length_take_le ..)
        rw [List.take_take, Nat.min_eq_left earlier] at back
        exact ⟨back.symm, by change frame.body ≤ _; omega⟩
      · refine ⟨?_, Nat.le_refl _⟩
        unfold opened at scanned
        rw [same] at scanned
        exact scanned.symm
  · simp only [Run.read, bracket]
    rw [reopened_plain _ _ other stays] at scanned
    exact ⟨scanned.symm, Nat.le_refl _⟩

end Run

namespace Performance

variable {α : Type}

/-- Whether an act dispatches an end with the frame of the loop at an index on top. -/
def endsLoop (p : Performance α) (id index : Nat) (act : Act α) : Bool :=
  match p.runs[id]?, p.dispatched? id act with
  | some run, some c => c.isLoopEnd && run.opened.head? == some (index + 1)
  | _, _ => false

theorem newRun_matched (generation : Nat) (position : α) (name : String) (lines : List String) :
    (newRun generation position (name, lines)).Matched := rfl

section turn

variable {p : Performance α} {id : Nat} {run : Run α} (found : p.runs[id]? = some run)
  (dense : Dense run.lines.toList)
include found dense

/-- The command that a run dispatches stands at its cursor. -/
theorem dispatched?_at {act : Act α} {c : Command} (dispatched : p.dispatched? id act = some c) :
    (commandsOf run.lines.toList)[run.cursor]? = some c := by
  obtain ⟨line, read, -⟩ := Option.bind_eq_some_iff.mp dispatched
  rw [← dispatched?_eq found dense.significant read, dispatched]

variable (matched : run.Matched)
include matched

theorem placed_matched (act : Act α) :
    (p.placed id act run).Matched ∧ (p.placed id act run).cursor ≤ run.cursor + 1 := by
  unfold placed
  cases read : p.read? id act with
  | none => exact ⟨matched, Nat.le_succ _⟩
  | some line =>
    exact matched.read dense (Run.getElem?_of_next? (next?_of_read? found read))

/-- The frame on top when an end is dispatched is that of the loop an estimate ends there. -/
theorem end_spans {act : Act α} {c : Command} (dispatched : p.dispatched? id act = some c)
    (ends : c.isLoopEnd = true) {place : Nat} {others : List Nat} (opened : run.opened = place :: others) :
    ∃ i, place = i + 1 ∧ ∀ k, Spans (commandsOf run.lines.toList) k run.cursor ↔ k = i := by
  have there := dispatched?_at found dense dispatched
  rw [Run.Matched] at matched
  rw [matched] at opened
  exact spans_iff there ends opened

theorem body_of_endsLoop {act : Act α} {i : Nat} (ends : p.endsLoop id i act = true) :
    loopBody 0 ((commandsOf run.lines.toList).drop (i + 1)) ≠ none := by
  unfold endsLoop at ends
  rw [found] at ends
  cases dispatched : p.dispatched? id act with
  | none => simp [dispatched] at ends
  | some c =>
    simp only [dispatched, Bool.and_eq_true, beq_iff_eq] at ends
    obtain ⟨others, opened⟩ := List.head?_eq_some_iff.mp ends.2
    obtain ⟨k, same, only⟩ := end_spans found dense matched dispatched ends.1 opened
    obtain rfl := Nat.succ_inj.mp same
    rw [((only i).mpr rfl).body]
    simp

end turn

variable [Scalar α]

/-- Whoever acts, the frames of a run stay in line with the scan. -/
theorem take_matched {p : Performance α} {m : Moment α} {id : Nat} {run : Run α} (found : p.runs[id]? = some run)
    (dense : Dense run.lines.toList) (matched : run.Matched) (ready : p.enabled m.act = true) :
    ∃ s, (p.take m).runs[id]? = some s ∧ s.lines = run.lines ∧ s.Matched ∧
      s.cursor = (p.placed id m.act run).cursor := by
  obtain ⟨s, after, same, -⟩ := take_placed found ready
  refine ⟨s, after, same.lines.trans (p.placed_block id m.act run).2.1, ?_, same.cursor⟩
  have placed := (placed_matched found dense matched m.act).1
  simpa only [Run.Matched, Run.opened, same.lines, same.cursor, same.loops] using placed

namespace Execution

variable {p : Performance α} {ms : List (Moment α)} {id : Nat} {run : Run α} (ran : Execution p ms)
  (found : p.runs[id]? = some run) (dense : Dense run.lines.toList) (matched : run.Matched)
include ran found dense matched

theorem stays_matched : ∃ s, (p.after ms).runs[id]? = some s ∧ s.lines = run.lines ∧ s.Matched := by
  induction ms generalizing p run with
  | nil => exact ⟨run, found, rfl, matched⟩
  | cons m rest ih =>
    obtain ⟨s, after, lines, kept, -⟩ := take_matched found dense matched ran.1
    obtain ⟨t, ended, block, stays⟩ := ih ran.2 after (lines ▸ dense) kept
    exact ⟨t, ended, block.trans lines, stays⟩

/-- A loop without a body is never ended. -/
theorem never_ends {i : Nat} (missing : loopBody 0 ((commandsOf run.lines.toList).drop (i + 1)) = none) :
    Along (fun q m => q.endsLoop id i m.act = false) p ms := by
  induction ms generalizing p run with
  | nil => trivial
  | cons m rest ih =>
    obtain ⟨s, after, lines, kept, -⟩ := take_matched found dense matched ran.1
    refine ⟨?_, ih ran.2 after (lines ▸ dense) kept (lines ▸ missing)⟩
    apply Bool.eq_false_iff.mpr
    intro ends
    exact body_of_endsLoop found dense matched ends missing

/-- A run passes no end without dispatching it: the cursor moves on line by line. -/
theorem passes_end {i j : Nat} {closing : Command} (there : (commandsOf run.lines.toList)[j]? = some closing)
    (closes : closing.isLoopEnd = true) (spans : Spans (commandsOf run.lines.toList) i j)
    (before : run.cursor ≤ j) {s : Run α} (after : (p.after ms).runs[id]? = some s) (beyond : j < s.cursor) :
    ¬ Along (fun q m => q.endsLoop id i m.act = false) p ms := by
  induction ms generalizing p run with
  | nil =>
    obtain rfl := Option.some.inj (found.symm.trans after)
    omega
  | cons m rest ih =>
    rintro ⟨quiet, later⟩
    obtain ⟨t, next, lines, kept, cursor⟩ := take_matched found dense matched ran.1
    by_cases short : t.cursor ≤ j
    · exact ih ran.2 next (lines ▸ dense) kept (lines ▸ there) (lines ▸ spans) short after later
    -- the line at `j` has just been read
    rw [cursor] at short
    have step := (placed_matched found dense matched m.act).2
    obtain rfl : run.cursor = j := by omega
    cases read : p.read? id m.act with
    | none => simp [placed, read] at short
    | some line =>
      have dispatched : p.dispatched? id m.act = some closing :=
        (dispatched?_eq found dense.significant read).trans there
      have innermost : run.opened.head? = some (i + 1) := by
        obtain ⟨opening, here, loop⟩ := spans.loop
        obtain ⟨front, back, length⟩ := split_around spans.before here there
        have body := spans.body
        rw [back, loopBody_eq_some_iff_opened ((commandsOf run.lines.toList).take i) _ loop closes,
          ← front, length] at body
        rw [Run.Matched] at matched
        rw [matched, body]
      simp [endsLoop, found, dispatched, closes, innermost] at quiet

end Execution

/-- A run that ends while the session goes on for it has read its last line. -/
theorem Execution.finished_cursor {p : Performance α} {ms : List (Moment α)} {id generation : Nat} {position : α}
    {name : String} {lines : List String} (ran : Execution p ms)
    (found : p.runs[id]? = some (newRun generation position (name, lines)))
    (steady : Along (fun q _ => q.session.playing = true ∧ q.session.generation = generation) p ms)
    (finished : (p.after ms).hasFinished id = true) {s : Run α} (there : (p.after ms).runs[id]? = some s) :
    s.lines[s.cursor]? = none := by
  obtain ⟨_, ended⟩ := finished_of_hasFinished there finished
  apply Run.spent_of_ahead
  exact ran.finished steady found (by simp [newRun]) there ended

/-- A run that gets to the end of its block has ended every loop that has a body. -/
theorem Execution.ends_body {p : Performance α} {ms : List (Moment α)} {id : Nat} {run s : Run α}
    (ran : Execution p ms) (found : p.runs[id]? = some run) (dense : Dense run.lines.toList) (matched : run.Matched)
    (start : run.cursor = 0) (after : (p.after ms).runs[id]? = some s)
    (through : (commandsOf run.lines.toList).length ≤ s.cursor) {i : Nat} {opening : Command}
    (here : (commandsOf run.lines.toList)[i]? = some opening) (loop : opening.verb = "loop")
    (never : Along (fun q m => q.endsLoop id i m.act = false) p ms) :
    loopBody 0 ((commandsOf run.lines.toList).drop (i + 1)) = none := by
  cases found' : loopBody 0 ((commandsOf run.lines.toList).drop (i + 1)) with
  | none => rfl
  | some body =>
    obtain ⟨j, closing, there, closes, spans⟩ := spans_of_body here loop found'
    have bound := (List.getElem?_eq_some_iff.mp there).1
    exact absurd never (ran.passes_end found dense matched there closes spans (by omega) after (by omega))

/-- Ends are matched with loops as in an estimate. Whatever else happens, the frames of a
run of a block are at each moment the loops that a scan of the lines before the cursor
leaves open. So an end that is dispatched while some loop is open finds on top the frame
of the one loop whose body, for an estimate, is what stands between them. A loop has no
body exactly if its frame is never ended: no run ends it, and a run that gets to the end
of the block has ended every other loop and has no frame of it left. -/
theorem ends_match_loops {p : Performance α} {ms : List (Moment α)} {id generation : Nat} {position : α}
    {name : String} {lines : List String} (ran : Execution p ms)
    (found : p.runs[id]? = some (newRun generation position (name, lines))) (dense : Dense lines) :
    (∀ run, (p.after ms).runs[id]? = some run →
        run.opened = openLoops ((commandsOf lines).take run.cursor)) ∧
      (∀ run act c place others, (p.after ms).runs[id]? = some run →
        (p.after ms).dispatched? id act = some c → c.isLoopEnd = true → run.opened = place :: others →
        ∃ i, place = i + 1 ∧ ∀ k, Spans (commandsOf lines) k run.cursor ↔ k = i) ∧
      ∀ i opening, (commandsOf lines)[i]? = some opening → opening.verb = "loop" →
        let body := loopBody 0 ((commandsOf lines).drop (i + 1))
        let never := Along (fun q m => q.endsLoop id i m.act = false) p ms
        (body = none → never) ∧
          (Along (fun q _ => q.session.playing = true ∧ q.session.generation = generation) p ms →
            (p.after ms).hasFinished id = true →
            (body = none ↔ never) ∧
              ∀ run, (p.after ms).runs[id]? = some run → (body = none ↔ i + 1 ∈ run.opened)) := by
  have matched := newRun_matched generation position name lines
  obtain ⟨s, there, same, kept⟩ := ran.stays_matched found dense matched
  have block : s.lines.toList = lines := by rw [same, newRun]
  rw [Run.Matched, block] at kept
  refine ⟨fun run after => ?_, fun run act c place others after dispatched ends opened => ?_,
    fun i opening here loop => ?_⟩
  · obtain rfl := Option.some.inj (there.symm.trans after)
    exact kept
  · obtain rfl := Option.some.inj (there.symm.trans after)
    rw [kept] at opened
    have at_ := dispatched?_at there (block.symm ▸ dense) dispatched
    rw [block] at at_
    exact spans_iff at_ ends opened
  · intro body never
    have quiet (missing : body = none) : never := ran.never_ends found dense matched missing
    refine ⟨quiet, fun steady finished => ?_⟩
    have through : (commandsOf lines).length ≤ s.cursor := by
      have spent := ran.finished_cursor found steady finished there
      rw [← Array.getElem?_toList, block] at spent
      rw [← List.getElem?_eq_none_iff, dense.command_at, spent, Option.bind_none]
    refine ⟨⟨quiet, ran.ends_body found dense matched rfl there through here loop⟩, fun run after => ?_⟩
    obtain rfl := Option.some.inj (there.symm.trans after)
    rw [kept, List.take_of_length_le through]
    exact (mem_openLoops_iff here loop).symm

def tangled : List String :=
  ["end", "loop 2", "loop 2", "sample a", "end", "end reverb", "end", "loop x", "loop", "end", "sample b"]

def tangledRun : Performance ℚ :=
  (initial [("main", tangled)] default (.virtual 0) {}).take ⟨0, .begin⟩

def tangledSteps : List (Moment ℚ) := ⟨0, .wake 0 .go⟩ :: List.replicate 21 ⟨0, .step 0⟩

theorem ends_match_loops_tangled :
    Execution tangledRun tangledSteps ∧ loopBody 0 ((commandsOf tangled).drop 8) = none ∧
      Along (fun q m => q.endsLoop 0 7 m.act = false) tangledRun tangledSteps ∧
      ¬ Along (fun q m => q.endsLoop 0 1 m.act = false) tangledRun tangledSteps := by
  have found : tangledRun.runs[0]? = some (newRun 0 0 ("main", tangled)) := rfl
  obtain ⟨ran, steady, finished⟩ : Execution tangledRun tangledSteps ∧
      Along (fun q _ => q.session.playing = true ∧ q.session.generation = 0) tangledRun tangledSteps ∧
      (tangledRun.after tangledSteps).hasFinished 0 = true := by
    decide +kernel
  have dense : Dense tangled := ⟨by decide +kernel, by decide +kernel⟩
  have loops := (ends_match_loops ran found dense).2.2
  have missing : loopBody 0 ((commandsOf tangled).drop 8) = none := by decide +kernel
  have closed : loopBody 0 ((commandsOf tangled).drop 2) ≠ none := by decide +kernel
  refine ⟨ran, missing, (loops 7 ⟨"loop", ["x"], "loop x"⟩ (by decide +kernel) rfl).1 missing, fun never => ?_⟩
  have ended := (loops 1 ⟨"loop", ["2"], "loop 2"⟩ (by decide +kernel) rfl).2 steady finished
  exact closed (ended.1.mpr never)

end Performance

end Partita
