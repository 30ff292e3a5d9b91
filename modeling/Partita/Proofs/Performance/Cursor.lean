import Partita.Proofs.Estimate
import Partita.Proofs.Performance.Reading
import Partita.Proofs.Score.Commands

/-! What a cursor counts. A run counts the lines of its block, an estimate counts the commands
on them. Where every line holds a command the two counts are one, and a map that was read holds
no other lines. -/
namespace Partita

open Score

namespace Score

variable {lines : List String}

/-- The command at an index stands on the line at that index if no line is passed over. -/
theorem commandsOf_getElem? (counts : ∀ line ∈ lines, isBlankOrComment line = false) (i : Nat) :
    (commandsOf lines)[i]? = lines[i]?.bind Command.parse? := by
  induction lines generalizing i with
  | nil => rfl
  | cons line rest ih =>
    obtain ⟨here, later⟩ := List.forall_mem_cons.mp counts
    obtain ⟨c, parsed⟩ := Command.exists_parse? here
    have first : commandsOf (line :: rest) = c :: commandsOf rest := List.filterMap_cons_some parsed
    rw [first]
    cases i with
    | zero => simp [parsed]
    | succ i => simpa using ih later i

/-- The commands of a stored block, in their order, stand on all of its lines. -/
theorem map_line_commandsOf {name : String} (stored : ∀ line ∈ lines, Stored name line) :
    (commandsOf lines).map Command.line = lines := by
  induction lines with
  | nil => rfl
  | cons line rest ih =>
    obtain ⟨here, later⟩ := List.forall_mem_cons.mp stored
    obtain ⟨c, parsed, same⟩ := here.command
    have first : commandsOf (line :: rest) = c :: commandsOf rest := List.filterMap_cons_some parsed
    rw [first, List.map_cons, same, ih later]

end Score

namespace Performance

variable {α : Type} {p q : Performance α} {blocks : Blocks}

/-- All runs are of blocks of a map, with the lines that the map has for them. -/
structure Performs (blocks : Blocks) (p : Performance α) : Prop where
  same : p.blocks = blocks
  runs : ∀ (id : Nat) (run : Run α), p.runs[id]? = some run →
    ∃ lines, blocks.lines? run.name = some lines ∧ run.lines = lines.toArray

namespace Performs

theorem transfer (performs : p.Performs blocks) (kept : q.blocks = p.blocks) (runs : q.runs = p.runs) :
    q.Performs blocks where
  same := kept.trans performs.same
  runs id run found := performs.runs id run (runs ▸ found)

theorem of_succeeds {id : Nat} {run run' : Run α} {started : List (Run α)} (performs : p.Performs blocks)
    (found : p.runs[id]? = some run) (kept : q.blocks = p.blocks) (runs : Succeeds id run' started p.runs q.runs)
    (name : run'.name = run.name) (lines : run'.lines = run.lines)
    (fresh : ∀ r ∈ started, r.Fresh p.blocks p.session.generation) : q.Performs blocks where
  same := kept.trans performs.same
  runs i r there := by
    rcases runs.origin there with ⟨-, rfl⟩ | ⟨-, before⟩ | ⟨-, listed⟩
    · rw [name, lines]
      exact performs.runs id run found
    · exact performs.runs i r before
    · rw [← performs.same]
      exact (fresh r (List.mem_of_getElem? listed)).lines

variable [Scalar α]

theorem stable (blocks : Blocks) : Stable (Performs (α := α) blocks) where
  aside performs still := performs.transfer still.blocks still.runs
  addRun := by
    intro p position name lines performs defined
    refine ⟨performs.same, fun i r there => ?_⟩
    simp only [addRun, Array.getElem?_push] at there
    split at there
    · obtain rfl := Option.some.inj there
      exact ⟨lines, performs.same ▸ defined, rfl⟩
    · exact performs.runs i r there
  opened _ performs := performs.transfer rfl rfl
  stopped performs := performs.transfer rfl rfl
  cleared performs := performs.transfer rfl rfl

theorem turn {id : Nat} {run place : Run α} (performs : p.Performs blocks) (found : p.runs[id]? = some run)
    (turn : Turn id run place p q) : q.Performs blocks := by
  cases turn with
  | goes going moves _ => exact performs.of_succeeds found going.blocks going.runs moves.name moves.lines going.fresh
  | ends outcome going moves _ _ _ _ =>
    exact performs.of_succeeds found going.blocks (going.runs.modify (·.withStatus (.ended outcome))) moves.name
      moves.lines going.fresh
  | vanishes _ _ _ =>
    exact performs.of_succeeds found rfl ((Succeeds.refl found).modify (·.withStatus (.ended .cancelled))) rfl rfl
      (by simp)

theorem take {m : Moment α} (performs : p.Performs blocks) (ready : p.enabled m.act = true) :
    (p.take m).Performs blocks :=
  (stable blocks).take performs ready (fun _ found _ turned => performs.turn found turned)
    (.inr (performs.transfer rfl rfl))

end Performs

/-- Whatever a performance of a map has come to, its runs are of blocks of the map. -/
theorem Execution.performs [Scalar α] {config : Config α} {clock : Clock α} {engine : Engine α}
    {ms : List (Moment α)} (ran : Execution (initial blocks config clock engine) ms) :
    ((initial blocks config clock engine).after ms).Performs blocks :=
  ran.invariant (fun _ _ performs ready => performs.take ready) ⟨rfl, by simp [initial]⟩

/-- What is dispatched for a line is the command that an estimate has at the same index. -/
theorem dispatched?_eq {id : Nat} {run : Run α} {act : Act α} {line : String} (found : p.runs[id]? = some run)
    (counts : ∀ line ∈ run.lines.toList, isBlankOrComment line = false) (read : p.read? id act = some line) :
    p.dispatched? id act = (commandsOf run.lines.toList)[run.cursor]? := by
  have there := Run.getElem?_of_next? (next?_of_read? found read)
  rw [commandsOf_getElem? counts, Array.getElem?_toList, there, dispatched?, read]

/-- Every stored line is a command. Each line of each block of a text is read as a command on
just that line, so the commands of a block and its lines are numbered alike: in a performance
of the text, whenever a run reads a line it dispatches the command that an estimate has at the
index where the cursor stands. Any line holds no command exactly if it is empty or a comment;
the words of a command are not empty and free of white space, and joined by single spaces they
are read as the same words. -/
theorem stored_lines_are_commands [Scalar α] (code : String) (config : Config α) (clock : Clock α)
    (engine : Engine α) :
    (∀ block ∈ blocksOf code,
      (∀ line ∈ block.2, ∃ c, Command.parse? line = some c ∧ c.line = line) ∧
        (commandsOf block.2).map Command.line = block.2 ∧
        ∀ i : Nat, (commandsOf block.2)[i]? = block.2[i]?.bind Command.parse?) ∧
      (∀ ms, Execution (initial (blocksOf code) config clock engine) ms →
        let p := (initial (blocksOf code) config clock engine).after ms
        ∀ id run act line, p.runs[id]? = some run → p.read? id act = some line →
          ∃ lines c, (blocksOf code).lines? run.name = some lines ∧ lines[run.cursor]? = some line ∧
            (commandsOf lines)[run.cursor]? = some c ∧ p.dispatched? id act = some c ∧ c.line = line) ∧
      (∀ line, Command.parse? line = none ↔ isBlankOrComment line = true) ∧
      ∀ line c, Command.parse? line = some c →
        (∀ word ∈ c.verb :: c.args, word ≠ "" ∧ ∀ char ∈ word.toList, Text.isBlank char = false) ∧
          Command.parse? (" ".intercalate (c.verb :: c.args)) =
            some { c with line := " ".intercalate (c.verb :: c.args) } := by
  have storable := (blocksOf_neat code).2
  refine ⟨?_, ?_, fun line => Command.parse?_eq_none_iff,
    fun line c parsed => ⟨Command.isToken_of_parse? parsed, Command.parse?_words parsed⟩⟩
  · intro block member
    have stored := (storable block member).2
    exact ⟨fun line listed => (stored line listed).command, map_line_commandsOf stored,
      commandsOf_getElem? fun line listed => (stored line listed).counts⟩
  · intro ms ran p id run act line found read
    obtain ⟨lines, defined, same⟩ := ran.performs.runs id run found
    have stored : ∀ line ∈ lines, Stored run.name line := (storable _ (Blocks.mem_of_lines? defined)).2
    have there : lines[run.cursor]? = some line := by
      simpa [same] using Run.getElem?_of_next? (next?_of_read? found read)
    have dispatched : p.dispatched? id act = (commandsOf lines)[run.cursor]? := by
      have numbered := dispatched?_eq found (by simpa [same] using fun l listed => (stored l listed).counts) read
      simpa [same] using numbered
    obtain ⟨c, parsed, kept⟩ := (stored line (List.mem_of_getElem? there)).command
    have numbered : (commandsOf lines)[run.cursor]? = some c := by
      rw [commandsOf_getElem? fun l listed => (stored l listed).counts, there, Option.bind_some, parsed]
    exact ⟨lines, c, defined, there, numbered, dispatched.trans numbered, kept⟩

def spaced : String := "main:\r\n\u00a0tempo\t90 \u2028 // end main\x0b\u3000waitsec \u2003 0\u0085end\u2003main"

def spacedMap : Blocks := [("main", ["tempo\t90", "waitsec \u2003 0"])]

def spacedStart : Performance ℚ := initial spacedMap default (.virtual 0) {}

def intoSecond : List (Moment ℚ) := [⟨0, .begin⟩, ⟨0, .wake 0 .go⟩, ⟨0, .step 0⟩]

theorem stored_lines_are_commands_spaced :
    let pause : Command := ⟨"waitsec", ["0"], "waitsec \u2003 0"⟩
    blocksOf spaced = spacedMap ∧ Execution spacedStart intoSecond ∧
      (spacedStart.after intoSecond).dispatched? 0 (.step 0) = some pause ∧
      (commandsOf ["tempo\t90", "waitsec \u2003 0"])[1]? = some pause ∧
      Command.parse? "waitsec 0" = some { pause with line := "waitsec 0" } := by
  intro pause
  have map : blocksOf spaced = spacedMap := by decide +kernel
  have ran : Execution spacedStart intoSecond := by decide +kernel
  have read : (spacedStart.after intoSecond).read? 0 (.step 0) = some "waitsec \u2003 0" := by decide +kernel
  have place : (spacedStart.after intoSecond).runs[0]?.map (fun run => (run.name, run.cursor)) = some ("main", 1) := by
    decide +kernel
  have parsed : Command.parse? "waitsec \u2003 0" = some pause := by decide +kernel
  have joined : " ".intercalate ["waitsec", "0"] = "waitsec 0" := by decide +kernel
  have dispatched : (spacedStart.after intoSecond).dispatched? 0 (.step 0) = some pause := by
    rw [dispatched?, read, Option.bind_some, parsed]
  obtain ⟨-, commands, -, again⟩ := stored_lines_are_commands spaced (default : Config ℚ) (.virtual 0) {}
  rw [map] at commands
  obtain ⟨run, found, placed⟩ := Option.map_eq_some_iff.mp place
  obtain ⟨name, cursor⟩ := Prod.mk.inj placed
  obtain ⟨lines, c, defined, -, numbered, same, -⟩ := commands intoSecond ran 0 run (.step 0) _ found read
  rw [name] at defined
  obtain rfl : ["tempo\t90", "waitsec \u2003 0"] = lines := Option.some.inj defined
  rw [cursor] at numbered
  have reread := (again _ pause parsed).2
  rw [joined] at reread
  exact ⟨map, ran, dispatched, numbered.trans (same.symm.trans dispatched), reread⟩

end Performance

end Partita
