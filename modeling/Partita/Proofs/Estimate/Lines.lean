import Partita.Proofs.Estimate.Loops
import Partita.Proofs.Performance.Advance
import Partita.Proofs.Performance.Joining
import Partita.Proofs.Score.Source

/-! How an estimate and a run read the same line. A pause takes what the estimate counts
unless that is negative; a chord lasts as long as the estimate counts; a single note lasts
as long as its second token says, where the estimate takes the last one. -/
namespace Partita

open Score Estimate

namespace Score

def isNoteName (token : String) : Bool := (NoteName.read? (Text.trimChars token.toList)).isSome

def IsLetter (c : Char) : Prop := 65 ≤ c.toNat ∧ c.toNat ≤ 71 ∨ 97 ≤ c.toNat ∧ c.toNat ≤ 103

theorem isLetter_of_toLower {c : Char} (low : 97 ≤ c.toLower.toNat) (high : c.toLower.toNat ≤ 103) : IsLetter c := by
  unfold Char.toLower at low high
  split at low
  · rename_i upper
    rw [dif_pos upper] at high
    obtain ⟨above, below⟩ := upper
    have above : 65 ≤ c.val.toNat := UInt32.le_iff_toNat_le.mp above
    have below : c.val.toNat ≤ 90 := UInt32.le_iff_toNat_le.mp below
    change 97 ≤ (c.val + 32).toNat at low
    change (c.val + 32).toNat ≤ 103 at high
    rw [UInt32.toNat_add] at low high
    have shift : (32 : UInt32).toNat = 32 := rfl
    have same : c.toNat = c.val.toNat := rfl
    unfold IsLetter
    omega
  · rename_i upper
    rw [dif_neg upper] at high
    exact .inr ⟨low, high⟩

theorem isLetter_of_semitone {c : Char} {n : Int} (letter : letterSemitone? c = some n) : IsLetter c := by
  unfold letterSemitone? at letter
  split at letter
  case h_8 => contradiction
  all_goals
    rename_i same
    apply isLetter_of_toLower <;> rw [same] <;> decide

theorem IsLetter.not_digit {c : Char} (letter : IsLetter c) : Text.isDigit c = false := by
  unfold IsLetter at letter
  have ascii : c.toNat < 128 := by omega
  have plain : c.isDigit = false := by
    rw [Bool.eq_false_iff]
    intro digit
    simp only [Char.isDigit, Bool.and_eq_true, decide_eq_true_eq, ge_iff_le, UInt32.le_iff_toNat_le] at digit
    have below : c.toNat ≤ 57 := digit.2
    omega
  simp [Text.isDigit, Text.digitValue?, ascii, plain]

theorem IsLetter.ne {c d : Char} (letter : IsLetter c) (other : d.toNat < 65) : c ≠ d := by
  rintro rfl
  unfold IsLetter at letter
  omega

/-- What is trimmed at its end only starts as it does without. -/
theorem skipBlank_of_trimChars {cs rest : List Char} {c : Char} (trimmed : Text.trimChars cs = c :: rest) :
    ∃ more, Text.skipBlank cs = c :: more := by
  have before : Text.trimChars cs <+: Text.skipBlank cs := by
    rw [← List.reverse_suffix, Text.trimChars, List.reverse_reverse]
    exact List.dropWhile_suffix _
  rw [trimmed] at before
  obtain ⟨more, whole⟩ := before
  exact ⟨rest ++ more, whole.symm⟩

theorem NoteName.read?_first {cs : List Char} {name : NoteName} (read : NoteName.read? cs = some name) :
    ∃ c rest, cs = c :: rest ∧ IsLetter c := by
  cases cs with
  | nil => contradiction
  | cons c rest =>
    cases letter : letterSemitone? c with
    | none => simp [NoteName.read?, letter] at read
    | some n => exact ⟨c, rest, rfl, isLetter_of_semitone letter⟩

theorem NoteName.read?_last {cs : List Char} {name : NoteName} (read : NoteName.read? cs = some name) :
    ∃ d, cs.getLast? = some d ∧ Text.isDigit d = true := by
  have ended {digits : List Char} (rest : digits <:+ cs) (kept : (!digits.isEmpty && digits.all Text.isDigit) = true) :
      ∃ d, cs.getLast? = some d ∧ Text.isDigit d = true := by
    simp only [Bool.and_eq_true, Bool.not_eq_true', List.isEmpty_eq_false_iff] at kept
    obtain ⟨front, rfl⟩ := rest
    refine ⟨digits.getLast kept.1, ?_, List.all_eq_true.mp kept.2 _ (List.getLast_mem kept.1)⟩
    rw [List.getLast?_append, List.getLast?_eq_getLast_of_ne_nil kept.1]
    rfl
  cases cs with
  | nil => contradiction
  | cons c rest =>
    cases letter : letterSemitone? c with
    | none => simp [NoteName.read?, letter] at read
    | some n =>
      have after : (readAccidental rest).2 <:+ c :: rest := by
        unfold readAccidental
        split
        · exact ⟨[c, '#'], rfl⟩
        · exact ⟨[c, 'b'], rfl⟩
        · exact ⟨[c], rfl⟩
      simp only [NoteName.read?, letter] at read
      split at read
      · rename_i ds tail
        split at read
        · rename_i kept
          exact ended (List.IsSuffix.trans ⟨['-'], tail.symm⟩ after) kept
        · contradiction
      · split at read
        · rename_i kept
          exact ended after kept
        · contradiction

/-- The name of a note is no number. -/
theorem number?_of_isNoteName {token : String} (named : isNoteName token = true) :
    (number? token : Option ℚ) = none := by
  obtain ⟨name, read⟩ := Option.isSome_iff_exists.mp named
  obtain ⟨c, rest, trimmed, letter⟩ := NoteName.read?_first read
  obtain ⟨more, skipped⟩ := skipBlank_of_trimChars trimmed
  have unsigned : readSign (c :: more) = (false, c :: more) := by
    unfold readSign
    split
    · rename_i same
      exact absurd (List.cons.inj same).1 (letter.ne (by decide))
    · rename_i same
      exact absurd (List.cons.inj same).1 (letter.ne (by decide))
    · rfl
  have none : Numeral.read? token.toList = none := by
    unfold Numeral.read?
    simp only [skipped, unsigned, List.takeWhile_cons, List.dropWhile_cons, letter.not_digit, Bool.false_eq_true,
      if_false]
    split
    · rename_i same
      exact absurd (List.cons.inj same).1 (letter.ne (by decide))
    · rfl
    · contradiction
    · contradiction
  rw [number?, none]

theorem getLast?_trimChars_of_solid {cs : List Char} {c : Char} (last : cs.getLast? = some c)
    (solid : Text.isBlank c = false) : (Text.trimChars cs).getLast? = some c := by
  have kept : (Text.skipBlank cs).getLast? = some c := by
    obtain ⟨front, rfl⟩ := List.getLast?_eq_some_iff.mp last
    rw [Text.skipBlank, List.dropWhile_append]
    split
    · simp [solid]
    · simp
  have first : ∀ d, (Text.skipBlank cs).reverse.head? = some d → Text.isBlank d = false := by
    intro d here
    rw [List.head?_reverse, kept] at here
    exact Option.some.inj here ▸ solid
  rw [Text.trimChars, skipBlank_eq_self first, List.reverse_reverse, kept]

/-- The name of a note gives it the length that a note has by default. -/
theorem noteSeconds_of_isNoteName {token : String} (named : isNoteName token = true) (bpm : ℚ) :
    noteSeconds (some token) bpm = .ok defaultNoteLength := by
  have bars : (token.toList.getLast? == some 'b') = false := by
    rw [beq_eq_false_iff_ne]
    intro ends
    obtain ⟨name, read⟩ := Option.isSome_iff_exists.mp named
    obtain ⟨d, last, digit⟩ := NoteName.read?_last read
    rw [getLast?_trimChars_of_solid ends (by decide)] at last
    obtain rfl := Option.some.inj last
    exact absurd digit (by decide)
  rw [noteSeconds, bars, if_neg (by simp), numberOr, Option.bind_some, number?_of_isNoteName named]

end Score

namespace Estimate

variable {bpm : ℚ} (positive : 0 < bpm) {c : Command} {has : String → Bool} {block : String} {position : ℚ}
include positive

theorem timing_wait (verb : c.verb = "wait") {x : ℚ} (read : numberOr c.args.head? 0 = x) :
    timing bpm c = x * 60 / bpm := by
  have told : beatsToSeconds x bpm = .ok (x * 60 / bpm) := quotient_ok positive.ne'
  rw [timing]
  simp only [commandSeconds, verb, read, told]
  rfl

omit positive in
theorem timing_waitsec (verb : c.verb = "waitsec") {x : ℚ} (read : numberOr c.args.head? 0 = x) :
    timing bpm c = x := by
  rw [timing]
  simp only [commandSeconds, verb, read]
  rfl

/-- A pause that is turned down would not go forward, and any other takes what is counted. -/
theorem deed_of_pause (verb : c.verb = "wait" ∨ c.verb = "waitsec") :
    (c.deed bpm has block position = .nothing ∧ timing bpm c ≤ 0) ∨
      ∃ beats, c.deed bpm has block position = .pause (timing bpm c) beats := by
  have first : c.args.head? = c.arg? 0 := List.head?_eq_getElem?
  cases read : ((c.arg? 0).bind number? : Option ℚ) with
  | none =>
    have zero : numberOr c.args.head? (0 : ℚ) = 0 := by
      rw [first, numberOr, read]
    rcases verb with verb | verb
    · refine .inl ⟨by simp only [Command.deed, verb, read], ?_⟩
      rw [timing_wait positive verb zero, zero_mul, zero_div]
    · exact .inl ⟨by simp only [Command.deed, verb, read], (timing_waitsec verb zero).le⟩
  | some x =>
    have same : numberOr c.args.head? (0 : ℚ) = x := by rw [first, numberOr_zero read]
    rcases verb with verb | verb
    · rw [timing_wait positive verb same]
      by_cases backward : x < 0
      · refine .inl ⟨by simp only [Command.deed, verb, read, if_pos backward], ?_⟩
        exact div_nonpos_of_nonpos_of_nonneg (by linarith) positive.le
      · have told : beatsToSeconds x bpm = .ok (x * 60 / bpm) := quotient_ok positive.ne'
        exact .inr ⟨some x, by simp only [Command.deed, verb, read, if_neg backward, told]⟩
    · rw [timing_waitsec verb same]
      exact .inr ⟨none, by simp only [Command.deed, verb, read]⟩

omit positive in
/-- A chord lasts as long as is counted for it. -/
theorem commandSeconds_of_chord (verb : c.verb = "tones") {frequencies : List ℚ} {length : ℚ}
    (struck : c.struck? bpm = some (frequencies, length)) : commandSeconds bpm c = .ok length := by
  simp only [Command.struck?, verb] at struck
  split at struck
  · contradiction
  · obtain ⟨chord, -, struck⟩ := Option.bind_eq_some_iff.mp struck
    obtain ⟨seconds, read, same⟩ := Option.bind_eq_some_iff.mp struck
    cases same
    simp only [commandSeconds, verb]
    cases told : noteSeconds c.args.getLast? bpm with
    | ok x =>
      rw [told] at read
      cases read
      rfl
    | error f => simp [told, Except.toOption] at read

omit positive in
/-- A note lasts as long as its second token says. -/
theorem noteSeconds_of_note (verb : c.verb = "tone") {frequencies : List ℚ} {length : ℚ}
    (struck : c.struck? bpm = some (frequencies, length)) :
    noteSeconds (c.arg? 1) bpm = .ok length ∧ c.args ≠ [] := by
  simp only [Command.struck?, verb] at struck
  obtain ⟨note, first, struck⟩ := Option.bind_eq_some_iff.mp struck
  obtain ⟨hz, -, struck⟩ := Option.bind_eq_some_iff.mp struck
  obtain ⟨seconds, read, same⟩ := Option.bind_eq_some_iff.mp struck
  cases same
  refine ⟨?_, ?_⟩
  · cases told : noteSeconds (c.arg? 1) bpm with
    | ok x =>
      rw [told] at read
      cases read
      rfl
    | error f => simp [told, Except.toOption] at read
  · intro none
    simp [Command.arg?, none] at first

end Estimate

namespace Performance

section step

variable {α : Type} [Scalar α] {p : Performance α} {id : Nat} {run : Run α} {line : String} {c : Command}
  (found : p.runs[id]? = some run) (next : run.next? p.session = some line)
  (parsed : Command.parse? line = some c) (time : α)
include found next parsed

/-- A step that reads a command does what its deed says. -/
theorem step_done : ∃ outcome q, p.take ⟨time, .step id⟩ = q.entered id outcome ∧
    Done time id run.advance (p.onRun id Run.advance) outcome q
      (c.deed p.session.bpm p.engine.hasSample run.name run.position) := by
  have taken := exec_step found time
  simp only [next, parsed] at taken
  exact ⟨_, _, taken, dispatch_done time id run.advance c (p.onRun id Run.advance)⟩

/-- A command that is turned down leaves the run at its position, about to go on. -/
theorem step_of_nothing (deed : c.deed p.session.bpm p.engine.hasSample run.name run.position = .nothing) :
    ∃ s, (p.take ⟨time, .step id⟩).runs[id]? = some s ∧ s.status = .running ∧ s.position = run.position := by
  obtain ⟨outcome, q, taken, done⟩ := step_done found next parsed time
  rw [deed] at done
  obtain ⟨rfl, still⟩ := done
  refine ⟨run.advance.withStatus .running, ?_, rfl, rfl⟩
  rw [taken]
  simp [entered, onRun, still.runs, Array.getElem?_modify, found]

/-- A run that pauses waits where it is. -/
theorem step_of_pause {seconds : α} {beats : Option α}
    (deed : c.deed p.session.bpm p.engine.hasSample run.name run.position = .pause seconds beats) :
    ∃ s, (p.take ⟨time, .step id⟩).runs[id]? = some s ∧ s.status = .waiting seconds beats ∧
      s.position = run.position ∧ (p.take ⟨time, .step id⟩).clock = p.clock := by
  obtain ⟨outcome, q, taken, done⟩ := step_done found next parsed time
  rw [deed] at done
  obtain ⟨rfl, still⟩ := done
  refine ⟨run.advance.withStatus (.waiting seconds beats), ?_, rfl, rfl, ?_⟩
  · rw [taken]
    simp [entered, onRun, still.runs, Array.getElem?_modify, found]
  · rw [taken]
    exact still.clock

omit found next parsed in
/-- Outside the main block a command that strikes a note, or a chord, has it sound. -/
theorem deed_of_note {bpm position : α} {has : String → Bool} {block : String}
    (verb : c.verb = "tone" ∨ c.verb = "tones") (other : block ≠ mainName) : c.deed bpm has block position =
      (c.struck? bpm).elim .adjust fun note => .sound (.call block (.trigger note.1 note.2 position)) := by
  have played : (block == mainName) = false := beq_false_of_ne other
  rcases verb with verb | verb
  all_goals
    simp only [Command.deed, verb, played, Bool.false_eq_true, if_false]
    cases c.struck? bpm <;> rfl

/-- A run that strikes a note, or a chord, has the engine play just that. -/
theorem step_of_note (verb : c.verb = "tone" ∨ c.verb = "tones") (other : run.name ≠ mainName)
    (faultless : p.engine.Faultless) (recorder : p.engine.recorder = true)
    (held : (p.voices.lookup run.name).isSome = true) :
    Grows ((c.struck? p.session.bpm).toList.map fun note => .call run.name (.trigger note.1 note.2 run.position))
      p.journal (p.take ⟨time, .step id⟩).journal := by
  obtain ⟨outcome, q, taken, done⟩ := step_done found next parsed time
  rw [deed_of_note verb other] at done
  rw [taken]
  cases struck : c.struck? p.session.bpm with
  | none =>
    rw [struck] at done
    obtain ⟨persists, still⟩ := done
    obtain rfl := persists.running faultless
    exact still.journal
  | some note =>
    rw [struck] at done
    obtain ⟨persists, sounds, still, heard⟩ := done
    obtain rfl := persists.running faultless
    have kept : (p.onRun id Run.advance).engine.recorder = true := recorder
    obtain rfl := heard faultless fun _ => held
    rw [kept, if_pos rfl] at still
    exact still.journal

end step

/-- How what an estimate counts for a line compares with what the run does that reads it.
A pause moves the run by what is counted, or not at all where that is negative. A chord
lasts as long as is counted. A note lasts as its second token says, while the last token is
counted: the same if there are two tokens, or only the name of a note. -/
theorem line_takes_what_is_counted {p : Performance ℚ} {id : Nat} {run : Run ℚ} {line : String} {c : Command}
    (found : p.runs[id]? = some run) (next : run.next? p.session = some line) (parsed : Command.parse? line = some c)
    (positive : 0 < p.session.bpm) :
    ∃ seconds, commandSeconds p.session.bpm c = .ok seconds ∧
      (c.verb = "wait" ∨ c.verb = "waitsec" → p.clock.isVirtual = true → ∀ time later,
        ∃ s, (p.after [⟨time, .step id⟩, ⟨later, .wake id .go⟩]).runs[id]? = some s ∧ s.status = .running ∧
          s.position = run.position + max 0 seconds) ∧
      (c.verb = "tone" ∨ c.verb = "tones" → run.name ≠ mainName → p.engine.Faultless → p.engine.recorder = true →
        (p.voices.lookup run.name).isSome = true → ∀ time,
        Grows ((c.struck? p.session.bpm).toList.map fun note => .call run.name (.trigger note.1 note.2 run.position))
          p.journal (p.take ⟨time, .step id⟩).journal) ∧
      ∀ frequencies length, c.struck? p.session.bpm = some (frequencies, length) →
        (c.verb = "tones" → length = seconds) ∧
        (c.verb = "tone" → noteSeconds (c.arg? 1) p.session.bpm = .ok length ∧
          noteSeconds c.args.getLast? p.session.bpm = .ok seconds ∧
          (c.args.length = 2 ∨ (∃ note, c.args = [note] ∧ isNoteName note = true) → length = seconds)) := by
  refine ⟨timing p.session.bpm c, commandSeconds_reads positive c, fun pauses virtual time later => ?_,
    fun notes other faultless recorder held time => ?_,
    fun frequencies length struck => ⟨fun chord => ?_, fun note => ?_⟩⟩
  · change ∃ s, ((p.take ⟨time, .step id⟩).take ⟨later, .wake id .go⟩).runs[id]? = some s ∧ _
    have meant : (c.deed p.session.bpm p.engine.hasSample run.name run.position = .nothing ∧ _) ∨ _ :=
      deed_of_pause positive pauses
    obtain ⟨deed, backward⟩ | ⟨beats, deed⟩ := meant
    · obtain ⟨s, there, running, position⟩ := step_of_nothing found next parsed time deed
      refine ⟨s, ?_, running, by rw [position, max_eq_left backward, add_zero]⟩
      exact (congrArg (·.runs[id]?) (exec_wake_spent there later (.inl running))).trans there
    · obtain ⟨s, there, waiting, position, clock⟩ := step_of_pause found next parsed time deed
      have woken := exec_wake_waiting there later waiting
      obtain ⟨horizon, virtual⟩ := Clock.eq_virtual virtual
      rw [clock, virtual] at woken
      refine ⟨{ s with position := s.position + Scalar.max 0 (timing p.session.bpm c), status := .running }, ?_, rfl,
        ?_⟩
      · refine (congrArg (·[id]?) woken.runs).trans ?_
        simp [onRun, Array.getElem?_modify, there, Clock.arrive]
      · rw [← position, ← Scalar.max_eq]
  · exact step_of_note found next parsed time notes other faultless recorder held
  · exact Except.ok.inj ((commandSeconds_of_chord chord struck).symm.trans (commandSeconds_reads positive c))
  · obtain ⟨second, some⟩ := noteSeconds_of_note note struck
    have last : noteSeconds c.args.getLast? p.session.bpm = .ok (timing p.session.bpm c) := by
      rw [← commandSeconds_reads positive c]
      simp only [commandSeconds, note]
    refine ⟨second, last, ?_⟩
    rintro (two | ⟨token, only, named⟩)
    · have same : c.arg? 1 = c.args.getLast? := by
        rw [Command.arg?, List.getLast?_eq_getElem?, two]
      rw [← same, second] at last
      exact Except.ok.inj last
    · rw [only, List.getLast?_singleton, noteSeconds_of_isNoteName named] at last
      rw [Command.arg?, only] at second
      exact Except.ok.inj (second.symm.trans last)

def lead (line : String) : Performance ℚ :=
  initial [("main", ["play lead"]), ("lead", [line])] default (.virtual 0) { recorder := true }

def intoLead : List (Moment ℚ) := [⟨0, .begin⟩, ⟨0, .wake 0 .go⟩, ⟨0, .step 0⟩, ⟨0, .wake 1 .go⟩]

def leading (line : String) : Performance ℚ := (lead line).after intoLead

theorem leading_reads (line : String)
    (reads : ((leading line).runs[1]?.bind fun run => run.next? (leading line).session) = some line) :
    ∃ run, (leading line).runs[1]? = some run ∧ run.next? (leading line).session = some line :=
  Option.bind_eq_some_iff.mp reads

theorem line_takes_what_is_counted_chord :
    let chord : Command := ⟨"tones", ["440", "660", "1.5"], "tones 440 660 1.5"⟩
    commandSeconds 120 chord = .ok (3 / 2 : ℚ) ∧
      Grows [.call "lead" (.trigger [440, 660] (3 / 2) 0)] (leading "tones 440 660 1.5").journal
        ((leading "tones 440 660 1.5").take ⟨0, .step 1⟩).journal := by
  intro chord
  obtain ⟨run, found, next⟩ := leading_reads "tones 440 660 1.5" (by decide +kernel)
  have place : (leading "tones 440 660 1.5").runs[1]?.map (fun run => (run.name, run.position)) = some ("lead", 0) := by
    decide +kernel
  simp only [found, Option.map_some, Option.some.injEq, Prod.mk.injEq] at place
  have parsed : Command.parse? "tones 440 660 1.5" = some chord := by decide +kernel
  have bpm : (leading "tones 440 660 1.5").session.bpm = 120 := by decide +kernel
  have struck : chord.struck? 120 = some ([440, 660], (3 / 2 : ℚ)) := by decide +kernel
  have ran : Execution (lead "tones 440 660 1.5") intoLead := by decide +kernel
  have whole : (lead "tones 440 660 1.5").engine.Faultless := .of_settings rfl rfl rfl
  have faultless : (leading "tones 440 660 1.5").engine.Faultless :=
    (ran.invariant (fun _ _ holds ready => holds.take ready) (Fresh.unfailing ⟨_, _, _, _, rfl⟩ whole)).faultless
  have held : ((leading "tones 440 660 1.5").voices.lookup "lead").isSome = true := by decide +kernel
  obtain ⟨seconds, counted, -, sounds, lengths⟩ := line_takes_what_is_counted found next parsed (by rw [bpm]; norm_num)
  have other : run.name ≠ mainName := by
    rw [place.1]
    decide
  have heard := sounds (.inr rfl) other faultless (by decide +kernel) (place.1 ▸ held) 0
  rw [bpm] at lengths heard counted
  rw [struck, place.1, place.2] at heard
  rw [← (lengths _ _ struck).1 rfl] at counted
  exact ⟨counted, heard⟩

/-- A pause backward is counted, although no run goes back. -/
theorem backward_pause_is_counted :
    ¬ ∀ (p : Performance ℚ) (id : Nat) (run s : Run ℚ) (line : String) (c : Command) (time later seconds : ℚ),
        p.runs[id]? = some run → run.next? p.session = some line → Command.parse? line = some c →
        0 < p.session.bpm → p.clock.isVirtual = true → (c.verb = "wait" ∨ c.verb = "waitsec") →
        (p.after [⟨time, .step id⟩, ⟨later, .wake id .go⟩]).runs[id]? = some s →
        commandSeconds p.session.bpm c = .ok seconds → s.position = run.position + seconds := by
  intro moved
  obtain ⟨run, found, next⟩ := leading_reads "waitsec -1" (by decide +kernel)
  have start : (leading "waitsec -1").runs[1]?.map Run.position = some 0 := by decide +kernel
  have still : ((leading "waitsec -1").after [⟨0, .step 1⟩, ⟨0, .wake 1 .go⟩]).runs[1]?.map Run.position =
      some 0 := by
    decide +kernel
  obtain ⟨s, there, position⟩ := Option.map_eq_some_iff.mp still
  rw [found, Option.map_some, Option.some.injEq] at start
  have back : s.position = run.position + (-1) := moved (leading "waitsec -1") 1 run s "waitsec -1"
    ⟨"waitsec", ["-1"], "waitsec -1"⟩ 0 0 (-1) found next (by decide +kernel) (by decide +kernel) (by decide +kernel)
    (.inr rfl) there (by decide +kernel)
  rw [start, position] at back
  norm_num at back

end Performance

end Partita
