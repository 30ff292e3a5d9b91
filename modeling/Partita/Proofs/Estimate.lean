import Mathlib.Algebra.BigOperators.Group.List.Basic
import Mathlib.Algebra.Order.BigOperators.Group.List
import Mathlib.Tactic.Linarith
import Mathlib.Tactic.Positivity
import Partita.Estimate
import Partita.Proofs.Operation
import Partita.Proofs.Performance.Denotation
import Partita.Proofs.Performance.Exact

/-! The estimate of a script in exact arithmetic. Where every length can be told from
the text, estimating succeeds and gives the price of a block: what its commands cost
one by one, a loop for all its passes, and an allowance. A price is enough for the
lines of its block when loops are unrolled. -/
namespace Partita

open Score

namespace Score

/-- Whether the number that a token starts with, if any, is not negative. -/
def isForward (token : Option String) : Bool := (token.bind number? : Option ℚ).all (0 ≤ ·)

/-- Whether an estimate can rely on a command: it leaves the tempo alone, no length on it
is negative, and the count of a loop can be read and is not negative. -/
def Command.isMeasured (c : Command) : Bool :=
  match c.verb with
  | "bpm" | "tempo" => false
  | "wait" | "waitsec" => isForward c.args.head?
  | "tone" | "tones" => isForward c.args.getLast?
  | "loop" => (countOr c.args.head? 1).toOption.any (0 ≤ ·)
  | _ => true

/-- Whether a command may stand in a loop that an estimate multiplies. -/
def Command.isFlat (c : Command) : Bool := !(["loop", "play", "waitforfinish"].contains c.verb)

/-- Whether the loops that are closed hold flat commands only. -/
def loopsAreFlat : List Command → Bool
  | [] => true
  | c :: rest =>
    (c.verb != "loop" || (Estimate.loopBody 0 rest).all (·.all Command.isFlat)) && loopsAreFlat rest

def commandsOf (lines : List String) : List Command := lines.filterMap Command.parse?

/-- Whether an estimate can rely on the text of every block. -/
def Blocks.isMeasured (blocks : Blocks) : Bool :=
  blocks.all fun block => (commandsOf block.2).all Command.isMeasured && loopsAreFlat (commandsOf block.2)

theorem Blocks.measured {blocks : Blocks} (measured : blocks.isMeasured = true) {name : String}
    {lines : List String} (found : blocks.lines? name = some lines) :
    (∀ c ∈ commandsOf lines, c.isMeasured = true) ∧ loopsAreFlat (commandsOf lines) = true := by
  have each := List.all_eq_true.mp measured _ (mem_of_lines? found)
  rw [Bool.and_eq_true] at each
  exact ⟨List.all_eq_true.mp each.1, each.2⟩

end Score

namespace Estimate

theorem quotient_ok {a b : ℚ} (other : b ≠ 0) : quotient a b = .ok (a / b) := by
  unfold quotient
  simp [other]

theorem numberOr_nonneg {token : Option String} {default : ℚ} (forward : isForward token = true)
    (nonneg : 0 ≤ default) : 0 ≤ numberOr token default := by
  unfold numberOr
  unfold isForward at forward
  split
  · rename_i x read
    rw [read] at forward
    split
    · exact nonneg
    · simpa using forward
  · exact nonneg

theorem noteSeconds_ok (token : Option String) {bpm : ℚ} (positive : 0 < bpm) :
    ∃ seconds, noteSeconds token bpm = .ok seconds ∧ (isForward token = true → 0 ≤ seconds) := by
  have half : (0 : ℚ) ≤ defaultNoteLength := by decide +kernel
  unfold noteSeconds
  split
  · split
    · unfold barsToSeconds
      rw [quotient_ok positive.ne']
      refine ⟨_, rfl, fun forward => ?_⟩
      have bars : (0 : ℚ) ≤ numberOr _ defaultNoteLength := numberOr_nonneg forward half
      have beats : (0 : ℚ) ≤ Scalar.ofInt beatsPerBar := by decide +kernel
      have minute : (0 : ℚ) ≤ 60 := by decide +kernel
      positivity
    · exact ⟨_, rfl, fun forward => numberOr_nonneg forward half⟩
  · exact ⟨_, rfl, fun _ => half⟩

def timing (bpm : ℚ) (c : Command) : ℚ := (commandSeconds bpm c).toOption.getD 0

theorem commandSeconds_ok {bpm : ℚ} (positive : 0 < bpm) {c : Command} (measured : c.isMeasured = true) :
    commandSeconds bpm c = .ok (timing bpm c) ∧ 0 ≤ timing bpm c := by
  have known : ∃ seconds, commandSeconds bpm c = .ok seconds ∧ 0 ≤ seconds := by
    unfold commandSeconds
    unfold Command.isMeasured at measured
    split
    · rename_i verb
      rw [verb] at measured
      unfold beatsToSeconds
      rw [quotient_ok positive.ne']
      have beats : (0 : ℚ) ≤ numberOr c.args.head? 0 := numberOr_nonneg measured (by decide +kernel)
      have minute : (0 : ℚ) ≤ 60 := by decide +kernel
      exact ⟨_, rfl, by positivity⟩
    · rename_i verb
      rw [verb] at measured
      exact ⟨_, rfl, numberOr_nonneg measured (by decide +kernel)⟩
    · rename_i verb
      rw [verb] at measured
      obtain ⟨seconds, read, nonneg⟩ := noteSeconds_ok c.args.getLast? positive
      exact ⟨seconds, read, nonneg measured⟩
    · rename_i verb
      rw [verb] at measured
      obtain ⟨seconds, read, nonneg⟩ := noteSeconds_ok c.args.getLast? positive
      exact ⟨seconds, read, nonneg measured⟩
    · exact ⟨0, rfl, le_refl _⟩
  obtain ⟨seconds, read, nonneg⟩ := known
  rw [timing, read]
  exact ⟨rfl, nonneg⟩

theorem numberOr_zero {token : Option String} {x : ℚ} (read : token.bind number? = some x) :
    numberOr token 0 = x := by
  unfold numberOr
  rw [read]
  by_cases zero : x = 0
  · subst x
    rfl
  · simp [zero]

theorem commandSeconds_of_pause {bpm : ℚ} {c : Command} {has : String → Bool} {block : String}
    {position seconds : ℚ} {beats : Option ℚ} (pauses : c.deed bpm has block position = .pause seconds beats) :
    commandSeconds bpm c = .ok seconds := by
  have first : c.args.head? = c.arg? 0 := List.head?_eq_getElem?
  unfold Command.deed at pauses
  split at pauses
  case h_1 verb =>
    split at pauses
    · contradiction
    · rename_i x read
      split at pauses
      · contradiction
      · split at pauses
        · rename_i told
          cases pauses
          simp only [commandSeconds, verb, first, numberOr_zero read, told]
        · contradiction
  case h_2 verb =>
    split at pauses
    · contradiction
    · rename_i x read
      cases pauses
      simp only [commandSeconds, verb, first, numberOr_zero read]
  all_goals
    repeat' split at pauses
    all_goals contradiction

/-- What a command costs where blocks have a price: a play the highest of those it plays,
a wait for the session one second, and any other command its own length. -/
def fare (bpm : ℚ) (price : String → ℚ) (c : Command) : ℚ :=
  if c.verb = "play" then longest (c.played.map price)
  else if c.verb = "waitforfinish" then waitForFinishSeconds
  else timing bpm c
where
  longest : List ℚ → ℚ
    | [] => 0
    | first :: others => Scalar.maximum first others

theorem le_longest {x : ℚ} {xs : List ℚ} (member : x ∈ xs) : x ≤ fare.longest xs := by
  cases xs with
  | nil => simp at member
  | cons first others =>
    obtain ⟨here, later⟩ := Scalar.maximum_le_iff.mp (le_refl (Scalar.maximum first others))
    rcases List.mem_cons.mp member with rfl | member
    · exact here
    · exact later x member

theorem longest_nonneg {xs : List ℚ} (each : ∀ x ∈ xs, 0 ≤ x) : 0 ≤ fare.longest xs := by
  cases xs with
  | nil => exact le_refl 0
  | cons first others => exact (each first (by simp)).trans (le_longest (by simp))

theorem fare_nonneg {bpm : ℚ} (positive : 0 < bpm) {price : String → ℚ} (prices : ∀ name, 0 ≤ price name)
    {c : Command} (measured : c.isMeasured = true) : 0 ≤ fare bpm price c := by
  unfold fare
  split
  · refine longest_nonneg fun x member => ?_
    obtain ⟨name, -, rfl⟩ := List.mem_map.mp member
    exact prices name
  · split
    · decide +kernel
    · exact (commandSeconds_ok positive measured).2

/-- What the first of some commands adds to an estimate. -/
def spell (bpm : ℚ) (price : String → ℚ) (c : Command) (rest : List Command) : ℚ :=
  if c.verb = "loop" then (loopSeconds bpm c rest).toOption.getD 0 else fare bpm price c

def total (bpm : ℚ) (price : String → ℚ) : List Command → ℚ
  | [] => 0
  | c :: rest => spell bpm price c rest + total bpm price rest

theorem mem_of_mem_loopBody {depth : Nat} {cs body : List Command} (closed : loopBody depth cs = some body)
    {d : Command} (member : d ∈ body) : d ∈ cs := by
  induction cs generalizing depth body with
  | nil => simp [loopBody] at closed
  | cons c rest ih =>
    have inside {n : Nat} (found : (loopBody n rest).map (c :: ·) = some body) : d ∈ c :: rest := by
      obtain ⟨more, further, rfl⟩ := Option.map_eq_some_iff.mp found
      rcases List.mem_cons.mp member with rfl | later
      · exact List.mem_cons_self
      · exact List.mem_cons_of_mem c (ih further later)
    unfold loopBody at closed
    split at closed
    · exact inside closed
    · split at closed
      · split at closed
        · cases closed
          contradiction
        · exact inside closed
      · exact inside closed

theorem timings_nonneg {bpm : ℚ} (positive : 0 < bpm) {body : List Command}
    (measured : ∀ c ∈ body, c.isMeasured = true) : 0 ≤ (body.map (timing bpm)).sum := by
  apply List.sum_nonneg
  intro x member
  obtain ⟨c, listed, rfl⟩ := List.mem_map.mp member
  exact (commandSeconds_ok positive (measured c listed)).2

theorem bodySeconds_ok {bpm : ℚ} (positive : 0 < bpm) {body : List Command}
    (measured : ∀ c ∈ body, c.isMeasured = true) : bodySeconds bpm body = .ok (body.map (timing bpm)).sum := by
  have added (start : ℚ) : body.foldlM (fun total c => return total + (← commandSeconds bpm c)) start =
      (.ok (start + (body.map (timing bpm)).sum) : Except Fault ℚ) := by
    induction body generalizing start with
    | nil => simp [pure, Except.pure]
    | cons c rest ih =>
      obtain ⟨here, later⟩ := List.forall_mem_cons.mp measured
      rw [List.foldlM_cons, (commandSeconds_ok positive here).1]
      refine (ih later _).trans ?_
      rw [List.map_cons, List.sum_cons, add_assoc]
  refine (added 0).trans ?_
  rw [zero_add]

theorem loopSeconds_ok {bpm : ℚ} (positive : 0 < bpm) {c : Command} {rest : List Command}
    (loop : c.verb = "loop") (measured : ∀ d ∈ c :: rest, d.isMeasured = true) :
    ∃ passes : Int, 0 ≤ passes ∧ countOr c.args.head? 1 = .ok passes ∧ loopSeconds bpm c rest =
      .ok (match loopBody 0 rest with
        | none => passes * 2
        | some body => (body.map (timing bpm)).sum * passes) := by
  obtain ⟨here, later⟩ := List.forall_mem_cons.mp measured
  unfold Command.isMeasured at here
  rw [loop] at here
  cases count : countOr c.args.head? 1 with
  | error f => simp [count, Except.toOption] at here
  | ok passes =>
    refine ⟨passes, by simpa [count, Except.toOption] using here, rfl, ?_⟩
    unfold loopSeconds
    rw [count]
    cases closed : loopBody 0 rest with
    | none => rfl
    | some body =>
      have told := bodySeconds_ok positive fun d member => later d (mem_of_mem_loopBody closed member)
      cases body with
      | nil => exact congrArg Except.ok (zero_mul _).symm
      | cons d more =>
        simp only [told]
        rfl

theorem spell_nonneg {bpm : ℚ} (positive : 0 < bpm) {price : String → ℚ} (prices : ∀ name, 0 ≤ price name)
    {c : Command} {rest : List Command} (measured : ∀ d ∈ c :: rest, d.isMeasured = true) :
    0 ≤ spell bpm price c rest := by
  obtain ⟨here, later⟩ := List.forall_mem_cons.mp measured
  unfold spell
  split
  · rename_i loop
    obtain ⟨passes, nonneg, -, told⟩ := loopSeconds_ok positive loop measured
    have count : (0 : ℚ) ≤ passes := by exact_mod_cast nonneg
    rw [told]
    simp only [Except.toOption, Option.getD_some]
    split
    · positivity
    · rename_i body closed
      exact mul_nonneg (timings_nonneg positive fun d member => later d (mem_of_mem_loopBody closed member)) count
  · exact fare_nonneg positive prices here

theorem total_nonneg {bpm : ℚ} (positive : 0 < bpm) {price : String → ℚ} (prices : ∀ name, 0 ≤ price name)
    {cs : List Command} (measured : ∀ c ∈ cs, c.isMeasured = true) : 0 ≤ total bpm price cs := by
  induction cs with
  | nil => exact le_refl 0
  | cons c rest ih =>
    have first := spell_nonneg positive prices measured
    have others := ih (List.forall_mem_cons.mp measured).2
    rw [total]
    linarith

def lineFare (bpm : ℚ) (price : String → ℚ) (line : String) : ℚ :=
  ((Command.parse? line).map (fare bpm price)).getD 0

def cost (bpm : ℚ) (price : String → ℚ) (lines : List String) : ℚ := (lines.map (lineFare bpm price)).sum

@[simp] theorem cost_nil (bpm : ℚ) (price : String → ℚ) : cost bpm price [] = 0 := rfl

@[simp] theorem cost_cons (bpm : ℚ) (price : String → ℚ) (line : String) (rest : List String) :
    cost bpm price (line :: rest) = lineFare bpm price line + cost bpm price rest := by
  simp [cost]

@[simp] theorem cost_append (bpm : ℚ) (price : String → ℚ) (xs ys : List String) :
    cost bpm price (xs ++ ys) = cost bpm price xs + cost bpm price ys := by
  simp [cost]

theorem cost_repeated (bpm : ℚ) (price : String → ℚ) (times : Nat) (xs : List String) :
    cost bpm price (List.replicate times xs).flatten = times * cost bpm price xs := by
  induction times with
  | zero => simp
  | succ times ih =>
    rw [List.replicate_succ, List.flatten_cons, cost_append, ih]
    push_cast
    ring

inductive Entry (line : String) : Option Command → Prop where
  | blank (plain : bracketOf line = .neither) : Entry line none
  | opens {c : Command} {passes : Int} (loop : c.verb = "loop") (count : countOr c.args.head? 1 = .ok passes)
      (bracket : bracketOf line = .opens passes) : Entry line (some c)
  | closes {c : Command} (ending : c.verb = "end") (ends : c.isLoopEnd = true)
      (bracket : bracketOf line = .closes) : Entry line (some c)
  | plain {c : Command} (other : c.verb ≠ "loop") (going : c.isLoopEnd = false)
      (bracket : bracketOf line = .neither) : Entry line (some c)

theorem Entry.of_measured {line : String} (measured : ∀ c ∈ Command.parse? line, c.isMeasured = true) :
    Entry line (Command.parse? line) := by
  have here : bracketOf line = ((Command.parse? line).map Command.bracket).getD .neither := by simp [bracketOf]
  cases parsed : Command.parse? line with
  | none => exact .blank (by rw [here, parsed]; rfl)
  | some c =>
    have first : c.arg? 0 = c.args.head? := List.head?_eq_getElem?.symm
    have measured : c.isMeasured = true := measured c parsed
    rw [parsed, Option.map_some, Option.getD_some, Command.bracket, first] at here
    by_cases loop : c.verb = "loop"
    · simp only [Command.isMeasured, loop] at measured
      cases count : countOr c.args.head? 1 with
      | error f => simp [count, Except.toOption] at measured
      | ok passes => exact .opens loop count (by simpa [loop, count] using here)
    · cases ends : c.isLoopEnd with
      | true =>
        have ending : c.verb = "end" := by simp_all [Command.isLoopEnd]
        exact .closes ending ends (by simpa [loop, ends] using here)
      | false => exact .plain loop ends (by simpa [loop, ends] using here)

theorem measured_cons {line : String} {rest : List String}
    (measured : ∀ c ∈ commandsOf (line :: rest), c.isMeasured = true) :
    ∃ entry, Entry line entry ∧ commandsOf (line :: rest) = entry.toList ++ commandsOf rest ∧
      (∀ (bpm : ℚ) (price : String → ℚ), lineFare bpm price line = (entry.map (fare bpm price)).getD 0) ∧
      ∀ c ∈ commandsOf rest, c.isMeasured = true := by
  have split : commandsOf (line :: rest) = (Command.parse? line).toList ++ commandsOf rest := by
    unfold commandsOf
    rw [List.filterMap_cons]
    cases Command.parse? line <;> rfl
  rw [split] at measured
  refine ⟨_, Entry.of_measured fun c here => ?_, split, fun _ _ => rfl, fun c later => ?_⟩
  · exact measured c (List.mem_append_left _ (Option.mem_toList.mpr here))
  · exact measured c (List.mem_append_right _ later)

section loopBody

variable {c : Command} (depth : Nat) (rest : List Command)

theorem loopBody_opens (loop : c.verb = "loop") :
    loopBody depth (c :: rest) = (loopBody (depth + 1) rest).map (c :: ·) := by
  simp [loopBody, loop]

theorem loopBody_closes (ending : c.verb = "end") (ends : c.isLoopEnd = true) :
    loopBody 0 (c :: rest) = some [] ∧
      loopBody (depth + 1) (c :: rest) = (loopBody depth rest).map (c :: ·) := by
  simp [loopBody, ending, ends]

theorem loopBody_plain (other : c.verb ≠ "loop") (going : c.isLoopEnd = false) :
    loopBody depth (c :: rest) = (loopBody depth rest).map (c :: ·) := by
  simp [loopBody, other, going]

end loopBody

theorem loopBody_isSome {lines : List String} (measured : ∀ c ∈ commandsOf lines, c.isMeasured = true)
    {depth : Nat} (enough : depth < (segments (fun line => [line]) lines).2.length) :
    (loopBody depth (commandsOf lines)).isSome = true := by
  -- The further segments of the lines are what their unmatched ends cut off, one for each end.
  induction lines generalizing depth with
  | nil => simp [segments] at enough
  | cons line rest ih =>
    obtain ⟨entry, kind, split, -, later⟩ := measured_cons measured
    rcases cut : segments (fun line => [line]) rest with ⟨first, others⟩
    rw [cut] at ih
    rw [split]
    cases kind with
    | blank plain =>
      simp only [segments, cut, plain] at enough
      exact ih later enough
    | opens loop count bracket =>
      simp only [segments, cut, bracket] at enough
      rw [Option.toList_some, List.singleton_append, loopBody_opens _ _ loop, Option.isSome_map]
      cases others with
      | nil => simp at enough
      | cons next more => exact ih later (Nat.succ_lt_succ enough)
    | closes ending ends bracket =>
      simp only [segments, cut, bracket] at enough
      rw [Option.toList_some, List.singleton_append]
      cases depth with
      | zero =>
        rw [(loopBody_closes 0 _ ending ends).1]
        rfl
      | succ d =>
        rw [(loopBody_closes d _ ending ends).2, Option.isSome_map]
        exact ih later (Nat.lt_of_succ_lt_succ enough)
    | plain other going bracket =>
      simp only [segments, cut, bracket] at enough
      rw [Option.toList_some, List.singleton_append, loopBody_plain _ _ other going, Option.isSome_map]
      exact ih later enough

theorem fare_bracket {bpm : ℚ} {price : String → ℚ} {c : Command} (bracket : c.verb = "loop" ∨ c.verb = "end") :
    fare bpm price c = 0 := by
  rcases bracket with verb | verb <;> simp [fare, timing, commandSeconds, verb, Except.toOption]

theorem fare_of_isFlat {bpm : ℚ} {price : String → ℚ} {c : Command} (flat : c.isFlat = true) :
    fare bpm price c = timing bpm c := by
  simp only [Command.isFlat, List.contains_eq_mem, Bool.not_eq_true', decide_eq_false_iff_not, List.mem_cons,
    List.not_mem_nil, or_false, not_or] at flat
  simp [fare, flat]

/-- One pass of a loop with flat commands costs what these take. -/
theorem cost_pass {bpm : ℚ} {price : String → ℚ} {lines : List String} {body : List Command}
    (measured : ∀ c ∈ commandsOf lines, c.isMeasured = true)
    (closed : loopBody 0 (commandsOf lines) = some body) (flat : ∀ c ∈ body, c.isFlat = true) :
    cost bpm price (segments (fun line => [line]) lines).1 = (body.map (timing bpm)).sum := by
  induction lines generalizing body with
  | nil => simp [commandsOf, loopBody] at closed
  | cons line rest ih =>
    obtain ⟨entry, kind, split, told, later⟩ := measured_cons measured
    rcases cut : segments (fun line => [line]) rest with ⟨first, others⟩
    rw [cut] at ih
    rw [split] at closed
    cases kind with
    | blank plain => simpa [segments, cut, plain, told] using ih later closed flat
    | opens loop count bracket =>
      rw [Option.toList_some, List.singleton_append, loopBody_opens _ _ loop] at closed
      obtain ⟨more, -, rfl⟩ := Option.map_eq_some_iff.mp closed
      simpa [Command.isFlat, loop] using flat _ (List.mem_cons_self ..)
    | closes ending ends bracket =>
      rw [Option.toList_some, List.singleton_append, (loopBody_closes 0 _ ending ends).1] at closed
      cases closed
      simp [segments, cut, bracket, told, fare_bracket (.inr ending)]
    | plain other going bracket =>
      rw [Option.toList_some, List.singleton_append, loopBody_plain _ _ other going] at closed
      obtain ⟨more, further, rfl⟩ := Option.map_eq_some_iff.mp closed
      obtain ⟨level, others⟩ := List.forall_mem_cons.mp flat
      simp [segments, cut, bracket, told, fare_of_isFlat level, ← ih later further others]

/-- The further passes of a loop cost no more than what its opening line adds. -/
theorem further_passes_le {bpm : ℚ} (positive : 0 < bpm) (price : String → ℚ) {c : Command}
    {rest : List String} {passes : Int} (loop : c.verb = "loop") (count : countOr c.args.head? 1 = .ok passes)
    (measured : ∀ d ∈ c :: commandsOf rest, d.isMeasured = true)
    (flat : loopsAreFlat (c :: commandsOf rest) = true)
    (ended : (segments (fun line => [line]) rest).2 ≠ []) :
    ((passes - 1).toNat : ℚ) * cost bpm price (segments (fun line => [line]) rest).1 ≤
      spell bpm price c (commandsOf rest) := by
  obtain ⟨-, later⟩ := List.forall_mem_cons.mp measured
  obtain ⟨body, closed⟩ := Option.isSome_iff_exists.mp (loopBody_isSome later (List.length_pos_of_ne_nil ended))
  obtain ⟨passes', nonneg, count', told⟩ := loopSeconds_ok positive loop measured
  obtain rfl := Except.ok.inj (count.symm.trans count')
  have level : ∀ d ∈ body, d.isFlat = true := by
    simpa [loopsAreFlat, loop, closed] using (Bool.and_eq_true_iff.mp flat).1
  have takes := timings_nonneg positive fun d member => later d (mem_of_mem_loopBody closed member)
  have fewer : ((passes - 1).toNat : ℚ) ≤ passes := by
    have : ((passes - 1).toNat : Int) ≤ passes := by omega
    exact_mod_cast this
  calc ((passes - 1).toNat : ℚ) * cost bpm price (segments (fun line => [line]) rest).1
      = (passes - 1).toNat * (body.map (timing bpm)).sum := by rw [cost_pass later closed level]
    _ ≤ passes * (body.map (timing bpm)).sum := mul_le_mul_of_nonneg_right fewer takes
    _ = spell bpm price c (commandsOf rest) := by
      rw [spell, if_pos loop, told, closed, mul_comm]
      rfl

/-- The price of the commands of a block is enough for its lines when loops are unrolled. -/
theorem cost_unrolled_le {bpm : ℚ} (positive : 0 < bpm) {price : String → ℚ} (prices : ∀ name, 0 ≤ price name)
    {lines : List String} (measured : ∀ c ∈ commandsOf lines, c.isMeasured = true)
    (flat : loopsAreFlat (commandsOf lines) = true) :
    cost bpm price (unrolled (fun line => [line]) lines) ≤ total bpm price (commandsOf lines) := by
  -- All segments together, since an opening line repeats the first of those after it.
  rw [unrolled, cost_append]
  induction lines with
  | nil => simp [segments, commandsOf, total]
  | cons line rest ih =>
    obtain ⟨entry, kind, split, told, later⟩ := measured_cons measured
    rcases cut : segments (fun line => [line]) rest with ⟨first, others⟩
    rw [cut] at ih
    rw [split] at flat measured ⊢
    have bound := ih later
    cases kind with
    | blank plain => simpa [segments, cut, plain, told] using bound flat
    | @opens c passes loop count bracket =>
      have bound := bound (Bool.and_eq_true_iff.mp flat).2
      have free : lineFare bpm price line = 0 := (told bpm price).trans (fare_bracket (.inl loop))
      rw [Option.toList_some, List.singleton_append, total]
      cases others with
      | nil =>
        have more : 0 ≤ spell bpm price c (commandsOf rest) := spell_nonneg positive prices measured
        simp only [segments, cut, bracket, List.singleton_append, cost_cons, free, zero_add]
        linarith
      | cons next more =>
        have further := further_passes_le positive price loop count measured flat (by simp [cut])
        rw [cut] at further
        simp only [segments, cut, bracket, replicate_passes, cost_append, cost_repeated, cost_cons, cost_nil, free]
        simp only [List.flatten_cons, cost_append] at bound
        linarith
    | @closes c ending ends bracket =>
      have bound := bound (Bool.and_eq_true_iff.mp flat).2
      have here : spell bpm price c (commandsOf rest) = lineFare bpm price line := by
        rw [spell, if_neg (by simp [ending]), told]
        rfl
      rw [Option.toList_some, List.singleton_append, total, here]
      simp only [segments, cut, bracket, List.flatten_cons, cost_append, cost_cons, cost_nil]
      linarith
    | @plain c other going bracket =>
      have bound := bound (Bool.and_eq_true_iff.mp flat).2
      have here : spell bpm price c (commandsOf rest) = lineFare bpm price line := by
        rw [spell, if_neg other, told]
        rfl
      rw [Option.toList_some, List.singleton_append, total, here]
      simp only [segments, cut, bracket, List.singleton_append, cost_cons]
      linarith

theorem firstSeconds_yields {bpm : ℚ} (positive : 0 < bpm) {price : String → ℚ} {block : String → Estimating ℚ}
    {c : Command} {rest : List Command} (measured : ∀ d ∈ c :: rest, d.isMeasured = true)
    (priced : ∀ name ∈ c.played, Yields (block name) (price name)) :
    Yields (firstSeconds bpm block c rest) (spell bpm price c rest) := by
  unfold firstSeconds
  split
  · rename_i names verb args
    have played : c.played = names := by simp [Command.played, verb, args]
    rw [played] at priced
    rw [spell, if_neg (by simp [verb]), fare, if_pos verb, played]
    refine (Yields.mapM priced).bind ?_
    cases names.map price <;> exact .of_pure _
  · rename_i name others other verb args
    have played : c.played = [name] := by
      simp only [Command.played, verb, args, if_true]
    rw [spell, if_neg (by simp [verb]), fare, if_pos verb, played]
    exact priced name (by simp [played])
  · rename_i verb
    obtain ⟨passes, -, -, told⟩ := loopSeconds_ok positive verb measured
    intro log
    rw [spell, if_pos verb, told]
    rfl
  · rename_i verb
    rw [spell, if_neg (by simp [verb]), fare, if_neg (by simp [verb]), if_pos verb]
    exact .of_pure _
  · rename_i loop waits together single
    have alone : fare bpm price c = timing bpm c := by
      by_cases plays : c.verb = "play"
      · have none : c.args = [] := by
          cases args : c.args with
          | nil => rfl
          | cons name others => exact absurd args (single name others plays)
        simp [fare, plays, Command.played, none, fare.longest, timing, commandSeconds, Except.toOption]
      · rw [fare, if_neg plays, if_neg waits]
    intro log
    rw [spell, if_neg loop, alone, (commandSeconds_ok positive (measured c (List.mem_cons_self ..))).1]
    rfl

theorem totalSeconds_yields {bpm : ℚ} (positive : 0 < bpm) {price : String → ℚ} {block : String → Estimating ℚ}
    {cs : List Command} (measured : ∀ c ∈ cs, c.isMeasured = true)
    (priced : ∀ c ∈ cs, ∀ name ∈ c.played, Yields (block name) (price name)) (start : ℚ) :
    Yields (totalSeconds bpm block start cs) (start + total bpm price cs) := by
  induction cs generalizing start with
  | nil => simpa [total, totalSeconds] using Yields.of_pure start
  | cons c rest ih =>
    obtain ⟨here, later⟩ := List.forall_mem_cons.mp priced
    rw [totalSeconds, total, ← add_assoc]
    exact (firstSeconds_yields positive measured here).bind (ih (List.forall_mem_cons.mp measured).2 later _)

/-- The estimate of a block with plays up to a depth. -/
def seconds (blocks : Blocks) (bpm : ℚ) : Nat → String → ℚ
  | 0, _ => 0
  | depth + 1, name =>
    match blocks.lines? name with
    | none => 0
    | some lines => total bpm (seconds blocks bpm depth) (commandsOf lines) + tailSeconds

/-- The estimate of a block where no block plays itself. -/
def price (blocks : Blocks) (bpm : ℚ) : String → ℚ := seconds blocks bpm blocks.length

theorem seconds_absent {blocks : Blocks} {name : String} (missing : blocks.lines? name = none) (bpm : ℚ)
    (depth : Nat) : seconds blocks bpm depth name = 0 := by
  cases depth with
  | zero => rfl
  | succ depth => simp only [seconds, missing]

theorem seconds_nonneg {blocks : Blocks} (measured : blocks.isMeasured = true) {bpm : ℚ} (positive : 0 < bpm)
    (depth : Nat) (name : String) : 0 ≤ seconds blocks bpm depth name := by
  induction depth generalizing name with
  | zero => exact le_refl 0
  | succ depth ih =>
    unfold seconds
    split
    · exact le_refl 0
    · rename_i lines found
      have tail : (0 : ℚ) ≤ tailSeconds := by decide +kernel
      exact add_nonneg (total_nonneg positive ih (blocks.measured measured found).1) tail

theorem total_congr {bpm : ℚ} {f g : String → ℚ} {cs : List Command}
    (same : ∀ c ∈ cs, ∀ name ∈ c.played, f name = g name) : total bpm f cs = total bpm g cs := by
  induction cs with
  | nil => rfl
  | cons c rest ih =>
    obtain ⟨here, later⟩ := List.forall_mem_cons.mp same
    rw [total, total, ih later, spell, spell, fare, fare, List.map_congr_left here]

/-- What holds of the blocks that a block plays and of those that are missing holds of all
names that it plays. -/
theorem played_cases {blocks : Blocks} {name : String} {lines : List String} {P : String → Prop}
    (found : blocks.lines? name = some lines) (missing : ∀ child, blocks.lines? child = none → P child)
    (plays : ∀ child, blocks.Plays name child → P child) :
    ∀ c ∈ commandsOf lines, ∀ child ∈ c.played, P child := by
  intro c listed child named
  obtain ⟨line, member, parsed⟩ := List.mem_filterMap.mp listed
  cases there : blocks.lines? child with
  | none => exact missing child there
  | some defined =>
    exact plays child ⟨by simp [Blocks.contains, there], lines, found, line, member, c, parsed, named⟩

theorem report_yields (severity : Severity) (text : String) : Yields (report severity text) () := fun _ => rfl

theorem blockSeconds_absent {blocks : Blocks} {name : String} (missing : blocks.lines? name = none) (bpm : ℚ)
    (depth : Nat) (busy : List String) : Yields (blockSeconds blocks bpm (depth + 1) busy name) 0 := by
  unfold blockSeconds
  split
  · exact (report_yields _ _).bind (.of_pure 0)
  · rw [missing]
    exact .of_pure 0

section acyclic

variable {blocks : Blocks} (acyclic : blocks.Acyclic) {bpm : ℚ} {name : String} (reached : blocks.Reached name)
include acyclic reached

theorem seconds_stable (found : blocks.contains name = true) {depth : Nat} (room : blocks.length ≤ depth) :
    seconds blocks bpm depth name = seconds blocks bpm (depth + 1) name := by
  refine acyclic.descend (P := fun depth _ name => seconds blocks bpm depth name = seconds blocks bpm (depth + 1) name)
    (fun depth _ name _ found _ same => ?_) depth List.nodup_nil (by simp) reached found (by simpa using room)
  obtain ⟨lines, defined⟩ := Option.isSome_iff_exists.mp found
  have defined : blocks.lines? name = some lines := defined
  simp only [seconds, defined]
  rw [total_congr (played_cases defined (fun child missing => ?_) same)]
  · rfl
  · rw [seconds_absent missing, seconds_absent missing]

theorem price_eq {lines : List String} (found : blocks.lines? name = some lines) :
    price blocks bpm name = total bpm (price blocks bpm) (commandsOf lines) + tailSeconds := by
  rw [price, seconds_stable acyclic reached (by simp [Blocks.contains, found]) (Nat.le_refl _)]
  simp only [seconds, found]

theorem blockSeconds_yields (measured : blocks.isMeasured = true) (positive : 0 < bpm)
    (found : blocks.contains name = true) {depth : Nat} (room : blocks.length ≤ depth) :
    Yields (blockSeconds blocks bpm (depth + 1) [] name) (seconds blocks bpm depth name) := by
  refine acyclic.descend (P := fun depth busy name =>
      Yields (blockSeconds blocks bpm (depth + 1) busy name) (seconds blocks bpm depth name))
    (fun depth busy name _ found other same => ?_) depth List.nodup_nil (by simp) reached found (by simpa using room)
  obtain ⟨lines, defined⟩ := Option.isSome_iff_exists.mp found
  have defined : blocks.lines? name = some lines := defined
  have told : Yields (totalSeconds bpm (blockSeconds blocks bpm (depth + 1) (name :: busy)) 0 (commandsOf lines))
      (0 + total bpm (seconds blocks bpm depth) (commandsOf lines)) := by
    refine totalSeconds_yields positive (blocks.measured measured defined).1 (played_cases defined ?_ same) 0
    intro child missing
    rw [seconds_absent missing]
    exact blockSeconds_absent missing bpm depth _
  have free : busy.contains name = false := by simpa using other
  rw [blockSeconds, free, defined, seconds, defined]
  rw [zero_add] at told
  exact told.bind (.of_pure _)

end acyclic

theorem block_yields {blocks : Blocks} (acyclic : blocks.Acyclic) (measured : blocks.isMeasured = true) {bpm : ℚ}
    (positive : 0 < bpm) : Yields (block blocks bpm mainName) (price blocks bpm mainName) := by
  have tempo : effectiveBpm bpm = bpm := if_pos positive
  rw [block, tempo]
  cases found : blocks.lines? mainName with
  | none =>
    rw [price, seconds_absent found]
    exact blockSeconds_absent found bpm _ _
  | some lines =>
    have there : blocks.contains mainName = true := by simp [Blocks.contains, found]
    have deep : price blocks bpm mainName = seconds blocks bpm (blocks.length + 1) mainName := by
      rw [price, seconds_stable acyclic .refl there (Nat.le_refl _)]
    rw [deep]
    exact blockSeconds_yields acyclic .refl measured positive there (by omega)

/-- The estimate of a script is the price of its main block with a margin, but never too short. -/
theorem script_yields {blocks : Blocks} (acyclic : blocks.Acyclic) (measured : blocks.isMeasured = true) {bpm : ℚ}
    (positive : 0 < bpm) :
    Yields (script blocks bpm) (Scalar.max minSeconds (price blocks bpm mainName * safetyMargin)) := by
  unfold script
  split
  · exact (block_yields acyclic measured positive).bind ((report_yields _ _).bind (.of_pure _))
  · rename_i missing
    have missing : blocks.lines? mainName = none := by simpa [Blocks.contains] using missing
    rw [price, seconds_absent missing]
    exact (report_yields _ _).bind ((Yields.of_pure 0).bind ((report_yields _ _).bind (.of_pure _)))

theorem price_le_script {total : ℚ} (nonneg : 0 ≤ total) : total ≤ Scalar.max minSeconds (total * safetyMargin) := by
  have margin : (1 : ℚ) ≤ safetyMargin := by decide +kernel
  rw [Scalar.max_eq]
  exact (le_mul_of_one_le_right nonneg margin).trans (le_max_right ..)

theorem le_renderSeconds {total : ℚ} (nonneg : 0 ≤ total) : total ≤ renderSeconds total := by
  have headroom : (1 : ℚ) ≤ Scalar.ofDecimal 12 (-1) := by decide +kernel
  have padding : (0 : ℚ) ≤ Scalar.ofInt 3 := by decide +kernel
  change total ≤ Scalar.max (total * Scalar.ofDecimal 12 (-1) + Scalar.ofInt 3) minSeconds
  have longer := le_mul_of_one_le_right nonneg headroom
  rw [Scalar.max_eq]
  exact le_trans (by linarith) (le_max_left ..)

end Estimate

end Partita
