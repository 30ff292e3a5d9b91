import Mathlib.Tactic.LinearCombination
import Partita.Proofs.Estimate
import Partita.Proofs.Score.Brackets
import Partita.Proofs.Score.Grammar

/-! What an estimate makes of a loop. It adds up a block line by line, the lines of a loop
once like any others, and for the opening line what the body takes by itself for each pass.
By itself a play takes nothing, nor does a loop inside, so the sum need not be as long as
that of the block in which the loop is unrolled. How much they differ is told exactly. -/
namespace Partita

open Score

theorem Score.Command.verb_of_isLoopEnd {c : Command} (ends : c.isLoopEnd = true) : c.verb = "end" := by
  simp_all [Command.isLoopEnd]

theorem Score.Bracketed.copies {xs : List Command} (bracketed : Bracketed xs) (copies : Nat) :
    Bracketed (List.replicate copies xs).flatten := by
  induction copies with
  | zero => exact bracketed_nil
  | succ copies ih =>
    rw [List.replicate_succ, List.flatten_cons]
    exact bracketed.append ih

namespace Estimate

section told

variable {β γ : Type}

def told (act : Estimating β) : Except Fault β := (runFrom act #[]).1

/-- An estimate that returns the same whatever was logged before. -/
def Oblivious (act : Estimating β) : Prop := ∀ log, (runFrom act log).1 = told act

namespace Oblivious

theorem of_pure (b : β) : Oblivious (pure b) := fun _ => rfl

theorem of_lift (x : Except Fault β) : Oblivious (liftM x : Estimating β) := by
  intro log
  cases x <;> rfl

theorem fst_bind {act : Estimating β} {next : β → Estimating γ} (first : Oblivious act)
    (rest : ∀ b, Oblivious (next b)) (log : Array Record) :
    (runFrom (act >>= next) log).1 = told act >>= fun b => told (next b) := by
  have returned := first log
  rw [runFrom_bind]
  rcases ran : runFrom act log with ⟨result, after⟩
  rw [ran] at returned
  rw [← returned]
  cases result with
  | ok b => exact rest b after
  | error f => rfl

theorem bind {act : Estimating β} {next : β → Estimating γ} (first : Oblivious act)
    (rest : ∀ b, Oblivious (next b)) : Oblivious (act >>= next) :=
  fun log => (first.fst_bind rest log).trans (first.fst_bind rest #[]).symm

theorem mapM {ι : Type} {f : ι → Estimating β} (each : ∀ x, Oblivious (f x)) (xs : List ι) :
    Oblivious (xs.mapM f) := by
  induction xs with
  | nil => exact of_pure []
  | cons x rest ih =>
    rw [List.mapM_cons]
    exact (each x).bind fun _ => ih.bind fun _ => of_pure _

end Oblivious

theorem told_lift (x : Except Fault β) : told (liftM x : Estimating β) = x := by
  cases x <;> rfl

theorem told_bind {act : Estimating β} {next : β → Estimating γ} (first : Oblivious act)
    (rest : ∀ b, Oblivious (next b)) : told (act >>= next) = told act >>= fun b => told (next b) :=
  first.fst_bind rest #[]

end told

section oblivious

variable {α : Type} [Scalar α] {bpm : α} {block : String → Estimating α} (blocks : ∀ name, Oblivious (block name))
include blocks

theorem firstSeconds_oblivious (c : Command) (rest : List Command) : Oblivious (firstSeconds bpm block c rest) := by
  unfold firstSeconds
  split
  · refine (Oblivious.mapM blocks _).bind fun lengths => ?_
    cases lengths <;> exact .of_pure _
  · exact blocks _
  · exact .of_lift _
  · exact .of_pure _
  · exact .of_lift _

theorem totalSeconds_oblivious (total : α) (cs : List Command) : Oblivious (totalSeconds bpm block total cs) := by
  induction cs generalizing total with
  | nil => exact .of_pure total
  | cons c rest ih => exact (firstSeconds_oblivious blocks c rest).bind fun _ => ih _

omit blocks in
theorem blockSeconds_oblivious (blocks : Blocks) (bpm : α) (depth : Nat) (busy : List String) (name : String) :
    Oblivious (blockSeconds blocks bpm depth busy name) := by
  induction depth generalizing busy name with
  | zero => exact fun _ => rfl
  | succ depth ih =>
    unfold blockSeconds
    split
    · exact Oblivious.bind (fun _ => rfl) fun _ => .of_pure 0
    · split
      · exact .of_pure 0
      · exact (totalSeconds_oblivious (fun name => ih _ name) _ _).bind fun _ => .of_pure _

omit blocks in
/-- Blocks that play a block which is being estimated do not look at its lines. -/
theorem blockSeconds_define (blocks : Blocks) (bpm : α) (lines : List String) {name : String} (depth : Nat)
    {busy : List String} (member : name ∈ busy) :
    blockSeconds (blocks.define name lines) bpm depth busy = blockSeconds blocks bpm depth busy := by
  funext other
  induction depth generalizing busy other with
  | zero => rfl
  | succ depth ih =>
    rw [blockSeconds, blockSeconds]
    split
    · rfl
    · rename_i free
      have different : other ≠ name := by
        rintro rfl
        simp [member] at free
      rw [Blocks.lines?_define, if_neg different]
      split
      · rfl
      · rw [funext fun child => ih (List.mem_cons_of_mem other member) child]

end oblivious

/-- What a block adds up to when the blocks it plays are estimated by `block`. -/
def tally {α : Type} [Scalar α] (bpm : α) (block : String → Estimating α) (cs : List Command) : Except Fault α :=
  told (totalSeconds bpm block 0 cs)

section tally

variable {bpm : ℚ} {block : String → Estimating ℚ} (blocks : ∀ name, Oblivious (block name))
include blocks

theorem told_totalSeconds (total : ℚ) (cs : List Command) :
    told (totalSeconds bpm block total cs) = (tally bpm block cs).map (total + ·) := by
  have unfolded (start : ℚ) (c : Command) (rest : List Command) : told (totalSeconds bpm block start (c :: rest)) =
      told (firstSeconds bpm block c rest) >>= fun x => told (totalSeconds bpm block (start + x) rest) :=
    told_bind (firstSeconds_oblivious blocks c rest) fun _ => totalSeconds_oblivious blocks _ rest
  induction cs generalizing total with
  | nil => exact congrArg Except.ok (add_zero total).symm
  | cons c rest ih =>
    rw [tally, unfolded, unfolded]
    cases told (firstSeconds bpm block c rest) with
    | error f => rfl
    | ok x =>
      change told (totalSeconds bpm block (total + x) rest) = (told (totalSeconds bpm block (0 + x) rest)).map _
      rw [ih, ih]
      cases tally bpm block rest with
      | error f => rfl
      | ok y => exact congrArg Except.ok (by ring)

omit blocks in
theorem tally_nil : tally bpm block [] = .ok 0 := rfl

/-- A block adds up to what its first command adds and what the others add up to. -/
theorem tally_cons {c : Command} {rest : List Command} {seconds : ℚ} : tally bpm block (c :: rest) = .ok seconds ↔
    ∃ x y, told (firstSeconds bpm block c rest) = .ok x ∧ tally bpm block rest = .ok y ∧ seconds = x + y := by
  have unfolded : tally bpm block (c :: rest) =
      told (firstSeconds bpm block c rest) >>= fun x => told (totalSeconds bpm block (0 + x) rest) :=
    told_bind (firstSeconds_oblivious blocks c rest) fun _ => totalSeconds_oblivious blocks _ rest
  rw [unfolded]
  cases told (firstSeconds bpm block c rest) with
  | error f => simp [bind, Except.bind]
  | ok x =>
    change told (totalSeconds bpm block (0 + x) rest) = .ok seconds ↔ _
    rw [told_totalSeconds blocks]
    cases tally bpm block rest with
    | error f => simp [Except.map]
    | ok y => simp [Except.map, eq_comm]

omit blocks in
/-- Only a loop looks at what follows, and only for its body. -/
theorem firstSeconds_congr {c : Command} {rest other : List Command}
    (same : c.verb = "loop" → loopSeconds bpm c rest = loopSeconds bpm c other) :
    firstSeconds bpm block c rest = firstSeconds bpm block c other := by
  unfold firstSeconds
  split
  · rfl
  · rfl
  · rename_i loop
    rw [same loop]
  · rfl
  · rfl

omit blocks in
theorem firstSeconds_loop {c : Command} (loop : c.verb = "loop") (rest : List Command) :
    firstSeconds bpm block c rest = liftM (loopSeconds bpm c rest) := by
  simp [firstSeconds, loop]

omit blocks in
theorem loopSeconds_congr {c : Command} {rest other : List Command} (same : loopBody 0 rest = loopBody 0 other) :
    loopSeconds bpm c rest = loopSeconds bpm c other := by
  rw [loopSeconds, loopSeconds, same]

/-- Well bracketed commands add up to the same wherever they stand. -/
theorem tally_append {depth : Nat} {xs : List Command} (height : height? depth xs = some 0) (ys : List Command)
    {seconds : ℚ} : tally bpm block (xs ++ ys) = .ok seconds ↔
      ∃ x y, tally bpm block xs = .ok x ∧ tally bpm block ys = .ok y ∧ seconds = x + y := by
  induction xs generalizing depth seconds with
  | nil => simp [tally_nil]
  | cons c rest ih =>
    have inside : ∃ d, height? d rest = some 0 := by
      cases c.role with
      | opens loop => exact ⟨_, (height?_loop loop depth).symm.trans height⟩
      | closes _ ends =>
        cases depth with
        | zero => simp [height?_stray ends] at height
        | succ depth => exact ⟨_, (height?_end ends depth).symm.trans height⟩
      | plain other stays => exact ⟨_, (height?_plain other stays depth).symm.trans height⟩
    have first : firstSeconds bpm block c (rest ++ ys) = firstSeconds bpm block c rest := by
      apply firstSeconds_congr
      intro loop
      apply loopSeconds_congr
      rw [height?_loop loop] at height
      cases closed : loopBody 0 rest with
      | none =>
        obtain ⟨after, open_⟩ := loopBody_eq_none_iff.mp closed
        have deeper := height?_add open_ (depth + 1)
        rw [Nat.zero_add, height] at deeper
        cases deeper
      | some body =>
        obtain ⟨bracketed, closing, more, closes, rfl⟩ := loopBody_eq_some_iff.mp closed
        exact loopBody_eq_some_iff.mpr ⟨bracketed, closing, more ++ ys, closes, by simp⟩
    obtain ⟨d, height⟩ := inside
    rw [List.cons_append, tally_cons blocks, first]
    constructor
    · rintro ⟨x, y, here, later, rfl⟩
      obtain ⟨z, w, mine, yours, rfl⟩ := (ih height).mp later
      exact ⟨x + z, w, (tally_cons blocks).mpr ⟨x, z, here, mine, rfl⟩, yours, by ring⟩
    · rintro ⟨x, y, mine, yours, rfl⟩
      obtain ⟨z, w, here, later, rfl⟩ := (tally_cons blocks).mp mine
      exact ⟨z, w + y, here, (ih height).mpr ⟨w, y, later, yours, rfl⟩, by ring⟩

theorem tally_copies {xs : List Command} (bracketed : Bracketed xs) {pass : ℚ} (once : tally bpm block xs = .ok pass)
    {ys : List Command} {others : ℚ} (rest : tally bpm block ys = .ok others) (copies : Nat) :
    tally bpm block ((List.replicate copies xs).flatten ++ ys) = .ok (copies * pass + others) := by
  induction copies with
  | zero => simpa using rest
  | succ copies ih =>
    rw [List.replicate_succ, List.flatten_cons, List.append_assoc]
    refine (tally_append blocks bracketed _).mpr ⟨pass, _, once, ih, ?_⟩
    push_cast
    ring

theorem tally_suffix {xs ys : List Command} {seconds : ℚ} (whole : tally bpm block (xs ++ ys) = .ok seconds) :
    ∃ rest, tally bpm block ys = .ok rest := by
  induction xs generalizing seconds with
  | nil => exact ⟨seconds, whole⟩
  | cons c xs ih =>
    obtain ⟨_, _, -, later, -⟩ := (tally_cons blocks).mp whole
    exact ih later

end tally

/-- What some commands take by themselves. -/
def bare (bpm : ℚ) (cs : List Command) : ℚ := (cs.map (timing bpm)).sum

@[simp] theorem bare_nil (bpm : ℚ) : bare bpm [] = 0 := rfl

@[simp] theorem bare_cons (bpm : ℚ) (c : Command) (cs : List Command) :
    bare bpm (c :: cs) = timing bpm c + bare bpm cs := by
  simp [bare]

@[simp] theorem bare_append (bpm : ℚ) (xs ys : List Command) : bare bpm (xs ++ ys) = bare bpm xs + bare bpm ys := by
  simp [bare]

theorem bare_copies (bpm : ℚ) (xs : List Command) (copies : Nat) :
    bare bpm (List.replicate copies xs).flatten = copies * bare bpm xs := by
  induction copies with
  | zero => simp
  | succ copies ih =>
    rw [List.replicate_succ, List.flatten_cons, bare_append, ih]
    push_cast
    ring

theorem timing_loop {c : Command} (loop : c.verb = "loop") (bpm : ℚ) : timing bpm c = 0 := by
  simp [timing, commandSeconds, loop, Except.toOption]

theorem timing_end {c : Command} (ends : c.isLoopEnd = true) (bpm : ℚ) : timing bpm c = 0 := by
  simp [timing, commandSeconds, Command.verb_of_isLoopEnd ends, Except.toOption]

/-- What a loop counts for each pass. -/
def perPass (bpm : ℚ) (rest : List Command) : ℚ := match loopBody 0 rest with
  | none => unterminatedLoopSeconds
  | some body => bare bpm body

/-- The passes of the loops among some commands that are open after them and are closed
in what follows. -/
def around (after : List Command) : List Command → Int
  | [] => 0
  | c :: rest =>
    (if c.verb = "loop" ∧ loopBody 0 rest = none ∧ (loopBody 0 (rest ++ after)).isSome then
        (countOr c.args.head? 1).toOption.getD 0
      else 0) + around after rest

section positive

variable {bpm : ℚ} (positive : 0 < bpm)
include positive

theorem commandSeconds_reads (c : Command) : commandSeconds bpm c = .ok (timing bpm c) := by
  have known : ∃ seconds, commandSeconds bpm c = .ok seconds := by
    unfold commandSeconds
    split
    · exact ⟨_, quotient_ok positive.ne'⟩
    · exact ⟨_, rfl⟩
    · obtain ⟨seconds, read, -⟩ := noteSeconds_ok c.args.getLast? positive
      exact ⟨seconds, read⟩
    · obtain ⟨seconds, read, -⟩ := noteSeconds_ok c.args.getLast? positive
      exact ⟨seconds, read⟩
    · exact ⟨0, rfl⟩
  obtain ⟨seconds, read⟩ := known
  rw [timing, read]
  rfl

theorem bodySeconds_reads (body : List Command) : bodySeconds bpm body = .ok (bare bpm body) := by
  have added (start : ℚ) : body.foldlM (fun total c => return total + (← commandSeconds bpm c)) start =
      (.ok (start + bare bpm body) : Except Fault ℚ) := by
    induction body generalizing start with
    | nil => simp [pure, Except.pure]
    | cons c rest ih =>
      rw [List.foldlM_cons, commandSeconds_reads positive]
      refine (ih _).trans ?_
      rw [bare_cons, add_assoc]
  refine (added 0).trans ?_
  rw [zero_add]

/-- What a loop adds, once its count is read. -/
theorem loopSeconds_eq (c : Command) (rest : List Command) :
    loopSeconds bpm c rest = (countOr c.args.head? 1).map fun passes => (passes : ℚ) * perPass bpm rest := by
  unfold loopSeconds perPass
  cases countOr c.args.head? 1 with
  | error f => rfl
  | ok passes =>
    cases loopBody 0 rest with
    | none => rfl
    | some body =>
      cases body with
      | nil => exact congrArg Except.ok (mul_zero (passes : ℚ)).symm
      | cons d more =>
        simp only [bodySeconds_reads positive]
        exact congrArg Except.ok (mul_comm (bare bpm (d :: more)) (passes : ℚ))

omit positive in
/-- A loop around some commands tells them from others by what they take by themselves. -/
theorem perPass_replaced (bpm : ℚ) (inner after : List Command) {xs ys : List Command} (first : Bracketed xs)
    (second : Bracketed ys) :
    perPass bpm (inner ++ (xs ++ after)) - perPass bpm (inner ++ (ys ++ after)) =
      if loopBody 0 inner = none ∧ (loopBody 0 (inner ++ after)).isSome then bare bpm xs - bare bpm ys else 0 := by
  unfold perPass
  cases closed : loopBody 0 inner with
  | some body =>
    obtain ⟨bracketed, closing, more, closes, rfl⟩ := loopBody_eq_some_iff.mp closed
    have found (zs : List Command) : loopBody 0 (body ++ closing :: more ++ zs) = some body :=
      loopBody_eq_some_iff.mpr ⟨bracketed, closing, more ++ zs, closes, by simp⟩
    simp only [found, sub_self]
    simp
  | none =>
    obtain ⟨depth, height⟩ := loopBody_eq_none_iff.mp closed
    have past {zs : List Command} (bracketed : Bracketed zs) :
        loopBody 0 (inner ++ (zs ++ after)) = (loopBody depth after).map fun rest => inner ++ (zs ++ rest) := by
      have same := height?_add bracketed depth
      rw [Nat.zero_add] at same
      rw [loopBody_append height, loopBody_append same, Option.map_map]
      rfl
    have out := past bracketed_nil
    rw [List.nil_append] at out
    rw [past first, past second, out]
    cases loopBody depth after with
    | none => simp
    | some rest => simp

/-- What an estimate makes of other commands in the place of some: they count for themselves,
and in every loop around them for what they take by themselves. -/
theorem tally_replaced {block : String → Estimating ℚ} (blocks : ∀ name, Oblivious (block name))
    {before xs ys after : List Command} {seconds p q : ℚ} (first : Bracketed xs) (second : Bracketed ys)
    (mine : tally bpm block xs = .ok p) (yours : tally bpm block ys = .ok q)
    (told : tally bpm block (before ++ (xs ++ after)) = .ok seconds) :
    ∃ other, tally bpm block (before ++ (ys ++ after)) = .ok other ∧
      seconds - other = p - q + around after before * (bare bpm xs - bare bpm ys) := by
  induction before generalizing seconds with
  | nil =>
    obtain ⟨x, y, here, later, rfl⟩ := (tally_append blocks first after).mp told
    obtain rfl : x = p := Except.ok.inj (here.symm.trans mine)
    refine ⟨q + y, (tally_append blocks second after).mpr ⟨q, y, yours, later, rfl⟩, ?_⟩
    simp [around]
  | cons c inner ih =>
    obtain ⟨x, y, here, later, rfl⟩ := (tally_cons blocks).mp told
    obtain ⟨z, rest, apart⟩ := ih later
    by_cases loop : c.verb = "loop"
    · rw [firstSeconds_loop loop, told_lift, loopSeconds_eq positive] at here
      cases count : countOr c.args.head? 1 with
      | error f => simp [count, Except.map] at here
      | ok passes =>
        rw [count] at here
        cases here
        refine ⟨passes * perPass bpm (inner ++ (ys ++ after)) + z, (tally_cons blocks).mpr ⟨_, z, ?_, rest, rfl⟩, ?_⟩
        · rw [firstSeconds_loop loop, told_lift, loopSeconds_eq positive, count]
          rfl
        · have replaced := perPass_replaced bpm inner after first second
          simp only [around, loop, true_and, count, Except.toOption, Option.getD_some]
          split at replaced
          · rename_i inside
            rw [if_pos inside]
            push_cast
            linear_combination apart + passes * replaced
          · rename_i outside
            rw [if_neg outside]
            push_cast
            linear_combination apart + passes * replaced
    · have same : firstSeconds bpm block c (inner ++ (ys ++ after)) =
          firstSeconds bpm block c (inner ++ (xs ++ after)) := firstSeconds_congr fun verb => absurd verb loop
      refine ⟨x + z, (tally_cons blocks).mpr ⟨x, z, same ▸ here, rest, rfl⟩, ?_⟩
      simp only [around, loop, false_and, if_false, zero_add]
      linear_combination apart

/-- What a whole loop adds up to: its lines once, and for each pass what its body takes by itself. -/
theorem tally_loop {block : String → Estimating ℚ} (blocks : ∀ name, Oblivious (block name))
    {opening closing : Command} {body : List Command} {passes : Int} {seconds : ℚ} (opens : opening.verb = "loop")
    (count : countOr opening.args.head? 1 = .ok passes) (bracketed : Bracketed body)
    (closes : closing.isLoopEnd = true) (told : tally bpm block (opening :: (body ++ [closing])) = .ok seconds) :
    ∃ pass, tally bpm block body = .ok pass ∧ seconds = passes * bare bpm body + pass := by
  obtain ⟨x, y, here, later, rfl⟩ := (tally_cons blocks).mp told
  obtain ⟨pass, z, inside, last, rfl⟩ := (tally_append blocks bracketed _).mp later
  have found : loopBody 0 (body ++ [closing]) = some body :=
    loopBody_eq_some_iff.mpr ⟨bracketed, closing, [], closes, rfl⟩
  have first : x = passes * bare bpm body := by
    rw [firstSeconds_loop opens, told_lift, loopSeconds_eq positive, count, perPass, found] at here
    exact (Except.ok.inj here).symm
  have none : z = 0 := by
    have ending : tally bpm block [closing] = .ok 0 := by
      refine (tally_cons blocks).mpr ⟨0, 0, ?_, rfl, (add_zero 0).symm⟩
      simp [firstSeconds, commandSeconds, Command.verb_of_isLoopEnd closes, told_lift]
    exact Except.ok.inj (last.symm.trans ending)
  exact ⟨pass, inside, by rw [first, none, add_zero]⟩

/-- What an estimate makes of copies of a body in the place of the loop. -/
theorem tally_unrolled {block : String → Estimating ℚ} (blocks : ∀ name, Oblivious (block name))
    {before body after : List Command} {opening closing : Command} {passes : Int} {seconds : ℚ}
    (opens : opening.verb = "loop") (count : countOr opening.args.head? 1 = .ok passes) (bracketed : Bracketed body)
    (closes : closing.isLoopEnd = true) (copies : Nat)
    (told : tally bpm block (before ++ ((opening :: (body ++ [closing])) ++ after)) = .ok seconds) :
    ∃ pass other, tally bpm block body = .ok pass ∧
      tally bpm block (before ++ ((List.replicate copies body).flatten ++ after)) = .ok other ∧
      seconds - other = passes * bare bpm body - (copies - 1) * (pass + around after before * bare bpm body) := by
  have closed := bracketed.closed opens closes
  obtain ⟨_, rest⟩ := tally_suffix blocks told
  obtain ⟨p, _, looped, -, -⟩ := (tally_append blocks closed _).mp rest
  obtain ⟨pass, once, rfl⟩ := tally_loop positive blocks opens count bracketed closes looped
  have unrolled := tally_copies blocks bracketed once tally_nil copies
  rw [List.append_nil] at unrolled
  obtain ⟨other, replaced, apart⟩ :=
    tally_replaced positive blocks closed (bracketed.copies copies) looped unrolled told
  refine ⟨pass, other, once, replaced, ?_⟩
  have alone : bare bpm (opening :: (body ++ [closing])) = bare bpm body := by
    simp [timing_loop opens, timing_end closes]
  rw [apart, alone, bare_copies]
  ring

/-- Commands that may stand in a loop add up to what they take by themselves. -/
theorem tally_flat {block : String → Estimating ℚ} (blocks : ∀ name, Oblivious (block name)) {cs : List Command}
    (flat : ∀ c ∈ cs, c.isFlat = true) : tally bpm block cs = .ok (bare bpm cs) := by
  induction cs with
  | nil => rfl
  | cons c rest ih =>
    obtain ⟨here, later⟩ := List.forall_mem_cons.mp flat
    have first : firstSeconds bpm block c rest = liftM (commandSeconds bpm c) := by
      unfold firstSeconds
      unfold Command.isFlat at here
      split <;> simp_all
    refine (tally_cons blocks).mpr ⟨timing bpm c, bare bpm rest, ?_, ih later, bare_cons ..⟩
    rw [first, told_lift, commandSeconds_reads positive]

end positive

theorem effectiveBpm_pos (bpm : ℚ) : 0 < effectiveBpm bpm := by
  unfold effectiveBpm
  split
  · assumption
  · decide +kernel

/-- How an estimate of a block estimates the blocks that this one plays. -/
def playedIn (blocks : Blocks) (bpm : ℚ) (name : String) : String → Estimating ℚ :=
  blockSeconds blocks (effectiveBpm bpm) (blocks.length + 1) [name]

theorem playedIn_oblivious (blocks : Blocks) (bpm : ℚ) (name other : String) :
    Oblivious (playedIn blocks bpm name other) :=
  blockSeconds_oblivious _ _ _ _ other

theorem playedIn_define {blocks : Blocks} {name : String} (known : blocks.contains name = true) (bpm : ℚ)
    (lines : List String) : playedIn (blocks.define name lines) bpm name = playedIn blocks bpm name := by
  have names := congrArg List.length (@Blocks.names_define blocks name lines)
  rw [if_pos known, List.length_map, List.length_map] at names
  rw [playedIn, names, blockSeconds_define _ _ _ _ List.mem_cons_self, playedIn]

theorem told_block {blocks : Blocks} {name : String} {lines : List String} {bpm seconds : ℚ}
    (found : blocks.lines? name = some lines) : told (block blocks bpm name) = .ok seconds ↔ ∃ total,
      tally (effectiveBpm bpm) (playedIn blocks bpm name) (commandsOf lines) = .ok total ∧
        seconds = total + tailSeconds := by
  have unfolded : block blocks bpm name = totalSeconds (effectiveBpm bpm) (playedIn blocks bpm name) 0
      (commandsOf lines) >>= fun total => return total + tailSeconds := by
    rw [block, Option.getD_none, blockSeconds, found]
    rfl
  rw [unfolded, told_bind (totalSeconds_oblivious (playedIn_oblivious blocks bpm name) _ _) fun _ => .of_pure _, tally]
  cases told (totalSeconds (effectiveBpm bpm) (playedIn blocks bpm name) 0 (commandsOf lines)) with
  | error f => simp [bind, Except.bind]
  | ok total =>
    change Except.ok (total + tailSeconds) = Except.ok seconds ↔ _
    simp [eq_comm]

structure Looped (lines before body after : List String) (passes : Int) : Prop where
  bracketed : Bracketed (commandsOf body)
  lines : ∃ opening closing loop ending, lines = before ++ opening :: (body ++ closing :: after) ∧
    Command.parse? opening = some loop ∧ loop.verb = "loop" ∧ countOr loop.args.head? 1 = .ok passes ∧
    Command.parse? closing = some ending ∧ ending.isLoopEnd = true

def flattened (before body after : List String) (passes : Int) : List String :=
  before ++ ((List.replicate (max 1 passes).toNat body).flatten ++ after)

/-- How the estimate of a block with a loop compares with that of the block in which the
loop is unrolled. Unrolling has each pass of the body counted in full, where the loop has
the whole body counted once and for each pass what the body takes by itself; and each loop
around counts the copies for what they take by themselves. Where nothing in the body is
more than it takes by itself and no loop is around, the estimate is longer by one pass. -/
theorem loop_estimate_excess {blocks : Blocks} {bpm : ℚ} {name : String} {lines before body after : List String}
    {passes : Int} {looped : ℚ} (defined : blocks.lines? name = some lines)
    (loop : Looped lines before body after passes) (returned : told (block blocks bpm name) = .ok looped) :
    let copies : ℚ := (max 1 passes : Int)
    let outer : ℚ := around (commandsOf after) (commandsOf before)
    let alone := bare (effectiveBpm bpm) (commandsOf body)
    ∃ pass unrolled, tally (effectiveBpm bpm) (playedIn blocks bpm name) (commandsOf body) = .ok pass ∧
      told (block (blocks.define name (flattened before body after passes)) bpm name) = .ok unrolled ∧
      looped - unrolled = passes * alone - (copies - 1) * (pass + outer * alone) ∧
      (unrolled ≤ looped ↔ (copies - 1) * (pass + outer * alone) ≤ passes * alone) ∧
      ((∀ c ∈ commandsOf body, c.isFlat = true) → 1 ≤ passes → outer = 0 → looped = unrolled + alone) := by
  obtain ⟨bracketed, opening, closing, loop, ending, rfl, opens, verb, count, closes, ends⟩ := loop
  intro copies outer alone
  have positive := effectiveBpm_pos bpm
  have oblivious := playedIn_oblivious blocks bpm name
  have known : blocks.contains name = true := by simp [Blocks.contains, defined]
  have redefined : (blocks.define name (flattened before body after passes)).lines? name =
      some (flattened before body after passes) := by
    rw [Blocks.lines?_define, if_pos rfl]
  have whole : commandsOf (before ++ opening :: (body ++ closing :: after)) =
      commandsOf before ++ ((loop :: (commandsOf body ++ [ending])) ++ commandsOf after) := by
    simp [commandsOf, opens, closes]
  have parts : commandsOf (flattened before body after passes) = commandsOf before ++
      ((List.replicate (max 1 passes).toNat (commandsOf body)).flatten ++ commandsOf after) := by
    simp [commandsOf, flattened, List.filterMap_flatten]
  obtain ⟨total, mine, rfl⟩ := (told_block defined).mp returned
  rw [whole] at mine
  obtain ⟨pass, other, once, yours, apart⟩ :=
    tally_unrolled positive oblivious verb count bracketed ends (max 1 passes).toNat mine
  have times : ((max 1 passes).toNat : ℚ) = copies := by
    have nonneg : ((max 1 passes).toNat : Int) = max 1 passes := Int.toNat_of_nonneg (by omega)
    rw [← Int.cast_natCast, nonneg]
  rw [times] at apart
  have apart : total + tailSeconds - (other + tailSeconds) =
      passes * alone - (copies - 1) * (pass + outer * alone) := by
    rw [← apart]
    ring
  refine ⟨pass, other + tailSeconds, once, ?_, apart, ?_, fun flat some none => ?_⟩
  · refine (told_block redefined).mpr ⟨other, ?_, rfl⟩
    rwa [parts, playedIn_define known]
  · rw [← sub_nonneg, apart, sub_nonneg]
  · have same : pass = alone := Except.ok.inj (once.symm.trans (tally_flat positive oblivious flat))
    have count : copies = passes := by
      have max : max 1 passes = passes := by omega
      simp only [copies, max]
    rw [same, none, count] at apart
    linear_combination apart

def refrain : Blocks := [("main", ["loop 3", "loop 2", "waitsec 1", "play a", "end", "end"]), ("a", ["waitsec 4"])]

theorem loop_estimate_excess_refrain :
    told (block refrain (120 : ℚ) "main") = .ok 13 ∧ ∃ pass unrolled,
      tally (effectiveBpm 120) (playedIn refrain 120 "main") (commandsOf ["waitsec 1", "play a"]) = .ok pass ∧
      told (block (refrain.define "main" (flattened ["loop 3"] ["waitsec 1", "play a"] ["end"] 2)) 120 "main") =
        .ok unrolled ∧
      13 - unrolled = 2 - (pass + 3) := by
  have defined : refrain.lines? "main" = some ["loop 3", "loop 2", "waitsec 1", "play a", "end", "end"] := rfl
  have loop : Looped ["loop 3", "loop 2", "waitsec 1", "play a", "end", "end"] ["loop 3"] ["waitsec 1", "play a"]
      ["end"] 2 :=
    ⟨by decide +kernel, "loop 2", "end", ⟨"loop", ["2"], "loop 2"⟩, ⟨"end", [], "end"⟩, rfl, by decide +kernel, rfl,
      by decide +kernel, by decide +kernel, by decide +kernel⟩
  have returned : told (block refrain (120 : ℚ) "main") = .ok 13 := by decide +kernel
  have outer : around (commandsOf ["end"]) (commandsOf ["loop 3"]) = 3 := by decide +kernel
  have alone : bare (effectiveBpm 120) (commandsOf ["waitsec 1", "play a"]) = 1 := by decide +kernel
  obtain ⟨pass, unrolled, once, copies, apart, -⟩ := loop_estimate_excess defined loop returned
  refine ⟨returned, pass, unrolled, once, copies, ?_⟩
  rw [apart, outer, alone]
  norm_num

def isForwardOnly (blocks : Blocks) : Bool := blocks.all fun block => (commandsOf block.2).all fun c =>
  match c.verb with
  | "wait" | "waitsec" => isForward c.args.head?
  | "tone" | "tones" => isForward c.args.getLast?
  | _ => true

/-- An estimate may be shorter than that of the block with the loop unrolled: a block that
is played three times in a loop is counted once. -/
theorem loop_may_be_underestimated :
    ¬ ∀ (blocks : Blocks) (bpm : ℚ) (name : String) (lines before body after : List String) (passes : Int)
        (looped unrolled : ℚ), 0 < bpm → isForwardOnly blocks = true → blocks.lines? name = some lines →
        Looped lines before body after passes → told (block blocks bpm name) = .ok looped →
        told (block (blocks.define name (flattened before body after passes)) bpm name) = .ok unrolled →
        unrolled ≤ looped := by
  intro longer
  have loop : Looped ["loop 3", "play a", "end"] [] ["play a"] [] 3 :=
    ⟨by decide +kernel, "loop 3", "end", ⟨"loop", ["3"], "loop 3"⟩, ⟨"end", [], "end"⟩, rfl, by decide +kernel, rfl,
      by decide +kernel, by decide +kernel, by decide +kernel⟩
  have bound : (18 : ℚ) ≤ 7 := longer [("chorus", ["loop 3", "play a", "end"]), ("a", ["waitsec 4"])] 120 "chorus"
    _ _ _ _ 3 7 18 (by decide +kernel) (by decide +kernel) rfl loop (by decide +kernel) (by decide +kernel)
  norm_num at bound

end Estimate

end Partita
