import Partita.Estimate

/-! Loops as brackets. A scan from left to right keeps the loops that are open; an
estimate looks for the end of one loop and only counts. The two agree: what the count
finds is the commands up to the end that takes the loop off the scan. -/
namespace Partita

open Score Estimate

namespace Score

/-- How many loops are open after some commands when `depth` are open before them, if no
end among them is one too many. -/
def height? (depth : Nat) : List Command → Option Nat
  | [] => some depth
  | c :: rest =>
    if c.verb == "loop" then height? (depth + 1) rest
    else if c.isLoopEnd then
      match depth with
      | 0 => none
      | d + 1 => height? d rest
    else height? depth rest

/-- Commands in which every end closes a loop and every loop is closed. -/
def Bracketed (cs : List Command) : Prop := height? 0 cs = some 0

instance (cs : List Command) : Decidable (Bracketed cs) := inferInstanceAs (Decidable (_ = _))

/-- The open loops after a command at an index, each told by the index after it, the
innermost one first. -/
def reopened (c : Command) (index : Nat) (opened : List Nat) : List Nat :=
  if c.verb == "loop" then (index + 1) :: opened
  else if c.isLoopEnd then opened.tail
  else opened

def scan (opened : List Nat) (index : Nat) : List Command → List Nat
  | [] => opened
  | c :: rest => scan (reopened c index opened) (index + 1) rest

/-- The loops that a scan leaves open. An end that closes no loop is passed over. -/
def openLoops (cs : List Command) : List Nat := scan [] 0 cs

inductive Role (c : Command) : Prop where
  | opens (loop : c.verb = "loop")
  | closes (other : c.verb ≠ "loop") (ends : c.isLoopEnd = true)
  | plain (other : c.verb ≠ "loop") (stays : c.isLoopEnd = false)

theorem Command.role (c : Command) : Role c := by
  by_cases loop : c.verb = "loop"
  · exact .opens loop
  · cases ends : c.isLoopEnd with
    | true => exact .closes loop ends
    | false => exact .plain loop ends

theorem Command.isLoopEnd_of_loop {c : Command} (loop : c.verb = "loop") : c.isLoopEnd = false := by
  simp [isLoopEnd, loop]

theorem Command.other_of_isLoopEnd {c : Command} (ends : c.isLoopEnd = true) : c.verb ≠ "loop" := by
  intro loop
  simp [isLoopEnd_of_loop loop] at ends

section height

variable {c : Command} {rest : List Command}

/-- How one command changes the count of open loops. -/
theorem height?_cons (depth : Nat) : height? depth (c :: rest) =
    if c.verb == "loop" then height? (depth + 1) rest
    else if c.isLoopEnd then
      match depth with
      | 0 => none
      | d + 1 => height? d rest
    else height? depth rest := rfl

theorem height?_loop (loop : c.verb = "loop") (depth : Nat) : height? depth (c :: rest) = height? (depth + 1) rest := by
  simp [height?_cons, loop]

theorem height?_end (ends : c.isLoopEnd = true) (depth : Nat) :
    height? (depth + 1) (c :: rest) = height? depth rest := by
  simp [height?_cons, Command.other_of_isLoopEnd ends, ends]

theorem height?_stray (ends : c.isLoopEnd = true) : height? 0 (c :: rest) = none := by
  simp [height?_cons, Command.other_of_isLoopEnd ends, ends]

theorem height?_plain (other : c.verb ≠ "loop") (stays : c.isLoopEnd = false) (depth : Nat) :
    height? depth (c :: rest) = height? depth rest := by
  simp [height?_cons, other, stays]

/-- How the search for an end goes past one command. -/
theorem loopBody_cons (depth : Nat) : loopBody depth (c :: rest) =
    if c.verb == "loop" then (loopBody (depth + 1) rest).map (c :: ·)
    else if c.isLoopEnd then
      match depth with
      | 0 => some []
      | d + 1 => (loopBody d rest).map (c :: ·)
    else (loopBody depth rest).map (c :: ·) := rfl

theorem loopBody_loop (loop : c.verb = "loop") (depth : Nat) :
    loopBody depth (c :: rest) = (loopBody (depth + 1) rest).map (c :: ·) := by
  simp [loopBody_cons, loop]

theorem loopBody_end (ends : c.isLoopEnd = true) (depth : Nat) :
    loopBody (depth + 1) (c :: rest) = (loopBody depth rest).map (c :: ·) := by
  simp [loopBody_cons, Command.other_of_isLoopEnd ends, ends]

theorem loopBody_stray (ends : c.isLoopEnd = true) : loopBody 0 (c :: rest) = some [] := by
  simp [loopBody_cons, Command.other_of_isLoopEnd ends, ends]

theorem loopBody_stays (other : c.verb ≠ "loop") (stays : c.isLoopEnd = false) (depth : Nat) :
    loopBody depth (c :: rest) = (loopBody depth rest).map (c :: ·) := by
  simp [loopBody_cons, other, stays]

end height

theorem height?_append (depth : Nat) (xs ys : List Command) :
    height? depth (xs ++ ys) = (height? depth xs).bind (height? · ys) := by
  induction xs generalizing depth with
  | nil => rfl
  | cons c rest ih =>
    rw [List.cons_append]
    cases c.role with
    | opens loop => rw [height?_loop loop, height?_loop loop, ih]
    | closes _ ends =>
      cases depth with
      | zero => rw [height?_stray ends, height?_stray ends, Option.bind_none]
      | succ depth => rw [height?_end ends, height?_end ends, ih]
    | plain other stays => rw [height?_plain other stays, height?_plain other stays, ih]

/-- Loops that are open further out make no difference. -/
theorem height?_add {depth after : Nat} {cs : List Command} (height : height? depth cs = some after) (more : Nat) :
    height? (depth + more) cs = some (after + more) := by
  induction cs generalizing depth with
  | nil =>
    cases height
    rfl
  | cons c rest ih =>
    cases c.role with
    | opens loop =>
      rw [height?_loop loop] at height ⊢
      rw [Nat.add_right_comm]
      exact ih height
    | closes _ ends =>
      cases depth with
      | zero =>
        rw [height?_stray ends] at height
        contradiction
      | succ depth =>
        rw [height?_end ends] at height
        rw [Nat.add_right_comm, height?_end ends]
        exact ih height
    | plain other stays =>
      rw [height?_plain other stays] at height ⊢
      exact ih height

theorem bracketed_nil : Bracketed [] := rfl

theorem Bracketed.append {xs ys : List Command} (first : Bracketed xs) (second : Bracketed ys) :
    Bracketed (xs ++ ys) := by
  unfold Bracketed at first second ⊢
  rw [height?_append, first, Option.bind_some, second]

theorem bracketed_plain {c : Command} (other : c.verb ≠ "loop") (stays : c.isLoopEnd = false) : Bracketed [c] :=
  height?_plain other stays 0

theorem Bracketed.closed {opening closing : Command} {body : List Command} (bracketed : Bracketed body)
    (opens : opening.verb = "loop") (closes : closing.isLoopEnd = true) :
    Bracketed (opening :: (body ++ [closing])) := by
  have inside := height?_add bracketed 1
  unfold Bracketed
  rw [height?_loop opens, height?_append, inside, Option.bind_some, height?_end closes]
  rfl

/-- The search for an end goes past commands among which it is not. -/
theorem loopBody_append {depth after : Nat} {xs : List Command} (height : height? depth xs = some after)
    (ys : List Command) : loopBody depth (xs ++ ys) = (loopBody after ys).map (xs ++ ·) := by
  induction xs generalizing depth with
  | nil =>
    cases height
    simp
  | cons c rest ih =>
    have further {d : Nat} (same : height? d rest = some after) :
        (loopBody d (rest ++ ys)).map (c :: ·) = (loopBody after ys).map (c :: rest ++ ·) := by
      rw [ih same, Option.map_map]
      rfl
    rw [List.cons_append]
    cases c.role with
    | opens loop =>
      rw [height?_loop loop] at height
      rw [loopBody_loop loop, further height]
    | closes _ ends =>
      cases depth with
      | zero =>
        rw [height?_stray ends] at height
        contradiction
      | succ depth =>
        rw [height?_end ends] at height
        rw [loopBody_end ends, further height]
    | plain other stays =>
      rw [height?_plain other stays] at height
      rw [loopBody_stays other stays, further height]

/-- The body of a loop is what stands before an end that finds no other loop open. -/
theorem loopBody_eq_some_iff {depth : Nat} {cs body : List Command} : loopBody depth cs = some body ↔
    height? depth body = some 0 ∧ ∃ closing rest, closing.isLoopEnd = true ∧ cs = body ++ closing :: rest := by
  constructor
  · intro found
    induction cs generalizing depth body with
    | nil => simp [loopBody] at found
    | cons c rest ih =>
      cases c.role with
      | opens loop =>
        rw [loopBody_loop loop] at found
        obtain ⟨inner, inside, rfl⟩ := Option.map_eq_some_iff.mp found
        obtain ⟨height, closing, after, closes, rfl⟩ := ih inside
        exact ⟨(height?_loop loop depth).trans height, closing, after, closes, rfl⟩
      | closes _ ends =>
        cases depth with
        | zero =>
          rw [loopBody_stray ends] at found
          cases found
          exact ⟨rfl, c, rest, ends, rfl⟩
        | succ depth =>
          rw [loopBody_end ends] at found
          obtain ⟨inner, inside, rfl⟩ := Option.map_eq_some_iff.mp found
          obtain ⟨height, closing, after, closes, rfl⟩ := ih inside
          exact ⟨(height?_end ends depth).trans height, closing, after, closes, rfl⟩
      | plain other stays =>
        rw [loopBody_stays other stays] at found
        obtain ⟨inner, inside, rfl⟩ := Option.map_eq_some_iff.mp found
        obtain ⟨height, closing, after, closes, rfl⟩ := ih inside
        exact ⟨(height?_plain other stays depth).trans height, closing, after, closes, rfl⟩
  · rintro ⟨height, closing, rest, closes, rfl⟩
    rw [loopBody_append height, loopBody_stray closes]
    simp

/-- A loop that is never closed leaves it open at the last command. -/
theorem loopBody_eq_none_iff {depth : Nat} {cs : List Command} :
    loopBody depth cs = none ↔ ∃ after, height? depth cs = some after := by
  constructor
  · intro missing
    induction cs generalizing depth with
    | nil => exact ⟨depth, rfl⟩
    | cons c rest ih =>
      cases c.role with
      | opens loop =>
        rw [loopBody_loop loop] at missing
        rw [height?_loop loop]
        exact ih (Option.map_eq_none_iff.mp missing)
      | closes _ ends =>
        cases depth with
        | zero => simp [loopBody_stray ends] at missing
        | succ depth =>
          rw [loopBody_end ends] at missing
          rw [height?_end ends]
          exact ih (Option.map_eq_none_iff.mp missing)
      | plain other stays =>
        rw [loopBody_stays other stays] at missing
        rw [height?_plain other stays]
        exact ih (Option.map_eq_none_iff.mp missing)
  · rintro ⟨after, height⟩
    have none := loopBody_append height []
    simpa [loopBody] using none

section reopened

variable {c : Command} (index : Nat) (opened : List Nat)

theorem reopened_loop (loop : c.verb = "loop") : reopened c index opened = (index + 1) :: opened := by
  simp [reopened, loop]

theorem reopened_end (ends : c.isLoopEnd = true) : reopened c index opened = opened.tail := by
  simp [reopened, Command.other_of_isLoopEnd ends, ends]

theorem reopened_plain (other : c.verb ≠ "loop") (stays : c.isLoopEnd = false) :
    reopened c index opened = opened := by
  simp [reopened, other, stays]

end reopened

theorem scan_append (opened : List Nat) (index : Nat) (xs ys : List Command) :
    scan opened index (xs ++ ys) = scan (scan opened index xs) (index + xs.length) ys := by
  induction xs generalizing opened index with
  | nil => rfl
  | cons c rest ih =>
    rw [List.cons_append, scan, scan, ih, List.length_cons, Nat.add_assoc, Nat.add_comm 1]

theorem openLoops_append (xs ys : List Command) : openLoops (xs ++ ys) = scan (openLoops xs) xs.length ys := by
  rw [openLoops, scan_append, Nat.zero_add]
  rfl

theorem openLoops_snoc (cs : List Command) (c : Command) :
    openLoops (cs ++ [c]) = reopened c cs.length (openLoops cs) :=
  openLoops_append cs [c]

/-- A scan only takes loops off that are as deep as the commands go. -/
theorem scan_height {depth after : Nat} {cs : List Command} (height : height? depth cs = some after)
    (index : Nat) (inner : List Nat) (deep : inner.length = depth) (outer : List Nat) :
    ∃ left, left.length = after ∧ scan (inner ++ outer) index cs = left ++ outer := by
  induction cs generalizing depth index inner with
  | nil =>
    cases height
    exact ⟨inner, deep, rfl⟩
  | cons c rest ih =>
    rw [scan]
    cases c.role with
    | opens loop =>
      rw [height?_loop loop] at height
      rw [reopened_loop _ _ loop]
      exact ih height (index + 1) ((index + 1) :: inner) (by simp [deep])
    | closes _ ends =>
      cases inner with
      | nil =>
        subst deep
        rw [List.length_nil, height?_stray ends] at height
        contradiction
      | cons here inner =>
        subst deep
        rw [List.length_cons, height?_end ends] at height
        rw [reopened_end _ _ ends]
        exact ih height (index + 1) inner rfl
    | plain other stays =>
      rw [height?_plain other stays] at height
      rw [reopened_plain _ _ other stays]
      exact ih height (index + 1) inner deep

theorem Bracketed.scan {cs : List Command} (bracketed : Bracketed cs) (opened : List Nat) (index : Nat) :
    Score.scan opened index cs = opened := by
  obtain ⟨left, none, same⟩ := scan_height bracketed index [] rfl opened
  rw [List.length_eq_zero_iff.mp none] at same
  exact same

theorem mem_scan {opened : List Nat} {index place : Nat} {cs : List Command} (member : place ∈ scan opened index cs) :
    place ∈ opened ∨ index < place ∧ place ≤ index + cs.length := by
  induction cs generalizing opened index with
  | nil => exact .inl member
  | cons c rest ih =>
    rw [List.length_cons]
    rcases ih member with here | later
    · cases c.role with
      | opens loop =>
        rw [reopened_loop _ _ loop] at here
        rcases List.mem_cons.mp here with rfl | before
        · exact .inr (by omega)
        · exact .inl before
      | closes _ ends =>
        rw [reopened_end _ _ ends] at here
        exact .inl (List.mem_of_mem_tail here)
      | plain other stays =>
        rw [reopened_plain _ _ other stays] at here
        exact .inl here
    · exact .inr (by omega)

theorem le_of_mem_openLoops {place : Nat} {cs : List Command} (member : place ∈ openLoops cs) : place ≤ cs.length := by
  obtain none | ⟨-, small⟩ := mem_scan member
  · contradiction
  · omega

/-- The innermost loop that a scan leaves open is followed by closed loops only. -/
theorem openLoops_eq_cons {cs : List Command} {place : Nat} {others : List Nat}
    (opened : openLoops cs = place :: others) : ∃ outer opening inner, cs = outer ++ opening :: inner ∧
      opening.verb = "loop" ∧ Bracketed inner ∧ place = outer.length + 1 ∧ openLoops outer = others := by
  -- the loop outside one that an end takes off is found in a shorter list
  induction length : cs.length using Nat.strongRecOn generalizing cs place others with
  | ind n ih =>
    subst length
    rcases List.eq_nil_or_concat cs with rfl | ⟨before, c, rfl⟩
    · contradiction
    rw [List.concat_eq_append] at opened ih ⊢
    rw [openLoops_snoc] at opened
    have shorter : before.length < (before ++ [c]).length := by simp
    cases c.role with
    | opens loop =>
      rw [reopened_loop _ _ loop, List.cons.injEq] at opened
      exact ⟨before, c, [], rfl, loop, bracketed_nil, opened.1.symm, opened.2⟩
    | closes _ ends =>
      rw [reopened_end _ _ ends] at opened
      cases stack : openLoops before with
      | nil => simp [stack] at opened
      | cons closed rest =>
        rw [stack, List.tail_cons] at opened
        obtain ⟨outer, opening, inner, rfl, opens, bracketed, -, outside⟩ := ih _ shorter stack rfl
        have first : outer.length < (outer ++ opening :: inner ++ [c]).length := by simp
        obtain ⟨outermost, opening', inner', rfl, opens', bracketed', at_, around⟩ :=
          ih _ first (outside.trans opened) rfl
        refine ⟨outermost, opening', inner' ++ (opening :: (inner ++ [c])), by simp, opens', ?_, at_, around⟩
        exact bracketed'.append (bracketed.closed opens ends)
    | plain other stays =>
      rw [reopened_plain _ _ other stays] at opened
      obtain ⟨outer, opening, inner, rfl, opens, bracketed, at_, outside⟩ := ih _ shorter opened rfl
      refine ⟨outer, opening, inner ++ [c], by simp, opens, ?_, at_, outside⟩
      exact bracketed.append (bracketed_plain other stays)

/-- Scanning up to where the body of an open loop starts leaves the same loops open. -/
theorem openLoops_take {cs : List Command} {place : Nat} {others : List Nat}
    (opened : openLoops cs = place :: others) :
    place ≤ cs.length ∧ openLoops (cs.take place) = place :: others := by
  obtain ⟨outer, opening, inner, rfl, opens, -, rfl, rfl⟩ := openLoops_eq_cons opened
  constructor
  · simp
  · have front : (outer ++ opening :: inner).take (outer.length + 1) = outer ++ [opening] := by
      rw [List.take_append, List.take_of_length_le (by omega)]
      simp
    rw [front, openLoops_snoc, reopened_loop _ _ opens]

section matching

variable {outer inner rest : List Command} {opening closing : Command} (opens : opening.verb = "loop")
include opens

theorem openLoops_inside (bracketed : Bracketed inner) :
    openLoops (outer ++ opening :: inner) = (outer.length + 1) :: openLoops outer := by
  rw [openLoops_append, scan, reopened_loop _ _ opens, bracketed.scan]

variable (outer rest)

/-- A loop has no body exactly if a scan of everything leaves it open. -/
theorem loopBody_eq_none_iff_mem :
    loopBody 0 rest = none ↔ outer.length + 1 ∈ openLoops (outer ++ opening :: rest) := by
  constructor
  · intro missing
    obtain ⟨after, height⟩ := loopBody_eq_none_iff.mp missing
    obtain ⟨left, -, same⟩ :=
      scan_height height (outer.length + 1) [] rfl ((outer.length + 1) :: openLoops outer)
    rw [openLoops_append, scan, reopened_loop _ _ opens]
    rw [List.nil_append] at same
    rw [same]
    simp
  · intro member
    cases found : loopBody 0 rest with
    | none => rfl
    | some body =>
      obtain ⟨bracketed, closing, more, closes, rfl⟩ := loopBody_eq_some_iff.mp found
      rw [show outer ++ opening :: (body ++ closing :: more) = outer ++ opening :: body ++ closing :: more by simp,
        openLoops_append, scan, openLoops_inside opens bracketed, reopened_end _ _ closes, List.tail_cons] at member
      rcases mem_scan member with before | later
      · have small := le_of_mem_openLoops before
        omega
      · simp only [List.length_append, List.length_cons] at later
        omega

/-- At an end, the innermost open loop is the one whose body goes up to this end. -/
theorem loopBody_eq_some_iff_opened (closes : closing.isLoopEnd = true) :
    loopBody 0 (inner ++ closing :: rest) = some inner ↔
      (openLoops (outer ++ opening :: inner)).head? = some (outer.length + 1) := by
  constructor
  · intro found
    rw [openLoops_inside opens (loopBody_eq_some_iff.mp found).1]
    rfl
  · intro innermost
    obtain ⟨others, opened⟩ := List.head?_eq_some_iff.mp innermost
    obtain ⟨outer', opening', inner', same, -, bracketed, length, -⟩ := openLoops_eq_cons opened
    obtain ⟨rfl, tail⟩ := List.append_inj same (Nat.succ_inj.mp length)
    obtain ⟨rfl, rfl⟩ := List.cons.inj tail
    exact loopBody_eq_some_iff.mpr ⟨bracketed, closing, rest, closes, rfl⟩

end matching

end Score

end Partita
