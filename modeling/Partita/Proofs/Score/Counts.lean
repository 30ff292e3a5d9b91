import Mathlib.Data.List.TakeWhile
import Partita.Proofs.Estimate.Reentry
import Partita.Proofs.Score.Commands

/-! Where an estimate can fail. A script whose length cannot be told has a loop whose count
is too long to be read or too large to be a number, or nests more blocks than there is room
for; nothing else on its lines stops an estimate, and nothing is divided by zero. -/
namespace Partita

open Score Text

variable {α β γ : Type} {E : Fault → Prop}

/-- A computation whose faults are of a kind. -/
def Confined (E : Fault → Prop) (x : Except Fault β) : Prop := ∀ f, x = .error f → E f

namespace Confined

theorem of_ok (b : β) : Confined E (.ok b) := by
  intro f failed
  cases failed

theorem of_error {f : Fault} (kind : E f) : Confined E (.error f : Except Fault β) := by
  intro g failed
  cases failed
  exact kind

theorem mono {E' : Fault → Prop} {x : Except Fault β} (confined : Confined E x) (wider : ∀ f, E f → E' f) :
    Confined E' x :=
  fun f failed => wider f (confined f failed)

/-- What is computed next may be known from what was returned. -/
theorem bind_of {x : Except Fault β} {next : β → Except Fault γ} (first : Confined E x)
    (rest : ∀ b, x = .ok b → Confined E (next b)) : Confined E (x >>= next) := by
  cases x with
  | ok b => exact rest b rfl
  | error f => exact of_error (first f rfl)

theorem bind {x : Except Fault β} {next : β → Except Fault γ} (first : Confined E x)
    (rest : ∀ b, Confined E (next b)) : Confined E (x >>= next) := first.bind_of fun b _ => rest b

theorem of_if {c : Prop} [Decidable c] {x y : Except Fault β} (yes : c → Confined E x)
    (no : ¬ c → Confined E y) : Confined E (if c then x else y) := by
  split
  · exact yes ‹_›
  · exact no ‹_›

theorem foldlM {ι : Type} {step : β → ι → Except Fault β} {xs : List ι}
    (each : ∀ b, ∀ x ∈ xs, Confined E (step b x)) (first : β) : Confined E (xs.foldlM step first) := by
  induction xs generalizing first with
  | nil => exact of_ok first
  | cons x rest ih =>
    rw [List.foldlM_cons]
    exact (each first x (by simp)).bind fun b => ih (fun b y member => each b y (by simp [member])) b

end Confined

/-- What is relied on when numbers are divided: no positive number is taken for zero, and
integers that are positive stay so as numbers, also when they are halved. -/
structure Scalar.Signed (α : Type) [Scalar α] : Prop where
  ne_zero : ∀ x : α, 0 < x → (x == 0) = false
  ofInt_pos : ∀ n : Int, 0 < n → (0 : α) < ofInt n
  half_pos : ∀ n : Int, 0 < n → (0 : α) < ofInt n / 2

theorem Score.quotient_of_pos [Scalar α] (signed : Scalar.Signed α) (a : α) {b : α} (positive : 0 < b) :
    quotient a b = .ok (a / b) := by
  simp [quotient, signed.ne_zero b positive]

/-- A count in a script that is too long to be read, or too large for a number. -/
def Fault.IsCount (f : Fault) : Prop :=
  f = .integerTooLarge ∨ ∃ digits, f = .tooManyDigits digits ∧ maxIntegerDigits < digits

/-- What an estimate of some blocks may fail with: the count of a loop, or the nesting of its
blocks where there is room for no more of them than there are. -/
def Fault.IsUnmeasured (blocks : Blocks) (room : Option Nat) (f : Fault) : Prop :=
  f.IsCount ∨ f = .nestingLimit ∧ ∃ n ≤ blocks.length, room = some n

theorem Score.countOr_confined (token : Option String) (default : Int) :
    Confined Fault.IsCount (countOr token default) := by
  have read (t : String) : Confined Fault.IsCount (count? t) :=
    .of_if (fun _ => .of_ok _) fun _ => .of_if (fun long => .of_error (.inr ⟨_, rfl, long⟩)) fun _ => .of_ok _
  cases token with
  | none => exact .of_ok _
  | some t =>
    refine (read t).bind fun n => ?_
    cases n <;> exact .of_ok _

theorem Scalar.ofInt?_confined [Scalar α] (n : Int) : Confined Fault.IsCount (ofInt? n : Except Fault α) :=
  .of_if (fun _ => .of_ok _) fun _ => .of_error (.inl rfl)

namespace Estimate

instance isPreorder_true {σ : Type} : IsPreorder σ (fun _ _ => True) where
  refl _ := trivial
  trans _ _ _ _ _ := trivial

abbrev Fails (E : Fault → Prop) (act : Estimating β) : Prop := Within (fun _ _ => True) E act

theorem Fails.of_confined {x : Except Fault β} (confined : Confined E x) : Fails E (liftM x : Estimating β) := by
  refine fun s => ⟨trivial, fun f failed => ?_⟩
  cases x with
  | ok b => cases failed
  | error g =>
    cases failed
    exact confined f rfl

theorem Fails.mapM {ι : Type} {f : ι → Estimating β} (each : ∀ x, Fails E (f x)) (xs : List ι) :
    Fails E (xs.mapM f) := by
  induction xs with
  | nil => exact .of_pure []
  | cons x rest ih =>
    rw [List.mapM_cons]
    exact (each x).bind fun _ => ih.bind fun _ => .of_pure _

theorem report_fails (severity : Severity) (text : String) : Fails E (report severity text) :=
  .of_modify fun _ => trivial

section

variable [Scalar α] (signed : Scalar.Signed α) {bpm : α} (positive : 0 < bpm)

include signed positive

theorem commandSeconds_confined (c : Command) : Confined E (commandSeconds bpm c) := by
  have noted (token : Option String) : Confined E (noteSeconds token bpm) := by
    unfold noteSeconds barsToSeconds
    rw [quotient_of_pos signed _ positive]
    cases token with
    | none => exact .of_ok _
    | some t => exact .of_if (fun _ => .of_ok _) fun _ => .of_ok _
  unfold commandSeconds beatsToSeconds
  rw [quotient_of_pos signed _ positive]
  split
  · exact .of_ok _
  · exact .of_ok _
  · exact noted _
  · exact noted _
  · exact .of_ok _

theorem loopSeconds_confined (c : Command) (rest : List Command) :
    Confined Fault.IsCount (loopSeconds bpm c rest) := by
  have summed (body : List Command) : Confined Fault.IsCount (bodySeconds bpm body) :=
    .foldlM (fun _ c _ => (commandSeconds_confined signed positive c).bind fun _ => .of_ok _) _
  refine (countOr_confined _ _).bind fun passes => ?_
  split
  · exact (Scalar.ofInt?_confined _).bind fun _ => .of_ok _
  · exact .of_ok _
  · exact (summed _).bind fun _ => (Scalar.ofInt?_confined _).bind fun _ => .of_ok _

variable (counts : ∀ f : Fault, f.IsCount → E f)
include counts

theorem totalSeconds_fails {block : String → Estimating α} (blocks : ∀ name, Fails E (block name)) (total : α)
    (cs : List Command) : Fails E (totalSeconds bpm block total cs) := by
  have first (c : Command) (rest : List Command) : Fails E (firstSeconds bpm block c rest) := by
    unfold firstSeconds
    split
    · refine (Fails.mapM blocks _).bind fun lengths => ?_
      cases lengths <;> exact .of_pure _
    · exact blocks _
    · exact .of_confined fun f failed => counts f (loopSeconds_confined signed positive _ _ f failed)
    · exact .of_pure _
    · exact .of_confined (commandSeconds_confined signed positive _)
  induction cs generalizing total with
  | nil => exact .of_pure total
  | cons c rest ih => exact (first c rest).bind fun _ => ih _

/-- An estimate fails on a count, or else where the blocks that are not under way are more
than it has room for. -/
theorem blockSeconds_fails {blocks : Blocks} {room : Nat} {busy : List String}
    (enough : blocks.outside busy.toFinset < room ∨ E .nestingLimit) (name : String) :
    Fails E (blockSeconds blocks bpm room busy name) := by
  induction room generalizing busy name with
  | zero => exact .of_throw (enough.resolve_left (Nat.not_lt_zero _))
  | succ room ih =>
    unfold blockSeconds
    split
    · exact (report_fails _ _).bind fun _ => .of_pure 0
    · rename_i other
      split
      · exact .of_pure 0
      · rename_i lines found
        have fewer : blocks.outside (name :: busy).toFinset < blocks.outside busy.toFinset := by
          rw [List.toFinset_cons]
          exact Blocks.outside_insert (Blocks.contains_of_lines? found) (by simpa using other)
        have inside (child : String) : Fails E (blockSeconds blocks bpm room (name :: busy) child) :=
          ih (enough.imp_left fun enough => by omega) child
        exact (totalSeconds_fails signed positive counts inside _ _).bind fun _ => .of_pure _

end

variable [Scalar α]

theorem script_fails (signed : Scalar.Signed α) (blocks : Blocks) (bpm : α) (room : Option Nat) :
    Fails (Fault.IsUnmeasured blocks room) (script blocks bpm room) := by
  have tempo : 0 < effectiveBpm bpm := by
    unfold effectiveBpm
    split
    · assumption
    · exact signed.ofInt_pos 120 (by decide)
  have enough : blocks.outside ([] : List String).toFinset < room.getD (blocks.length + 2) ∨
      Fault.IsUnmeasured blocks room .nestingLimit := by
    cases room with
    | none => exact .inl (Blocks.outside_empty_lt (by simp))
    | some n =>
      by_cases few : n ≤ blocks.length
      · exact .inr (.inr ⟨rfl, n, few, rfl⟩)
      · exact .inl (Blocks.outside_empty_lt (by simpa using few))
  unfold script
  split
  · exact (blockSeconds_fails signed tempo (fun _ => .inl) enough _).bind fun _ =>
      (report_fails _ _).bind fun _ => .of_pure _
  · exact Within.bind (report_fails _ _) fun _ => (report_fails _ _).bind fun _ => .of_pure _

/-- It does fail where the main block opens a loop whose count cannot be read. -/
theorem script_of_unreadable {blocks : Blocks} (bpm : α) {lines : List String} {c : Command}
    {rest : List Command} {f : Fault} (found : blocks.lines? mainName = some lines)
    (commands : lines.filterMap Command.parse? = c :: rest) (verb : c.verb = "loop") (unreadable : countOr c.args.head? 1 = .error f) :
    (runFrom (script blocks bpm) #[]).1 = .error f := by
  have main : blocks.contains mainName = true := by simp [Blocks.contains, found]
  have looped : loopSeconds (effectiveBpm bpm) c rest = .error f := by
    simp [loopSeconds, unreadable, bind, Except.bind]
  have first (block : String → Estimating α) (total : α) :
      runFrom (totalSeconds (effectiveBpm bpm) block total (c :: rest)) #[] = (.error f, #[]) := by
    have read : firstSeconds (effectiveBpm bpm) block c rest = liftM (loopSeconds (effectiveBpm bpm) c rest) := by
      simp [firstSeconds, verb]
    rw [totalSeconds, read, looped]
    rfl
  have whole : runFrom (block blocks bpm mainName) #[] = (.error f, #[]) := by
    simp only [Estimate.block, Option.getD_none, blockSeconds, List.contains_nil, Bool.false_eq_true, if_false, found, commands]
    exact runFrom_bind_error (first _ _)
  unfold script
  rw [if_pos main, runFrom_bind_error whole]

end Estimate

namespace Score

/-- The line that opens a loop with a count. -/
theorem parse?_loop {token : List Char} (solid : ∀ c ∈ token, isBlank c = false) (some : token ≠ []) :
    Command.parse? ("loop " ++ String.ofList token) =
      .some ⟨"loop", [String.ofList token], "loop " ++ String.ofList token⟩ := by
  have joined : " ".intercalate ["loop", String.ofList token] = "loop " ++ String.ofList token := by
    rw [String.intercalate_cons_cons, String.intercalate_singleton]
    rfl
  have keyword : IsToken "loop" := by
    have unbroken : "loop".toList.all (!isBlank ·) = true := by decide
    exact ⟨by decide, by simpa using List.all_eq_true.mp unbroken⟩
  have count : IsToken (String.ofList token) := by
    refine ⟨by simpa [String.ext_iff] using some, ?_⟩
    rwa [String.toList_ofList]
  have valid : ∀ word ∈ ["loop", String.ofList token], IsToken word :=
    List.forall_mem_cons.mpr ⟨keyword, List.forall_mem_singleton.mpr count⟩
  rw [← joined]
  exact Command.parse?_joined valid (by decide +kernel)

theorem count?_of_long {digits : List Char}
    (each : ∀ c ∈ digits, isDigit c = true ∧ isBlank c = false ∧ c ≠ '-' ∧ c ≠ '+')
    (long : maxIntegerDigits < digits.length) :
    count? (String.ofList digits) = .error (.tooManyDigits digits.length) := by
  have trimmed : skipBlank digits = digits :=
    skipBlank_eq_self fun c first => (each c (List.mem_of_mem_head? first)).2.1
  have unsigned : readSign digits = (false, digits) := by
    unfold readSign
    split
    · exact absurd rfl (each '-' (by simp)).2.2.1
    · exact absurd rfl (each '+' (by simp)).2.2.2
    · rfl
  have all : digits.takeWhile isDigit = digits := List.takeWhile_eq_self_iff.mpr fun c member => (each c member).1
  have some : digits.isEmpty = false := by
    cases digits with
    | nil => simp at long
    | cons => rfl
  simp [count?, trimmed, unsigned, all, some, long]

end Score

end Partita
