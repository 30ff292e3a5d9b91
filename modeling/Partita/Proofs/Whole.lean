import Partita.Proofs.Reals
import Partita.Signal.Overlay

/-! Operations on whole arrays. An array stands for all the samples it is made for: arrays
that are combined must have the same length, a part that is replaced must have the length of
what replaces it, and nothing is filled in where a sample is missing. A computation that is
told in these operations and ends has got every length right. -/
namespace Partita

namespace Whole

section operations

variable {α β γ : Type}

def zip (f : α → β → γ) (x : Array α) (y : Array β) : Except Fault (Array γ) :=
  if x.size = y.size then .ok (Array.zipWith f x y) else .error .lengthMismatch

theorem zip_ok {x : Array α} {y : Array β} (same : x.size = y.size) (f : α → β → γ) :
    zip f x y = .ok (Array.zipWith f x y) := if_pos same

theorem mapM_ok {f : α → Except Fault β} {g : α → β} {xs : List α} (each : ∀ x ∈ xs, f x = .ok (g x)) :
    xs.mapM f = .ok (xs.map g) := by
  induction xs with
  | nil => rfl
  | cons x rest ih =>
    rw [List.mapM_cons, each x (by simp), ih fun y member => each y (by simp [member])]
    rfl

def stack (left right : Array α) : Except Fault (Stereo α) :=
  if left.size = right.size then .ok ⟨left, right⟩ else .error .lengthMismatch

theorem stack_ok {left right : Array α} (same : left.size = right.size) : stack left right = .ok ⟨left, right⟩ :=
  if_pos same

/-- An array cut to a length, or continued up to it. -/
def fit (x : Array α) (size : ℕ) (filling : α) : Array α :=
  if x.size < size then x ++ Array.replicate (size - x.size) filling else x.extract 0 size

@[simp]
theorem size_fit (x : Array α) (size : ℕ) (filling : α) : (fit x size filling).size = size := by
  unfold fit
  split
  · simp only [Array.size_append, Array.size_replicate]
    omega
  · simp only [Array.size_extract]
    omega

theorem getElem_fit {x : Array α} {size : ℕ} {filling : α} {i : ℕ} (inside : i < (fit x size filling).size) :
    (fit x size filling)[i] = x.getD i filling := by
  have below : i < size := by simpa using inside
  unfold fit
  split
  · simp only [Array.getElem_append, Array.getElem_replicate, Array.getD]
    rfl
  · have here : i < x.size := by omega
    simp [Array.getD, here]

/-- The rows of a table of so many rows and columns. -/
def reshape (x : Array α) (rows columns : ℕ) : Except Fault (Array (Array α)) :=
  if x.size = rows * columns then
    .ok (Array.ofFn fun i : Fin rows => x.extract (columns * i) (columns * i + columns))
  else .error .lengthMismatch

/-- Every element as often as there is room for in a block. -/
def repeatEach (x : Array α) (block : ℕ) : Array α := (x.toList.flatMap (List.replicate block)).toArray

theorem size_repeatEach (x : Array α) (block : ℕ) : (repeatEach x block).size = x.size * block := by
  simp [repeatEach, List.length_flatMap]

theorem getElem?_repeatEach (x : Array α) {block : ℕ} (some : 0 < block) (i : ℕ) :
    (repeatEach x block)[i]? = x[i / block]? := by
  obtain ⟨xs⟩ := x
  simp only [repeatEach, List.getElem?_toArray]
  -- a place lies in the copies of the first element, or a block earlier among those of the rest
  induction xs generalizing i with
  | nil => simp
  | cons a rest ih =>
    rw [List.flatMap_cons, List.getElem?_append]
    simp only [List.length_replicate]
    split
    · have first : i / block = 0 := Nat.div_eq_of_lt ‹_›
      simp [first, ‹i < block›]
    · have later : i / block = (i - block) / block + 1 := by
        rw [← Nat.add_div_right _ some, Nat.sub_add_cancel (by omega)]
      rw [ih, later, List.getElem?_cons_succ]

theorem getElem_repeatEach {x : Array α} {block i : ℕ} (some : 0 < block) (there : i / block < x.size)
    (inside : i < (repeatEach x block).size) : (repeatEach x block)[i] = x[i / block] := by
  have same := getElem?_repeatEach x some i
  rwa [Array.getElem?_eq_getElem inside, Array.getElem?_eq_getElem there, Option.some_inj] at same

variable [Scalar α]

def ramp (first last : α) (count : ℕ) : Array α := Array.ofFn fun i : Fin count => Signal.rampAt first last count i

@[simp]
theorem size_ramp (first last : α) (count : ℕ) : (ramp first last count).size = count := Array.size_ofFn

theorem getElem?_ramp (first last : α) (count i : ℕ) :
    (ramp first last count)[i]? = if i < count then some (Signal.rampAt first last count i) else none := by
  simp [ramp, Array.getElem?_ofFn]

def addInto (buffer piece : Array α) (start stop : ℕ) : Except Fault (Array α) := do
  let sum ← zip (· + ·) (buffer.extract start stop) piece
  return buffer.extract 0 start ++ sum ++ buffer.extract stop

def scaleLast (x factors : Array α) (count : ℕ) : Except Fault (Array α) := do
  let scaled ← zip (· * ·) (x.extract (x.size - count)) factors
  return x.extract 0 (x.size - count) ++ scaled

end operations

end Whole

namespace Signal

section overlay

variable {α : Type} [Scalar α]

@[simp]
theorem size_addAt (buffer : Array α) (offset : ℕ) (sample : ℕ → α) (count : ℕ) :
    (addAt buffer offset sample count).size = buffer.size := by
  unfold addAt
  induction count with
  | zero => rfl
  | succ count ih => rw [Nat.fold_succ, Array.size_modify, ih]

theorem getElem_addAt {buffer : Array α} {offset : ℕ} {sample : ℕ → α} {count i : ℕ} (here : i < buffer.size)
    (inside : i < (addAt buffer offset sample count).size) : (addAt buffer offset sample count)[i] =
      if offset ≤ i ∧ i < offset + count then buffer[i] + sample (i - offset) else buffer[i] := by
  -- each sample is added at a place of its own, which those before have left alone
  induction count with
  | zero =>
    rw [if_neg (by omega)]
    rfl
  | succ count ih =>
    have step : addAt buffer offset sample (count + 1) =
        (addAt buffer offset sample count).modify (offset + count) (· + sample count) := Nat.fold_succ ..
    have before : i < (addAt buffer offset sample count).size := by rwa [size_addAt]
    simp only [step, Array.getElem_modify, ih before]
    by_cases last : offset + count = i
    · subst last
      simp
    · have same : (offset ≤ i ∧ i < offset + (count + 1)) = (offset ≤ i ∧ i < offset + count) := by
        rw [eq_iff_iff]
        omega
      simp only [if_neg last, same]

end overlay

end Signal

namespace Whole

variable {α : Type} [Scalar α]

/-- Adding a piece to a part of its length is adding its samples one after the other. -/
theorem addInto_ok {buffer piece : Array α} {count start stop : ℕ} {sample : ℕ → α} (long : piece.size = count)
    (fits : stop = start + count) (there : stop ≤ buffer.size)
    (each : ∀ i (inside : i < piece.size), piece[i] = sample i) :
    addInto buffer piece start stop = .ok (Signal.addAt buffer start sample count) := by
  subst long
  have same : (buffer.extract start stop).size = piece.size := by
    rw [Array.size_extract]
    omega
  unfold addInto
  rw [zip_ok same]
  refine congrArg Except.ok (Array.ext ?_ fun i inside below => ?_)
  · simp only [Array.size_append, Array.size_extract, Array.size_zipWith, Signal.size_addAt]
    omega
  · rw [Signal.size_addAt] at below
    have low : min start buffer.size = start := by omega
    have high : min stop buffer.size = stop := by omega
    simp only [Signal.getElem_addAt below, Array.getElem_append, Array.size_append, Array.size_extract,
      Array.size_zipWith, Array.getElem_zipWith, Array.getElem_extract, low, high, each]
    split_ifs <;> first | omega | (congr 1; omega) | (congr 2; omega)

theorem addInto_all {buffer piece : Array α} (same : buffer.size = piece.size) :
    addInto buffer piece 0 piece.size = .ok (Array.zipWith (· + ·) buffer piece) := by
  simp [addInto, ← same, zip_ok same, bind, Except.bind, pure, Except.pure]

theorem scaleLast_ok {x factors : Array α} {count : ℕ} (fits : factors.size = count) (there : count ≤ x.size) :
    ∃ y, scaleLast x factors count = .ok y ∧ y.size = x.size ∧ ∀ i (inside : i < y.size) (here : i < x.size),
      y[i] = if i < x.size - count then x[i] else x[i] * factors.getD (i - (x.size - count)) 0 := by
  have same : (x.extract (x.size - count)).size = factors.size := by
    rw [Array.size_extract]
    omega
  unfold scaleLast
  rw [zip_ok same]
  refine ⟨_, rfl, ?_, fun i inside here => ?_⟩
  · simp only [Array.size_append, Array.size_extract, Array.size_zipWith]
    omega
  · have low : min (x.size - count) x.size = x.size - count := by omega
    simp only [Array.getElem_append, Array.size_extract, Array.getElem_zipWith, Array.getElem_extract, low,
      Nat.sub_zero, Nat.zero_add]
    split
    · rfl
    · have last : i - (x.size - count) < factors.size := by omega
      have place : x.size - count + (i - (x.size - count)) = i := by omega
      simp only [Array.getD, last, dif_pos, place]
      rfl

variable {β γ : Type} [Exact.Venue]

/-- A computation over the real numbers that gives what is asked of it, unless a signal has
more samples than can be addressed. -/
def Ends (P : β → Prop) (x : Except Fault β) : Prop :=
  (∃ b, x = .ok b ∧ P b) ∨
    ∃ f, x = .error f ∧ (f = .lengthLimit ∨ f = .paddingLimit) ∧ ∃ bytes, Exact.Venue.addressable bytes = false

/-- Two computations of the same, which gives what is asked of it. -/
structure Agrees (P : β → Prop) (x y : Except Fault β) : Prop where
  same : x = y
  ends : Ends P y

namespace Agrees

variable {P : β → Prop} {Q : γ → Prop}

theorem of_ok {x : Except Fault β} {b : β} (given : x = .ok b) (holds : P b) : Agrees P x (.ok b) :=
  ⟨given, .inl ⟨b, rfl, holds⟩⟩

theorem pure {b : β} (holds : P b) : Agrees P (.ok b) (.ok b) := of_ok rfl holds

theorem of_ends {x : Except Fault β} (ends : Ends P x) : Agrees P x x := ⟨rfl, ends⟩

theorem mono {x y : Except Fault β} {R : β → Prop} (agrees : Agrees P x y) (weaker : ∀ b, P b → R b) : Agrees R x y :=
  ⟨agrees.same, agrees.ends.imp (fun ⟨b, given, holds⟩ => ⟨b, given, weaker b holds⟩) id⟩

/-- What is given is what was computed. -/
theorem told {x y : Except Fault β} (agrees : Agrees P x y) : Agrees (fun b => y = .ok b ∧ P b) x y :=
  ⟨agrees.same, agrees.ends.imp (fun ⟨b, given, holds⟩ => ⟨b, given, given, holds⟩) id⟩

/-- What comes after needs to agree on what is given only. -/
theorem bind {x y : Except Fault β} {f g : β → Except Fault γ} (first : Agrees P x y)
    (rest : ∀ b, P b → Agrees Q (f b) (g b)) : Agrees Q (x >>= f) (y >>= g) := by
  obtain ⟨rfl, ⟨b, rfl, holds⟩ | ⟨f, rfl, limited⟩⟩ := first
  · exact rest b holds
  · exact ⟨rfl, .inr ⟨f, rfl, limited⟩⟩

theorem bind_ok {x : Except Fault β} {b : β} (given : x = .ok b) {f : β → Except Fault γ} {y : Except Fault γ}
    (rest : Agrees Q (f b) y) : Agrees Q (x >>= f) y := by
  rw [given]
  exact rest

theorem ite {c : Prop} [Decidable c] {x y v w : Except Fault β} (yes : c → Agrees P x v) (no : ¬ c → Agrees P y w) :
    Agrees P (if c then x else y) (if c then v else w) := by
  split
  · exact yes ‹_›
  · exact no ‹_›

theorem foldlM {ι : Type} {f g : β → ι → Except Fault β} {xs : List ι}
    (step : ∀ b, P b → ∀ x ∈ xs, Agrees P (f b x) (g b x)) {b : β} (start : P b) :
    Agrees P (xs.foldlM f b) (xs.foldlM g b) := by
  induction xs generalizing b with
  | nil => exact pure start
  | cons x rest ih =>
    rw [List.foldlM_cons, List.foldlM_cons]
    refine (step b start x (by simp)).bind fun c held => ?_
    exact ih (fun d kept y member => step d kept y (by simp [member])) held

end Agrees

end Whole

end Partita
