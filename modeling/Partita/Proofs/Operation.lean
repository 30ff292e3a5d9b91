import Mathlib.Order.Defs.Unbundled

/-! Operations on a state that may end in a fault and keep what they did before
it. `runFrom` executes one; the equations below execute its parts. An operation
stays within a relation when it never takes a state out of it, which is all that
later proofs need of operations that concern something else. -/
namespace Partita

variable {σ ε β γ : Type}

/-- What an operation returns from a state, and the state it leaves. -/
def runFrom (act : ExceptT ε (StateM σ) β) (s : σ) : Except ε β × σ := act.run.run s

@[simp] theorem runFrom_pure (b : β) (s : σ) :
    runFrom (pure b : ExceptT ε (StateM σ) β) s = (.ok b, s) := rfl

@[simp] theorem runFrom_throw (e : ε) (s : σ) :
    runFrom (throw e : ExceptT ε (StateM σ) β) s = (.error e, s) := rfl

@[simp] theorem runFrom_get (s : σ) :
    runFrom (get : ExceptT ε (StateM σ) σ) s = (.ok s, s) := rfl

@[simp] theorem runFrom_set (t s : σ) :
    runFrom (set t : ExceptT ε (StateM σ) PUnit) s = (.ok ⟨⟩, t) := rfl

@[simp] theorem runFrom_modify (f : σ → σ) (s : σ) :
    runFrom (modify f : ExceptT ε (StateM σ) PUnit) s = (.ok ⟨⟩, f s) := rfl

theorem runFrom_bind (act : ExceptT ε (StateM σ) β) (next : β → ExceptT ε (StateM σ) γ) (s : σ) :
    runFrom (act >>= next) s = match runFrom act s with
      | (.ok b, t) => runFrom (next b) t
      | (.error e, t) => (.error e, t) := by
  rcases ran : runFrom act s with ⟨result, t⟩
  simp only [runFrom] at ran
  simp only [runFrom, ExceptT.run_bind, StateT.run_bind, ran]
  cases result <;> rfl

theorem runFrom_bind_ok {act : ExceptT ε (StateM σ) β} {next : β → ExceptT ε (StateM σ) γ}
    {s t : σ} {b : β} (ran : runFrom act s = (.ok b, t)) :
    runFrom (act >>= next) s = runFrom (next b) t := by
  rw [runFrom_bind, ran]

theorem runFrom_bind_error {act : ExceptT ε (StateM σ) β} {next : β → ExceptT ε (StateM σ) γ}
    {s t : σ} {e : ε} (ran : runFrom act s = (.error e, t)) :
    runFrom (act >>= next) s = (.error e, t) := by
  rw [runFrom_bind, ran]

theorem runFrom_bind_eq_ok {act : ExceptT ε (StateM σ) β} {next : β → ExceptT ε (StateM σ) γ}
    {s u : σ} {c : γ} (ran : runFrom (act >>= next) s = (.ok c, u)) :
    ∃ b t, runFrom act s = (.ok b, t) ∧ runFrom (next b) t = (.ok c, u) := by
  rw [runFrom_bind] at ran
  rcases first : runFrom act s with ⟨result, t⟩
  rw [first] at ran
  cases result with
  | ok b => exact ⟨b, t, rfl, ran⟩
  | error e => simp at ran

@[simp] theorem runFrom_get_bind (next : σ → ExceptT ε (StateM σ) γ) (s : σ) :
    runFrom (get >>= next) s = runFrom (next s) s := rfl

@[simp] theorem runFrom_set_bind (t s : σ) (next : PUnit → ExceptT ε (StateM σ) γ) :
    runFrom (set t >>= next) s = runFrom (next ⟨⟩) t := rfl

@[simp] theorem runFrom_modify_bind (f : σ → σ) (next : PUnit → ExceptT ε (StateM σ) γ) (s : σ) :
    runFrom (modify f >>= next) s = runFrom (next ⟨⟩) (f s) := rfl

theorem runFrom_tryCatch (act : ExceptT ε (StateM σ) β) (handle : ε → ExceptT ε (StateM σ) β)
    (s : σ) :
    runFrom (tryCatch act handle) s = match runFrom act s with
      | (.ok b, t) => (.ok b, t)
      | (.error e, t) => runFrom (handle e) t := by
  rcases ran : runFrom act s with ⟨result, t⟩
  change StateT.run (ExceptT.tryCatch act handle).run s = _
  change StateT.run (show StateM σ (Except ε β) from act) s = (result, t) at ran
  simp only [ExceptT.tryCatch, ExceptT.run_mk, StateT.run_bind]
  rw [ran]
  cases result <;> rfl

/-- From a state, an operation ends in a related one, and any fault is of a kind. -/
def WithinAt (R : σ → σ → Prop) (E : ε → Prop) (act : ExceptT ε (StateM σ) β) (s : σ) : Prop :=
  R s (runFrom act s).2 ∧ ∀ e, (runFrom act s).1 = .error e → E e

/-- An operation that stays within a relation, with faults of a kind. -/
def Within (R : σ → σ → Prop) (E : ε → Prop) (act : ExceptT ε (StateM σ) β) : Prop :=
  ∀ s, WithinAt R E act s

namespace Within

variable {R : σ → σ → Prop} {E : ε → Prop}

theorem of_related {act : ExceptT ε (StateM σ) β} (related : ∀ s, R s (runFrom act s).2) :
    Within R (fun _ => True) act :=
  fun s => ⟨related s, fun _ _ => trivial⟩

theorem of_modify {f : σ → σ} (related : ∀ s, R s (f s)) :
    Within R E (modify f : ExceptT ε (StateM σ) PUnit) :=
  fun s => ⟨related s, fun _ raised => by simp at raised⟩

/-- What an operation reads of the state may decide what it does. -/
theorem of_get_bind {next : σ → ExceptT ε (StateM σ) γ}
    (rest : ∀ s, WithinAt R E (next s) s) : Within R E (get >>= next) := rest

theorem mono {E' : ε → Prop} {act : ExceptT ε (StateM σ) β} (kept : Within R E act)
    (wider : ∀ e, E e → E' e) : Within R E' act :=
  fun s => ⟨(kept s).1, fun e raised => wider e ((kept s).2 e raised)⟩

variable [IsPreorder σ R]

theorem set_bind_at {s t : σ} {next : PUnit → ExceptT ε (StateM σ) γ} (related : R s t)
    (rest : WithinAt R E (next ⟨⟩) t) : WithinAt R E (set t >>= next) s :=
  ⟨trans_of R related rest.1, rest.2⟩

theorem of_pure (b : β) : Within R E (pure b : ExceptT ε (StateM σ) β) :=
  fun s => ⟨refl_of R s, fun _ raised => by simp at raised⟩

theorem of_throw {e : ε} (kind : E e) : Within R E (throw e : ExceptT ε (StateM σ) β) :=
  fun s => ⟨refl_of R s, fun _ raised => by simp at raised; exact raised ▸ kind⟩

theorem bind_at {act : ExceptT ε (StateM σ) β} {next : β → ExceptT ε (StateM σ) γ} {s : σ}
    (first : WithinAt R E act s)
    (rest : ∀ b t, runFrom act s = (.ok b, t) → WithinAt R E (next b) t) :
    WithinAt R E (act >>= next) s := by
  obtain ⟨related, kind⟩ := first
  rw [WithinAt, runFrom_bind]
  rcases ran : runFrom act s with ⟨result, t⟩
  rw [ran] at related kind
  cases result with
  | ok b =>
    obtain ⟨related', kind'⟩ := rest b t ran
    exact ⟨trans_of R related related', kind'⟩
  | error e => exact ⟨related, fun _ raised => kind _ (by simpa using raised)⟩

theorem bind {act : ExceptT ε (StateM σ) β} {next : β → ExceptT ε (StateM σ) γ}
    (first : Within R E act) (rest : ∀ b, Within R E (next b)) : Within R E (act >>= next) :=
  fun s => bind_at (first s) fun b t _ => rest b t

theorem forIn {ι : Type} {xs : List ι} {init : γ}
    {body : ι → γ → ExceptT ε (StateM σ) (ForInStep γ)}
    (each : ∀ x c, Within R E (body x c)) : Within R E (forIn xs init body) := by
  induction xs generalizing init with
  | nil => exact of_pure init
  | cons x xs ih =>
    rw [List.forIn_cons]
    refine (each x init).bind fun next => ?_
    cases next with
    | done c => exact of_pure c
    | yield c => exact ih

end Within

/-- An operation that ends without a fault from every state of a kind, and leaves
a state of that kind. -/
def Completes (P : σ → Prop) (act : ExceptT ε (StateM σ) β) : Prop :=
  ∀ s, P s → ∃ b t, runFrom act s = (.ok b, t) ∧ P t

theorem Completes.bind {P : σ → Prop} {act : ExceptT ε (StateM σ) β}
    {next : β → ExceptT ε (StateM σ) γ} (first : Completes P act)
    (rest : ∀ b, Completes P (next b)) : Completes P (act >>= next) := by
  intro s holds
  obtain ⟨b, t, ran, holds⟩ := first s holds
  rw [runFrom_bind_ok ran]
  exact rest b t holds

def Yields (act : ExceptT ε (StateM σ) β) (b : β) : Prop := ∀ s, (runFrom act s).1 = .ok b

namespace Yields

theorem of_pure (b : β) : Yields (pure b : ExceptT ε (StateM σ) β) b := fun _ => rfl

theorem bind {act : ExceptT ε (StateM σ) β} {next : β → ExceptT ε (StateM σ) γ} {b : β} {c : γ}
    (first : Yields act b) (rest : Yields (next b) c) : Yields (act >>= next) c := by
  intro s
  have returned := first s
  rcases ran : runFrom act s with ⟨result, t⟩
  rw [ran] at returned
  obtain rfl : result = .ok b := returned
  rw [runFrom_bind_ok ran]
  exact rest t

theorem mapM {ι : Type} {f : ι → ExceptT ε (StateM σ) β} {g : ι → β} {xs : List ι}
    (each : ∀ x ∈ xs, Yields (f x) (g x)) : Yields (xs.mapM f) (xs.map g) := by
  induction xs with
  | nil => exact of_pure []
  | cons x rest ih =>
    obtain ⟨here, later⟩ := List.forall_mem_cons.mp each
    rw [List.mapM_cons]
    exact here.bind ((ih later).bind (of_pure _))

end Yields

end Partita
