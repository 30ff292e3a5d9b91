import Partita.Proofs.Stage.Following

/-! Performances leave the playback devices alone. Whatever a stage does, with whichever of
its performances, no device is started or stopped by it. -/
namespace Partita

open Score

variable {α : Type}

/-- The call that an entry of the journal is, if it starts or stops a playback device. -/
def Event.deviceCall? : Event α → Option (DeviceCall α)
  | .device (.start audio rate) => some (.start audio rate)
  | .device .stop => some .stop
  | _ => none

def deviceCalls (journal : Array (Event α)) : List (DeviceCall α) := journal.toList.filterMap Event.deviceCall?

theorem deviceCalls_append (j k : Array (Event α)) : deviceCalls (j ++ k) = deviceCalls j ++ deviceCalls k := by
  simp [deviceCalls]

theorem deviceCalls_push (j : Array (Event α)) (e : Event α) :
    deviceCalls (j.push e) = deviceCalls j ++ e.deviceCall?.toList := by
  cases call : e.deviceCall? <;> simp [deviceCalls, call]

theorem Event.deviceCall?_of_own {e : Event α} (own : e.isForeign = false) : e.deviceCall? = none := by
  cases e with
  | device call => cases own
  | _ => rfl

theorem Grows.deviceCalls {sounds : List (Event α)} {j k : Array (Event α)} (grows : Grows sounds j k) :
    deviceCalls k = deviceCalls j := by
  obtain ⟨entries, grown, -, own⟩ := grows
  rw [Partita.deviceCalls, Partita.deviceCalls, grown, List.filterMap_append,
    List.filterMap_eq_nil_iff.mpr fun e member => Event.deviceCall?_of_own (own e member), List.append_nil]

namespace Performance

/-- Two states of a performance between which no device was started or stopped. -/
structure Unplayed (p q : Performance α) : Prop where
  calls : deviceCalls q.journal = deviceCalls p.journal

namespace Unplayed

variable {p q r : Performance α}

theorem refl (p : Performance α) : p.Unplayed p := ⟨rfl⟩

theorem trans (first : p.Unplayed q) (second : q.Unplayed r) : p.Unplayed r :=
  ⟨second.calls.trans first.calls⟩

instance : IsPreorder (Performance α) Unplayed where
  refl := .refl
  trans _ _ _ first second := first.trans second

theorem of_journal (same : q.journal = p.journal) : p.Unplayed q := ⟨congrArg deviceCalls same⟩

theorem of_aside {m : Performance α} {sounds : List (Event α)} (still : m.Aside sounds q)
    (same : m.journal = p.journal) : p.Unplayed q :=
  ⟨by rw [still.journal.deviceCalls, same]⟩

theorem of_addRuns (p : Performance α) (position : α) (blocks : List (String × List String)) :
    p.Unplayed (p.addRuns position blocks) := by
  obtain ⟨changes, outbox, added, -⟩ := addRuns_eq position p blocks
  exact added ▸ .of_journal rfl

variable [Scalar α]

theorem of_closed (p : Performance α) (id : Nat) (run : Run α) (outcome : Outcome α) :
    p.Unplayed (p.closed id run outcome) := by
  refine ⟨?_⟩
  simp only [closed, onRun, counted]
  cases p.session.strayFinish? run.generation with
  | none => rfl
  | some r => simp [deviceCalls_push, Event.deviceCall?]

theorem of_entered (p : Performance α) (id : Nat) (outcome : Except Fault (Status α)) :
    p.Unplayed (p.entered id outcome) := by
  cases outcome with
  | ok status => exact .of_journal rfl
  | error f =>
    dsimp only [entered]
    cases p.runs[id]? with
    | none => exact .refl p
    | some run => exact of_closed p id run _

theorem of_settled {time deadline : α} {id : Nat} {outcome : Except Fault (Status α)}
    (settled : Settled time deadline id p outcome q) : p.Unplayed q := by
  unfold Settled at settled
  split at settled
  · exact of_aside settled.2 rfl
  · exact of_aside settled.2 rfl
  · split at settled
    · exact of_aside settled.2 rfl
    · exact of_aside settled.2 rfl

theorem of_done {time : α} {id : Nat} {run : Run α} {outcome : Except Fault (Status α)} {d : Deed α}
    (done : Done time id run p outcome q d) : p.Unplayed q := by
  cases d with
  | nothing => exact of_aside done.2 rfl
  | adjust => exact of_aside done.2 rfl
  | pause seconds beats => exact of_aside done.2 rfl
  | sound event =>
    obtain ⟨-, sounds, heard, -⟩ := done
    exact of_aside heard rfl
  | play names =>
    obtain ⟨started, -, added, -⟩ := done
    exact (of_addRuns p _ started).trans (of_aside added rfl)
  | openLoop passes => exact of_aside done.2 rfl
  | closeLoop => exact of_aside done.2 rfl
  | settle => exact of_settled done
  | tempo bpm => exact of_aside done.2 rfl

end Unplayed

section operations

variable [Scalar α] (p : Performance α)

theorem step_unplayed (time : α) (id : Nat) : p.Unplayed (exec (step time id) p) := by
  cases found : p.runs[id]? with
  | none =>
    change p.Unplayed (runFrom (step time id) p).2
    rw [step, runFrom_get_bind, found]
    exact .refl p
  | some run =>
    rw [exec_step found]
    split
    · exact .of_closed p id run _
    · split
      · exact .of_journal rfl
      · rename_i c _
        have done := dispatch_done time id run.advance c (p.onRun id Run.advance)
        exact Unplayed.trans ⟨(Unplayed.of_done done).calls⟩ (.of_entered _ id _)

theorem wake_unplayed (time : α) (id : Nat) (w : Wake) : p.Unplayed (exec (wake time id w) p) := by
  cases found : p.runs[id]? with
  | none =>
    change p.Unplayed (runFrom (wake time id w) p).2
    rw [wake, runFrom_get_bind, found]
    exact .refl p
  | some run =>
    have woken := wake_woken found time w
    generalize exec (wake time id w) p = q at woken ⊢
    cases woken with
    | vanishes created why => exact .of_journal rfl
    | closes begun why => exact .of_closed p id run _
    | ignores spent => exact .refl p
    | resumes clock position still => exact .of_aside still rfl
    | settles waits settled => exact .trans (.of_settled settled) (.of_entered _ id _)

/-- What comes from outside does not reach the devices either. -/
theorem unplayed_stable : Stable p.Unplayed where
  aside unplayed still := unplayed.trans (.of_aside still rfl)
  addRun _ _ _ unplayed _ := unplayed.trans (.of_journal rfl)
  opened _ unplayed := unplayed.trans (.of_journal rfl)
  stopped unplayed := unplayed.trans (.of_journal rfl)
  cleared unplayed := unplayed.trans (.of_journal rfl)

theorem forceStop_unplayed : p.Unplayed (runFrom forceStop p).2 :=
  p.unplayed_stable.forceStop (.refl p) (.inr (.of_journal rfl))

theorem stop_unplayed : p.Unplayed (runFrom stop p).2 :=
  .of_aside (stop_aside p) rfl

end operations

end Performance

namespace Stage

open Performance

variable {s : Stage α}

theorem serve_journal (s : Stage α) (part : Nat) (request : Request) :
    (s.serve part request).journal = s.journal := by
  cases request with
  | cancel run =>
    unfold serve
    dsimp only
    split <;> rfl
  | _ => rfl

theorem serveAll_journal (s : Stage α) (part : Nat) (requests : Array Request) :
    (requests.foldl (fun s r => s.serve part r) s).journal = s.journal := by
  rw [← Array.foldl_toList]
  induction requests.toList generalizing s with
  | nil => rfl
  | cons request rest ih => exact (ih _).trans (s.serve_journal part request)

theorem onPart_deviceCalls {β : Type} (s : Stage α) (part : Nat) {act : PerformM α β}
    (unplayed : ∀ p : Performance α, p.Unplayed (runFrom act p).2) :
    deviceCalls (s.onPart part act).2.journal = deviceCalls s.journal := by
  cases found : s.parts[part]? with
  | none =>
    unfold onPart
    rw [found]
  | some x =>
    have own := (unplayed (s.mounted x)).calls
    have bare : deviceCalls (s.mounted x).journal = [] := rfl
    rw [onPart_eq found, serveAll_journal, stored, deviceCalls_append, own, bare, List.append_nil]

variable [Scalar α]

theorem opening_unplayed (time : α) (replay : Bool) (p : Performance α) :
    p.Unplayed (runFrom (opening time replay) p).2 :=
  (opening_within (.of_related forceStop_unplayed)
    (.of_related fun p => .of_aside (normalizeVolumes_aside p).1 rfl) time
    (.of_related fun p => p.unplayed_stable.begin (.refl p) time) replay p).1

theorem conclude_unplayed (time : α) (generation : Nat) (outcome : Outcome α) (p : Performance α) :
    p.Unplayed (runFrom (conclude time generation outcome) p).2 :=
  (conclude_within (fun text => .of_related fun p =>
    .of_aside (log_aside (E := fun _ => True) .info text p).1 rfl) time generation outcome p).1

section calls

variable (s : Stage α) (task : Nat) (frames : List (Frame α)) (part : Nat)

theorem followRun_journal (run : Nat) : (s.followRun task frames part run).journal = s.journal := by
  unfold followRun
  split
  · rfl
  · split
    · rfl
    · split
      case h_6 =>
        split
        · rfl
        · unfold sleep
          split <;> rfl
      all_goals rfl

theorem deliverRun_deviceCalls (run : Nat) (r : Reply (Value α)) :
    deviceCalls (s.deliverRun task frames part run r).journal = deviceCalls s.journal := by
  unfold deliverRun
  dsimp only
  rw [followRun_journal]
  apply onPart_deviceCalls
  intro p
  split
  · split
    · exact p.step_unplayed _ run
    · exact p.wake_unplayed _ run _
  · exact p.wake_unplayed _ run _

theorem openMain_deviceCalls (replay : Bool) :
    deviceCalls (s.openMain task frames part replay).journal = deviceCalls s.journal := by
  have opened := s.onPart_deviceCalls part (opening_unplayed s.loop.time replay)
  rw [openMain_eq]
  split <;> rename_i ran <;> rw [ran] at opened
  · exact opened
  · exact opened
  · split <;> exact opened

theorem closeMain_deviceCalls (generation : Nat) (r : Reply (Value α)) :
    deviceCalls (s.closeMain task frames part generation r).journal = deviceCalls s.journal := by
  unfold closeMain
  split
  · have concluded := s.onPart_deviceCalls part (conclude_unplayed s.loop.time generation .cancelled)
    split <;> rename_i ran <;> rw [ran] at concluded <;> exact concluded
  · rfl

end calls

/-- A call inside which a performance is conducted enters its journal in a report; no other
call of a stage starts or stops a device. -/
theorem deliver_deviceCalls (s : Stage α) (task : Nat) (r : Reply (Value α))
    (unconducted : ∀ cues busy frames, s.loop.frames task ≠ .conductor cues busy :: frames) :
    deviceCalls (s.deliver task r).journal = deviceCalls s.journal := by
  unfold deliver
  cases calls : s.loop.frames task with
  | nil => rfl
  | cons frame frames =>
    cases frame with
    | run part run => exact s.deliverRun_deviceCalls task frames part run r
    | within inner waiter timer =>
      dsimp only
      unfold deliverWithin
      split <;> rfl
    | listen part epoch =>
      dsimp only
      unfold deliverListen
      split
      · rfl
      · dsimp only
        split <;> rfl
    | settle part baseline timeout deadline =>
      dsimp only
      unfold deliverSettle
      split
      · rfl
      · rfl
      · dsimp only
        split
        · rfl
        · split <;> rfl
    | open_ part replay =>
      cases r with
      | raised x => rfl
      | value v => exact s.openMain_deviceCalls task frames part replay
    | main part generation => exact s.closeMain_deviceCalls task frames part generation r
    | ticks count =>
      dsimp only
      split <;> rfl
    | joining cells =>
      dsimp only
      split <;> rfl
    | conductor cues busy => exact absurd calls (unconducted cues busy frames)
    | _ => rfl

end Stage

end Partita
