import Assay.Validation.Run

/-!
# Results of runs

Taking the result of a run is a homomorphism into options: the result of a sequence of runs is the
result of the last one, provided that each of them has one (`result?_bind`). So a statement about
what a validation accepts needs neither events nor faults. The fault of a sequence is that of the
first run that has one, all before it having results (`fault?_bind`). One run refines another when
it has no result that the other lacks (`Run.Refines`), and a sequence refines another when each part
does.
-/
namespace Assay.Run

variable {α β : Type}

/-- A run that only accepts has its result. -/
@[simp] theorem result?_pure (result : α) : (pure result : Run α).result? = some result := rfl

/-- Ending with a fault gives no result. -/
@[simp] theorem result?_reject (fault : Fault) : (reject fault : Run α).result? = none := rfl

/-- Ending for want of depth gives no result. -/
@[simp] theorem result?_unfinished : (unfinished : Run α).result? = none := rfl

/-- Noting an event never fails. -/
@[simp] theorem result?_note (event : Event) : (note event).result? = some () := rfl

/-- The result of one run after another is that of the second on the result of the first. -/
@[simp] theorem result?_bind (run : Run α) (next : α → Run β) :
    (run >>= next).result? = run.result?.bind fun result => (next result).result? := by
  obtain ⟨events, verdict⟩ := run
  cases verdict <;> rfl

/-- A result or a fault in its place gives a result exactly when it is one. -/
@[simp] theorem result?_ofFault (outcome : Except Fault α) :
    (ofFault outcome).result? = outcome.toOption := by
  cases outcome <;> rfl

/-- A result or a misuse in its place gives a result exactly when it is one. -/
theorem result?_ofMisuse_eq_some {outcome : Except Misuse α} {result : α} :
    (ofMisuse outcome).result? = some result ↔ outcome = .ok result := by
  cases outcome <;> simp [ofMisuse, accept, result?]

/-- An attempt ends well exactly when the run attempted has a result. -/
theorem result?_attempt_ok {run : Run α} {result : α} :
    run.attempt.result? = some (.ok result) ↔ run.result? = some result := by
  obtain ⟨events, verdict⟩ := run
  cases verdict <;> simp [attempt, result?]

/-! ## Faults -/

/-- The fault of a run, if it ends with one. -/
def fault? (run : Run α) : Option Fault :=
  match run.verdict with
  | .rejected fault => some fault
  | _ => none

/-- A run that only accepts has no fault. -/
@[simp] theorem fault?_pure (result : α) : (pure result : Run α).fault? = none := rfl

/-- Ending with a fault gives that fault. -/
@[simp] theorem fault?_reject (fault : Fault) : (reject fault : Run α).fault? = some fault := rfl

/-- Ending for want of depth gives no fault. -/
@[simp] theorem fault?_unfinished : (unfinished : Run α).fault? = none := rfl

/-- Noting an event gives no fault. -/
@[simp] theorem fault?_note (event : Event) : (note event).fault? = none := rfl

/-- A misuse is no fault. -/
@[simp] theorem fault?_ofMisuse (outcome : Except Misuse α) : (ofMisuse outcome).fault? = none := by
  cases outcome <;> rfl

/-- An attempt has no fault. -/
@[simp] theorem fault?_attempt (run : Run α) : run.attempt.fault? = none := by
  obtain ⟨events, verdict⟩ := run
  cases verdict <;> rfl

/-- A run with a result has no fault. -/
theorem fault?_of_result {run : Run α} {result : α} (reached : run.result? = some result) :
    run.fault? = none := by
  obtain ⟨events, verdict⟩ := run
  cases verdict with
  | rejected fault => cases reached
  | _ => rfl

/-- An attempt ends with a fault exactly when the run attempted has it. -/
theorem result?_attempt_error {run : Run α} {fault : Fault} :
    run.attempt.result? = some (.error fault) ↔ run.fault? = some fault := by
  obtain ⟨events, verdict⟩ := run
  cases verdict <;> simp [attempt, result?, fault?]

/-- One run after another has the fault of the first, or that of the second on the result of the
first. -/
theorem fault?_bind {run : Run α} {next : α → Run β} {fault : Fault} :
    (run >>= next).fault? = some fault ↔
      run.fault? = some fault ∨ ∃ result, run.result? = some result ∧
        (next result).fault? = some fault := by
  obtain ⟨events, verdict⟩ := run
  cases verdict with
  | accepted result =>
    change (next result).fault? = some fault ↔ _
    simp [result?, fault?]
  | rejected held =>
    change some held = some fault ↔ _
    simp [result?, fault?]
  | misused misuse =>
    change none = some fault ↔ _
    simp [result?, fault?]
  | unfinished =>
    change none = some fault ↔ _
    simp [result?, fault?]

/-- A last change of the result of a run is one of its result. -/
theorem result?_bind_pure (run : Run α) (change : α → β) :
    (run >>= fun result => pure (change result)).result? = run.result?.map change := by
  obtain ⟨events, verdict⟩ := run
  cases verdict <;> rfl

/-- A last change of the result of a run leaves its fault alone. -/
theorem fault?_bind_pure (run : Run α) (change : α → β) :
    (run >>= fun result => pure (change result)).fault? = run.fault? := by
  obtain ⟨events, verdict⟩ := run
  cases verdict <;> rfl

/-- Changing the fault leaves the result alone. -/
@[simp] theorem result?_mapFault (change : Fault → Fault) (run : Run α) :
    (run.mapFault change).result? = run.result? := by
  obtain ⟨events, verdict⟩ := run
  cases verdict <;> rfl

/-- Changing the fault of a run gives the changed fault. -/
@[simp] theorem fault?_mapFault (change : Fault → Fault) (run : Run α) :
    (run.mapFault change).fault? = run.fault?.map change := by
  obtain ⟨events, verdict⟩ := run
  cases verdict <;> rfl

/-- A last change of the result and a change of the fault depend on the verdict only. -/
theorem verdict_mapFault_bind_pure (change : Fault → Fault) (finish : α → β) {first second : Run α}
    (same : first.verdict = second.verdict) :
    (mapFault change (first >>= fun result => pure (finish result))).verdict =
      (mapFault change (second >>= fun result => pure (finish result))).verdict := by
  obtain ⟨events, verdict⟩ := first
  obtain ⟨others, ending⟩ := second
  obtain rfl : verdict = ending := same
  cases verdict <;> rfl

/-- The result of a run is decided by its verdict. -/
theorem result?_congr {first second : Run α} (same : first.verdict = second.verdict) :
    first.result? = second.result? := by
  unfold result?
  rw [same]

/-- A sequence ends as another one when their first runs do, and so does what comes after a
result. -/
theorem verdict_bind {first second : Run α} {next later : α → Run β}
    (head : first.verdict = second.verdict)
    (tail : ∀ result, first.result? = some result → (next result).verdict = (later result).verdict) :
    (first >>= next).verdict = (second >>= later).verdict := by
  obtain ⟨events, verdict⟩ := first
  obtain ⟨others, ending⟩ := second
  obtain rfl : verdict = ending := head
  cases verdict with
  | accepted result => exact tail result rfl
  | _ => rfl

/-- What comes after a result ends the sequence. -/
theorem verdict_pure_bind (result : α) (next : α → Run β) :
    (pure result >>= next).verdict = (next result).verdict := rfl

/-- What comes after a run that is not finished is not reached. -/
theorem verdict_bind_unfinished {run : Run α} {next : α → Run β}
    (stuck : run.verdict = .unfinished) : (run >>= next).verdict = .unfinished := by
  obtain ⟨events, verdict⟩ := run
  cases stuck
  rfl

/-- What comes after a run that ends with a fault is not reached. -/
theorem verdict_bind_rejected {run : Run α} {fault : Fault} (refused : run.verdict = .rejected fault)
    (next : α → Run β) : (run >>= next).verdict = .rejected fault := by
  obtain ⟨events, verdict⟩ := run
  cases refused
  rfl

/-- What comes after a run that has a result ends the sequence. -/
theorem verdict_bind_of_result {run : Run α} {result : α} (reached : run.result? = some result)
    (next : α → Run β) : (run >>= next).verdict = (next result).verdict := by
  obtain ⟨events, verdict⟩ := run
  cases verdict with
  | accepted held =>
    obtain rfl := Option.some.inj reached
    rfl
  | _ => cases reached

/-- What comes after a run that has a result adds its events to those of the run. -/
theorem events_bind_of_result {run : Run α} {result : α} (reached : run.result? = some result)
    (next : α → Run β) : (run >>= next).events = run.events ++ (next result).events := by
  obtain ⟨events, verdict⟩ := run
  cases verdict with
  | accepted held =>
    obtain rfl := Option.some.inj reached
    rfl
  | _ => cases reached

/-- What comes after a run that has no result is not reached. -/
theorem verdict_bind_of_none {run : Run α} (stopped : run.result? = none) (next : α → Run α) :
    (run >>= next).verdict = run.verdict := by
  obtain ⟨events, verdict⟩ := run
  cases verdict with
  | accepted held => cases stopped
  | _ => rfl

/-- What comes after an attempt at a run without a fault comes after its result. -/
theorem verdict_attempt_bind {run : Run α} (unfailing : run.fault? = none)
    (next : Except Fault α → Run β) :
    (run.attempt >>= next).verdict = (run >>= fun result => next (.ok result)).verdict := by
  obtain ⟨events, verdict⟩ := run
  cases verdict with
  | rejected fault => cases unfailing
  | _ => rfl

/-- What comes after a sequence comes after the second of its runs. -/
theorem verdict_bind_assoc {γ : Type} (run : Run α) (next : α → Run β) (later : β → Run γ) :
    (run >>= next >>= later).verdict = (run >>= fun result => next result >>= later).verdict := by
  obtain ⟨events, verdict⟩ := run
  cases verdict with
  | accepted result =>
    change (Run.andThen ⟨events ++ (next result).events, (next result).verdict⟩ later).verdict =
      (Run.andThen (next result) later).verdict
    unfold Run.andThen
    cases (next result).verdict <;> rfl
  | _ => rfl

/-- The run ends with a result or a fault. -/
def Completes (run : Run α) : Prop :=
  (∃ result, run.result? = some result) ∨ ∃ fault, run.fault? = some fault

namespace Completes

/-- A sequence that completes begins with a run that has a fault, or with one after whose result the
rest completes. -/
theorem of_bind {run : Run α} {next : α → Run β} (ended : (run >>= next).Completes) :
    (∃ fault, run.fault? = some fault) ∨
      ∃ result, run.result? = some result ∧ (next result).Completes := by
  rcases ended with ⟨result, accepted⟩ | ⟨fault, rejected⟩
  · rw [result?_bind, Option.bind_eq_some_iff] at accepted
    obtain ⟨middle, reached, ended⟩ := accepted
    exact .inr ⟨middle, reached, .inl ⟨result, ended⟩⟩
  · rcases fault?_bind.mp rejected with early | ⟨middle, reached, late⟩
    · exact .inl ⟨fault, early⟩
    · exact .inr ⟨middle, reached, .inr ⟨fault, late⟩⟩

end Completes

/-- The run ends with a result, or with a fault of the given ones, unless it may halt otherwise. -/
def EndsWithin (faults : Fault → Prop) (halts : Prop) (run : Run α) : Prop :=
  match run.verdict with
  | .accepted _ => True
  | .rejected fault => faults fault
  | .misused _ | .unfinished => halts

namespace EndsWithin

variable {faults : Fault → Prop} {halts : Prop}

/-- A run that only accepts has a result. -/
theorem pure (result : α) : EndsWithin faults halts (pure result : Run α) := trivial

/-- Noting an event has a result. -/
theorem note (event : Event) : EndsWithin faults halts (note event) := trivial

/-- A result, or the misuse in its place where runs may halt. -/
theorem ofMisuse {outcome : Except Misuse α} (sound : halts ∨ ∃ result, outcome = .ok result) :
    EndsWithin faults halts (ofMisuse outcome) := by
  cases outcome with
  | ok result => trivial
  | error misuse =>
    rcases sound with halted | ⟨_, other⟩
    · exact halted
    · cases other

/-- A sequence ends within bounds when each of its runs does. -/
theorem bind {run : Run α} {next : α → Run β} (head : run.EndsWithin faults halts)
    (tail : ∀ result, run.result? = some result → (next result).EndsWithin faults halts) :
    (run >>= next).EndsWithin faults halts := by
  obtain ⟨events, verdict⟩ := run
  cases verdict with
  | accepted result => exact tail result rfl
  | _ => exact head

/-- What comes after an attempt ends within bounds when it does so after every result, and after
every fault of the given ones. -/
theorem attempt {run : Run α} {next : Except Fault α → Run β}
    (head : run.EndsWithin faults halts)
    (accepted : ∀ result, (next (.ok result)).EndsWithin faults halts)
    (rejected : ∀ fault, faults fault → (next (.error fault)).EndsWithin faults halts) :
    (run.attempt >>= next).EndsWithin faults halts := by
  obtain ⟨events, verdict⟩ := run
  cases verdict with
  | accepted result => exact accepted result
  | rejected fault => exact rejected fault head
  | _ => exact head

/-- The fault of a run is one of the given ones. -/
theorem fault {run : Run α} (ends : run.EndsWithin faults halts) {fault : Fault}
    (rejected : run.fault? = some fault) : faults fault := by
  obtain ⟨events, verdict⟩ := run
  cases verdict with
  | rejected held =>
    obtain rfl := Option.some.inj rejected
    exact ends
  | _ => cases rejected

/-- A run ends within all bounds that its fault is in, where runs may halt. -/
theorem of_fault {run : Run α} (each : ∀ fault, run.fault? = some fault → faults fault) :
    run.EndsWithin faults True := by
  obtain ⟨events, verdict⟩ := run
  cases verdict with
  | rejected fault => exact each fault rfl
  | _ => trivial

/-- A run ends within wider bounds. -/
theorem mono {wider : Fault → Prop} {run : Run α} (ends : run.EndsWithin faults halts)
    (widen : ∀ fault, faults fault → wider fault) : run.EndsWithin wider halts := by
  obtain ⟨events, verdict⟩ := run
  cases verdict with
  | rejected fault => exact widen fault ends
  | _ => exact ends

/-- A run that may neither fail nor halt has a result. -/
theorem result {run : Run α} (ends : run.EndsWithin (fun _ => False) False) :
    ∃ result, run.result? = some result := by
  obtain ⟨events, verdict⟩ := run
  cases verdict with
  | accepted result => exact ⟨result, rfl⟩
  | _ => cases ends

/-- A run that may not halt completes. -/
theorem completes {run : Run α} (ends : run.EndsWithin faults False) : run.Completes := by
  obtain ⟨events, verdict⟩ := run
  cases verdict with
  | accepted result => exact .inl ⟨result, rfl⟩
  | rejected fault => exact .inr ⟨fault, rfl⟩
  | _ => cases ends

end EndsWithin

/-- Every result of the first run is one of the second. -/
def Refines (first second : Run α) : Prop :=
  ∀ result, first.result? = some result → second.result? = some result

namespace Refines

/-- A run refines itself. -/
theorem refl (run : Run α) : Refines run run := fun _ accepted => accepted

/-- A run without a result refines every other. -/
theorem of_none {first second : Run α} (fails : first.result? = none) : Refines first second := by
  intro result accepted
  rw [fails] at accepted
  contradiction

/-- Runs that refine each other have the same result, or none of them has one. -/
theorem antisymm {first second : Run α} (forth : Refines first second)
    (back : Refines second first) : first.result? = second.result? := by
  apply Option.ext
  intro result
  exact ⟨forth result, back result⟩

/-- One run after another refines such a sequence when both parts do. -/
theorem bind {first second : Run α} {next later : α → Run β} (head : Refines first second)
    (tail : ∀ result, Refines (next result) (later result)) :
    Refines (first >>= next) (second >>= later) := by
  intro result accepted
  rw [result?_bind, Option.bind_eq_some_iff] at accepted
  obtain ⟨middle, reached, ended⟩ := accepted
  rw [result?_bind, Option.bind_eq_some_iff]
  exact ⟨middle, head middle reached, tail middle result ended⟩

end Refines

end Assay.Run
