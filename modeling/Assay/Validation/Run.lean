import Assay.Fault.Basic
import Assay.Misuse

/-!
# Runs

A run is what a validation did: the events on the way, in order, and the verdict. The verdict is a
result, a fault, a misuse that came to light because a deferred schema was built on the way, or that
the depth allowed did not suffice.
-/
namespace Assay

/-- Something worth a note on the way. -/
inductive Event where
  /-- Defined input was met at a place that is deprecated. -/
  | deprecated (path : Path) (message : String)
  /-- A member of a union refused the value. -/
  | rejected (path : Path) (candidate : String) (reason : Reason)

namespace Event

/-- The place that an event is about. -/
def path : Event → Path
  | deprecated path _ => path
  | rejected path _ _ => path

/-- An event in words. -/
def message : Event → String
  | deprecated path message => "Field \"" ++ path.toText ++ "\" is deprecated. " ++ message
  | rejected _ _ reason => "union candidate rejected: " ++ reason.message

end Event

/-- How a validation ended. -/
inductive Verdict (α : Type) where
  /-- With a result. -/
  | accepted (result : α)
  /-- With a fault of the value. -/
  | rejected (fault : Fault)
  /-- With a mistake in a schema. -/
  | misused (misuse : Misuse)
  /-- The depth allowed did not suffice. -/
  | unfinished

/-- The events of a validation and how it ended. -/
structure Run (α : Type) where
  /-- What happened on the way, in order. -/
  events : List Event
  /-- How it ended. -/
  verdict : Verdict α

namespace Run

variable {α β : Type}

/-- End with a result. -/
def accept (result : α) : Run α := ⟨[], .accepted result⟩

/-- End with a fault. -/
def reject (fault : Fault) : Run α := ⟨[], .rejected fault⟩

/-- End for want of depth. -/
def unfinished : Run α := ⟨[], .unfinished⟩

/-- Go on with a result, if there is one. -/
def andThen (run : Run α) (next : α → Run β) : Run β :=
  match run.verdict with
  | .accepted result =>
    let later := next result
    ⟨run.events ++ later.events, later.verdict⟩
  | .rejected fault => ⟨run.events, .rejected fault⟩
  | .misused misuse => ⟨run.events, .misused misuse⟩
  | .unfinished => ⟨run.events, .unfinished⟩

instance : Monad Run where
  pure := accept
  bind := andThen

/-- Note an event. -/
def note (event : Event) : Run Unit := ⟨[event], .accepted ()⟩

/-- A result or the fault in its place. -/
def ofFault : Except Fault α → Run α
  | .ok result => accept result
  | .error fault => reject fault

/-- A result or the misuse in its place. -/
def ofMisuse : Except Misuse α → Run α
  | .ok result => accept result
  | .error misuse => ⟨[], .misused misuse⟩

/-- Take a fault as a result. -/
def attempt (run : Run α) : Run (Except Fault α) :=
  match run.verdict with
  | .accepted result => ⟨run.events, .accepted (.ok result)⟩
  | .rejected fault => ⟨run.events, .accepted (.error fault)⟩
  | .misused misuse => ⟨run.events, .misused misuse⟩
  | .unfinished => ⟨run.events, .unfinished⟩

/-- Change the fault of a run, if it ends with one. -/
def mapFault (change : Fault → Fault) (run : Run α) : Run α :=
  match run.verdict with
  | .rejected fault => ⟨run.events, .rejected (change fault)⟩
  | _ => run

/-- The result of a run, if it ends with one. -/
def result? (run : Run α) : Option α :=
  match run.verdict with
  | .accepted result => some result
  | _ => none

end Run

end Assay
