import Assay.Fault.Reason

/-!
# Faults

A fault is a reason at a place. It may be labelled with the schema and the file that the value was
checked against, and the fault of a union has the faults of the members it tried as its causes.
-/
namespace Assay

/-- The labels of a fault. -/
structure Labels where
  /-- The name of the schema. -/
  schema : Option String
  /-- The file that the value comes from. -/
  file : Option String
deriving DecidableEq

namespace Labels

/-- No label at all. -/
def empty : Labels := ⟨none, none⟩

/-- Whether there is no label. -/
def isEmpty (labels : Labels) : Bool := labels.schema.isNone && labels.file.isNone

end Labels

/-- What is wrong, and where. -/
structure Fault where
  /-- The place of the value. -/
  path : Path
  /-- What is wrong with it. -/
  reason : Reason
  /-- Where the schema and the value come from. -/
  labels : Labels
  /-- The faults of the candidates, if the fault is that of a union. -/
  causes : List Fault

namespace Fault

/-- A fault without labels and causes. -/
def located (path : Path) (reason : Reason) : Fault := ⟨path, reason, .empty, []⟩

/-- A fault with causes and without labels. -/
def aggregate (path : Path) (reason : Reason) (causes : List Fault) : Fault :=
  ⟨path, reason, .empty, causes⟩

/-- Label a fault; labels that it has already are kept. -/
def withLabels (fault : Fault) (labels : Labels) : Fault :=
  if fault.labels.isEmpty then { fault with labels := labels } else fault

/-- The reason in words, after the place unless that is the root. -/
def message (fault : Fault) : String :=
  if fault.path.isRoot then fault.reason.message
  else "Invalid field \"" ++ fault.path.toText ++ "\". " ++ fault.reason.message

/-- The message between its labels. -/
def toText (fault : Fault) : String :=
  let schema := match fault.labels.schema with
    | some name => name ++ ": "
    | none => ""
  let file := match fault.labels.file with
    | some name => " (in " ++ name ++ ")"
    | none => ""
  schema ++ fault.message ++ file

/-- A fault at a place unless a condition holds. -/
def ensure (condition : Bool) (path : Path) (reason : Reason) : Except Fault Unit :=
  if condition then .ok () else .error (located path reason)

end Fault

end Assay
