import Assay.Entries
import Assay.Fault.Basic
import Assay.Json.Basic
import Assay.Mode
import Assay.Number.Decimal
import Assay.Text.Quoted

/-!
# Options of blueprints

The options are read from a JSON object, whose fields are taken in order of keys, or from an array that
gives them by position and may be cut short. An option that is left out has its usual value; one that
is not known is refused. The first thing that does not fit is reported: what was found and what was
expected.
-/
namespace Assay

/-- The options of a blueprint. -/
structure Options where
  /-- Whether fields that are not declared are kept. -/
  unknown : Bool
  /-- The name to label faults with. -/
  name : Option String
  /-- The file to label faults with. -/
  file : Option String
  /-- How much is checked. -/
  mode : Mode
deriving DecidableEq

/-- Why a document does not give options. -/
inductive OptionsError where
  /-- A document of one sort stands where another one is expected. -/
  | wrongType (found : String) (expected : String)
  /-- A document has the right sort and the wrong form. -/
  | wrongValue (found : String) (expected : String)
  /-- An option is not known. -/
  | unknownField (name : String)
  /-- A mode is not known. -/
  | unknownMode (name : String)
  /-- An array gives more options than there are. -/
  | tooMany (count : Nat)
deriving DecidableEq

namespace OptionsError

/-- A name between back quotes. -/
def marked (name : String) : String := "\x60" ++ name ++ "\x60"

/-- The error in words. -/
def message : OptionsError → String
  | wrongType found expected => s!"invalid type: {found}, expected {expected}"
  | wrongValue found expected => s!"invalid value: {found}, expected {expected}"
  | unknownField name =>
    "unknown field " ++ marked name ++ ", expected one of " ++
      ", ".intercalate (["unknown", "name", "file", "mode"].map marked)
  | unknownMode name =>
    "unknown variant " ++ marked name ++ ", expected one of " ++
      ", ".intercalate (["development", "strict", "lenient", "production"].map marked)
  | tooMany count => s!"invalid length {count}, expected fewer elements in array"

end OptionsError

namespace Json

/-- What sort of document was found. -/
def sort : Json → String
  | null => "null"
  | bool value => "boolean " ++ OptionsError.marked (if value then "true" else "false")
  | integer value => "integer " ++ OptionsError.marked (toString value)
  | decimal value => "floating point " ++ OptionsError.marked (pointedText value)
  | string value => "string " ++ quoted value
  | array _ => "sequence"
  | object _ => "map"

end Json

namespace Mode

/-- The mode of a name in a document. -/
def ofDocumentName (name : String) : Except OptionsError Mode :=
  match ofName? name with
  | some mode => .ok mode
  | none => .error (.unknownMode name)

/-- The mode that a document names: a text, or an object that has null under the name. -/
def ofJson : Json → Except OptionsError Mode
  | .string name => ofDocumentName name
  | .object fields =>
    match Entries.ofList fields with
    | [(name, content)] => do
      let mode ← ofDocumentName name
      match content with
      | .null => .ok mode
      | other => .error (.wrongType other.sort "unit")
    | _ => .error (.wrongValue "map" "map with a single key")
  | other => .error (.wrongType other.sort "string or map")

end Mode

namespace Options

/-- The options that are used where none are given. -/
def usual : Options := ⟨false, none, none, .strict⟩

/-- The labels that the options give to faults. -/
def labels (options : Options) : Labels := ⟨options.name, options.file⟩

/-- A truth value in a document. -/
def truth : Json → Except OptionsError Bool
  | .bool value => .ok value
  | other => .error (.wrongType other.sort "a boolean")

/-- A text or null in a document. -/
def text? : Json → Except OptionsError (Option String)
  | .null => .ok none
  | .string value => .ok (some value)
  | other => .error (.wrongType other.sort "a string")

/-- Set the option of a name. -/
def set (options : Options) (name : String) (document : Json) : Except OptionsError Options :=
  if name = "unknown" then (truth document).map fun value => { options with unknown := value }
  else if name = "name" then (text? document).map fun value => { options with name := value }
  else if name = "file" then (text? document).map fun value => { options with file := value }
  else if name = "mode" then (Mode.ofJson document).map fun value => { options with mode := value }
  else .error (.unknownField name)

/-- Set options one after the other. -/
def setAll (options : Options) (fields : List (String × Json)) : Except OptionsError Options :=
  fields.foldlM (fun options field => options.set field.1 field.2) options

/-- The options that a document gives. -/
def ofJson : Json → Except OptionsError Options
  | .object fields => usual.setAll (Entries.ofList fields)
  | .array items => do
    let options ← usual.setAll (["unknown", "name", "file", "mode"].zip items)
    if 4 < items.length then .error (.tooMany items.length) else .ok options
  | other => .error (.wrongType other.sort "struct BlueprintOptions")

end Options

end Assay
