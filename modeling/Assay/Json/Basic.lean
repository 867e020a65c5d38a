/-!
# JSON

A JSON document. Numbers come in two forms, whole numbers and doubles, because both are written
exactly. Objects keep the order in which they are given.
-/
namespace Assay

/-- A JSON document. -/
inductive Json where
  /-- The null document. -/
  | null
  /-- A truth value. -/
  | bool (value : Bool)
  /-- A whole number. -/
  | integer (value : Int)
  /-- A finite double. -/
  | decimal (value : Float)
  /-- A text. -/
  | string (value : String)
  /-- A list of documents. -/
  | array (items : List Json)
  /-- Documents under keys. -/
  | object (fields : List (String × Json))

end Assay
