/-!
# Paths

A path leads from the outermost value to a place in it: the key of a field or the index of an item at
each step. The root is the empty path. In text a key that follows another step has a point before it
and an index stands in brackets.
-/
namespace Assay

/-- One step of a path. -/
inductive Segment where
  /-- Into the field under a key. -/
  | key (key : String)
  /-- To the item at an index. -/
  | index (index : Nat)
deriving DecidableEq

/-- The steps from the root to a place. -/
structure Path where
  /-- The steps, outermost first. -/
  segments : List Segment
deriving DecidableEq

namespace Path

/-- The outermost value. -/
def root : Path := ⟨[]⟩

/-- The place one step further. -/
def child (path : Path) (segment : Segment) : Path := ⟨path.segments ++ [segment]⟩

/-- The field under a key. -/
def key (path : Path) (key : String) : Path := path.child (.key key)

/-- The item at an index. -/
def index (path : Path) (index : Nat) : Path := path.child (.index index)

/-- The path through the given keys. -/
def ofKeys (keys : List String) : Path := ⟨keys.map .key⟩

/-- Whether the path is the root. -/
def isRoot (path : Path) : Bool := path.segments.isEmpty

/-- The key of the last step, if that is a field. -/
def lastKey? (path : Path) : Option String :=
  match path.segments.getLast? with
  | some (.key key) => some key
  | _ => none

/-- A step that is not the first, in text. -/
def laterText : Segment → String
  | .key key => "." ++ key
  | .index index => "[" ++ toString index ++ "]"

/-- A first step in text. -/
def firstText : Segment → String
  | .key key => key
  | .index index => "[" ++ toString index ++ "]"

/-- The path in text. -/
def toText (path : Path) : String :=
  match path.segments with
  | [] => ""
  | first :: rest => firstText first ++ String.join (rest.map laterText)

end Path

end Assay
