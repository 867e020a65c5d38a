/-!
# Classes

A class has a name and perhaps a parent, and every declaration makes a class of its own: two classes
of one name are two classes. A serial number tells declarations apart, so a class is known by its
serial number, its name and its line of parents. A class inherits from itself and from every class on
that line; loosely, it inherits from every class that has the name of one of them.
-/
namespace Assay

/-- A declared class with the line of its parents. -/
inductive Class where
  /-- A class without a parent. -/
  | base (serial : Nat) (name : String)
  /-- A class that extends another one. -/
  | derived (serial : Nat) (name : String) (parent : Class)
deriving DecidableEq

namespace Class

/-- The name given at the declaration. -/
def name : Class → String
  | base _ name => name
  | derived _ name _ => name

/-- The class that it extends. -/
def parent? : Class → Option Class
  | base .. => none
  | derived _ _ parent => some parent

/-- Whether a class counts as another one: it is that class or, loosely, has its name. -/
def matchesClass (cls other : Class) (loose : Bool) : Bool :=
  cls == other || (loose && cls.name == other.name)

/-- Whether a class or one of the classes above it counts as the other one. -/
def inherits : Class → Class → Bool → Bool
  | base serial name, other, loose => (base serial name).matchesClass other loose
  | derived serial name parent, other, loose =>
    (derived serial name parent).matchesClass other loose || parent.inherits other loose

/-- The class as diagnostics show it. -/
def describe (cls : Class) : String := s!"Class({cls.name})"

end Class

/-- The declarations so far, which number the next one. -/
structure Declarations where
  /-- The serial number of the next declaration. -/
  next : Nat

namespace Declarations

/-- No declaration yet. -/
def empty : Declarations := ⟨0⟩

/-- Declare a class, with or without a parent. -/
def declare (declarations : Declarations) (name : String) (parent : Option Class) :
    Class × Declarations :=
  let cls := match parent with
    | none => Class.base declarations.next name
    | some above => Class.derived declarations.next name above
  (cls, ⟨declarations.next + 1⟩)

end Declarations

end Assay
