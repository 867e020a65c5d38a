import Assay.Pattern.Basic
import Assay.Text.Casing

/-!
# Rules on texts

A text rule says which texts are allowed and what to report of the others. The case formats are
patterns over ASCII letters and digits. Every rule but the one against the empty text is about
content: it does not bind a field that was left at its default.
-/
namespace Assay

/-- The ways of joining words into one name. -/
inductive CaseFormat where
  /-- A small letter first, then letters and digits. -/
  | camel
  /-- Small letters and digits, words joined by a hyphen. -/
  | kebab
  /-- A capital letter first, then letters and digits. -/
  | pascal
  /-- Small letters and digits, words joined by a low line. -/
  | snake
deriving DecidableEq

namespace CaseFormat

/-- The name of a format. -/
def name : CaseFormat → String
  | camel => "camel"
  | kebab => "kebab"
  | pascal => "pascal"
  | snake => "snake"

/-- A small letter. -/
def small : Pattern := .ofSet ⟨[('a', 'z')], false⟩

/-- A capital letter. -/
def capital : Pattern := .ofSet ⟨[('A', 'Z')], false⟩

/-- A digit or a letter. -/
def alphanumeric : Pattern := .ofSet ⟨[('0', '9'), ('A', 'Z'), ('a', 'z')], false⟩

/-- A digit or a small letter. -/
def smallAlphanumeric : Pattern := .ofSet ⟨[('0', '9'), ('a', 'z')], false⟩

/-- A small letter and then words of small letters and digits joined by a character. -/
def joinedBy (joint : Char) : Pattern :=
  .sequence [.start, small, .star smallAlphanumeric,
    .star (.seq (.ofSet (.single joint)) (.plus smallAlphanumeric)), .finish]

/-- The pattern of a format. -/
def pattern : CaseFormat → Pattern
  | camel => .sequence [.start, small, .star alphanumeric, .finish]
  | kebab => joinedBy '-'
  | pascal => .sequence [.start, capital, .star alphanumeric, .finish]
  | snake => joinedBy '_'

end CaseFormat

/-- Which texts are allowed. -/
inductive TextRule where
  /-- Texts with a given text in them. -/
  | contains (token : String)
  /-- Texts in which a pattern is found, given with how it is written and perhaps a message. -/
  | matching (source : String) (pattern : Pattern) (message : Option String)
  /-- Texts in a case format. -/
  | inFormat (format : CaseFormat)
  /-- Texts that small letters leave as they are. -/
  | lowerCase
  /-- Texts that capitals leave as they are. -/
  | upperCase
  /-- Texts with a character in them. -/
  | notEmpty
  /-- The texts of a list. -/
  | oneOf (choices : List String)
  /-- Texts of a number of characters. -/
  | size (count : Nat)

namespace TextRule

/-- Whether some part of the second list of characters is the first one. -/
def isPart (token : List Char) : List Char → Bool
  | [] => token.isEmpty
  | char :: rest => token.isPrefixOf (char :: rest) || isPart token rest

/-- Whether a text is allowed. -/
def holds (rule : TextRule) (text : String) : Bool :=
  match rule with
  | contains token => isPart token.toList text.toList
  | matching _ pattern _ => pattern.occursIn text
  | inFormat format => format.pattern.occursIn text
  | lowerCase => isLowerCased text
  | upperCase => isUpperCased text
  | notEmpty => !text.isEmpty
  | oneOf choices => choices.contains text
  | size count => text.length == count

/-- What to report of a text that is not allowed. -/
def message : TextRule → String
  | contains token => s!"String does not include \"{token}\"."
  | matching source _ message =>
    message.getD s!"String does not match pattern \"{source}\"."
  | inFormat format => s!"String must be in {format.name} case."
  | lowerCase => "String must be lower cased."
  | upperCase => "String must be upper cased."
  | notEmpty => "String cannot be empty."
  | oneOf choices => "String must be one of: " ++ ", ".intercalate choices ++ "."
  | size count => s!"String length must be {count}."

/-- Whether the rule is about content, so that a field left at its default escapes it. -/
def isAboutContent : TextRule → Bool
  | notEmpty => false
  | _ => true

end TextRule

end Assay
