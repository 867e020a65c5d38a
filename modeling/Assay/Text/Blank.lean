import Assay.Text.CodePoints

/-!
# Blank characters

The blanks are the characters with the property `White_Space`. Numbers and mode names may have
blanks around them.
-/
namespace Assay

/-- The code points with the property `White_Space`. -/
def blankRanges : List CodeRange :=
  [⟨0x9, 0xd, 1⟩, ⟨0x20, 0x20, 1⟩, ⟨0x85, 0x85, 1⟩, ⟨0xa0, 0xa0, 1⟩, ⟨0x1680, 0x1680, 1⟩,
    ⟨0x2000, 0x200a, 1⟩, ⟨0x2028, 0x2029, 1⟩, ⟨0x202f, 0x202f, 1⟩, ⟨0x205f, 0x205f, 1⟩,
    ⟨0x3000, 0x3000, 1⟩]

/-- Whether a character is blank. -/
def isBlank (char : Char) : Bool := CodeRange.anyContains blankRanges char

/-- The characters without the blanks at both ends. -/
def trimBlanks (chars : List Char) : List Char :=
  ((chars.dropWhile isBlank).reverse.dropWhile isBlank).reverse

/-- The text without the blanks at both ends. -/
def trimmed (text : String) : String := String.ofList (trimBlanks text.toList)

end Assay
