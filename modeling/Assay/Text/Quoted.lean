import Assay.Text.Printable
import Assay.Text.Extender

/-!
# Quoted text

A text inside a container is shown between double quotes. A quote, a backslash and the usual
controls have short escapes; any other character that has no printed form, or that would join the
quote before it, is shown by its code point in hexadecimal.
-/
namespace Assay

/-- A character by its code point. -/
def codePointEscape (char : Char) : List Char :=
  '\\' :: 'u' :: '\x7b' :: Nat.toDigits 16 char.toNat ++ ['\x7d']

/-- A character as it stands between quotes. -/
def quotedChar (char : Char) : List Char :=
  match char with
  | '"' => ['\\', '"']
  | '\\' => ['\\', '\\']
  | '\n' => ['\\', 'n']
  | '\r' => ['\\', 'r']
  | '\t' => ['\\', 't']
  | '\x00' => ['\\', '0']
  | other => if isExtender other || !isPrintable other then codePointEscape other else [other]

/-- A text between double quotes. -/
def quoted (text : String) : String :=
  String.ofList ('"' :: text.toList.flatMap quotedChar ++ ['"'])

end Assay
