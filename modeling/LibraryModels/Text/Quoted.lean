import LibraryModels.Text.Hexadecimal
import LibraryModels.Text.Printable

/-!
# Quoted texts in messages

Messages show a text between double quotes. Quotes, backslashes and the usual controls have short
escapes, and every other unprintable character is given by its number.
-/

namespace LibraryModels.Text

/-- How a character stands inside quotes. -/
def quotedChar (c : Char) : List Char :=
  match c with
  | '"' => ['\\', '"']
  | '\\' => ['\\', '\\']
  | '\t' => ['\\', 't']
  | '\r' => ['\\', 'r']
  | '\n' => ['\\', 'n']
  | '\x00' => ['\\', '0']
  | c =>
    if isPrintable c then [c]
    else ['\\', 'u', '\x7b'] ++ hexDigits c.toNat ++ ['\x7d']

/-- A text between quotes. -/
def quote (s : String) : String :=
  String.ofList ('"' :: s.toList.flatMap quotedChar ++ ['"'])

end LibraryModels.Text
