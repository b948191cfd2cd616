import GameContent.Text.Combining
import GameContent.Text.Printable

/-!
# `Text.Quoted` — quoted text in diagnostics

Messages show the text they complain about between double quotes. Quotes and backslashes are
escaped, tab, line feed, carriage return and NUL have a letter each, and what could not be seen
(unprintable or combining characters) is written as its code point in hexadecimal.
-/

namespace GameContent
namespace Text

/-- The code point of a character, as it is written in quoted text. -/
def codePointEscape (c : Char) : List Char :=
  ['\\', 'u', '{'] ++ Nat.toDigits 16 c.toNat ++ ['}']

/-- How one character is written between quotes. -/
def quotedChar (c : Char) : List Char :=
  match c with
  | '"' => ['\\', '"']
  | '\\' => ['\\', '\\']
  | '\t' => ['\\', 't']
  | '\n' => ['\\', 'n']
  | '\r' => ['\\', 'r']
  | '\x00' => ['\\', '0']
  | c => if isPrintable c && !isCombining c then [c] else codePointEscape c

/-- The text between double quotes, with escapes. -/
def quoted (s : String) : String :=
  String.ofList ('"' :: s.toList.flatMap quotedChar ++ ['"'])

example : codePointEscape '\u0301' = ['\\', 'u', '{', '3', '0', '1', '}'] := by decide

end Text
end GameContent
