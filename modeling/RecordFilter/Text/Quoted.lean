import RecordFilter.Text.Unprintable
import RecordFilter.Text.Combining

/-!
# Quoted text

Messages show a text between double quotes and a character between single ones, so that what was
given can be told apart from the sentence around it. The quote in use, the backslash, tab, line
feed, carriage return and NUL are escaped by one letter; a character that is unprintable or would
merge with the character before it is written as its code point.
-/

namespace RecordFilter.Text

/-- The code point in lower-case hexadecimal, as `\u` and braces show it. -/
def codePointEscape (c : Char) : List Char :=
  ['\\', 'u', '\x7b'] ++ Nat.toDigits 16 c.toNat ++ ['\x7d']

/-- How the character is written inside a pair of `quote` marks. -/
def escape (quote c : Char) : List Char :=
  if c = quote then ['\\', c]
  else match c with
    | '\\' => ['\\', '\\']
    | '\t' => ['\\', 't']
    | '\n' => ['\\', 'n']
    | '\r' => ['\\', 'r']
    | '\x00' => ['\\', '0']
    | c => if isUnprintable c || isCombining c then codePointEscape c else [c]

/-- The text between double quotes. -/
def quoted (text : String) : String :=
  String.ofList ('"' :: text.toList.flatMap (escape '"') ++ ['"'])

/-- The character between single quotes. -/
def quotedChar (c : Char) : String :=
  String.ofList ('\'' :: escape '\'' c ++ ['\''])

end RecordFilter.Text
