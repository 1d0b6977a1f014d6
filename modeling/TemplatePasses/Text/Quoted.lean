/-
# Quoted text

How a name or a text is shown between double quotes so that every character
can be seen: the quote and the backslash behind a backslash, line ends, tab
and NUL by a letter, and a character without a mark of its own (or one that
would merge with the character before it) by its code point in hexadecimal.
-/
import TemplatePasses.Text.Unprintable
import TemplatePasses.Text.Extender

namespace TemplatePasses.Text

/-- The code point in as few hexadecimal digits as it takes. -/
def codePoint (c : Char) : List Char :=
  '\\' :: 'u' :: '\x7b' :: Nat.toDigits 16 c.toNat ++ ['\x7d']

/-- One character as it is shown inside quotes. -/
def quotedChar (c : Char) : List Char :=
  if c = '\x00' then ['\\', '0']
  else if c = '\t' then ['\\', 't']
  else if c = '\r' then ['\\', 'r']
  else if c = '\n' then ['\\', 'n']
  else if c = '"' then ['\\', '"']
  else if c = '\\' then ['\\', '\\']
  else if isExtender c then codePoint c
  else if isPrintable c then [c]
  else codePoint c

/-- The text between double quotes. -/
def quoted (s : String) : String :=
  String.ofList ('"' :: s.toList.flatMap quotedChar ++ ['"'])

end TemplatePasses.Text
