import LanguageServer.Text.Printable

/-!
# Quoted text in messages

A message quotes a text between double quotes.  The quote, the backslash, the tabulator, the line
ends and the null character have short escapes; any other character that does not show as itself is
written by its code point in hexadecimal, as in `\\u{7f}`.
-/

namespace LanguageServer

namespace Text

/-- The quoted form of one character. -/
def quotedChar (c : Char) : List Char :=
  if c = '\x00' then ['\\', '0']
  else if c = '\t' then ['\\', 't']
  else if c = '\r' then ['\\', 'r']
  else if c = '\n' then ['\\', 'n']
  else if c = '\\' then ['\\', '\\']
  else if c = '"' then ['\\', '"']
  else if isPlain c then [c]
  else '\\' :: 'u' :: '\x7b' :: (Nat.toDigits 16 c.toNat ++ ['\x7d'])

/-- A text in double quotes. -/
def quoted (s : String) : String :=
  String.ofList ('"' :: (s.toList.flatMap quotedChar ++ ['"']))

end Text

end LanguageServer
