import KvServer.Text.NonGraphic

/-!
# Quoted text

Error messages quote foreign text so that it stays on one line and every character can be told
apart: `quote` writes it between double quotes, with an escape for the quote, the backslash, line
ends, tab and NUL, and the code point in hexadecimal for every other character without a shape.
-/

namespace KvServer.Quoted

/-- The code point of a character in the form `\u`, brace, lower-case hexadecimal digits, brace. -/
def codePoint (c : Char) : List Char :=
  ['\\', 'u', '{'] ++ Nat.toDigits 16 c.toNat ++ ['}']

/-- How one character is written between the quotes. -/
def escape (c : Char) : List Char :=
  if c = '\x00' then ['\\', '0']
  else if c = '\t' then ['\\', 't']
  else if c = '\r' then ['\\', 'r']
  else if c = '\n' then ['\\', 'n']
  else if c = '\"' ∨ c = '\\' then ['\\', c]
  else if NonGraphic.isNonGraphic c then codePoint c
  else [c]

def quote (text : String) : String :=
  String.ofList ('\"' :: text.toList.flatMap escape ++ ['\"'])

end KvServer.Quoted
