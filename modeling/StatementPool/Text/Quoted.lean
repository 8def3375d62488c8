import StatementPool.Number.Numeral
import StatementPool.Text.Printable
/-!
# Quoted text

A text that is shown inside a value stands between double quotes. The usual controls, the quote
and the backslash have short escapes; grapheme extenders and characters without an image are
written by their number in hexadecimal.
-/

namespace StatementPool.Quoted

/-- How one character stands in a quoted text. -/
def escape (c : Char) : List Char :=
  if c = '\x00' then ['\\', '0']
  else if c = '\t' then ['\\', 't']
  else if c = '\r' then ['\\', 'r']
  else if c = '\n' then ['\\', 'n']
  else if c = '"' then ['\\', '"']
  else if c = '\\' then ['\\', '\\']
  else if (' ' ≤ c && c ≤ '~') || (isPrintable c && !isExtender c) then [c]
  else ['\\', 'u', '\x7b'] ++ Numeral.hex c.toNat ++ ['\x7d']

/-- The quoted form of a text. -/
def text (s : String) : String := String.ofList ('"' :: (s.toList.flatMap escape ++ ['"']))

end StatementPool.Quoted
