import StatementPool.Json.Text
/-!
# Writing JSON texts

Texts are written without spaces. Inside a string the quote, the backslash and the controls are
escaped and every other character stands for itself.
-/

namespace StatementPool.Json

/-- How one character stands in a string. -/
def escape (c : Char) : List Char :=
  if c = '"' then ['\\', '"']
  else if c = '\\' then ['\\', '\\']
  else if c = '\x08' then ['\\', 'b']
  else if c = '\t' then ['\\', 't']
  else if c = '\n' then ['\\', 'n']
  else if c = '\x0c' then ['\\', 'f']
  else if c = '\r' then ['\\', 'r']
  else if c.toNat < 0x20 then
    ['\\', 'u', '0', '0', Numeral.hexDigit (c.toNat / 16), Numeral.hexDigit (c.toNat % 16)]
  else [c]

/-- A string between quotes. -/
def writeString (s : String) : List Char := '"' :: (s.toList.flatMap escape ++ ['"'])

/-- Items with commas between them. -/
def writeItems : List (List Char) → List Char
  | [] => []
  | [a] => a
  | a :: b :: rest => a ++ ',' :: writeItems (b :: rest)

def writeList (items : List (List Char)) : List Char := '[' :: (writeItems items ++ [']'])

/-- An object of named members in the given order. -/
def writeObject (members : List (String × List Char)) : List Char :=
  '\x7b' :: (writeItems (members.map fun (name, value) => writeString name ++ ':' :: value)
    ++ ['\x7d'])

end StatementPool.Json
