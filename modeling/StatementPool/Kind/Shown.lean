import StatementPool.Kind.Basic
import StatementPool.Text.Quoted
import StatementPool.Text.Template
/-!
# Stored values as text

Two texts of what a column holds: the one that a dump of a structure shows, with quotes and all
parts, and the one that a template lays out for a reader. Bytes have no text of the second kind.
-/

namespace StatementPool

/-- A list in brackets. -/
def bracketed (items : List String) : String := "[" ++ ", ".intercalate items ++ "]"

/-- The name of a truth value. -/
def boolText (b : Bool) : String := if b then "true" else "false"

/-- The numbers of a sequence of bytes in brackets. -/
def bytesShown (bs : List UInt8) : String := bracketed (bs.map fun b => Numeral.text b.toNat)

namespace Kind

/-- What a column holds, as a dump shows it. -/
def shown : (k : Kind) → k.Storage → String
  | .integer _, (x : Ranged _ _) => Numeral.intText x.val
  | .float, (x : Binary32) => x.unpack.shown binary32
  | .double, (x : Binary64) => x.unpack.shown binary64
  | .time, (x : Duration) => x.shown
  | .date, (x : Date) => String.ofList x.text
  | .datetime, (x : DateTime) => String.ofList (x.text 'T')
  | .blob, (x : List UInt8) => bytesShown x
  | .char, (x : List UInt8) => bytesShown x
  | .binary, (x : List UInt8) => bytesShown x
  | .text, (x : String) => Quoted.text x
  | .wtext, (x : String) => Quoted.text x
  | .bit, (x : Bool) => boolText x

/-- What a column holds, laid out by a template; times and dates ignore the layout. -/
def display? (t : Template) : (k : Kind) → k.Storage → Option String
  | .integer _, (x : Ranged _ _) => some (t.int x.val)
  | .float, (x : Binary32) => some (t.float binary32 x.unpack)
  | .double, (x : Binary64) => some (t.float binary64 x.unpack)
  | .time, (x : Duration) => some x.text
  | .date, (x : Date) => some (String.ofList x.text)
  | .datetime, (x : DateTime) => some (String.ofList (x.text ' '))
  | .text, (x : String) => some (t.text x)
  | .wtext, (x : String) => some (t.text x)
  | .bit, (x : Bool) => some (t.text (boolText x))
  | .blob, _ | .char, _ | .binary, _ => none

end Kind

end StatementPool
