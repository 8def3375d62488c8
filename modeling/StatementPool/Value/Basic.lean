import StatementPool.Calendar.Pattern
import StatementPool.Number.Ranged
import StatementPool.Kind.Shown
import StatementPool.Text.Utf8
/-!
# Values

A value is one column of a row outside any record: what a driver receives and delivers. Readers
of a value are lenient: 0 and 1 count as truth values, integers as floating-point numbers, and
texts in their usual form as dates.
-/

namespace StatementPool

inductive Value where
  | int (i : Int64Range)
  | float (x : Binary64)
  | text (s : String)
  | bool (b : Bool)
  | timestamp (t : DateTime)
  | date (d : Date)
  | time (d : Duration)
  | null
  | blob (bytes : List UInt8)
  deriving DecidableEq

namespace Value

/-- Equality of values: floating-point numbers are compared as numbers. -/
def same : Value → Value → Bool
  | .float x, .float y => x.same y
  | v, w => v == w

def startsWith : List Value → List Value → Bool
  | _, [] => true
  | [], _ :: _ => false
  | v :: row, w :: filter => v.same w && startsWith row filter

def isNull : Value → Bool
  | .null => true
  | _ => false

/-! ## Readers -/

def asInt : Value → Option Int64Range
  | .int i => some i
  | _ => none

def asText : Value → Option String
  | .text s => some s
  | _ => none

/-- The truth value, also of the integers 0 and 1. -/
def asBool : Value → Option Bool
  | .bool b => some b
  | .int i => if i.val = 1 then some true else if i.val = 0 then some false else none
  | _ => none

/-- The moment, also of a text that names one. -/
def asTimestamp : Value → Option DateTime
  | .timestamp t => some t
  | .text s => DateTime.ofText? s
  | _ => none

/-- The date, also of a moment or of a text that names one. -/
def asDate : Value → Option Date
  | .date d => some d
  | .timestamp t => some t.date
  | .text s => Date.ofText? s
  | _ => none

def asTime : Value → Option Duration
  | .time d => some d
  | _ => none

/-- The floating-point number, also the one nearest to an integer. -/
def asFloat : Value → Option Binary64
  | .float x => some x
  | .int i => some (Binary64.ofInt i.val)
  | _ => none

def asBlob : Value → Option (List UInt8)
  | .blob bytes => some bytes
  | _ => none

/-- The bytes of a blob or of the code of a text. -/
def asBytes : Value → Option (List UInt8)
  | .blob bytes => some bytes
  | .text s => some (Utf8.bytes s)
  | _ => none

/-- The number of an integer or of a truth value. -/
def asNumber : Value → Option Int
  | .int i => some i.val
  | .bool b => some (if b then 1 else 0)
  | _ => none

def shown : Value → String
  | .int i => "Int(" ++ Numeral.intText i.val ++ ")"
  | .float x => "Float(" ++ x.unpack.shown binary64 ++ ")"
  | .text s => "Text(" ++ Quoted.text s ++ ")"
  | .bool b => "Bool(" ++ boolText b ++ ")"
  | .timestamp t => "Timestamp(" ++ String.ofList (t.text 'T') ++ ")"
  | .date d => "Date(" ++ String.ofList d.text ++ ")"
  | .time d => "Time(" ++ d.shown ++ ")"
  | .null => "Null"
  | .blob bytes => "Blob(" ++ bytesShown bytes ++ ")"

end Value

end StatementPool
