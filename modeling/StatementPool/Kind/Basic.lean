import StatementPool.Calendar.DateTime
import StatementPool.Calendar.Duration
import StatementPool.Number.Binary
import StatementPool.Number.Ranged
/-!
# Kinds of columns

A kind says what a column stores. There are nineteen, in a fixed order; `Kind.Storage` gives the
type of what a column of each kind holds. The two fixed kinds hold as many bytes as the column is
long, and every kind but these has one default storage.
-/

namespace StatementPool

inductive Width where
  | utiny
  | ushort
  | uint
  | ubigint
  | tiny
  | short
  | int
  | bigint
  deriving DecidableEq

namespace Width

def bits : Width → Nat
  | .utiny | .tiny => 8
  | .ushort | .short => 16
  | .uint | .int => 32
  | .ubigint | .bigint => 64

def signed : Width → Bool
  | .utiny | .ushort | .uint | .ubigint => false
  | .tiny | .short | .int | .bigint => true

def low (w : Width) : Int := if w.signed then -(Nat.pow 2 (w.bits - 1) : Nat) else 0

def high (w : Width) : Int := (Nat.pow 2 (if w.signed then w.bits - 1 else w.bits) : Nat) - 1

/-- The name of the machine word. -/
def name (w : Width) : String := (if w.signed then "i" else "u") ++ Numeral.text w.bits

def zero (w : Width) : Ranged w.low w.high :=
  ⟨0, by cases w <;> decide, by cases w <;> decide⟩

end Width

/-- What a column stores. -/
inductive Kind where
  | integer (w : Width)
  | float
  | double
  | time
  | date
  | datetime
  | blob
  | text
  | wtext
  | char
  | binary
  | bit
  deriving DecidableEq

namespace Kind

/-- All kinds, in the order of their tags. -/
def all : List Kind :=
  [.integer .utiny, .integer .ushort, .integer .uint, .integer .ubigint, .integer .tiny,
    .integer .short, .integer .int, .integer .bigint, .float, .double, .time, .date, .datetime,
    .blob, .text, .wtext, .char, .binary, .bit]

def tag : Kind → Nat
  | .integer .utiny => 0
  | .integer .ushort => 1
  | .integer .uint => 2
  | .integer .ubigint => 3
  | .integer .tiny => 4
  | .integer .short => 5
  | .integer .int => 6
  | .integer .bigint => 7
  | .float => 8
  | .double => 9
  | .time => 10
  | .date => 11
  | .datetime => 12
  | .blob => 13
  | .text => 14
  | .wtext => 15
  | .char => 16
  | .binary => 17
  | .bit => 18

def name : Kind → String
  | .integer .utiny => "Utiny"
  | .integer .ushort => "Ushort"
  | .integer .uint => "Uint"
  | .integer .ubigint => "Ubigint"
  | .integer .tiny => "Tiny"
  | .integer .short => "Short"
  | .integer .int => "Int"
  | .integer .bigint => "Bigint"
  | .float => "Float"
  | .double => "Double"
  | .time => "Time"
  | .date => "Date"
  | .datetime => "Datetime"
  | .blob => "Blob"
  | .text => "Text"
  | .wtext => "Wtext"
  | .char => "Char"
  | .binary => "Binary"
  | .bit => "Bit"

/-- Whether the column has a length of its own. -/
def isFixed : Kind → Bool
  | .char | .binary => true
  | _ => false

/-- What a column of a kind holds. -/
def Storage : Kind → Type
  | .integer w => Ranged w.low w.high
  | .float => Binary32
  | .double => Binary64
  | .time => Duration
  | .date => Date
  | .datetime => DateTime
  | .blob | .char | .binary => List UInt8
  | .text | .wtext => String
  | .bit => Bool

/-- What a column holds before anything is stored: zero, nothing or the epoch, and `length` zero
bytes in a fixed column. -/
def blank (length : Nat) : (k : Kind) → k.Storage
  | .integer w => w.zero
  | .float => Binary32.zero
  | .double => Binary64.zero
  | .time => Duration.zero
  | .date => Date.epoch
  | .datetime => DateTime.epoch
  | .blob => ([] : List UInt8)
  | .char | .binary => List.replicate length (0 : UInt8)
  | .text | .wtext => ""
  | .bit => false

/-- Equality of stored values: floating-point numbers are compared as numbers. -/
def same : (k : Kind) → k.Storage → k.Storage → Bool
  | .integer _, (a : Ranged _ _), (b : Ranged _ _) => a == b
  | .float, (a : Binary32), (b : Binary32) => a.same b
  | .double, (a : Binary64), (b : Binary64) => a.same b
  | .time, (a : Duration), (b : Duration) => a == b
  | .date, (a : Date), (b : Date) => a == b
  | .datetime, (a : DateTime), (b : DateTime) => a == b
  | .blob, (a : List UInt8), (b : List UInt8) => a == b
  | .char, (a : List UInt8), (b : List UInt8) => a == b
  | .binary, (a : List UInt8), (b : List UInt8) => a == b
  | .text, (a : String), (b : String) => a == b
  | .wtext, (a : String), (b : String) => a == b
  | .bit, (a : Bool), (b : Bool) => a == b

/-- The number of bytes of a fixed column. -/
def length? : (k : Kind) → k.Storage → Option Nat
  | .char, (bytes : List UInt8) => some bytes.length
  | .binary, (bytes : List UInt8) => some bytes.length
  | _, _ => none

end Kind

end StatementPool
