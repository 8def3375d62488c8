import StatementPool.Error
import StatementPool.Field.Basic
/-!
# Encoding fields

The value of a field. Integers and floating-point numbers are widened, the zero bytes that fill a
fixed text are not part of it, and a null field is a null whatever lies behind the flag. Only an
unsigned number past the signed range has no value.
-/

namespace StatementPool

/-- The bytes without the zeros at their end. -/
def trimZeros (bytes : List UInt8) : List UInt8 :=
  (bytes.reverse.dropWhile (· == 0)).reverse

/-- The value of an integer, if it fits a signed word. -/
def Value.ofWord (n : Int) : Except Error Value :=
  match Ranged.ofInt? (-9223372036854775808) 9223372036854775807 n with
  | some i => .ok (.int i)
  | none => .error (.conversion (.unsignedTooLarge n))

/-- The value of what a column of a kind holds. -/
def Kind.encode : (k : Kind) → k.Storage → Except Error Value
  | .integer _, (x : Ranged _ _) => Value.ofWord x.val
  | .float, (x : Binary32) => .ok (.float x.widen)
  | .double, (x : Binary64) => .ok (.float x)
  | .time, (x : Duration) => .ok (.time x)
  | .date, (x : Date) => .ok (.date x)
  | .datetime, (x : DateTime) => .ok (.timestamp x)
  | .blob, (x : List UInt8) => .ok (.blob x)
  | .text, (x : String) => .ok (.text x)
  | .wtext, (x : String) => .ok (.text x)
  | .char, (x : List UInt8) => .ok (.text (Utf8.lossy (trimZeros x)))
  | .binary, (x : List UInt8) => .ok (.blob x)
  | .bit, (x : Bool) => .ok (.bool x)

/-- The value of a field. -/
def Field.encode : Field → Except Error Value
  | .plain k value => k.encode value
  | .nullable k cell => match cell.get? with
    | some value => k.encode value
    | none => .ok .null

end StatementPool
