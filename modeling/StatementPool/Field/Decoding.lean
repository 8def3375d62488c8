import StatementPool.Error
import StatementPool.Field.Basic
/-!
# Decoding fields

Store a value into a field. A kind accepts the values that its reader accepts; a null only sets
the flag of a nullable field. A value that is refused leaves the field as it was.
-/

namespace StatementPool

/-- The result of a reader, or the mismatch it stands for. -/
def Value.expect {α : Type} (v : Value) (shape : Shape) : Option α → Except Error α
  | some a => .ok a
  | none => .error (.conversion (.mismatch shape v))

/-- The word that a value stands for. -/
def Value.toWord (v : Value) (w : Width) : Except Error (Ranged w.low w.high) := do
  let n ← v.expect .integer v.asNumber
  match Ranged.ofInt? w.low w.high n with
  | some x => .ok x
  | none => .error (.conversion (.outOfRange n w))

/-- The bytes that a value stands for, filled with zeros up to the length of a field. -/
def Value.toFixed (v : Value) (type : SqlType) (length : Nat) : Except Error (List UInt8) := do
  let bytes ← v.expect .bytes v.asBytes
  if length < bytes.length then .error (.conversion (.tooLong bytes.length type length))
  else .ok (bytes ++ List.replicate (length - bytes.length) 0)

/-- What a column of a kind holds after it received a value that is not null. The type and the
length are those of the field. -/
def Kind.decode (type : SqlType) (length : Nat) (v : Value) : (k : Kind) → Except Error k.Storage
  | .integer w => v.toWord w
  | .float => (v.expect .float v.asFloat).map Binary64.narrow
  | .double => v.expect .double v.asFloat
  | .time => v.expect .time v.asTime
  | .date => v.expect .date v.asDate
  | .datetime => v.expect .timestamp v.asTimestamp
  | .blob => v.expect .bytes v.asBytes
  | .text => v.expect .text v.asText
  | .wtext => v.expect .text v.asText
  | .char => v.toFixed type length
  | .binary => v.toFixed type length
  | .bit => v.expect .bit v.asBool

/-- Store a value into a field; the field is the same as before when the value is refused. -/
def Field.decode (f : Field) (v : Value) : Field × Except Error Unit :=
  if v.isNull then
    match f with
    | .plain k value =>
      (.plain k value, .error (.conversion (.unexpectedNull (.plain k))))
    | .nullable k cell => (.nullable k (cell.setNull true), .ok ())
  else
    match f.kind.decode f.sqlType (f.length?.getD 0) v with
    | .ok value => (f.store value, .ok ())
    | .error e => (f, .error e)

end StatementPool
