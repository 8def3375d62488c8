import StatementPool.Json.Reader
import StatementPool.Json.Writer
import StatementPool.Kind.SqlType
import StatementPool.Value.Basic
/-!
# Values and types in JSON texts

A value is written as an object with the name of its variant as the only key; the null and the
types are written as their names alone. Dates are texts in their strict form, durations are pairs
of seconds and nanoseconds, bytes are lists of numbers.
-/

namespace StatementPool

namespace Value

/-- Read a text in a strict calendar form. -/
def readCalendar {α : Type} (expected : String) (parse : String → Except CalendarFault α) :
    Json.Reader α :=
  Json.readText expected fun s => match parse s with
    | .ok a => .ok a
    | .error fault => .error (.custom fault.message)

def readDuration : Json.Reader Duration := fun cs =>
  match Json.readPair (Json.readRange "i64" (-9223372036854775808) 9223372036854775807)
      (Json.readRange "i32" (-2147483648) 2147483647) cs with
  | .error f => .error f
  | .ok ((secs, nanos), rest) =>
    match (if nanos.val < 0 then none else Duration.ofParts? secs.val nanos.val.toNat) with
    | some d => .ok (d, rest)
    | none => .error (.unplaced (.custom "TimeDelta out of bounds") rest)

def carrying {α : Type} (r : Json.Reader α) (f : α → Value) : Json.Variant Value :=
  .carrying fun cs => (r cs).map fun (a, rest) => (f a, rest)

def variants : List (String × Json.Variant Value) :=
  [("Int", carrying (Json.readRange "i64" (-9223372036854775808) 9223372036854775807) .int),
    ("Float", carrying Json.readFloat .float),
    ("Text", carrying (Json.readText "a string" .ok) .text),
    ("Bool", carrying Json.readBool .bool),
    ("Timestamp",
      carrying (readCalendar "a formatted date and time string" DateTime.parse) .timestamp),
    ("Date", carrying (readCalendar "a formatted date string" Date.parse) .date),
    ("Time", carrying readDuration .time),
    ("Null", .bare .null),
    ("Blob", carrying (Json.readList Json.readByte) .blob)]

def read : Json.Reader Value := Json.readVariant "variant identifier" variants

def parse (s : String) : Except String Value := Json.parse read s

/-- A value that is not null as a JSON text, under the name of its variant. -/
def tagged (name : String) (content : List Char) : List Char := Json.writeObject [(name, content)]

def write : Value → List Char
  | .int i => tagged "Int" (Numeral.ofInt i.val)
  | .float x => tagged "Float" (Json.floatText x).toList
  | .text s => tagged "Text" (Json.writeString s)
  | .bool b => tagged "Bool" (boolText b).toList
  | .timestamp t => tagged "Timestamp" (Json.writeString (String.ofList (t.text 'T')))
  | .date d => tagged "Date" (Json.writeString (String.ofList d.text))
  | .time d =>
    tagged "Time" (Json.writeList [Numeral.ofInt d.secs, Numeral.ofNat d.nanos])
  | .null => Json.writeString "Null"
  | .blob bytes => tagged "Blob" (Json.writeList (bytes.map fun b => Numeral.ofNat b.toNat))

def json (v : Value) : String := String.ofList v.write

end Value

namespace SqlType

def read : Json.Reader SqlType :=
  Json.readVariant "variant identifier" (all.map fun t => (t.name, .bare t))

def parse (s : String) : Except String SqlType := Json.parse read s

def json (t : SqlType) : String := String.ofList (Json.writeString t.name)

end SqlType

end StatementPool
