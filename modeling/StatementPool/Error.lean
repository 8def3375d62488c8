import StatementPool.Kind.SqlType
import StatementPool.Value.Basic
/-!
# Errors

Every failure of the library is a cause in one of seven classes. A cause names what went wrong
with the data that shows it; `Error.message` is the only place that words it. A statement may
fail with a text of its own in any class.
-/

namespace StatementPool

/-- Why a record does not fit what is bound to it. -/
inductive BindingCause where
  | unknownTag (tag : Nat)
  | pastCount (index count : Nat)
  | otherType (bound actual : SqlType)
  | noType (index : Nat)
  | noStorage (index : Nat)
  | otherStorage (index : Nat) (declared stored : SqlType)
  | wrongSize (index : Nat) (declared : SqlType) (size length : Nat)
  | needlessSize (index : Nat) (declared : SqlType) (size : Nat)
  | fieldPastCount (count : Nat)
  | noParameters
  | custom (text : String)

/-- What a column expects to receive. -/
inductive Shape where
  | integer
  | float
  | double
  | time
  | date
  | timestamp
  | bytes
  | text
  | bit

/-- Why a value does not fit a column. -/
inductive ConversionCause where
  | unsignedTooLarge (n : Int)
  | mismatch (expected : Shape) (got : Value)
  | outOfRange (n : Int) (w : Width)
  | unexpectedNull (type : SqlType)
  | tooLong (bytes : Nat) (type : SqlType) (length : Nat)
  | rowWidth (columns fields : Nat)
  | custom (text : String)

inductive ConfigCause where
  | noThreads
  | blankName
  | malformed (text : String)
  | custom (text : String)

/-- Why a pool refuses a call or gives no result. -/
inductive LifecycleCause where
  | alreadyStarted
  /-- The system spawns no more threads, and says why. -/
  | spawnFailed (cause : String)
  | discarded
  | custom (text : String)

inductive Error where
  | driver (text : String)
  | binding (cause : BindingCause)
  | conversion (cause : ConversionCause)
  | execution (text : String)
  | config (cause : ConfigCause)
  | lifecycle (cause : LifecycleCause)
  | other (text : String)

def BindingCause.wording : BindingCause → String
  | .unknownTag tag => "unknown type tag " ++ Numeral.text tag
  | .pastCount index count =>
    "field index " ++ Numeral.text index ++ " out of range for record with " ++
      Numeral.text count ++ " fields"
  | .otherType bound actual =>
    "conversion bound to " ++ bound.name ++ " received a " ++ actual.name ++ " field"
  | .noType index => "field " ++ Numeral.text index ++ " declares no type"
  | .noStorage index => "field " ++ Numeral.text index ++ " has no storage"
  | .otherStorage index declared stored =>
    "field " ++ Numeral.text index ++ " declares " ++ declared.name ++ " but stores " ++ stored.name
  | .wrongSize index declared size length =>
    "field " ++ Numeral.text index ++ " (" ++ declared.name ++ ") reports size " ++
      Numeral.text size ++ " for " ++ Numeral.text length ++ " bytes of storage"
  | .needlessSize index declared size =>
    "field " ++ Numeral.text index ++ " (" ++ declared.name ++
      ") is not fixed-length but reports size " ++ Numeral.text size
  | .fieldPastCount count => "record exposes a field past its count of " ++ Numeral.text count
  | .noParameters => "insert requires parameters"
  | .custom text => text

def Shape.wording : Shape → String
  | .integer => "an integer"
  | .float => "a float"
  | .double => "a double"
  | .time => "a time"
  | .date => "a date"
  | .timestamp => "a timestamp"
  | .bytes => "binary data"
  | .text => "text"
  | .bit => "a bit"

def ConversionCause.wording : ConversionCause → String
  | .unsignedTooLarge n => "unsigned value " ++ Numeral.intText n ++ " exceeds i64 range"
  | .mismatch expected got => "expected " ++ expected.wording ++ ", got " ++ got.shown
  | .outOfRange n w => "integer " ++ Numeral.intText n ++ " out of range for " ++ w.name
  | .unexpectedNull type => "NULL received for non-nullable " ++ type.name ++ " field"
  | .tooLong bytes type length =>
    Numeral.text bytes ++ " bytes do not fit " ++ type.name ++ " field of " ++
      Numeral.text length ++ " bytes"
  | .rowWidth columns fields =>
    "row has " ++ Numeral.text columns ++ " columns but " ++ Numeral.text fields ++
      " fields are bound"
  | .custom text => text

def ConfigCause.wording : ConfigCause → String
  | .noThreads => "max_threads must be at least 1"
  | .blankName => "thread_name must not be empty"
  | .malformed text => "invalid engine options: " ++ text
  | .custom text => text

def LifecycleCause.wording : LifecycleCause → String
  | .alreadyStarted => "connection engine already started"
  | .spawnFailed cause => "failed to spawn SQL worker thread: " ++ cause
  | .discarded => "query discarded before execution"
  | .custom text => text

namespace Error

def className : Error → String
  | .driver _ => "DriverError"
  | .binding _ => "BindingError"
  | .conversion _ => "ConversionError"
  | .execution _ => "ExecutionError"
  | .config _ => "ConfigError"
  | .lifecycle _ => "LifecycleError"
  | .other _ => "Other"

/-- What the class puts in front of the text; the text of a driver stands alone. -/
def label : Error → String
  | .driver _ => ""
  | .binding _ => "Binding error: "
  | .conversion _ => "Conversion error: "
  | .execution _ => "SQL execution error: "
  | .config _ => "Configuration error: "
  | .lifecycle _ => "Lifecycle error: "
  | .other _ => "Other database error: "

def text : Error → String
  | .driver text => text
  | .binding cause => cause.wording
  | .conversion cause => cause.wording
  | .execution text => text
  | .config cause => cause.wording
  | .lifecycle cause => cause.wording
  | .other text => text

def message (e : Error) : String := e.label ++ e.text

def shown (e : Error) : String := e.className ++ "(" ++ Quoted.text e.text ++ ")"

/-- The failure of a class with a text of the caller's. -/
def ofClass? (name text : String) : Option Error :=
  [.driver text, .binding (.custom text), .conversion (.custom text), .execution text,
    .config (.custom text), .lifecycle (.custom text), .other text].find? (·.className == name)

end Error

def SqlType.ofTag (n : Nat) : Except Error SqlType :=
  match SqlType.ofTag? n with
  | some t => .ok t
  | none => .error (.binding (.unknownTag n))

end StatementPool
