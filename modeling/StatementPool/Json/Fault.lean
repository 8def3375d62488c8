import StatementPool.Number.Layout
import StatementPool.Text.Quoted
/-!
# Faults in JSON texts

Why a JSON text cannot be read, and where. A place is the number of bytes that are left from
there on; the line and the column follow from the whole text. A fault of meaning arises without
a place and receives one where the value that holds it ends.
-/

namespace StatementPool.Json

/-- What a reader found in the place of what it expected. -/
inductive Found where
  | null
  | bool (b : Bool)
  | integer (i : Int)
  | float (x : Binary64)
  | text (s : String)
  | sequence
  | map
  | unitVariant

inductive Cause where
  | endInList
  | endInObject
  | endInString
  | endInValue
  | noColon
  | noListEnd
  | noObjectEnd
  | noIdent
  | noValue
  | invalidEscape
  | invalidNumber
  | numberOutOfRange
  | controlCharacter
  | keyNotString
  | loneSurrogate
  | trailingComma
  | trailingCharacters
  | endOfEscape
  | tooDeep
  | wrongType (found : Found) (expected : String)
  | wrongValue (found : Found) (expected : String)
  | wrongLength (length : Nat) (expected : String)
  | unknownVariant (name : String) (variants : List String)
  | duplicateField (name : String)
  | missingField (name : String)
  | custom (text : String)

/-- The text of a finite number. -/
def floatText (x : Binary64) : String :=
  match x.unpack with
  | .finite s m e =>
    String.ofList ((if s then ['-'] else []) ++ NumberLayout.json.magnitude binary64 m e)
  | _ => "null"

def Found.wording : Found → String
  | .null => "null"
  | .bool b => "boolean `" ++ (if b then "true" else "false") ++ "`"
  | .integer i => "integer `" ++ Numeral.intText i ++ "`"
  | .float x => "floating point `" ++ floatText x ++ "`"
  | .text s => "string " ++ Quoted.text s
  | .sequence => "sequence"
  | .map => "map"
  | .unitVariant => "unit variant"

def oneOf : List String → String
  | [a] => "`" ++ a ++ "`"
  | [a, b] => "`" ++ a ++ "` or `" ++ b ++ "`"
  | names => "one of " ++ ", ".intercalate (names.map fun a => "`" ++ a ++ "`")

def Cause.wording : Cause → String
  | .endInList => "EOF while parsing a list"
  | .endInObject => "EOF while parsing an object"
  | .endInString => "EOF while parsing a string"
  | .endInValue => "EOF while parsing a value"
  | .noColon => "expected `:`"
  | .noListEnd => "expected `,` or `]`"
  | .noObjectEnd => "expected `,` or `\x7d`"
  | .noIdent => "expected ident"
  | .noValue => "expected value"
  | .invalidEscape => "invalid escape"
  | .invalidNumber => "invalid number"
  | .numberOutOfRange => "number out of range"
  | .controlCharacter =>
    "control character (\\u0000-\\u001F) found while parsing a string"
  | .keyNotString => "key must be a string"
  | .loneSurrogate => "lone leading surrogate in hex escape"
  | .trailingComma => "trailing comma"
  | .trailingCharacters => "trailing characters"
  | .endOfEscape => "unexpected end of hex escape"
  | .tooDeep => "recursion limit exceeded"
  | .wrongType found expected =>
    "invalid type: " ++ found.wording ++ ", expected " ++ expected
  | .wrongValue found expected =>
    "invalid value: " ++ found.wording ++ ", expected " ++ expected
  | .wrongLength length expected =>
    "invalid length " ++ Numeral.text length ++ ", expected " ++ expected
  | .unknownVariant name variants =>
    "unknown variant `" ++ name ++ "`, expected " ++ oneOf variants
  | .duplicateField name => "duplicate field `" ++ name ++ "`"
  | .missingField name => "missing field `" ++ name ++ "`"
  | .custom text => text

def byteCount (cs : List Char) : Nat := cs.foldl (fun n c => n + c.utf8Size) 0

/-- A cause with its place, or with the rest of the text while it has none. -/
inductive Fault where
  /-- The fault lies where `left` bytes remain. -/
  | placed (cause : Cause) (left : Nat)
  | unplaced (cause : Cause) (rest : List Char)

namespace Fault

/-- A fault at the front of the rest. -/
def here (cause : Cause) (rest : List Char) : Fault := .placed cause (byteCount rest)

/-- A fault behind the first byte of the rest. -/
def next (cause : Cause) (rest : List Char) : Fault := .placed cause (byteCount rest - 1)

/-- The fault with a place: where the rest began, if it had none. -/
def place : Fault → Fault
  | .unplaced cause rest => here cause rest
  | f => f

end Fault

/-- The line and the column of a place that lies `index` bytes into a text; `line` and `column`
are those of its beginning. -/
def locate (line column : Nat) : List Char → Nat → Nat × Nat
  | [], _ => (line, column)
  | c :: cs, index =>
    if index < c.utf8Size then (line, column + index)
    else if c = '\n' then locate (line + 1) 0 cs (index - c.utf8Size)
    else locate line (column + c.utf8Size) cs (index - c.utf8Size)

/-- The message of a fault in a text, with its line and column if it has a place. -/
def Fault.message (text : List Char) : Fault → String
  | .unplaced cause _ => cause.wording
  | .placed cause left =>
    let (line, column) := locate 1 0 text (byteCount text - left)
    cause.wording ++ " at line " ++ Numeral.text line ++ " column " ++ Numeral.text column

end StatementPool.Json
