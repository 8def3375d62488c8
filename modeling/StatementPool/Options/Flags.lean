import StatementPool.Options.Basic
/-!
# Options on a command line

Three flags set options, each with a value in the same word behind `=` or in the next word. The
words are read from left to right. A flag with its value in the same word is settled at once; one
whose value is another word stays open until the next flag, the request for help or the end shows
that it is complete. A word that means nothing is refused whatever flag is still open.
-/

namespace StatementPool

inductive FlagFault where
  | unknownArgument
  | invalidValue
  | argumentConflict
  | valueValidation
  | tooManyValues
  | displayHelp

def FlagFault.name : FlagFault → String
  | .unknownArgument => "UnknownArgument"
  | .invalidValue => "InvalidValue"
  | .argumentConflict => "ArgumentConflict"
  | .valueValidation => "ValueValidation"
  | .tooManyValues => "TooManyValues"
  | .displayHelp => "DisplayHelp"

namespace Options

inductive Flag where
  | threads
  | messageType
  | threadName
  deriving DecidableEq

def Flag.ofName? (name : List Char) : Option Flag :=
  if name = "sql-threads".toList then some .threads
  else if name = "sql-message-type".toList then some .messageType
  else if name = "sql-thread-name".toList then some .threadName
  else none

/-- The number that a text of digits stands for, if it is not larger than `most`. -/
def readDigits? (most : Nat) (cs : List Char) : Option Nat :=
  if cs.isEmpty || !cs.all Numeral.isDigit then none
  else if Numeral.toNat cs ≤ most then some (Numeral.toNat cs) else none

/-- The number of a text with an optional plus sign. -/
def readUnsigned? (most : Nat) : List Char → Option Nat
  | '+' :: cs => readDigits? most cs
  | cs => readDigits? most cs

/-- The number of a text with an optional sign; below zero there is only the zero itself. -/
def readSigned? (most : Nat) : List Char → Option Nat
  | '-' :: cs => readDigits? 0 cs
  | cs => readUnsigned? most cs

/-- Set an option from the value of its flag. -/
def set (o : Options) (flag : Flag) (value : List Char) : Option Options :=
  match flag with
  | .threads => (readUnsigned? 18446744073709551615 value).map fun n =>
    { o with maxThreads := .ofNat n }
  | .messageType => (readSigned? 4294967295 value).map fun n =>
    { o with messageType := .ofNat n }
  | .threadName => some { o with threadName := String.ofList value }

/-- What the words so far say: the options, the flags that have been settled, and the flag that is
open with its value, if the value has come. -/
structure Reading where
  options : Options
  settled : List Flag
  opened : Option (Flag × Option (List Char))

def Reading.settle (r : Reading) : Except FlagFault Reading :=
  match r.opened with
  | none => .ok r
  | some (_, none) => .error .invalidValue
  | some (flag, some value) =>
    if flag ∈ r.settled then .error .argumentConflict
    else match r.options.set flag value with
      | some o => .ok ⟨o, flag :: r.settled, none⟩
      | none => .error .valueValidation

/-- The part of a word in front of the first `=`, and the part behind it. -/
def splitValue (word : List Char) : List Char × Option (List Char) :=
  match word.dropWhile (· != '=') with
  | _ :: value => (word.takeWhile (· != '='), some value)
  | [] => (word, none)

/-- Read a word behind two dashes. -/
def Reading.long (r : Reading) (word : List Char) : Except FlagFault Reading :=
  let (name, value) := splitValue word
  match Flag.ofName? name with
  | some flag => do
    let r ← r.settle
    match value with
    | some value => Reading.settle { r with opened := some (flag, some value) }
    | none => .ok { r with opened := some (flag, none) }
  | none =>
    if name = "help".toList then
      match value with
      | some _ => .error .tooManyValues
      | none => do
        let _ ← r.settle
        .error .displayHelp
    else .error .unknownArgument

def Reading.word (r : Reading) (word : String) : Except FlagFault Reading :=
  match word.toList with
  | '-' :: '-' :: name => r.long name
  | '-' :: c :: _ =>
    if c = 'h' then do
      let _ ← r.settle
      .error .displayHelp
    else .error .unknownArgument
  | value =>
    match r.opened with
    | some (flag, none) => .ok { r with opened := some (flag, some value) }
    | _ => .error .unknownArgument

def Reading.words (r : Reading) : List String → Except FlagFault Reading
  | [] => r.settle
  | "--" :: [] => r.settle
  | "--" :: _ :: _ => .error .unknownArgument
  | w :: ws => do
    let r ← r.word w
    r.words ws

/-- The options of a command line; they need not be valid. -/
def ofWords (words : List String) : Except FlagFault Options :=
  (Reading.words ⟨standard, [], none⟩ words).map (·.options)

end Options

end StatementPool
