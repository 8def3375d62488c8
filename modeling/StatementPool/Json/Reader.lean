import StatementPool.Json.Skip
import StatementPool.Number.Ranged
/-!
# Reading typed values

A reader takes one value of a certain type from the front of a text. What it expects is named in
the fault of a value of another type. A fault of meaning gets its place where the value ends that
it was found in: at the end of a string or a number, or behind the bracket that is looked for
after the last element.
-/

namespace StatementPool.Json

abbrev Reader (α : Type) := List Char → Except Fault (α × List Char)

/-- The fault of a value that is not of the expected type; the value is read as far as its class
shows. -/
def otherType (expected : String) (cs : List Char) : Fault :=
  match cs with
  | [] => .here .noValue []
  | c :: rest =>
    let wrong (found : Found) (rest : List Char) : Fault := .here (.wrongType found expected) rest
    let word (w : List Char) (found : Found) : Fault :=
      match readWord w rest with
      | .error f => f
      | .ok rest => wrong found rest
    let number (n : Except Fault (Number × List Char)) : Fault :=
      match n with
      | .error f => f
      | .ok (.unsigned n, rest) => wrong (.integer n) rest
      | .ok (.negative i, rest) => wrong (.integer i) rest
      | .ok (.float x, rest) => wrong (.float x) rest
    if c = 'n' then word ['u', 'l', 'l'] .null
    else if c = 't' then word ['r', 'u', 'e'] (.bool true)
    else if c = 'f' then word ['a', 'l', 's', 'e'] (.bool false)
    else if c = '-' then number (readNumber false rest)
    else if Numeral.isDigit c then number (readNumber true (c :: rest))
    else if c = '"' then
      match readString rest with
      | .error f => f
      | .ok (s, rest) => wrong (.text (String.ofList s)) rest
    else if c = '[' then wrong .sequence (c :: rest)
    else if c = '\x7b' then wrong .map (c :: rest)
    else .next .noValue (c :: rest)

/-- Read a value whose first character decides: `accept` says how it goes on, if it does. -/
def readValue {α : Type} (expected : String) (accept : Char → List Char → Option (Except Fault (α × List Char))) :
    Reader α := fun cs =>
  match dropSpace cs with
  | [] => .error (.here .endInValue [])
  | c :: rest =>
    match accept c rest with
    | some result => result
    | none => .error (otherType expected (c :: rest))

/-! ## Scalars -/

def readNull : Reader Unit :=
  readValue "unit" fun c rest =>
    if c = 'n' then some ((readWord ['u', 'l', 'l'] rest).map ((), ·)) else none

def readBool : Reader Bool :=
  readValue "a boolean" fun c rest =>
    if c = 't' then some ((readWord ['r', 'u', 'e'] rest).map (true, ·))
    else if c = 'f' then some ((readWord ['a', 'l', 's', 'e'] rest).map (false, ·))
    else none

/-- Read a string and take its meaning; a cause that the meaning has lies behind the string. -/
def readText {α : Type} (expected : String) (meaning : String → Except Cause α) : Reader α :=
  readValue expected fun c rest =>
    if c = '"' then some (match readString rest with
      | .error f => .error f
      | .ok (s, rest) => match meaning (String.ofList s) with
        | .error cause => .error (.here cause rest)
        | .ok a => .ok (a, rest))
    else none

/-- Read a number and take its meaning. -/
def readNumeric {α : Type} (expected : String) (meaning : Number → Except Cause α) : Reader α :=
  readValue expected fun c rest =>
    let finish (n : Except Fault (Number × List Char)) : Except Fault (α × List Char) :=
      match n with
      | .error f => .error f
      | .ok (n, rest) => match meaning n with
        | .error cause => .error (.here cause rest)
        | .ok a => .ok (a, rest)
    if c = '-' then some (finish (readNumber false rest))
    else if Numeral.isDigit c then some (finish (readNumber true (c :: rest)))
    else none

def Number.toRange (name : String) (lo hi : Int) : Number → Except Cause (Ranged lo hi)
  | .float x => .error (.wrongType (.float x) name)
  | .unsigned n => match Ranged.ofInt? lo hi n with
    | some i => .ok i
    | none => .error (.wrongValue (.integer n) name)
  | .negative i => match Ranged.ofInt? lo hi i with
    | some i => .ok i
    | none => .error (.wrongValue (.integer i) name)

def readRange (name : String) (lo hi : Int) : Reader (Ranged lo hi) :=
  readNumeric name (Number.toRange name lo hi)

def readWord64 (name : String) : Reader UInt64 := fun cs =>
  (readRange name 0 18446744073709551615 cs).map fun (n, rest) => (UInt64.ofNat n.val.toNat, rest)

def readWord32 : Reader UInt32 := fun cs =>
  (readRange "u32" 0 4294967295 cs).map fun (n, rest) => (UInt32.ofNat n.val.toNat, rest)

def readByte : Reader UInt8 := fun cs =>
  (readRange "u8" 0 255 cs).map fun (n, rest) => (UInt8.ofNat n.val.toNat, rest)

/-- Read a floating-point number; an integer stands for the nearest one. -/
def readFloat : Reader Binary64 :=
  readNumeric "f64" fun
    | .unsigned n => .ok (.ofInt n)
    | .negative i => .ok (.ofInt i)
    | .float x => .ok x

/-! ## Lists -/

/-- Look for the closing bracket of a list. The rest is what is left after looking, also when the
bracket is not there. -/
def closeList (cs : List Char) : List Char × Option Fault :=
  match dropSpace cs with
  | [] => ([], some (.here .endInList []))
  | c :: rest =>
    if c = ']' then (rest, none)
    else if c = ',' then
      match dropSpace rest with
      | ']' :: after => (']' :: after, some (.next .trailingComma (']' :: after)))
      | after => (after, some (.next .trailingCharacters after))
    else (c :: rest, some (.next .trailingCharacters (c :: rest)))

def closeObject (cs : List Char) : List Char × Option Fault :=
  match dropSpace cs with
  | [] => ([], some (.here .endInObject []))
  | c :: rest =>
    if c = '\x7d' then (rest, none)
    else if c = ',' then (c :: rest, some (.next .trailingComma (c :: rest)))
    else (c :: rest, some (.next .trailingCharacters (c :: rest)))

/-- Close what was read inside a bracket. A fault without a place gets it where the search for
the bracket ended. -/
def close {α : Type} (search : List Char → List Char × Option Fault)
    (inner : Except Fault (α × List Char)) : Except Fault (α × List Char) :=
  match inner with
  | .error (.unplaced cause rest) => .error (.here cause (search rest).1)
  | .error f => .error f
  | .ok (a, rest) => match search rest with
    | (rest, none) => .ok (a, rest)
    | (_, some f) => .error f

/-- Look for one more element of a list; answers the rest at that element, if there is one. -/
def nextElement (first : Bool) (cs : List Char) : Except Fault (Option (List Char)) :=
  match dropSpace cs with
  | [] => .error (.here .endInList [])
  | c :: rest =>
    if c = ']' then .ok none
    else if first then .ok (some (c :: rest))
    else if c = ',' then
      match dropSpace rest with
      | [] => .error (.here .endInValue [])
      | ']' :: after => .error (.next .trailingComma (']' :: after))
      | after => .ok (some after)
    else .error (.next .noListEnd (c :: rest))

def readElement {α : Type} (r : Reader α) (first : Bool) (cs : List Char) :
    Except Fault (Option α × List Char) :=
  match nextElement first cs with
  | .error f => .error f
  | .ok none => .ok (none, dropSpace cs)
  | .ok (some cs) => (r cs).map fun (a, rest) => (some a, rest)

def readElements {α : Type} (r : Reader α) (first : Bool) (cs : List Char) :
    Except Fault (List α × List Char) :=
  match readElement r first cs with
  | .error f => .error f
  | .ok (none, rest) => .ok ([], rest)
  | .ok (some a, rest) =>
    if _h : rest.length < cs.length then
      (readElements r false rest).map fun (as, rest) => (a :: as, rest)
    else .error (.here .noValue rest)
termination_by cs.length

def readList {α : Type} (r : Reader α) : Reader (List α) :=
  readValue "a sequence" fun c rest =>
    if c = '[' then some (close closeList (readElements r true rest)) else none

def readTwo {α β : Type} (expected : String) (r : Reader α) (s : Reader β) (cs : List Char) :
    Except Fault ((α × β) × List Char) :=
  match readElement r true cs with
  | .error f => .error f
  | .ok (none, rest) => .error (.unplaced (.wrongLength 0 expected) rest)
  | .ok (some a, rest) =>
    match readElement s false rest with
    | .error f => .error f
    | .ok (none, rest) => .error (.unplaced (.wrongLength 1 expected) rest)
    | .ok (some b, rest) => .ok ((a, b), rest)

def readPair {α β : Type} (r : Reader α) (s : Reader β) : Reader (α × β) :=
  readValue "a tuple of size 2" fun c rest =>
    if c = '[' then some (close closeList (readTwo "a tuple of size 2" r s rest)) else none

/-! ## Objects -/

def readColon (cs : List Char) : Except Fault (List Char) :=
  match dropSpace cs with
  | [] => .error (.here .endInObject [])
  | c :: rest => if c = ':' then .ok rest else .error (.next .noColon (c :: rest))

/-- Look for one more key of an object; answers the rest behind its opening quote, if there is
one. -/
def nextKey (first : Bool) (cs : List Char) : Except Fault (Option (List Char)) :=
  match dropSpace cs with
  | [] => .error (.here .endInObject [])
  | c :: rest =>
    if c = '\x7d' then .ok none
    else if first then
      if c = '"' then .ok (some rest) else .error (.next .keyNotString (c :: rest))
    else if c = ',' then
      match dropSpace rest with
      | [] => .error (.here .endInValue [])
      | d :: after =>
        if d = '"' then .ok (some after)
        else if d = '\x7d' then .error (.next .trailingComma (d :: after))
        else .error (.next .keyNotString (d :: after))
    else .error (.next .noObjectEnd (c :: rest))

inductive Member (σ : Type) where
  /-- The value is read and changes the state. -/
  | known (r : Reader σ)
  | duplicate
  | unknown

/-- Read the members of an object; `member` says what becomes of each. -/
def readMembers {σ : Type} (member : σ → String → Member σ) (state : σ) (first : Bool)
    (cs : List Char) : Except Fault (σ × List Char) :=
  match nextKey first cs with
  | .error f => .error f
  | .ok none => .ok (state, dropSpace cs)
  | .ok (some rest) =>
    match readString rest with
    | .error f => .error f
    | .ok (key, rest) =>
      let name := String.ofList key
      let result : Except Fault (σ × List Char) :=
        match member state name with
        | .duplicate => .error (.unplaced (.duplicateField name) rest)
        | .known r => match readColon rest with
          | .error f => .error f
          | .ok rest => r rest
        | .unknown => match readColon rest with
          | .error f => .error f
          | .ok rest => (skipValue rest).map (state, ·)
      match result with
      | .error f => .error f
      | .ok (state, rest) =>
        if _h : rest.length < cs.length then readMembers member state false rest
        else .error (.here .noValue rest)
termination_by cs.length

/-- How a structure is read: from its members in any order, or from the list of its values. -/
structure Schema (σ α : Type) where
  expected : String
  start : σ
  member : σ → String → Member σ
  /-- The structure of the members that were read, or what is wrong with them. -/
  finish : σ → Except Cause α
  elements : Reader α

def Schema.read {σ α : Type} (s : Schema σ α) : Reader α :=
  readValue s.expected fun c rest =>
    if c = '[' then some (close closeList (s.elements rest))
    else if c = '\x7b' then
      some (close closeObject (match readMembers s.member s.start true rest with
        | .error f => .error f
        | .ok (state, rest) => match s.finish state with
          | .error cause => .error (.unplaced cause rest)
          | .ok a => .ok (a, rest)))
    else none

/-! ## Variants -/

inductive Variant (α : Type) where
  | bare (a : α)
  | carrying (r : Reader α)

def readVariantName {α : Type} (expected : String) (variants : List (String × Variant α)) :
    Reader (Variant α) :=
  readText expected fun name =>
    match variants.find? (·.1 == name) with
    | some (_, v) => .ok v
    | none => .error (.unknownVariant name (variants.map Prod.fst))

/-- Read the name of a variant as the first key of an object; an object without a key has none. -/
def readVariantKey {α : Type} (expected : String) (variants : List (String × Variant α)) :
    Reader (Variant α) := fun cs =>
  match nextKey true cs with
  | .error f => .error f
  | .ok none => .error (.next .noValue (dropSpace cs))
  | .ok (some _) => readVariantName expected variants cs

/-- Read a variant: its name alone, or an object with the name as its only key. -/
def readVariant {α : Type} (expected : String) (variants : List (String × Variant α)) :
    Reader α := fun cs =>
  match dropSpace cs with
  | [] => .error (.here .endInValue [])
  | c :: rest =>
    if c = '"' then
      match readVariantName expected variants (c :: rest) with
      | .error f => .error f
      | .ok (.bare a, rest) => .ok (a, rest)
      | .ok (.carrying _, rest) =>
        .error (.unplaced (.wrongType .unitVariant "newtype variant") rest)
    else if c = '\x7b' then
      match readVariantKey expected variants rest with
      | .error f => .error f
      | .ok (v, rest) =>
        match readColon rest with
        | .error f => .error f
        | .ok rest =>
          let result : Except Fault (α × List Char) := match v with
            | .bare a => (readNull rest).map fun (_, rest) => (a, rest)
            | .carrying r => r rest
          match result with
          | .error f => .error f
          | .ok (a, rest) =>
            match dropSpace rest with
            | [] => .error (.here .endInObject [])
            | d :: after =>
              if d = '\x7d' then .ok (a, after) else .error (.here .noValue (d :: after))
    else .error (.next .noValue (c :: rest))

/-! ## Documents -/

/-- Read a text that is one value, or say what is wrong with it. -/
def parse {α : Type} (r : Reader α) (s : String) : Except String α :=
  let text := s.toList
  match r text with
  | .error f => .error (f.message text)
  | .ok (a, rest) => match dropSpace rest with
    | [] => .ok a
    | rest => .error ((Fault.next .trailingCharacters rest).message text)

end StatementPool.Json
