import StatementPool.Calendar.DateTime
import StatementPool.Text.Blank
/-!
# Reading dates

A date or a moment is read by a pattern, a list of items that each take a part of the text.
A number skips the blanks before it and takes at most two digits, or four for a year; a year with
a sign takes all its digits. Two patterns serve texts that people write, two the strict form that
other programs write.
-/

namespace StatementPool

/-- Why a text is not a date. -/
inductive CalendarFault where
  | invalid
  | tooShort
  | tooLong
  | outOfRange

def CalendarFault.message : CalendarFault → String
  | .invalid => "input contains invalid characters"
  | .tooShort => "premature end of input"
  | .tooLong => "trailing input"
  | .outOfRange => "input is out of range"

/-- The parts that a text has given so far; a part that no item reads stays zero. -/
structure CalendarParts where
  year : Int
  month : Nat
  day : Nat
  hour : Nat
  minute : Nat
  second : Nat
  nanos : Nat

inductive Unit2 where
  | month
  | day
  | hour
  | minute
  | second

/-- What one item of a pattern takes. -/
inductive PatternItem where
  /-- A year, signed or of at most four digits. -/
  | year
  /-- A number of one or two digits. -/
  | part (u : Unit2)
  | blanks
  | literal (c : Char)
  /-- A point and exactly three digits. -/
  | millis
  /-- A point and digits, or nothing; the digits past the ninth mean nothing. -/
  | fraction

namespace Pattern

/-- Take the digits at the front, one at least and `most` at most. -/
def number (most : Option Nat) (cs : List Char) : Except CalendarFault (Nat × List Char) :=
  let digits := cs.takeWhile Numeral.isDigit
  let digits := match most with
    | some n => digits.take n
    | none => digits
  match cs, digits with
  | [], _ => .error .tooShort
  | _, [] => .error .invalid
  | _, _ => .ok (Numeral.toNat digits, cs.drop digits.length)

def year (cs : List Char) : Except CalendarFault (Int × List Char) := do
  let (y, rest) ← match dropBlanks cs with
    | '-' :: rest => do
      let (n, rest) ← number none rest
      pure (-(n : Int), rest)
    | '+' :: rest => do
      let (n, rest) ← number none rest
      pure ((n : Int), rest)
    | rest => do
      let (n, rest) ← number (some 4) rest
      pure ((n : Int), rest)
  if -2147483648 ≤ y ∧ y ≤ 2147483647 then .ok (y, rest) else .error .outOfRange

/-- Store a part of two digits; a number that the part never has is refused at once. -/
def setPart (p : CalendarParts) (n : Nat) : Unit2 → Except CalendarFault CalendarParts
  | .month => if 1 ≤ n ∧ n ≤ 12 then .ok { p with month := n } else .error .outOfRange
  | .day => if 1 ≤ n ∧ n ≤ 31 then .ok { p with day := n } else .error .outOfRange
  | .hour => if n ≤ 23 then .ok { p with hour := n } else .error .outOfRange
  | .minute => if n ≤ 59 then .ok { p with minute := n } else .error .outOfRange
  | .second => if n ≤ 60 then .ok { p with second := n } else .error .outOfRange

def take (p : CalendarParts) (cs : List Char) :
    PatternItem → Except CalendarFault (CalendarParts × List Char)
  | .year => do
    let (y, rest) ← year cs
    pure ({ p with year := y }, rest)
  | .part u => do
    let (n, rest) ← number (some 2) (dropBlanks cs)
    let p ← setPart p n u
    pure (p, rest)
  | .blanks => .ok (p, dropBlanks cs)
  | .literal c => match cs with
    | [] => .error .tooShort
    | d :: rest => if d = c then .ok (p, rest) else .error .invalid
  | .millis => match cs with
    | '.' :: a :: b :: c :: rest =>
      if Numeral.isDigit a && Numeral.isDigit b && Numeral.isDigit c then
        .ok ({ p with nanos := Numeral.toNat [a, b, c] * 1000000 }, rest)
      else .error .invalid
    | _ => .error .invalid
  | .fraction => match cs with
    | '.' :: rest => do
      let (n, after) ← number (some 9) rest
      let places := rest.length - after.length
      pure ({ p with nanos := n * Nat.pow 10 (9 - places) }, after.dropWhile Numeral.isDigit)
    | _ => .ok (p, cs)

/-- Take what all items ask for, in order, and then nothing may be left. -/
def run (p : CalendarParts) (cs : List Char) :
    List PatternItem → Except CalendarFault CalendarParts
  | [] => if cs.isEmpty then .ok p else .error .tooLong
  | item :: items => do
    let (p, cs) ← take p cs item
    run p cs items

def read (items : List PatternItem) (s : String) : Except CalendarFault CalendarParts :=
  run ⟨0, 0, 0, 0, 0, 0, 0⟩ s.toList items

def toDate (p : CalendarParts) : Except CalendarFault Date :=
  match Date.ofParts? p.year p.month p.day with
  | some d => .ok d
  | none => .error .outOfRange

/-- The moment of the parts; second 60 is a leap second. -/
def toDateTime (p : CalendarParts) : Except CalendarFault DateTime := do
  let date ← toDate p
  let (second, nanos) := if p.second = 60 then (59, 1000000000 + p.nanos) else (p.second, p.nanos)
  match DateTime.ofParts? date p.hour p.minute second nanos with
  | some t => .ok t
  | none => .error .outOfRange

/-- `year-month-day` as people write it. -/
def looseDate : List PatternItem :=
  [.year, .literal '-', .part .month, .literal '-', .part .day]

/-- `year-month-day hour:minute:second` as people write it. -/
def looseDateTime : List PatternItem :=
  looseDate ++
    [.blanks, .part .hour, .literal ':', .part .minute, .literal ':', .part .second]

def looseMillis : List PatternItem := looseDateTime ++ [.millis]

/-- `year-month-day` as programs write it; blanks may follow every number. -/
def strictDate : List PatternItem :=
  [.year, .blanks, .literal '-', .part .month, .blanks, .literal '-', .part .day, .blanks]

/-- `year-month-dayThour:minute:second.fraction` as programs write it. -/
def strictDateTime : List PatternItem :=
  strictDate ++
    [.literal 'T', .part .hour, .blanks, .literal ':', .part .minute, .blanks, .literal ':',
      .part .second, .fraction, .blanks]

end Pattern

def Date.ofText? (s : String) : Option Date :=
  (Pattern.read Pattern.looseDate s >>= Pattern.toDate).toOption

/-- The moment that a text names in its loose form, with or without milliseconds. -/
def DateTime.ofText? (s : String) : Option DateTime :=
  (Pattern.read Pattern.looseDateTime s >>= Pattern.toDateTime).toOption <|>
    (Pattern.read Pattern.looseMillis s >>= Pattern.toDateTime).toOption

def Date.parse (s : String) : Except CalendarFault Date :=
  Pattern.read Pattern.strictDate s >>= Pattern.toDate

def DateTime.parse (s : String) : Except CalendarFault DateTime :=
  Pattern.read Pattern.strictDateTime s >>= Pattern.toDateTime

end StatementPool
