import StatementPool.Json.Text
/-!
# Numbers in JSON texts

A number without a fraction and an exponent is an integer as long as it fits 64 bits; any other
is a floating-point number. Its digits are gathered into one word, digits that no longer fit it
only count, and the word is then scaled by a power of ten: the product or the quotient of two
rounded numbers, which need not be the nearest to the numeral.
-/

namespace StatementPool.Json

inductive Number where
  | unsigned (n : Nat)
  | negative (i : Int)
  | float (x : Binary64)

/-- The greatest word that gathers digits. -/
def maxWord : Nat := 18446744073709551615

/-- The greatest exponent that a numeral may spell out. -/
def maxExponent : Nat := 2147483647

def startsWithDigit : List Char → Bool
  | c :: _ => Numeral.isDigit c
  | [] => false

/-- Gather digits into a word as long as they fit; answers the word, how many digits it took and
the rest. -/
def gather (word count : Nat) : List Char → Nat × Nat × List Char
  | [] => (word, count, [])
  | c :: cs =>
    if Numeral.isDigit c && word * 10 + Numeral.value c ≤ maxWord then
      gather (word * 10 + Numeral.value c) (count + 1) cs
    else (word, count, c :: cs)

def powerOfTen (k : Nat) : Binary64 := .ofRatio false (Nat.pow 10 k) 1

/-- The number `x · 10^e`; absent when it is too large. -/
def scale (x : Binary64) (e : Int) : Option Binary64 :=
  if 0 ≤ e then
    if e ≤ 308 then
      let y := x.mul (powerOfTen e.toNat)
      if y.isInfinite then none else some y
    else if x.isZero then some x else none
  else if -308 ≤ e then some (x.div (powerOfTen e.natAbs))
  else if x.isZero then some x
  else scale (x.div (powerOfTen 308)) (e + 308)
termination_by e.natAbs
decreasing_by omega

/-- The number of a gathered word and an exponent, where the numeral ends. -/
def ofParts (positive : Bool) (word : Nat) (e : Int) (rest : List Char) :
    Except Fault (Number × List Char) :=
  match scale (.ofInt word) e with
  | some x => .ok (.float (if positive then x else x.neg), rest)
  | none => .error (.here .numberOutOfRange rest)

/-- Gather the digits of an exponent. A digit that makes it too large is taken, and the answer
says so. -/
def gatherExponent (e : Nat) : List Char → Nat × Bool × List Char
  | [] => (e, true, [])
  | c :: cs =>
    if Numeral.isDigit c then
      if e * 10 + Numeral.value c ≤ maxExponent then gatherExponent (e * 10 + Numeral.value c) cs
      else (e, false, cs)
    else (e, true, c :: cs)

def readExponent (positive : Bool) (word : Nat) (start : Int) (cs : List Char) :
    Except Fault (Number × List Char) :=
  let (raises, cs) := match cs with
    | '+' :: rest => (true, rest)
    | '-' :: rest => (false, rest)
    | rest => (true, rest)
  match cs with
  | [] => .error (.here .endInValue [])
  | c :: _ =>
    if !Numeral.isDigit c then .error (.next .invalidNumber cs)
    else
      match gatherExponent 0 cs with
      | (e, true, rest) => ofParts positive word (if raises then start + e else start - e) rest
      | (_, false, rest) =>
        if word ≠ 0 ∧ raises then .error (.here .numberOutOfRange rest)
        else
          .ok (.float (if positive then .zero else Binary64.zero.neg), rest.dropWhile Numeral.isDigit)

/-- Whether a rest begins with the letter of an exponent; then the rest behind it. -/
def exponentMark? : List Char → Option (List Char)
  | c :: cs => if c = 'e' || c = 'E' then some cs else none
  | [] => none

/-- Read what may follow the digits behind a point. -/
def readTail (positive : Bool) (word : Nat) (e : Int) (cs : List Char) :
    Except Fault (Number × List Char) :=
  match exponentMark? cs with
  | some rest => readExponent positive word e rest
  | none => ofParts positive word e cs

def readFraction (positive : Bool) (word : Nat) (e : Int) (cs : List Char) :
    Except Fault (Number × List Char) :=
  let (word, count, rest) := gather word 0 cs
  if startsWithDigit rest then
    readTail positive word (e - count) (rest.dropWhile Numeral.isDigit)
  else if count = 0 then
    match rest with
    | [] => .error (.here .endInValue [])
    | _ => .error (.next .invalidNumber rest)
  else readTail positive word (e - count) rest

/-- Read what may follow the digits before a point, none of which was dropped. -/
def readAfterWhole (positive : Bool) (word : Nat) (cs : List Char) :
    Except Fault (Number × List Char) :=
  match cs with
  | '.' :: rest => readFraction positive word 0 rest
  | _ => match exponentMark? cs with
    | some rest => readExponent positive word 0 rest
    | none =>
      if positive then .ok (.unsigned word, cs)
      else if word = 0 ∨ 9223372036854775808 < word then
        .ok (.float (Binary64.ofInt word).neg, cs)
      else .ok (.negative (-(word : Int)), cs)

def readNumber (positive : Bool) (cs : List Char) : Except Fault (Number × List Char) :=
  match cs with
  | [] => .error (.here .endInValue [])
  | '0' :: rest =>
    if startsWithDigit rest then .error (.next .invalidNumber rest)
    else readAfterWhole positive 0 rest
  | c :: _ =>
    if !Numeral.isDigit c then .error (.next .invalidNumber cs)
    else
      let (word, _, rest) := gather 0 0 cs
      if startsWithDigit rest then
        let dropped := (rest.takeWhile Numeral.isDigit).length
        match rest.dropWhile Numeral.isDigit with
        | '.' :: rest => readFraction positive word dropped rest
        | rest => readTail positive word dropped rest
      else readAfterWhole positive word rest

/-! ## Skipping a number -/

def skipExponent (cs : List Char) : Except Fault (List Char) :=
  let cs := match cs with
    | '+' :: rest => rest
    | '-' :: rest => rest
    | rest => rest
  match cs with
  | [] => .error (.here .invalidNumber [])
  | c :: rest =>
    if Numeral.isDigit c then .ok (rest.dropWhile Numeral.isDigit)
    else .error (.next .invalidNumber cs)

def skipAfterWhole (cs : List Char) : Except Fault (List Char) :=
  match cs with
  | '.' :: rest =>
    if startsWithDigit rest then
      let rest := rest.dropWhile Numeral.isDigit
      match exponentMark? rest with
      | some rest => skipExponent rest
      | none => .ok rest
    else .error (.next .invalidNumber rest)
  | _ => match exponentMark? cs with
    | some rest => skipExponent rest
    | none => .ok cs

def skipNumber (cs : List Char) : Except Fault (List Char) :=
  match cs with
  | [] => .error (.here .invalidNumber [])
  | '0' :: rest =>
    if startsWithDigit rest then .error (.next .invalidNumber rest) else skipAfterWhole rest
  | c :: rest =>
    if Numeral.isDigit c then skipAfterWhole (rest.dropWhile Numeral.isDigit)
    else .error (.next .invalidNumber cs)

end StatementPool.Json
