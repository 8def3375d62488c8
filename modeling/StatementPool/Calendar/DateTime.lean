import StatementPool.Calendar.Date
/-!
# Dates with a time of day

A moment of a day without a time zone, to the nanosecond. A second with a billion nanoseconds or
more stands for itself and the leap second behind it, and is written as the second after it: the
one that ends a minute as second 60.
-/

namespace StatementPool

/-- Whether the parts name a time of day; any second may have a leap second behind it. -/
def IsClock (hour minute second nanos : Nat) : Prop :=
  hour < 24 ∧ minute < 60 ∧ second < 60 ∧ nanos < 2000000000

instance (hour minute second nanos : Nat) : Decidable (IsClock hour minute second nanos) := by
  unfold IsClock; infer_instance

/-- A day and a time of that day. -/
structure DateTime where
  date : Date
  hour : Nat
  minute : Nat
  second : Nat
  nanos : Nat
  isClock : IsClock hour minute second nanos
  deriving DecidableEq

namespace DateTime

/-- The moment with the given parts, if there is one. -/
def ofParts? (date : Date) (hour minute second nanos : Nat) : Option DateTime :=
  if h : IsClock hour minute second nanos then some ⟨date, hour, minute, second, nanos, h⟩ else none

@[simp] theorem ofParts?_parts (t : DateTime) :
    ofParts? t.date t.hour t.minute t.second t.nanos = some t := by
  simp [ofParts?, t.isClock]

def epoch : DateTime := ⟨.epoch, 0, 0, 0, 0, by decide⟩

/-- The fraction of a second behind a point: nothing, or as many groups of three digits as it
takes. -/
def fractionText (nanos : Nat) : List Char :=
  if nanos = 0 then []
  else if nanos % 1000000 = 0 then '.' :: Numeral.padded 3 (nanos / 1000000)
  else if nanos % 1000 = 0 then '.' :: Numeral.padded 6 (nanos / 1000)
  else '.' :: Numeral.padded 9 nanos

def clockText (hour minute second nanos : Nat) : List Char :=
  let (second, nanos) :=
    if 1000000000 ≤ nanos then (second + 1, nanos - 1000000000) else (second, nanos)
  Numeral.padded 2 hour ++ ':' :: (Numeral.padded 2 minute ++ ':' ::
    (Numeral.padded 2 second ++ fractionText nanos))

/-- The date and the time of day with a character between them. -/
def text (t : DateTime) (between : Char) : List Char :=
  t.date.text ++ between :: clockText t.hour t.minute t.second t.nanos

end DateTime

end StatementPool
