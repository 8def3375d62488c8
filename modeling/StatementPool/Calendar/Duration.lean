import StatementPool.Number.Numeral
/-!
# Durations

A span of time of either sign: whole seconds, rounded down, and the nanoseconds that are missing.
The longest durations are those of 2^63 - 1 milliseconds.
-/

namespace StatementPool

def IsDuration (secs : Int) (nanos : Nat) : Prop :=
  nanos < 1000000000 ∧
    (-9223372036854776 < secs ∨ secs = -9223372036854776 ∧ 193000000 ≤ nanos) ∧
    (secs < 9223372036854775 ∨ secs = 9223372036854775 ∧ nanos ≤ 807000000)

instance (secs : Int) (nanos : Nat) : Decidable (IsDuration secs nanos) := by
  unfold IsDuration; infer_instance

/-- A span of `secs` seconds and `nanos` billionths. -/
structure Duration where
  secs : Int
  nanos : Nat
  isDuration : IsDuration secs nanos
  deriving DecidableEq

namespace Duration

/-- The duration with the given parts, if they are within the limits. -/
def ofParts? (secs : Int) (nanos : Nat) : Option Duration :=
  if h : IsDuration secs nanos then some ⟨secs, nanos, h⟩ else none

@[simp] theorem ofParts?_parts (d : Duration) : ofParts? d.secs d.nanos = some d := by
  simp [ofParts?, d.isDuration]

def zero : Duration := ⟨0, 0, by decide⟩

/-- The digits of a fraction of nine places without the zeros at their end, behind a point. -/
def fractionText (nanos : Nat) : List Char :=
  if nanos = 0 then []
  else '.' :: ((Numeral.padded 9 nanos).reverse.dropWhile (· == '0')).reverse

/-- The text of a duration: `PT` and the seconds, with a minus sign in front, or `P0D`. -/
def text (d : Duration) : String :=
  let total : Int := d.secs * 1000000000 + d.nanos
  let secs := total.natAbs / 1000000000
  let nanos := total.natAbs % 1000000000
  let sign := if d.secs < 0 then "-" else ""
  if total = 0 then "P0D"
  else sign ++ "PT" ++ String.ofList (Numeral.ofNat secs ++ fractionText nanos) ++ "S"

def shown (d : Duration) : String :=
  "TimeDelta \x7b secs: " ++ Numeral.intText d.secs ++ ", nanos: " ++ Numeral.text d.nanos ++ " \x7d"

end Duration

end StatementPool
