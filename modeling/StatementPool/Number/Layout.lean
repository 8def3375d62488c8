import StatementPool.Number.Shortest
/-!
# The text of a binary number

A number is written with its shortest decimal, in positional or scientific notation, or with a
fixed count of places after the point, rounded from the exact value. A `NumberLayout` holds
what the writers of this library decide differently.
-/

namespace StatementPool

/-- How the shortest decimal of a number is laid out. -/
structure NumberLayout where
  /-- The scientific exponents that are written positionally. -/
  positional : Int → Bool
  /-- Whether a whole number ends in `.0` in positional notation. -/
  keepsPoint : Bool
  /-- What stands between the digits and an exponent that is not negative. -/
  exponentMark : String
  tie : Tie

namespace NumberLayout

def place (keepsPoint : Bool) (x : Decimal) : List Char :=
  match x.exponent with
  | .negSucc k => '0' :: '.' :: (List.replicate k '0' ++ x.digits)
  | .ofNat k =>
    let whole := x.digits.take (k + 1)
    let rest := x.digits.drop (k + 1)
    let zeros := List.replicate (k + 1 - whole.length) '0'
    whole ++ zeros ++
      (if rest.isEmpty then (if keepsPoint then ['.', '0'] else []) else '.' :: rest)

/-- One digit, the other digits after a point, and the exponent. -/
def scientific (mark : String) (x : Decimal) : List Char :=
  let digits := match x.digits with
    | d :: e :: ds => d :: '.' :: e :: ds
    | ds => ds
  match x.exponent with
  | .ofNat k => digits ++ mark.toList ++ Numeral.ofNat k
  | .negSucc k => digits ++ 'e' :: '-' :: Numeral.ofNat (k + 1)

def magnitude (s : NumberLayout) (f : Format) (m : Nat) (e : Int) : List Char :=
  if m = 0 then (if s.keepsPoint then ['0', '.', '0'] else ['0'])
  else
    let x := Decimal.shortest f s.tie m e
    if s.positional x.exponent then place s.keepsPoint x else scientific s.exponentMark x

end NumberLayout

/-- The notation of a value that is shown: positional from `1e-4` up to `1e16`. -/
def NumberLayout.shown : NumberLayout where
  positional k := -4 ≤ k && k < 16
  keepsPoint := true
  exponentMark := "e"
  tie := .up

/-- The notation of a plain text: always positional, and a whole number has no point. -/
def NumberLayout.plain : NumberLayout where
  positional _ := true
  keepsPoint := false
  exponentMark := "e"
  tie := .up

/-- The notation of a JSON number: positional from `1e-5` up to `1e16`, and a positive exponent
carries its sign. -/
def NumberLayout.json : NumberLayout where
  positional k := -5 ≤ k && k < 16
  keepsPoint := true
  exponentMark := "e+"
  tie := .even

/-- The exact magnitude `m · 2^e` with `places` digits after the point, a half going to the even
neighbour. -/
def fixedPlaces (places m : Nat) (e : Int) : List Char :=
  let (n, d) := scaledRatio m 1 e
  let q := roundHalfEven (n * Nat.pow 10 places) d
  let ds := Numeral.padded (places + 1) q
  let whole := ds.take (ds.length - places)
  if places = 0 then whole else whole ++ '.' :: ds.drop (ds.length - places)

/-- The text of a number of format `f` that a value is shown with. -/
def Unpacked.shown (f : Format) : Unpacked → String
  | .nan => "NaN"
  | .infinite false => "inf"
  | .infinite true => "-inf"
  | .finite s m e => String.ofList ((if s then ['-'] else []) ++ NumberLayout.shown.magnitude f m e)

end StatementPool
