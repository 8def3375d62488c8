/-!
# Binary floating-point numbers

A floating-point number is its bit pattern: a sign, an exponent and a fraction. A finite pattern
stands for `± m · 2^e` (`Format.unpack`), and an exact ratio is rounded to the nearest pattern,
ties to the even one (`Format.round`). Widening, narrowing, products and quotients are all one
rounding of an exact ratio, so none of them depends on the machine's arithmetic.
-/

namespace StatementPool

/-- The layout of a format: how many bits the fraction and the exponent take. -/
structure Format where
  fraction : Nat
  exponent : Nat

/-- What a bit pattern stands for. -/
inductive Unpacked where
  | nan
  | infinite (negative : Bool)
  /-- The number `± m · 2^e`. -/
  | finite (negative : Bool) (m : Nat) (e : Int)

/-- The number `n / d` times `2^e`, as a pair of naturals. -/
def scaledRatio (n d : Nat) (e : Int) : Nat × Nat :=
  match e with
  | .ofNat k => (n * Nat.pow 2 k, d)
  | .negSucc k => (n, d * Nat.pow 2 (k + 1))

/-- The greatest `k` with `2^k ≤ n / d`, for positive `n` and `d`. -/
def floorLog2 (n d : Nat) : Int :=
  let k : Int := (Nat.log2 n : Int) - (Nat.log2 d : Int)
  let (n', d') := scaledRatio n d (-k)
  if d' ≤ n' then k else k - 1

/-- The nearest integer to `n / d`, a half going to the even neighbour. -/
def roundHalfEven (n d : Nat) : Nat :=
  let q := n / d
  let r := n % d
  if d < 2 * r || (d == 2 * r && q % 2 == 1) then q + 1 else q

namespace Format

variable (f : Format)

/-- The exponent of the smallest positive number. -/
def minExponent : Int := 2 - (Nat.pow 2 (f.exponent - 1) : Nat) - (f.fraction : Int)

/-- The pattern of positive infinity: all exponent bits set. -/
def infinity : Nat := (Nat.pow 2 f.exponent - 1) * Nat.pow 2 f.fraction

def signBit : Nat := Nat.pow 2 (f.exponent + f.fraction)

def withSign (negative : Bool) (magnitude : Nat) : Nat :=
  if negative then f.signBit + magnitude else magnitude

def quietNan : Nat := f.infinity + Nat.pow 2 (f.fraction - 1)

/-- What the pattern `bits` stands for. -/
def unpack (bits : Nat) : Unpacked :=
  let negative := f.signBit ≤ bits
  let magnitude := bits % f.signBit
  let e := magnitude / Nat.pow 2 f.fraction
  let m := magnitude % Nat.pow 2 f.fraction
  if f.infinity < magnitude then .nan
  else if magnitude = f.infinity then .infinite negative
  else if e = 0 then .finite negative m f.minExponent
  else .finite negative (Nat.pow 2 f.fraction + m) (f.minExponent + (e - 1 : Nat))

/-- The magnitude of the pattern nearest to `n / d`, ties to even; infinity when the ratio is
too large for the format. -/
def roundMagnitude (n d : Nat) : Nat :=
  if n = 0 then 0
  else
    let e := max (floorLog2 n d - f.fraction) f.minExponent
    let (n', d') := scaledRatio n d (-e)
    min ((e - f.minExponent).toNat * Nat.pow 2 f.fraction + roundHalfEven n' d') f.infinity

def round (negative : Bool) (n d : Nat) : Nat := f.withSign negative (f.roundMagnitude n d)

def pack : Unpacked → Nat
  | .nan => f.quietNan
  | .infinite negative => f.withSign negative f.infinity
  | .finite negative m e =>
    let (n, d) := scaledRatio m 1 e
    f.round negative n d

end Format

def binary64 : Format := ⟨52, 11⟩

def binary32 : Format := ⟨23, 8⟩

structure Binary64 where
  bits : UInt64
  deriving DecidableEq

structure Binary32 where
  bits : UInt32
  deriving DecidableEq

namespace Binary64

def ofPattern (n : Nat) : Binary64 := ⟨UInt64.ofNat n⟩

def unpack (x : Binary64) : Unpacked := binary64.unpack x.bits.toNat

def zero : Binary64 := ⟨0⟩

/-- The number nearest to `± n / d`. -/
def ofRatio (negative : Bool) (n d : Nat) : Binary64 := ofPattern (binary64.round negative n d)

def ofInt (i : Int) : Binary64 := ofRatio (i < 0) i.natAbs 1

def isNan (x : Binary64) : Bool := match x.unpack with
  | .nan => true
  | _ => false

def isInfinite (x : Binary64) : Bool := match x.unpack with
  | .infinite _ => true
  | _ => false

def isZero (x : Binary64) : Bool := match x.unpack with
  | .finite _ m _ => m == 0
  | _ => false

def neg (x : Binary64) : Binary64 := ⟨x.bits ^^^ 0x8000000000000000⟩

/-- Equality of numbers: a NaN equals nothing and the two zeros are equal. -/
def same (x y : Binary64) : Bool :=
  !x.isNan && !y.isNan && (x == y || (x.isZero && y.isZero))

/-- The product of two numbers, rounded once. An infinite factor and a NaN give a NaN here: the
factors of a decimal numeral are finite. -/
def mul (x y : Binary64) : Binary64 :=
  match x.unpack, y.unpack with
  | .finite s m e, .finite t n g =>
    let (a, b) := scaledRatio (m * n) 1 (e + g)
    ofRatio (s != t) a b
  | _, _ => ofPattern binary64.quietNan

/-- The quotient of two numbers, rounded once; the divisor is finite and not zero. -/
def div (x y : Binary64) : Binary64 :=
  match x.unpack, y.unpack with
  | .finite s m e, .finite t n g =>
    let (a, b) := scaledRatio m n (e - g)
    ofRatio (s != t) a b
  | _, _ => ofPattern binary64.quietNan

end Binary64

namespace Binary32

def ofPattern (n : Nat) : Binary32 := ⟨UInt32.ofNat n⟩

def unpack (x : Binary32) : Unpacked := binary32.unpack x.bits.toNat

def zero : Binary32 := ⟨0⟩

def isNan (x : Binary32) : Bool := match x.unpack with
  | .nan => true
  | _ => false

def isZero (x : Binary32) : Bool := match x.unpack with
  | .finite _ m _ => m == 0
  | _ => false

/-- Equality of numbers: a NaN equals nothing and the two zeros are equal. -/
def same (x y : Binary32) : Bool :=
  !x.isNan && !y.isNan && (x == y || (x.isZero && y.isZero))

def widen (x : Binary32) : Binary64 := .ofPattern (binary64.pack x.unpack)

end Binary32

def Binary64.narrow (x : Binary64) : Binary32 := .ofPattern (binary32.pack x.unpack)

end StatementPool
