/-!
# Binary floating-point numbers

A number is kept as its bits: a sign, an exponent and a fraction. `Binary.ofBits` takes them apart,
`roundRatio` finds the bits nearest to a fraction, with ties to the even mantissa.
-/

namespace Logbook.Decimal

def pow2 (n : Nat) : Nat := Nat.pow 2 n

def pow10 (n : Nat) : Nat := Nat.pow 10 n

/-- How many bits of a number are fraction and how many are exponent. -/
structure Width where
  fraction : Nat
  exponent : Nat
  deriving DecidableEq, Repr

def double : Width := ⟨52, 11⟩

def single : Width := ⟨23, 8⟩

/-- The power of two of the smallest numbers. -/
def Width.lowest (w : Width) : Int := 2 - (pow2 (w.exponent - 1) : Int) - w.fraction

def Width.top (w : Width) : Nat := pow2 w.exponent - 1

def Width.infinity (w : Width) : Nat := w.top * pow2 w.fraction

def Width.signBit (w : Width) (negative : Bool) : Nat :=
  if negative then pow2 (w.fraction + w.exponent) else 0

/-- A number with its sign apart. The finite ones are `mantissa * 2 ^ power`; where the mantissa
is the first of its power, the gap below the number is half the gap above it (`narrow`). -/
inductive Binary where
  | nan
  | infinite (negative : Bool)
  | finite (negative : Bool) (mantissa : Nat) (power : Int) (narrow : Bool)
  deriving DecidableEq, Repr

def Binary.ofBits (w : Width) (bits : Nat) : Binary :=
  let fraction := bits % pow2 w.fraction
  let exponent := bits / pow2 w.fraction % pow2 w.exponent
  let negative := bits / pow2 (w.fraction + w.exponent) % 2 == 1
  if exponent = w.top then
    if fraction = 0 then .infinite negative else .nan
  else if exponent = 0 then .finite negative fraction w.lowest false
  else
    .finite negative (fraction + pow2 w.fraction) (w.lowest + (exponent - 1 : Nat))
      (fraction == 0 && exponent != 1)

def Binary.ofDouble (bits : UInt64) : Binary := .ofBits double bits.toNat

def Binary.ofSingle (bits : UInt32) : Binary := .ofBits single bits.toNat

/-- Whether a number is one of the two zeros. -/
def Binary.isZero : Binary → Bool
  | .finite _ mantissa _ _ => mantissa == 0
  | _ => false

/-- Whether a number is neither infinite nor undefined. -/
def Binary.isFinite : Binary → Bool
  | .finite .. => true
  | _ => false

/-- `num / den` rounded to an integer, ties to even. -/
def roundHalfEven (num den : Nat) : Nat :=
  let floor := num / den
  let twice := 2 * (num % den)
  if twice < den then floor
  else if den < twice then floor + 1
  else floor + floor % 2

/-- The fraction `n / d * 2 ^ power`. -/
def scale2 (n d : Nat) (power : Int) : Nat × Nat :=
  if 0 ≤ power then (n * pow2 power.toNat, d) else (n, d * pow2 (-power).toNat)

/-- The fraction `n / d * 10 ^ power`. -/
def scale10 (n d : Nat) (power : Int) : Nat × Nat :=
  if 0 ≤ power then (n * pow10 power.toNat, d) else (n, d * pow10 (-power).toNat)

/-- The floor of the binary logarithm of `num / den`, which is positive. -/
def floorLog2 (num den : Nat) : Int :=
  let guess : Int := (Nat.log2 num : Int) - Nat.log2 den
  let (n, d) := scale2 num den (-guess)
  if n < d then guess - 1 else guess

/-- The bits of `mantissa * 2 ^ (w.lowest + shift)`, at most those of infinity. A mantissa that
fills its width carries the exponent, so a mantissa rounded up to the next power of two is written
rightly as well. -/
def packBits (w : Width) (mantissa shift : Nat) : Nat :=
  if mantissa < pow2 w.fraction then mantissa
  else min (mantissa + shift * pow2 w.fraction) w.infinity

/-- The bits of the number nearest to `num / den`, which is positive or zero. Values beyond the
largest number become infinity. -/
def roundRatio (w : Width) (num den : Nat) : Nat :=
  let power := max w.lowest (floorLog2 num den - w.fraction)
  let (n, d) := scale2 num den (-power)
  packBits w (roundHalfEven n d) (power - w.lowest).toNat

/-- The bits of the number nearest to `n / d * 2 ^ power`. -/
def roundScaled (w : Width) (n d : Nat) (power : Int) : Nat :=
  let (n, d) := scale2 n d power
  roundRatio w n d

/-- The bits of a double with the value of `b`. -/
def Binary.toDouble : Binary → Nat
  | .nan => double.infinity + pow2 51
  | .infinite negative => double.signBit negative + double.infinity
  | .finite negative mantissa power _ =>
    double.signBit negative + roundScaled double mantissa 1 power

end Logbook.Decimal
