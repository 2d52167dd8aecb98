/-!
# The exact value of a binary64 number

A finite number is `significand * 2 ^ exponent` up to its sign (`BinaryValue`), and `Float.classify` reads that value
off the 64 bits. Rounding to whole numbers is done on the exact value, as a quotient of naturals (`roundQuotient`), so
that nothing here depends on a rounding mode of the machine.
-/

namespace TrainingJobs

/-- Which way a quotient goes that lies half way between two whole numbers. -/
inductive Tie
  /-- To the even neighbour. -/
  | toEven
  /-- To the neighbour of greater magnitude. -/
  | away
deriving DecidableEq, Repr

/-- The whole number nearest to `num / den`, a tie going as `tie` says. -/
def roundQuotient (num den : Nat) (tie : Tie) : Nat :=
  let floor := num / den
  let twice := 2 * (num % den)
  if twice < den then floor
  else if twice > den then floor + 1
  else match tie with
    | .away => floor + 1
    | .toEven => if floor % 2 = 0 then floor else floor + 1

/-- The exact value of a finite binary64 number: `significand * 2 ^ exponent`, below zero when `negative`. -/
structure BinaryValue where
  negative : Bool
  significand : Nat
  exponent : Int
deriving DecidableEq, Repr

namespace BinaryValue

/-- The magnitude is `numerator / denominator`. -/
def numerator (v : BinaryValue) : Nat := v.significand * Nat.pow 2 v.exponent.toNat

/-- The power of two under the magnitude. -/
def denominator (v : BinaryValue) : Nat := Nat.pow 2 (-v.exponent).toNat

/-- The denominator is never zero. -/
theorem denominator_pos (v : BinaryValue) : 0 < v.denominator := Nat.two_pow_pos _

/-- The magnitude without its fraction. -/
def wholePart (v : BinaryValue) : Nat := v.numerator / v.denominator

/-- Whether the value is a whole number. -/
def isWhole (v : BinaryValue) : Bool := v.numerator % v.denominator == 0

/-- The magnitude rounded to a whole number. -/
def rounded (v : BinaryValue) (tie : Tie) : Nat := roundQuotient v.numerator v.denominator tie

end BinaryValue

/-- What the 64 bits of a float stand for. -/
inductive FloatClass
  | finite (value : BinaryValue)
  | infinite (negative : Bool)
  | nan
deriving DecidableEq, Repr

/-- Reads a float off its bits: the sign in bit 63, the exponent in bits 52 to 62, the fraction below. An exponent field
of zero has no hidden bit, one of 2047 stands for an infinity or for no number. -/
def classify (x : Float) : FloatClass :=
  let bits := x.toBits.toNat
  let negative := bits / Nat.pow 2 63 == 1
  let field : Nat := bits / Nat.pow 2 52 % 2048
  let fraction := bits % Nat.pow 2 52
  if field = 2047 then
    if fraction = 0 then .infinite negative else .nan
  else if field = 0 then
    .finite ⟨negative, fraction, -1074⟩
  else
    .finite ⟨negative, fraction + Nat.pow 2 52, (field : Int) - 1075⟩

/-- Whether a float is neither infinite nor no number. -/
def isFiniteFloat (x : Float) : Bool :=
  match classify x with
  | .finite _ => true
  | _ => false

/-- Whether a float is a whole number. -/
def isWholeFloat (x : Float) : Bool :=
  match classify x with
  | .finite v => v.isWhole
  | _ => false

/-- A float without its fraction. From `2 ^ 52` on every float is whole. -/
def truncated (x : Float) : Float :=
  match classify x with
  | .finite v =>
    if v.exponent ≥ 0 then x
    else
      let whole := Float.ofNat v.wholePart
      if v.negative then -whole else whole
  | _ => x

/-- The greatest unsigned number of 32 bits. -/
def maxWord : Nat := Nat.pow 2 32 - 1

/-- The unsigned 32 bit number nearest to a whole magnitude: what does not fit becomes the closest number that does, and
no number at all becomes zero. -/
def clampWord (negative : Bool) (magnitude : Nat) : Nat :=
  if negative then 0 else min magnitude maxWord

/-- A float cut to an unsigned number of 32 bits: the fraction goes, and what does not fit becomes the closest number
that does. -/
def wordOfFloat (x : Float) : Nat :=
  match classify x with
  | .finite v => clampWord v.negative v.wholePart
  | .infinite negative => if negative then 0 else maxWord
  | .nan => 0

/-- A float rounded, a half away from zero, to an unsigned number of 32 bits. -/
def roundedWord (x : Float) : Nat :=
  match classify x with
  | .finite v => clampWord v.negative (v.rounded .away)
  | .infinite negative => if negative then 0 else maxWord
  | .nan => 0

end TrainingJobs
