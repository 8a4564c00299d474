/-!
# Double-precision numbers

A number is the 64 bits of an IEEE 754 double. Its meaning is read off exactly, as `± m · 2 ^ q`,
and every operation rounds one exact quotient of natural numbers to the nearest double, a tie going
to the even one. So no operation here rests on the machine's floating point unit, and each can be
reasoned about in `Nat` and `Int`.
-/

namespace Conform

/-- A double, by its bits. -/
structure Number where
  bits : UInt64
  deriving DecidableEq, Repr, Inhabited

namespace Number

/-- What a double stands for. A finite value is `± significand · 2 ^ exponent`. -/
inductive Meaning
  | nan
  | infinite (negative : Bool)
  | finite (negative : Bool) (significand : Nat) (exponent : Int)
  deriving DecidableEq, Repr

/-- Whether the sign bit is set. -/
def isNegative (n : Number) : Bool := decide (Nat.pow 2 63 ≤ n.bits.toNat)

/-- The bits without the sign; ordered like the absolute values. -/
def magnitude (n : Number) : Nat := n.bits.toNat % Nat.pow 2 63

/-- The magnitude of infinity; every magnitude above it is "not a number". -/
def infinityMagnitude : Nat := 0x7ff * Nat.pow 2 52

def isNaN (n : Number) : Bool := decide (infinityMagnitude < n.magnitude)

def isInfinite (n : Number) : Bool := decide (n.magnitude = infinityMagnitude)

def isFinite (n : Number) : Bool := decide (n.magnitude < infinityMagnitude)

/-- Zero of either sign. -/
def isZero (n : Number) : Bool := decide (n.magnitude = 0)

/-- The exact value. -/
def meaning (n : Number) : Meaning :=
  if n.isNaN then .nan
  else if n.isInfinite then .infinite n.isNegative
  else
    let field : Nat := n.magnitude / Nat.pow 2 52
    let fraction := n.magnitude % Nat.pow 2 52
    if field = 0 then .finite n.isNegative fraction (-1074)
    else .finite n.isNegative (fraction + Nat.pow 2 52) ((field : Int) - 1075)

/-- The double with this sign and magnitude. -/
def ofMagnitude (negative : Bool) (magnitude : Nat) : Number :=
  ⟨UInt64.ofNat (magnitude + if negative then Nat.pow 2 63 else 0)⟩

def nan : Number := ofMagnitude false (0x7ff8 * Nat.pow 2 48)

def infinity (negative : Bool) : Number := ofMagnitude negative infinityMagnitude

def zero : Number := ofMagnitude false 0

/-- `num / den` to the nearest natural number, a half going to the even neighbour. -/
def roundHalfEven (num den : Nat) : Nat :=
  let floor := num / den
  let rest := 2 * (num % den)
  if den < rest ∨ (rest = den ∧ floor % 2 = 1) then floor + 1 else floor

/-- `num · 2 ^ shift / den` as a numerator and a denominator. -/
def scaled (num den : Nat) (shift : Int) : Nat × Nat :=
  if 0 ≤ shift then (num * Nat.pow 2 shift.toNat, den) else (num, den * Nat.pow 2 (-shift).toNat)

/-- The double nearest to `± num / den`; past the largest one, infinity. The significand is
computed at the exponent of the quotient's leading bit, but never below that of the smallest double.
A significand that rounds up to the next power of two carries into the exponent field by itself. -/
def ofRatio (negative : Bool) (num den : Nat) : Number :=
  if num = 0 ∨ den = 0 then ofMagnitude negative 0
  else
    let guess : Int := max (num.log2 - den.log2 - 53) (-1074)
    let (n, d) := scaled num den (-guess)
    let exponent := if n < d * Nat.pow 2 53 then guess else guess + 1
    let (n, d) := scaled num den (-exponent)
    let magnitude := (exponent + 1074).toNat * Nat.pow 2 52 + roundHalfEven n d
    ofMagnitude negative (min magnitude infinityMagnitude)

/-- The double nearest to `± significand · 2 ^ exponent`. -/
def ofScaled (negative : Bool) (significand : Nat) (exponent : Int) : Number :=
  let (num, den) := scaled significand 1 exponent
  ofRatio negative num den

def ofNat (n : Nat) : Number := ofRatio false n 1

def ofInt (i : Int) : Number := if i < 0 then ofRatio true i.natAbs 1 else ofNat i.toNat

instance : OfNat Number n := ⟨ofNat n⟩

/-- Place in the order of all doubles that are numbers; both zeros have place 0. -/
def place (n : Number) : Int := if n.isNegative then -(n.magnitude : Int) else n.magnitude

/-- Numeric equality: nothing equals "not a number", and the zeros are equal. -/
def eq (a b : Number) : Bool := !a.isNaN && !b.isNaN && a.place == b.place

def lt (a b : Number) : Bool := !a.isNaN && !b.isNaN && decide (a.place < b.place)

def le (a b : Number) : Bool := !a.isNaN && !b.isNaN && decide (a.place ≤ b.place)

def neg (n : Number) : Number := ofMagnitude (!n.isNegative) n.magnitude

def mul (a b : Number) : Number :=
  match a.meaning, b.meaning with
  | .finite s m p, .finite t n q => ofScaled (s != t) (m * n) (p + q)
  | .infinite s, .infinite t => infinity (s != t)
  | .infinite s, .finite t n _ => if n = 0 then nan else infinity (s != t)
  | .finite s m _, .infinite t => if m = 0 then nan else infinity (s != t)
  | _, _ => nan

def div (a b : Number) : Number :=
  match a.meaning, b.meaning with
  | .finite s m p, .finite t n q =>
    if n = 0 then (if m = 0 then nan else infinity (s != t))
    else
      let (num, den) := scaled m n (p - q)
      ofRatio (s != t) num den
  | .infinite s, .finite t _ _ => infinity (s != t)
  | .finite s _ _, .infinite t => ofMagnitude (s != t) 0
  | _, _ => nan

/-- `base ^ n` by repeated squaring, each product rounded. -/
def powSquaring (base : Number) (n : Nat) (acc : Number) : Number :=
  if n = 0 then acc
  else
    let acc := if n % 2 = 1 then acc.mul base else acc
    if n / 2 = 0 then acc else powSquaring (base.mul base) (n / 2) acc
  termination_by n
  decreasing_by omega

def pow (base : Number) (n : Nat) : Number := powSquaring base n 1

/-- Whether the number is finite and has no fractional part. -/
def isIntegral (n : Number) : Bool :=
  match n.meaning with
  | .finite _ m q => decide (0 ≤ q) || m % Nat.pow 2 (-q).toNat == 0
  | _ => false

/-- The integer next to the number on the side of zero; none without a finite value. -/
def truncate? (n : Number) : Option Int :=
  match n.meaning with
  | .finite s m q =>
    let size : Nat := if 0 ≤ q then m * Nat.pow 2 q.toNat else m / Nat.pow 2 (-q).toNat
    some (if s then -(size : Int) else size)
  | _ => none

/-- The nearest integer, a half going away from zero; the sign stays. -/
def round (n : Number) : Number :=
  match n.meaning with
  | .finite s m q =>
    if 0 ≤ q then n
    else
      let unit := Nat.pow 2 (-q).toNat
      ofRatio s ((2 * m + unit) / (2 * unit)) 1
  | _ => n

/-- The integer part held to `lo … hi`: infinities go to the ends, "not a number" to zero. -/
def clampInt (n : Number) (lo hi : Int) : Int :=
  match n.truncate? with
  | some i => max lo (min hi i)
  | none => if n.isNaN then 0 else if n.isNegative then lo else hi

/-- The number as a count: the fraction dropped, held to 64 bits without sign. -/
def toCount (n : Number) : Nat := (n.clampInt 0 0xffffffffffffffff).toNat

/-- Whether `n` is an exact multiple of the finite, nonzero `base`. -/
def isMultipleOf (n base : Number) : Bool :=
  match n.meaning, base.meaning with
  | .finite _ m p, .finite _ b q =>
    if b = 0 then false
    else
      let low := min p q
      (m * Nat.pow 2 (p - low).toNat) % (b * Nat.pow 2 (q - low).toNat) == 0
  | .finite _ _ _, .infinite _ => n.isZero
  | _, _ => false

/-- Above this many, neighbouring integers share a double. -/
def safeIntegerBound : Nat := Nat.pow 2 53

/-- The integer value of a number below `2 ^ 53` in size without fraction. -/
def toSafeInt? (n : Number) : Option Int :=
  if n.isIntegral then
    match n.truncate? with
    | some i => if i.natAbs < safeIntegerBound then some i else none
    | none => none
  else none

end Number

end Conform
