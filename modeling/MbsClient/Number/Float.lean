import MbsClient.Number.Binary

/-!
# Doubles and singles — floating-point numbers held as their bit patterns

`==` compares as numbers: the two zeros are equal and NaN differs from itself. `=` compares bit
patterns.
-/

namespace MbsClient.Number

/-- A number of double precision. -/
structure Double where
  bits : UInt64
deriving DecidableEq, Repr, Inhabited

/-- A number of single precision. -/
structure Single where
  bits : UInt32
deriving DecidableEq, Repr, Inhabited

/-- Whether two patterns of format `f` stand for the same number. -/
def sameNumber (f : Format) (a b : Nat) : Bool :=
  match unpack f a, unpack f b with
  | .nan, _ => false
  | _, .nan => false
  | .finite _ 0 _, .finite _ 0 _ => true
  | _, _ => a == b

namespace Double

def unpack (x : Double) : Unpacked := Number.unpack .double x.bits.toNat

instance : BEq Double := ⟨fun a b => sameNumber .double a.bits.toNat b.bits.toNat⟩

def ofPattern (bits : Nat) : Double := ⟨UInt64.ofNat bits⟩

def isFinite (x : Double) : Bool :=
  match x.unpack with
  | .finite .. => true
  | _ => false

def isNaN (x : Double) : Bool :=
  match x.unpack with
  | .nan => true
  | _ => false

/-- The double nearest to an integer. -/
def ofInt (n : Int) : Double := ofPattern (nearest .double (n < 0) n.natAbs 1)

/-- The double nearest to `± digits · 10^exponent`. A value below `10^-400` is 0 and one from
`10^400` on infinite, so no power is taken that the digits and the range of a double do not call
for. -/
def ofDecimal (negative : Bool) (digits : Nat) (exponent : Int) : Double :=
  -- an upper bound on the number of decimal digits
  let places : Int := Nat.log2 digits / 3 + 1
  ofPattern <|
    if digits = 0 ∨ exponent + places < -400 then nearest .double negative 0 1
    else if 400 < exponent then pack .double (.infinite negative)
    else if 0 ≤ exponent then nearest .double negative (digits * Nat.pow 10 exponent.toNat) 1
    else nearest .double negative digits (Nat.pow 10 (-exponent).toNat)

/-- `x · n / d`, rounded. -/
def scale (x : Double) (n d : Nat) : Double :=
  match x.unpack with
  | .finite negative m q =>
      let (a, b) := scale2 m q
      ofPattern (nearest .double negative (a * n) (b * d))
  | _ => x

/-- The value of a finite double without its sign, as a quotient. -/
def quotient (x : Double) : Nat × Nat :=
  match x.unpack with
  | .finite _ m q => scale2 m q
  | _ => (0, 1)

def infinite (negative : Bool) : Double := ofPattern (pack .double (.infinite negative))

def nan : Double := ofPattern (pack .double .nan)

/-- The number with the other sign. -/
def negated (x : Double) : Double :=
  match x.unpack with
  | .finite negative m q => ofPattern (pack .double (.finite (!negative) m q))
  | .infinite negative => infinite (!negative)
  | .nan => x

end Double

namespace Single

def unpack (x : Single) : Unpacked := Number.unpack .single x.bits.toNat

instance : BEq Single := ⟨fun a b => sameNumber .single a.bits.toNat b.bits.toNat⟩

def ofPattern (bits : Nat) : Single := ⟨UInt32.ofNat bits⟩

/-- The single nearest to an integer. -/
def ofInt (n : Int) : Single := ofPattern (nearest .single (n < 0) n.natAbs 1)

/-- The single nearest to a double. -/
def ofDouble (x : Double) : Single := ofPattern (pack .single x.unpack)

/-- The double of the same value. -/
def toDouble (x : Single) : Double := .ofPattern (pack .double x.unpack)

end Single

end MbsClient.Number
