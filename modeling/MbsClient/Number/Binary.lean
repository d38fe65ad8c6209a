/-!
# Binary floating point — the interchange formats, exactly

A finite value of a format is a sign and `m · 2^q` for naturals `m` and integers `q`. Everything
here is arithmetic on natural numbers: `unpack` reads a bit pattern, `nearest` finds the pattern
nearest to a quotient, a tie going to the even pattern.
-/

namespace MbsClient.Number

/-- A binary interchange format: how many bits its fraction and its exponent take. -/
structure Format where
  fraction : Nat
  exponent : Nat

namespace Format

def double : Format := ⟨52, 11⟩
def single : Format := ⟨23, 8⟩

/-- The largest exponent field, which marks infinities and NaN. -/
def top (f : Format) : Nat := Nat.pow 2 f.exponent - 1

/-- The power of two that the last bit of the smallest values stands for. -/
def least (f : Format) : Int := 2 - (Nat.pow 2 (f.exponent - 1) : Nat) - (f.fraction : Int)

/-- One bit above the fraction: the leading bit that a pattern leaves out. -/
def hidden (f : Format) : Nat := Nat.pow 2 f.fraction

/-- The bit pattern of positive infinity. -/
def infinity (f : Format) : Nat := f.top * f.hidden

def signBit (f : Format) : Nat := Nat.pow 2 (f.fraction + f.exponent)

end Format

/-- What a bit pattern stands for; a finite value is `m · 2^q`. -/
inductive Unpacked where
  | finite (negative : Bool) (m : Nat) (q : Int)
  | infinite (negative : Bool)
  | nan
deriving DecidableEq, Repr

/-- The value of a bit pattern of format `f`. -/
def unpack (f : Format) (bits : Nat) : Unpacked :=
  let negative := bits / f.signBit % 2 == 1
  let e := bits / f.hidden % (f.top + 1)
  let m := bits % f.hidden
  if e = f.top then (if m = 0 then .infinite negative else .nan)
  else if e = 0 then .finite negative m f.least
  else .finite negative (f.hidden + m) (f.least + (e - 1 : Nat))

/-- `n / d` rounded to the nearest natural, a tie to the even one. -/
def divNearest (n d : Nat) : Nat :=
  let k := n / d
  let r := n % d
  if 2 * r < d then k
  else if d < 2 * r then k + 1
  else if k % 2 = 0 then k else k + 1

/-- `n · 2^e` as a quotient. -/
def scale2 (n : Nat) (e : Int) : Nat × Nat :=
  if 0 ≤ e then (n * Nat.pow 2 e.toNat, 1) else (n, Nat.pow 2 (-e).toNat)

/-- The largest `l` with `2^l ≤ n / d`, for positive `n` and `d`. -/
def log2Quot (n d : Nat) : Int :=
  let l : Int := (Nat.log2 n : Int) - Nat.log2 d
  let (s, t) := scale2 d l
  if n * t < s then l - 1 else l

/-- The bit pattern of format `f` nearest to `n / d`, up to its sign. Since patterns count up with
their values, a carry out of the fraction goes into the exponent by itself. -/
def nearestMagnitude (f : Format) (n d : Nat) : Nat :=
  if n = 0 then 0
  else
    let q := max f.least (log2Quot n d - f.fraction)
    let (s, t) := scale2 1 q
    let m := divNearest (n * t) (d * s)
    min f.infinity ((q - f.least).toNat * f.hidden + m)

def nearest (f : Format) (negative : Bool) (n d : Nat) : Nat :=
  (if negative then f.signBit else 0) + nearestMagnitude f n d

/-- The pattern of format `f` nearest to an unpacked value. -/
def pack (f : Format) : Unpacked → Nat
  | .finite negative m q =>
      let (n, d) := scale2 m q
      nearest f negative n d
  | .infinite negative => (if negative then f.signBit else 0) + f.infinity
  | .nan => f.infinity + f.hidden / 2

end MbsClient.Number
