import MbsClient.Number.Float
import MbsClient.Text.Decimal

/-!
# Shortest decimals — the fewest digits that read back as the same double

A double stands for every real that rounds to it. On the grid of multiples of `10^k` only the two
neighbours of its exact value can lie in that interval, so trying grids from coarse to fine finds
the fewest digits; of two hits the nearer one is taken, of two equally near the even one.
-/

namespace MbsClient.Number

/-- `n · 10^e` as a quotient. -/
def scale10 (n : Nat) (e : Int) : Nat × Nat :=
  if 0 ≤ e then (n * Nat.pow 10 e.toNat, 1) else (n, Nat.pow 10 (-e).toNat)

/-- The reals that round to a positive finite double `m · 2^q`, in units of `2^(q-2)`, and whether
the ends belong to them. -/
structure Interval where
  low : Nat
  value : Nat
  high : Nat
  closed : Bool
  unit : Int

namespace Interval

/-- Below a power of two the neighbour is half as far away. -/
def ofFinite (f : Format) (m : Nat) (q : Int) : Interval :=
  let below := if m = f.hidden ∧ f.least < q then 1 else 2
  ⟨4 * m - below, 4 * m, 4 * m + 2, m % 2 == 0, q - 2⟩

/-- Whether `c · 10^k` rounds to the double. -/
def holds (i : Interval) (c : Nat) (k : Int) : Bool :=
  let (n, d) := scale10 c k
  let (s, t) := scale2 1 i.unit
  let x := n * t
  let low := i.low * s * d
  let high := i.high * s * d
  if i.closed then low ≤ x && x ≤ high else low < x && x < high

/-- The largest `e` with `10^e` not above the value. -/
def log10 (i : Interval) : Int :=
  let (n, d) := scale2 i.value i.unit
  let guess : Int := log2Quot n d * 30103 / 100000
  let reaches (e : Int) : Bool :=
    let (s, t) := scale10 1 e
    s * d ≤ n * t
  if reaches (guess + 1) then guess + 1 else if reaches guess then guess else guess - 1

/-- The decimal `c · 10^k` of the interval on the grid of `places` digits, if there is one. -/
def onGrid (i : Interval) (places : Nat) : Option (Nat × Int) :=
  let k := i.log10 + 1 - places
  let (n, d) := scale2 i.value i.unit
  let (s, t) := scale10 1 k
  let c := n * t / (d * s)
  let r := n * t % (d * s)
  match i.holds c k, i.holds (c + 1) k with
  | true, true =>
      if 2 * r < d * s then some (c, k)
      else if d * s < 2 * r then some (c + 1, k)
      else if c % 2 = 0 then some (c, k) else some (c + 1, k)
  | true, false => some (c, k)
  | false, true => some (c + 1, k)
  | false, false => none

/-- The shortest decimal; 17 digits always suffice. -/
def shortest (i : Interval) : Nat × Int :=
  ((List.range 18).findSome? fun places => i.onGrid (places + 1)).getD (i.value, 0)

end Interval

/-- Drops zeros at the end of a decimal's digits. -/
def stripZeros : (digits : List Char) → Int → List Char × Int
  | ds, k =>
      let kept := (ds.reverse.dropWhile (· == '0')).reverse
      (kept, k + (ds.length - kept.length : Nat))

/-- How a decimal is laid out: without exponent from `10^-5` to below `10^16`, always with a
fraction or an exponent, which has a sign. -/
def layout (digits : List Char) (k : Int) : List Char :=
  let point : Int := digits.length + k
  if 0 ≤ k ∧ point ≤ 16 then digits ++ List.replicate k.toNat '0' ++ ['.', '0']
  else if 0 < point ∧ point ≤ 16 then
    digits.take point.toNat ++ '.' :: digits.drop point.toNat
  else if -5 < point ∧ point ≤ 0 then
    ['0', '.'] ++ List.replicate (-point).toNat '0' ++ digits
  else
    let sign := if 0 < point then '+' else '-'
    let fraction := match digits.drop 1 with
      | [] => []
      | ds => '.' :: ds
    digits.take 1 ++ fraction ++ 'e' :: sign :: Text.Decimal.digits (point - 1).natAbs

/-- The text of a finite double; there is none for the others. -/
def Double.text? (x : Double) : Option (List Char) :=
  match x.unpack with
  | .finite negative m q =>
      let body :=
        if m = 0 then ['0', '.', '0']
        else
          let (c, k) := (Interval.ofFinite .double m q).shortest
          let (ds, k) := stripZeros (Text.Decimal.digits c) k
          layout ds k
      some (if negative then '-' :: body else body)
  | _ => none

end MbsClient.Number
