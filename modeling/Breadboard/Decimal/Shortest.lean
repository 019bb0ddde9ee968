/-!
# Shortest decimal digits of a double

A finite, non-zero double is `m · 2^q` for a whole `m`. Every real strictly between the
midpoints to its two neighbouring doubles reads back as it, and so do the midpoints
themselves when `m` is even (ties go to the even mantissa). The shortest decimal text of
the double is a decimal in that interval with the fewest significant digits; among two
such decimals the nearer to the double wins, and an exact tie goes to the even last digit.

For each digit count `n` the decimals with `n` digits around the double form a grid, and
only the two grid points next to the double can lie in the interval, so `shortest` tests
those two for `n = 1, 2, …` in exact `Nat` arithmetic. Seventeen digits always suffice.
-/

namespace Breadboard.Decimal

/-- A decimal `digits · 10^exponent`. -/
structure Scientific where
  digits : Nat
  exponent : Int
  deriving DecidableEq, Repr

/-- The mantissa and binary exponent of a finite double's magnitude: `|x| = m · 2^q`, and
whether the gap to the next smaller double is half the gap to the next larger one (the
case of a power of two above the subnormal range). -/
def binaryParts (x : Float) : Nat × Int × Bool :=
  let bits := x.toBits.toNat
  let fraction : Nat := bits % Nat.pow 2 52
  let biased : Nat := (bits / Nat.pow 2 52) % Nat.pow 2 11
  if biased = 0 then (fraction, -1074, false)
  else (fraction + Nat.pow 2 52, (biased : Int) - 1075, fraction = 0 ∧ 1 < biased)

/-- `2^k · 10^j` for whole `k` and `j` given as integers, as a fraction `(num, den)`. -/
def scale (k j : Int) : Nat × Nat :=
  (Nat.pow 2 k.toNat * Nat.pow 10 j.toNat, Nat.pow 2 (-k).toNat * Nat.pow 10 (-j).toNat)

/-- The number of decimal digits of a positive whole number. -/
def digitCount (n : Nat) : Nat :=
  (Nat.toDigits 10 n).length

/-- Whether the decimal `c · 10^t` lies in the interval of reals that read back as
`m · 2^q`; `narrowBelow` halves the gap below, `inclusive` admits the end points. -/
def readsBack (m : Nat) (q : Int) (narrowBelow inclusive : Bool) (c : Nat) (t : Int) : Bool :=
  -- In units of `2^q / 4`: the double is `4m`, the ends are `4m + 2` and `4m - 2` (or `- 1`).
  let (num, den) := scale (2 - q) t
  let value := c * num
  let hi := (4 * m + 2) * den
  let lo := (4 * m - (if narrowBelow then 1 else 2)) * den
  (if inclusive then lo ≤ value else lo < value) &&
    (if inclusive then value ≤ hi else value < hi)

/-- The decimal with the fewest digits, `n` digits or more, that reads back as `m · 2^q`,
where the double has `e10 + 1` digits before the point; `fuel` bounds the digit counts
tried. -/
def search (m : Nat) (q : Int) (narrowBelow : Bool) (e10 : Int) :
    Nat → Nat → Option Scientific
  | 0, _ => none
  | fuel + 1, n =>
    let t := e10 + 1 - n
    -- The double divided by the grid step `10^t`, as a fraction.
    let (num, den) := scale q (-t)
    let below := m * num / den
    let rem := m * num % den
    let inclusive := m % 2 = 0
    let okBelow := readsBack m q narrowBelow inclusive below t
    let okAbove := readsBack m q narrowBelow inclusive (below + 1) t
    if okBelow && okAbove then
      -- The nearer grid point wins; an exact tie goes to the even one.
      let up := 2 * rem > den || (2 * rem = den && below % 2 = 1)
      some ⟨if up then below + 1 else below, t⟩
    else if okBelow then some ⟨below, t⟩
    else if okAbove then some ⟨below + 1, t⟩
    else search m q narrowBelow e10 fuel (n + 1)

/-- The least `k`, from `k` on and within `fuel` steps, with `v · 10^k ≥ den`, negated. -/
def fractionExponent (v den : Nat) : Nat → Nat → Int
  | 0, k => -(k : Int)
  | fuel + 1, k =>
    if den ≤ v * Nat.pow 10 k then -(k : Int) else fractionExponent v den fuel (k + 1)

/-- The decimal exponent of the leading digit of `m · 2^q` (positive `m`): the `e` with
`10^e ≤ m · 2^q < 10^(e+1)`. -/
def leadingExponent (m : Nat) (q : Int) : Int :=
  let (num, den) := scale q 0
  let v := m * num
  if den ≤ v then (digitCount (v / den) : Int) - 1
  else fractionExponent v den 400 1

/-- Removes trailing zero digits, moving them into the exponent. -/
def Scientific.normalize (s : Scientific) : Scientific :=
  go s.digits s.exponent 20
where
  /-- Strips at most `fuel` trailing zeros. -/
  go (d : Nat) (e : Int) : Nat → Scientific
    | 0 => ⟨d, e⟩
    | fuel + 1 => if d ≠ 0 ∧ d % 10 = 0 then go (d / 10) (e + 1) fuel else ⟨d, e⟩

/-- The shortest decimal that reads back as the magnitude of a finite, non-zero double. -/
def shortest (x : Float) : Scientific :=
  let (m, q, narrowBelow) := binaryParts x
  match search m q narrowBelow (leadingExponent m q) 18 1 with
  | some s => s.normalize
  | none => ⟨m, 0⟩

end Breadboard.Decimal
