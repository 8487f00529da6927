import BasicSim.Core.Cpp
import BasicSim.Lib.Rounding
import Mathlib.Data.Rat.Floor

/-!
# `Core.Double` — the `double` values of the sources

A `Double` is a rational, an infinity or NaN; the sign of zero is left out. The result of an operation is the nearest
`double` (`Double.ofRat`), from the middle the one with an even last bit.

## Contents
- **Comparisons** with a rational, all of them false for NaN, and the range of an attribute.
- **Arithmetic.** `Double.ofRat`, `Double.div`, `Double.ceil`.
- **Conversions.** To an `int64_t`, to a `uint64_t`, and to a text (`Double.toStr`).
-/

namespace BasicSim

open Rounding

/-- A floating-point value; the finite ones are rationals. -/
inductive Double where
  | nan
  | inf (negative : Bool)
  | finite (q : Rat)
deriving DecidableEq

namespace Double

/-! ## Comparisons -/

/-- `x < q` for a finite `q`. -/
def ltRat : Double → Rat → Bool
  | .nan, _ => false
  | .inf negative, _ => negative
  | .finite x, q => decide (x < q)

/-- `q < x` for a finite `q`. -/
def gtRat : Double → Rat → Bool
  | .nan, _ => false
  | .inf negative, _ => !negative
  | .finite x, q => decide (q < x)

/-- `x ≤ q` for a finite `q`. -/
def leRat : Double → Rat → Bool
  | .nan, _ => false
  | .inf negative, _ => negative
  | .finite x, q => decide (x ≤ q)

/-- `q ≤ x` for a finite `q`. -/
def geRat : Double → Rat → Bool
  | .nan, _ => false
  | .inf negative, _ => !negative
  | .finite x, q => decide (q ≤ x)

/-- `std::numeric_limits<double>::max()`. -/
def maxValue : Rat := (2 ^ 53 - 1) * 2 ^ (971 : Int)

/-- The test of `MakeDoubleChecker<double>`, which ns-3 puts attributes of that type to. -/
def passesChecker (x : Double) : Bool := x.geRat (-maxValue) && x.leRat maxValue

/-! ## Arithmetic -/

/-- The `double` nearest to a rational: 53 significant bits, and no bit below `2 ^ -1074`. -/
def ofRat (q : Rat) : Double :=
  if |nearest 53 (-1074) q| < 2 ^ (1024 : Int) then .finite (nearest 53 (-1074) q) else .inf (decide (q < 0))

/-- `x / y`; a zero divisor counts as positive. -/
def div : Double → Double → Double
  | .nan, _ => .nan
  | _, .nan => .nan
  | .inf _, .inf _ => .nan
  | .inf negative, .finite y => .inf (negative != decide (y < 0))
  | .finite _, .inf _ => .finite 0
  | .finite x, .finite y => if y = 0 then (if x = 0 then .nan else .inf (decide (x < 0))) else .ofRat (x / y)

/-- `std::ceil`. -/
def ceil : Double → Double
  | .nan => .nan
  | .inf negative => .inf negative
  | .finite x => .finite ⌈x⌉

/-! ## Conversions -/

/-- Conversion to an `int64_t`, towards zero; undefined when the result does not fit. -/
def toInt64 : Double → Except Exc Int
  | .nan => .error (.undefined "conversion of NaN to an integer")
  | .inf _ => .error (.undefined "conversion of an infinity to an integer")
  | .finite x =>
    if InInt64 (x.num.tdiv x.den) then .ok (x.num.tdiv x.den)
    else .error (.undefined "conversion to an integer that does not fit")

/-- Conversion to a `uint64_t`, towards zero; undefined when the result does not fit. -/
def toUInt64 : Double → Except Exc (BitVec 64)
  | .nan => .error (.undefined "conversion of NaN to an integer")
  | .inf _ => .error (.undefined "conversion of an infinity to an integer")
  | .finite x =>
    let truncated := x.num.tdiv x.den
    if 0 ≤ truncated ∧ truncated < 2 ^ 64 then .ok (BasicSim.toUInt64 truncated)
    else .error (.undefined "conversion to an integer that does not fit")

/-- The text of a number of millionths: the whole part, and six decimals. -/
def sixDecimals (millionths : Nat) : Str :=
  BasicSim.toStr (millionths / 10 ^ 6 : Nat) ++
    '.' :: (BasicSim.toStr (millionths % 10 ^ 6 : Nat)).leftpad 6 '0'

/-- `std::to_string`, which rounds to six decimals. -/
def toStr : Double → Str
  | .nan => "nan".toList
  | .inf negative => if negative then "-inf".toList else "inf".toList
  | .finite q => (if q < 0 then "-".toList else []) ++ sixDecimals (roundHalfEven (|q| * 10 ^ 6)).toNat

end Double

end BasicSim
