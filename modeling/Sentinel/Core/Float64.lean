import Mathlib.Data.Rat.Floor

/-!
# Floating-point numbers

The arithmetic of the indicators is a parameter: which rows a value reads does
not depend on how its operations round.  Exact rationals with a value that is
not a number are one such arithmetic, and the one that examples run in.
-/

namespace Sentinel

/-- The floating-point operations that the indicators are written with. -/
class Float64 (F : Type) extends Add F, Sub F, Mul F, Div F, Neg F where
  ofRat : ℚ → F
  nan : F
  isNan : F → Bool
  isFinite : F → Bool
  lt : F → F → Bool
  le : F → F → Bool
  sqrt : F → F
  log : F → F
  /-- `Decimal(str(x))`. -/
  toRat : F → ℚ

namespace Float64

variable {F : Type} [Float64 F]

/-- `a == b`. -/
def eq (a b : F) : Bool := le a b && le b a

def abs (x : F) : F := if lt x (ofRat 0) then -x else x

/-- `np.maximum`: not a number when either is not. -/
def maximum (a b : F) : F :=
  if isNan a then a else if isNan b then b else if lt a b then b else a

/-- `np.minimum`. -/
def minimum (a b : F) : F :=
  if isNan a then a else if isNan b then b else if lt b a then b else a

def larger (a b : F) : F :=
  if isNan a then b else if isNan b then a else if lt a b then b else a

def smaller (a b : F) : F :=
  if isNan a then b else if isNan b then a else if lt b a then b else a

/-- `replace(0.0, nan)`. -/
def zeroToNan (x : F) : F := if eq x (ofRat 0) then nan else x

end Float64

/-- Exact rationals; what has no rational value is not a number. -/
instance : Float64 (Option ℚ) where
  add a b := a.bind fun x => b.map fun y => x + y
  sub a b := a.bind fun x => b.map fun y => x - y
  mul a b := a.bind fun x => b.map fun y => x * y
  div a b := a.bind fun x => b.bind fun y => if y = 0 then none else some (x / y)
  neg a := a.map fun x => -x
  ofRat x := some x
  nan := none
  isNan a := a.isNone
  isFinite a := a.isSome
  lt a b := a.any fun x => b.any fun y => decide (x < y)
  le a b := a.any fun x => b.any fun y => decide (x ≤ y)
  sqrt _ := none
  log _ := none
  toRat a := a.getD 0

end Sentinel
