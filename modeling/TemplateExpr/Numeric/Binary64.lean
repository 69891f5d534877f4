namespace TemplateExpr.Binary64

def isNegative (x : Float) : Bool := x.toBits.toNat / Nat.pow 2 63 = 1

def exponentField (x : Float) : Nat := x.toBits.toNat / Nat.pow 2 52 % Nat.pow 2 11

def fraction (x : Float) : Nat := x.toBits.toNat % Nat.pow 2 52

/-- How many steps it is from zero to one. -/
def stepsPerUnit : Nat := Nat.pow 2 1074

def steps (x : Float) : Nat :=
  if exponentField x = 0 then fraction x
  else (Nat.pow 2 52 + fraction x) * Nat.pow 2 (exponentField x - 1)

def ofSteps (n : Nat) : Float :=
  let shift := n.log2 - 52
  Float.ofBits (UInt64.ofNat (shift * Nat.pow 2 52 + n / Nat.pow 2 shift))

/-- The magnitude half-way between the largest finite number and the next power of two: what is less
is rounded to a finite number, and the rest is not. -/
def overflow : Nat := Nat.pow 2 1024 - Nat.pow 2 970

def ofInt? (n : Int) : Option Float := if n.natAbs < overflow then some (.ofInt n) else none

/-- Where a number lies: at one of the two ends or a whole number of steps from zero. -/
inductive Place where
  | below
  | at (steps : Int)
  | above
deriving DecidableEq

namespace Place

def ofInt (n : Int) : Place := .at (n * stepsPerUnit)

def ofFloat? (x : Float) : Option Place :=
  if exponentField x = 2047 then
    if fraction x ≠ 0 then none else some (if isNegative x then .below else .above)
  else some (.at (if isNegative x then -(steps x : Int) else steps x))

def compare : Place → Place → Ordering
  | .below, .below => .eq
  | .below, _ => .lt
  | .at _, .below => .gt
  | .at m, .at n => Ord.compare m n
  | .at _, .above => .lt
  | .above, .above => .eq
  | .above, _ => .gt

end Place

/-- The remainder with the sign of the dividend. An infinite dividend has none; an infinite divisor
leaves the dividend as it is. -/
def remainder (x y : Float) : Float :=
  match Place.ofFloat? x, Place.ofFloat? y with
  | some (.at m), some (.at n) =>
    let r := ofSteps (m.natAbs % n.natAbs)
    if isNegative x then -r else r
  | some (.at _), some _ => x
  | _, _ => 0.0 / 0.0

end TemplateExpr.Binary64
