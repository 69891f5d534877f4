import TemplateExpr.Numeric.Binary64

namespace TemplateExpr.Shortest

/-- A positive number `mantissa · 2 ^ exponent`; `narrow` says that the next smaller number is only
half as far away as the next greater. -/
structure Binary where
  mantissa : Nat
  exponent : Int
  narrow : Bool
deriving DecidableEq

structure Decimal where
  digits : Nat
  exponent : Int
deriving DecidableEq

namespace Binary

def ofFloat (x : Float) : Binary :=
  let e := Binary64.exponentField x
  let f := Binary64.fraction x
  if e = 0 then ⟨f, -1074, false⟩
  else ⟨Nat.pow 2 52 + f, (e : Int) - 1075, f = 0 && decide (1 < e)⟩

/-- What a quarter of the last place counts on a scale that is whole for the grid of `10 ^ i`
too. -/
def quarter (b : Binary) (i : Int) : Nat :=
  Nat.pow 2 (b.exponent - 2).toNat * Nat.pow 10 (-i).toNat

def spacing (b : Binary) (i : Int) : Nat :=
  Nat.pow 2 (2 - b.exponent).toNat * Nat.pow 10 i.toNat

def low (b : Binary) : Nat := 4 * b.mantissa - (if b.narrow then 1 else 2)

def high (b : Binary) : Nat := 4 * b.mantissa + 2

/-- Whether the grid point `n · 10 ^ i` rounds to the number; the ends of the interval do when the
mantissa is even. -/
def admits (b : Binary) (i : Int) (n : Nat) : Bool :=
  let p := n * b.spacing i
  let low := b.low * b.quarter i
  let high := b.high * b.quarter i
  if b.mantissa % 2 = 0 then low ≤ p && p ≤ high else low < p && p < high

def below (b : Binary) (i : Int) : Nat := 4 * b.mantissa * b.quarter i / b.spacing i

def nearer (b : Binary) (i : Int) (n : Nat) : Nat :=
  match Ord.compare (2 * (4 * b.mantissa * b.quarter i)) ((2 * n + 1) * b.spacing i) with
  | .lt => n
  | .gt => n + 1
  | .eq => if n % 2 = 0 then n else n + 1

def candidate? (b : Binary) (i : Int) : Option Nat :=
  let n := b.below i
  match b.admits i n, b.admits i (n + 1) with
  | true, true => some (b.nearer i n)
  | true, false => some n
  | false, true => some (n + 1)
  | false, false => none

/-- Tries the grid of `10 ^ i` and then as many finer ones as are allowed. -/
def search (b : Binary) : Nat → Int → Decimal
  | 0, i => ⟨b.nearer i (b.below i), i⟩
  | finer + 1, i =>
    match b.candidate? i with
    | some n => ⟨n, i⟩
    | none => search b finer (i - 1)

def magnitude (b : Binary) : Int := (b.mantissa.log2 + 1 + b.exponent) * 30103 / 100000 + 1

/-- Seventeen digits always suffice; the first grids may be too coarse to have a point but zero. -/
def shortest (b : Binary) : Decimal := b.search 20 b.magnitude

end Binary

end TemplateExpr.Shortest
