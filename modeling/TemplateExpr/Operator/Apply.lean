import TemplateExpr.Value.Order
import TemplateExpr.Value.Datum

namespace TemplateExpr.Operator

open Value (checkRange)

def truncated (a b : Int) : Int :=
  let quotient : Int := (a.natAbs / b.natAbs : Nat)
  if a < 0 ↔ b < 0 then quotient else -quotient

def onIntegers : Operator → Int → Int → Int
  | .sub, a, b => a - b
  | .mul, a, b => a * b
  | .div, a, b => truncated a b
  | .mod, a, b => a - b * truncated a b
  | _, a, b => a + b

theorem truncated_eq_tdiv (a b : Int) : truncated a b = a.tdiv b := by
  have hnat (n : Nat) : ¬ (n : Int) < 0 := Int.not_lt.2 (Int.natCast_nonneg n)
  cases a <;> cases b <;> simp [truncated, Int.tdiv, Int.negSucc_lt_zero, hnat]

theorem onIntegers_div (a b : Int) : div.onIntegers a b = a.tdiv b := truncated_eq_tdiv a b

theorem onIntegers_mod (a b : Int) : mod.onIntegers a b = a.tmod b := by
  rw [onIntegers, truncated_eq_tdiv, Int.tmod_def]

def onFloats : Operator → Float → Float → Float
  | .sub, x, y => x - y
  | .mul, x, y => x * y
  | .div, x, y => x / y
  | .mod, x, y => Binary64.remainder x y
  | _, x, y => x + y

def divisorFault? : Operator → Value → Option Fault
  | .div, b => if b.isZero then some .divisionByZero else none
  | .mod, b => if b.isZero then some .moduloByZero else none
  | _, _ => none

def widened (n : Int) : Except Fault Float :=
  match Binary64.ofInt? n with
  | some x => .ok x
  | none => .error (.limit .float)

def arithmetic (op : Operator) (a b : Value) : Except Fault Value :=
  let guarded (result : Except Fault Value) : Except Fault Value :=
    match op.divisorFault? b with
    | some fault => .error fault
    | none => result
  match a, b with
  | .integer m, .integer n => guarded ((checkRange (op.onIntegers m n)).map .integer)
  | .integer m, .float y => guarded ((widened m).map fun x => .float (op.onFloats x y))
  | .float x, .integer n => guarded ((widened n).map fun y => .float (op.onFloats x y))
  | .float x, .float y => guarded (.ok (.float (op.onFloats x y)))
  | a, b => .error (.badOperands op a.kind b.kind)

def join (a b : Value) : Except Fault Value :=
  match a, b with
  | .string s, .string t => .ok (.string (s ++ t))
  | .list as, .list bs => .ok (.list (as ++ bs))
  | a, b => arithmetic .add a b

def ordered (test : Ordering → Bool) (a b : Value) : Except Fault Value :=
  (Value.compare a b).map (.boolean ∘ test)

/-- Both operands are values already, so that nothing is left unevaluated. -/
def applyBinary (op : Operator) (a b : Value) : Except Fault Value :=
  match op with
  | .eq => .ok (.boolean (Value.equal a b))
  | .ne => .ok (.boolean (!Value.equal a b))
  | .lt => ordered Ordering.isLT a b
  | .le => ordered Ordering.isLE a b
  | .gt => ordered Ordering.isGT a b
  | .ge => ordered Ordering.isGE a b
  | .and => .ok (.boolean (a.truthy && b.truthy))
  | .or => .ok (.boolean (a.truthy || b.truthy))
  | .add => join a b
  | .sub | .mul | .div | .mod => arithmetic op a b
  | .not => .error (.noBinaryForm op)

def applyUnary (op : Operator) (a : Value) : Except Fault Value :=
  match op with
  | .not => .ok (.boolean (!a.truthy))
  | .add =>
    match a with
    | .integer _ | .float _ => .ok a
    | a => .error (.notANumber op a.kind)
  | .sub =>
    match a with
    | .integer n => (checkRange (-n)).map .integer
    | .float x => .ok (.float (-x))
    | a => .error (.notANumber op a.kind)
  | op => .error (.noUnaryForm op)

end TemplateExpr.Operator
