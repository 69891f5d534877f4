import TemplateExpr.Surroundings
import TemplateExpr.Text.Blank
import TemplateExpr.Text.Quoted
import TemplateExpr.Token.Lexeme
import TemplateExpr.Value.Datum

namespace TemplateExpr.Checking

open Lexeme (isDigit)

inductive Problem where
  | notABoolean
  | unclearBoolean
  | notAnInteger
  | unclearInteger
  | fractional
  | notFinite
  | oversized
  | tooSmall (least : Nat)
  | tooLarge (greatest : Nat)
  | noChoice (words : List String)

def alternatives : List String → String
  | [] => ""
  | [a] => a
  | [a, b] => a ++ " or " ++ b
  | a :: rest => a ++ ", " ++ alternatives rest

def Problem.message : Problem → String
  | .notABoolean => "Input should be a valid boolean"
  | .unclearBoolean => "Input should be a valid boolean, unable to interpret input"
  | .notAnInteger => "Input should be a valid integer"
  | .unclearInteger => "Input should be a valid integer, unable to parse string as an integer"
  | .fractional => "Input should be a valid integer, got a number with a fractional part"
  | .notFinite => "Input should be a finite number"
  | .oversized => "Unable to parse input string as an integer, exceeded maximum size"
  | .tooSmall least => "Input should be greater than or equal to " ++ least.repr
  | .tooLarge greatest => "Input should be less than or equal to " ++ greatest.repr
  | .noChoice words => "Input should be " ++ alternatives (words.map Text.quoted)

def trueWords : List String := ["1", "true", "t", "yes", "y", "on"]

def falseWords : List String := ["0", "false", "f", "no", "n", "off"]

def wholeFloat (x : Float) : Except Problem Int :=
  match Binary64.Place.ofFloat? x with
  | some (.at n) =>
    if n % Binary64.stepsPerUnit ≠ 0 then .error .fractional
    else
      let whole := n / Binary64.stepsPerUnit
      if -Value.bound < whole && whole < Value.bound then .ok whole else .error .oversized
  | _ => .error .notFinite

def booleanOfInt (n : Int) : Except Problem Bool :=
  if n = 0 then .ok false else if n = 1 then .ok true else .error .unclearBoolean

def readBoolean : Datum → Except Problem Bool
  | .boolean b => .ok b
  | .integer n => if Value.inRange n then booleanOfInt n else .error .notABoolean
  | .float x =>
    match wholeFloat x with
    | .ok n => booleanOfInt n
    | .error _ => .error .notABoolean
  | .string s =>
    let word := Surroundings.lower s
    if trueWords.contains word then .ok true
    else if falseWords.contains word then .ok false
    else .error .unclearBoolean
  | _ => .error .notABoolean

def splitSign : List Char → Option (Bool × List Char)
  | '+' :: '-' :: _ => none
  | '+' :: cs => some (false, cs)
  | '-' :: cs => some (true, cs)
  | cs => some (false, cs)

/-- Drops zeros in front and gaps between them, but not the last digit before the end or a point. -/
def dropLeadingZeros : List Char → Option (List Char)
  | '0' :: cs =>
    match cs.dropWhile fun c => c = '0' || c = '_' with
    | [] => ('0' :: cs).getLast?.map fun c => [c]
    | '.' :: rest =>
      (('0' :: cs.takeWhile fun c => c = '0' || c = '_').getLast?).map fun c => c :: '.' :: rest
    | c :: rest => if isDigit c then some (c :: rest) else none
  | c :: cs => if isDigit c then some (c :: cs) else none
  | [] => none

def dropPoint (cs : List Char) : List Char :=
  match cs.dropWhile (· ≠ '.') with
  | _ :: places => if !places.isEmpty && places.all (· = '0') then cs.takeWhile (· ≠ '.') else cs
  | [] => cs

def gapsInside : List Char → Bool
  | [] => true
  | [c] => c ≠ '_'
  | c :: d :: rest => !(c = '_' && d = '_') && gapsInside (d :: rest)

def readDigits (cs : List Char) : Option Nat :=
  if cs.head? ≠ some '_' && gapsInside cs then
    let digits := cs.filter (· ≠ '_')
    if !digits.isEmpty && digits.all isDigit then some (Nat.ofDigitChars 10 digits 0) else none
  else none

/-- A text of more characters than an integer can have digits is not looked into. -/
def readIntegerText (s : String) : Except Problem Int :=
  let cs := Text.trim Text.isWhiteSpace s.toList
  if Limit.maxDigits < cs.length then .error .oversized
  else
    let read : Option Int := do
      let (negative, cs) ← splitSign cs
      let n ← readDigits (dropPoint (← dropLeadingZeros cs))
      some (if negative then -n else n)
    match read with
    | some n => .ok n
    | none => .error .unclearInteger

def readInteger : Datum → Except Problem Int
  | .boolean b => .ok (if b then 1 else 0)
  | .integer n => .ok n
  | .float x => wholeFloat x
  | .string s => readIntegerText s
  | _ => .error .notAnInteger

def readBounded (least greatest : Nat) (d : Datum) : Except Problem Nat :=
  match readInteger d with
  | .error problem => .error problem
  | .ok n =>
    if n < least then .error (.tooSmall least)
    else if greatest < n then .error (.tooLarge greatest)
    else .ok n.toNat

def readChoice (words : List String) : Datum → Except Problem String
  | .string s => if words.contains s then .ok s else .error (.noChoice words)
  | _ => .error (.noChoice words)

end TemplateExpr.Checking
