import TemplateExpr.Text.Blank
import TemplateExpr.Text.Quoted
import TemplateExpr.Yaml.Scalar

namespace TemplateExpr.Yaml.Tagged

open Lexeme (isDigit)

def noElement : Raised := ⟨"IndexError", "string index out of range"⟩

def invalid (problem : String) (text : List Char) : Raised :=
  ⟨"ValueError", problem ++ ": " ++ Text.quoted (String.ofList text)⟩

def baseLetter? : Nat → Option Char
  | 2 => some 'b'
  | 8 => some 'o'
  | 16 => some 'x'
  | _ => none

def withoutBase (base : Nat) : List Char → List Char
  | '0' :: c :: cs => if baseLetter? base = some c.toLower then cs else '0' :: c :: cs
  | cs => cs

def wholeNumber (base : Nat) (text : List Char) : Except Raised Int :=
  let (negative, cs) := sign (Text.trim Text.isSeparating text)
  let digits := withoutBase base cs
  if digits.isEmpty || !digits.all (fun c => isHexDigit c && digitValue c < base) then
    .error (invalid ("invalid literal for int() with base " ++ base.repr) text)
  else if base = 10 && Limit.maxDigits < digits.length then
    .error (Limit.reading digits.length).raised
  else
    let n := ofDigits base digits
    .ok (if negative then -n else n)

/-- Where a tag demands an integer the text may have any form that says what its base is. -/
def integer (text : List Char) : Except Raised Int :=
  let (negative, magnitude) := sign (withoutGaps text)
  let read : Except Raised Int :=
    match magnitude with
    | [] => .error noElement
    | ['0'] => .ok 0
    | '0' :: 'b' :: cs => wholeNumber 2 cs
    | '0' :: 'x' :: cs => wholeNumber 16 cs
    | '0' :: cs => wholeNumber 8 ('0' :: cs)
    | cs => ((splitAtColons cs).mapM (wholeNumber 10)).map (·.foldl (fun n part => 60 * n + part) 0)
  read.map fun n => if negative then -n else n

def power? : List Char → Option Int
  | [] => some 0
  | 'e' :: cs =>
    let (negative, digits) := sign cs
    if digits.isEmpty || !digits.all isDigit then none
    else
      let n := Nat.ofDigitChars 10 digits 0
      some (if negative then -n else n)
  | _ => none

def magnitude? (cs : List Char) : Option Float :=
  if cs = "inf".toList || cs = "infinity".toList then some (1.0 / 0.0)
  else if cs = "nan".toList then some (0.0 / 0.0)
  else
    let whole := cs.takeWhile isDigit
    let (places, rest) := match cs.dropWhile isDigit with
      | '.' :: rest => (rest.takeWhile isDigit, rest.dropWhile isDigit)
      | rest => ([], rest)
    if (whole ++ places).isEmpty then none
    else (power? rest).map fun exponent => nearest (whole ++ places) (exponent - places.length)

def realNumber (text : List Char) : Except Raised Float :=
  let (negative, cs) := sign (Text.trim Text.isSeparating text)
  match magnitude? cs with
  | some x => .ok (if negative then -x else x)
  | none => .error (invalid "could not convert string to float" text)

/-- The parts of a float to the base of sixty, summed up from the last one. -/
def sixtieths (parts : List Float) : Except Raised Float :=
  let weigh (sum : Float × Nat) (part : Float) : Except Raised (Float × Nat) :=
    match Binary64.ofInt? sum.2 with
    | some weight => .ok (sum.1 + part * weight, 60 * sum.2)
    | none => .error Limit.float.raised
  (parts.reverse.foldlM weigh (0, 1)).map (·.1)

def float (text : List Char) : Except Raised Float :=
  match (withoutGaps text).map Char.toLower with
  | [] => .error noElement
  | c :: cs =>
    let (negative, magnitude) := sign (c :: cs)
    let read : Except Raised Float :=
      if magnitude = ".inf".toList then .ok (1.0 / 0.0)
      else if magnitude = ".nan".toList then .ok (0.0 / 0.0)
      else
        match (splitAtColons magnitude).mapM realNumber with
        | .error r => .error r
        | .ok [x] => .ok x
        | .ok parts => sixtieths parts
    read.map fun x => if negative then -x else x

def boolean (text : List Char) : Except Raised Bool :=
  let word := Surroundings.lower (String.ofList text)
  if trueWords.contains word then .ok true
  else if falseWords.contains word then .ok false
  else .error ⟨"KeyError", Text.quoted word⟩

/-- A tag lets a day also have single digits for its month and for the day in it. -/
def date (text : List Char) : Except Raised Date :=
  let short := match day? 1 text with
    | some (d, []) => some (dateOf d none)
    | _ => none
  match (date? text).or short with
  | some read => read.mapError Limit.raised
  | none => .error ⟨"AttributeError", "'NoneType' object has no attribute 'groupdict'"⟩

end TemplateExpr.Yaml.Tagged
