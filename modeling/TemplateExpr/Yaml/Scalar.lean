import TemplateExpr.Token.Lexeme
import TemplateExpr.Library

namespace TemplateExpr.Yaml

open Lexeme (isDigit)

def isDigitOrGap (c : Char) : Bool := isDigit c || c = '_'

def withoutGaps (cs : List Char) : List Char := cs.filter (· ≠ '_')

def sign : List Char → Bool × List Char
  | '-' :: cs => (true, cs)
  | '+' :: cs => (false, cs)
  | cs => (false, cs)

def digitValue (c : Char) : Nat :=
  if isDigit c then c.toNat - 48 else if c.toNat < 97 then c.toNat - 55 else c.toNat - 87

def isHexDigit (c : Char) : Bool := isDigit c || ('a' ≤ c && c ≤ 'f') || ('A' ≤ c && c ≤ 'F')

def ofDigits (base : Nat) (digits : List Char) : Nat :=
  digits.foldl (fun n c => base * n + digitValue c) 0

/-- The number that digits denote, gaps between them left out; there has to be a digit. -/
def inBase (base : Nat) (cs : List Char) : Except Limit Nat :=
  let digits := withoutGaps cs
  if digits.isEmpty then .error (.noDigits base) else .ok (ofDigits base digits)

def decimal (cs : List Char) : Except Limit Nat :=
  let digits := withoutGaps cs
  if Limit.maxDigits < digits.length then .error (.reading digits.length)
  else .ok (Nat.ofDigitChars 10 digits 0)

def splitAtColons : List Char → List (List Char)
  | [] => [[]]
  | c :: cs =>
    match splitAtColons cs with
    | [] => [[c]]
    | part :: parts => if c = ':' then [] :: part :: parts else (c :: part) :: parts

def isSixtieth : List Char → Bool
  | [c] => isDigit c
  | [c, d] => '0' ≤ c && c ≤ '5' && isDigit d
  | _ => false

def natural? : List Char → Option (Except Limit Nat)
  | ['0'] => some (.ok 0)
  | '0' :: 'b' :: c :: cs =>
    if (c :: cs).all (fun c => c = '0' || c = '1' || c = '_') then some (inBase 2 (c :: cs)) else none
  | '0' :: 'x' :: c :: cs =>
    if (c :: cs).all (fun c => isHexDigit c || c = '_') then some (inBase 16 (c :: cs)) else none
  | '0' :: cs =>
    if cs.all (fun c => ('0' ≤ c && c ≤ '7') || c = '_') then some (inBase 8 ('0' :: cs)) else none
  | c :: cs =>
    if isDigit c then
      match splitAtColons (c :: cs) with
      | whole :: parts =>
        if whole.all isDigitOrGap && parts.all isSixtieth then
          some ((decimal whole).map fun n =>
            parts.foldl (fun n part => 60 * n + Nat.ofDigitChars 10 part 0) n)
        else none
      | [] => none
    else none
  | [] => none

def integer? (cs : List Char) : Option (Except Limit Int) :=
  let (negative, cs) := sign cs
  (natural? cs).map fun magnitude => magnitude.map fun n => if negative then -n else n

def exponent? : List Char → Option Int
  | [] => some 0
  | e :: s :: c :: cs =>
    if (e = 'e' || e = 'E') && (s = '+' || s = '-') && (c :: cs).all isDigit then
      let n := Nat.ofDigitChars 10 (c :: cs) 0
      some (if s = '-' then -n else n)
    else none
  | _ => none

/-- The float nearest to `digits · 10 ^ exponent`. Powers far outside the format are cut short. -/
def nearest (digits : List Char) (exponent : Int) : Float :=
  let n := Nat.ofDigitChars 10 digits 0
  if exponent < 0 then Float.ofScientific n true (min exponent.natAbs (digits.length + 400))
  else Float.ofScientific n false (min exponent.natAbs 400)

def pointed? (cs : List Char) : Option Float :=
  let whole := cs.takeWhile isDigitOrGap
  match cs.dropWhile isDigitOrGap with
  | '.' :: rest => do
    let places := withoutGaps (rest.takeWhile isDigitOrGap)
    let exponent ← exponent? (rest.dropWhile isDigitOrGap)
    some (nearest (withoutGaps whole ++ places) (exponent - places.length))
  | _ => none

/-- A float to the base of sixty, summed up from its last part. Each part is weighed by a power of
sixty, which has to be within the limit of floats. -/
def sexagesimal? (cs : List Char) : Option (Except Limit Float) :=
  match (splitAtColons cs).reverse with
  | last :: part :: parts =>
    if isSixtieth (last.takeWhile isDigitOrGap) && ((part :: parts).dropLast.all isSixtieth) &&
        ((part :: parts).all (·.all isDigitOrGap)) then do
      guard ((last.dropWhile isDigitOrGap).all fun c => isDigitOrGap c || c = '.')
      let last ← pointed? last
      let weigh (sum : Float × Nat) (part : List Char) : Except Limit (Float × Nat) :=
        match Binary64.ofInt? sum.2 with
        | some weight => .ok (sum.1 + nearest (withoutGaps part) 0 * weight, 60 * sum.2)
        | none => .error .float
      some (((part :: parts).foldlM weigh (last, 60)).map (·.1))
    else none
  | _ => none

def isPlainFloat : List Char → Bool
  | c :: _ => isDigit c
  | [] => false

def float? (cs : List Char) : Option (Except Limit Float) :=
  let (negative, magnitude) := sign cs
  let signed (x : Float) : Float := if negative then -x else x
  if magnitude = ".inf".toList || magnitude = ".Inf".toList || magnitude = ".INF".toList then
    some (.ok (signed (1.0 / 0.0)))
  else if cs = ".nan".toList || cs = ".NaN".toList || cs = ".NAN".toList then
    some (.ok (0.0 / 0.0))
  else
    match cs with
    | '.' :: c :: _ => if isDigit c then (pointed? cs).map .ok else none
    | _ =>
      if isPlainFloat magnitude then
        (((pointed? magnitude).map .ok).or (sexagesimal? magnitude)).map (·.map signed)
      else none

def daysIn (year month : Nat) : Nat :=
  if month = 2 then
    if year % 4 = 0 && (year % 100 ≠ 0 || year % 400 = 0) then 29 else 28
  else if month = 4 || month = 6 || month = 9 || month = 11 then 30
  else 31

def someDigits (least most : Nat) (cs : List Char) : Option (Nat × List Char) :=
  let digits := (cs.takeWhile isDigit).take most
  if least ≤ digits.length then some (Nat.ofDigitChars 10 digits 0, cs.drop digits.length) else none

def literal (c : Char) : List Char → Option (List Char)
  | d :: cs => if c = d then some cs else none
  | [] => none

/-- A year, a month and a day, which a time of day may follow; `strict` demands two digits. -/
def day? (least : Nat) (cs : List Char) : Option ((Nat × Nat × Nat) × List Char) := do
  let (year, cs) ← someDigits 4 4 cs
  let (month, cs) ← someDigits least 2 (← literal '-' cs)
  let (day, cs) ← someDigits least 2 (← literal '-' cs)
  some ((year, month, day), cs)

def twoDigits (n : Nat) : List Char := Char.ofNat (48 + n / 10 % 10) :: [Char.ofNat (48 + n % 10)]

def offset? : List Char → Option (Option Int)
  | [] => some none
  | ['Z'] => some (some 0)
  | s :: cs =>
    if s = '+' || s = '-' then do
      let (hours, cs) ← someDigits 1 2 cs
      let minutes ← match cs with
        | [] => some 0
        | cs => do
          let (minutes, cs) ← someDigits 2 2 (← literal ':' cs)
          if cs.isEmpty then some minutes else none
      let minutes : Int := 60 * hours + minutes
      some (some (if s = '-' then -minutes else minutes))
    else none

def offsetText (minutes : Int) : List Char :=
  (if minutes < 0 then '-' else '+') ::
    (twoDigits (minutes.natAbs / 60) ++ ':' :: twoDigits (minutes.natAbs % 60))

def isBlank (c : Char) : Bool := c = ' ' || c = '\t'

structure Clock where
  hour : Nat
  minute : Nat
  second : Nat
  micros : List Char
  offset : Option Int
deriving DecidableEq

def Clock.text (c : Clock) : String :=
  let fraction := if c.micros.all (· = '0') then [] else '.' :: c.micros
  let offset := match c.offset with
    | none => []
    | some minutes => offsetText minutes
  String.ofList (twoDigits c.hour ++ ':' :: twoDigits c.minute ++ ':' :: twoDigits c.second ++
    fraction ++ offset)

def clock? (cs : List Char) : Option Clock := do
  let cs ← match cs with
    | c :: rest =>
      if c = 'T' || c = 't' then some rest
      else if isBlank c then some (rest.dropWhile isBlank)
      else none
    | [] => none
  let (hour, cs) ← someDigits 1 2 cs
  let (minute, cs) ← someDigits 2 2 (← literal ':' cs)
  let (second, cs) ← someDigits 2 2 (← literal ':' cs)
  let (fraction, cs) := match cs with
    | '.' :: rest => (rest.takeWhile isDigit, rest.dropWhile isDigit)
    | cs => ([], cs)
  let offset ← offset? (cs.dropWhile isBlank)
  some ⟨hour, minute, second, (fraction ++ List.replicate 6 '0').take 6, offset⟩

def Clock.limit? (c : Clock) : Option Limit :=
  if 24 ≤ c.hour then some .hour
  else if 60 ≤ c.minute then some .minute
  else if 60 ≤ c.second then some .second
  else none

def dayLimit? (year month day : Nat) : Option Limit :=
  if year = 0 then some (.year year)
  else if month = 0 || 12 < month then some .month
  else if day = 0 || daysIn year month < day then some .day
  else none

def offsetLimit? (offset : Option Int) : Option Limit :=
  match offset with
  | some minutes => if 1440 ≤ minutes.natAbs then some (.offset minutes) else none
  | none => none

/-- Of several limits that a date is beyond the offset's comes first, then the day's. -/
def dateOf (d : Nat × Nat × Nat) (clock : Option Clock) : Except Limit Date :=
  let (year, month, day) := d
  let limit := ((clock.bind fun c => offsetLimit? c.offset).or (dayLimit? year month day)).or
    (clock.bind Clock.limit?)
  match limit with
  | some l => .error l
  | none => .ok ⟨year, month, day, clock.map Clock.text⟩

def date? (cs : List Char) : Option (Except Limit Date) :=
  match day? 2 cs with
  | some (d, []) => some (dateOf d none)
  | _ =>
    match day? 1 cs with
    | some (d, rest) => (clock? rest).map fun clock => dateOf d (some clock)
    | none => none

def nullWords : List String := ["", "~", "null", "Null", "NULL"]

def trueWords : List String :=
  ["yes", "Yes", "YES", "true", "True", "TRUE", "on", "On", "ON"]

def falseWords : List String :=
  ["no", "No", "NO", "false", "False", "FALSE", "off", "Off", "OFF"]

def reservedWords : List String := ["=", "<<"]

def number? (cs : List Char) : Option (Except Limit Datum) :=
  (((float? cs).map (·.map Datum.float)).or ((integer? cs).map (·.map Datum.integer))).or
    ((date? cs).map (·.map Datum.date))

def resolve (text : String) : Except Error Datum :=
  if nullWords.contains text then .ok .null
  else if trueWords.contains text then .ok (.boolean true)
  else if falseWords.contains text then .ok (.boolean false)
  else if reservedWords.contains text then .error .malformed
  else
    match number? text.toList with
    | some read => read.mapError fun l => .raised l.raised
    | none => .ok (.string text)

end TemplateExpr.Yaml
