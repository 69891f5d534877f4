import TemplateExpr.Numeric.Shortest

namespace TemplateExpr.FloatText

/-- What a way of writing chooses: the powers of ten of the first digit that are written
positionally, and how wide an exponent is at least. -/
structure Style where
  leastPositional : Int
  firstScientific : Int
  exponentWidth : Nat

/-- A point always has a digit on either side, and an exponent has its sign and two digits. -/
def standard : Style := ⟨-4, 16, 2⟩

def zeros (n : Nat) : List Char := List.replicate n '0'

def positional (digits : List Char) (places : Int) : List Char :=
  if places ≤ 0 then '0' :: '.' :: zeros (-places).toNat ++ digits
  else
    let n := places.toNat
    if digits.length ≤ n then digits ++ zeros (n - digits.length) ++ ['.', '0']
    else digits.take n ++ '.' :: digits.drop n

def exponentText (style : Style) (e : Int) : List Char :=
  let digits := Nat.toDigits 10 e.natAbs
  (if e < 0 then '-' else '+') :: zeros (style.exponentWidth - digits.length) ++ digits

def scientific (style : Style) (digits : List Char) (e : Int) : List Char :=
  let mantissa := match digits with
    | [d] => [d]
    | digits => digits.take 1 ++ '.' :: digits.drop 1
  mantissa ++ 'e' :: exponentText style e

def magnitudeText (x : Float) : List Char :=
  let d := (Shortest.Binary.ofFloat x).shortest
  let digits := Nat.toDigits 10 d.digits
  let e := d.exponent + digits.length - 1
  if standard.leastPositional ≤ e && e < standard.firstScientific then positional digits (e + 1)
  else scientific standard digits e

def text (x : Float) : String :=
  match Binary64.Place.ofFloat? x with
  | none => "nan"
  | some .below => "-inf"
  | some .above => "inf"
  | some (.at n) =>
    let magnitude := if n = 0 then ['0', '.', '0'] else magnitudeText x
    String.ofList (if Binary64.isNegative x then '-' :: magnitude else magnitude)

end TemplateExpr.FloatText
