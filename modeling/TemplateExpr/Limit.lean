namespace TemplateExpr

/-- An exception that nothing on its way is made for, by its kind and what it says. -/
structure Raised where
  kind : String
  message : String
deriving DecidableEq

inductive Limit where
  | writing
  | reading (digits : Nat)
  | noDigits (base : Nat)
  | float
  | year (n : Nat)
  | month
  | day
  | hour
  | minute
  | second
  | offset (minutes : Int)
deriving DecidableEq

namespace Limit

def maxDigits : Nat := 4300

def writable (n : Int) : Bool := n.natAbs < Nat.pow 10 maxDigits

def spanText (minutes : Int) : String :=
  let days := minutes / 1440
  let seconds := minutes % 1440 * 60
  let parts :=
    (if days = 0 then [] else ["days=" ++ days.repr]) ++
      (if seconds = 0 then [] else ["seconds=" ++ seconds.repr])
  "datetime.timedelta(" ++ ", ".intercalate parts ++ ")"

def message : Limit → String
  | .writing =>
    "Exceeds the limit (" ++ maxDigits.repr ++ " digits) for integer string conversion; " ++
      "use sys.set_int_max_str_digits() to increase the limit"
  | .reading digits =>
    "Exceeds the limit (" ++ maxDigits.repr ++ " digits) for integer string conversion: " ++
      "value has " ++ digits.repr ++ " digits; " ++
      "use sys.set_int_max_str_digits() to increase the limit"
  | .noDigits base => "invalid literal for int() with base " ++ base.repr ++ ": ''"
  | .float => "int too large to convert to float"
  | .year n => "year " ++ n.repr ++ " is out of range"
  | .month => "month must be in 1..12"
  | .day => "day is out of range for month"
  | .hour => "hour must be in 0..23"
  | .minute => "minute must be in 0..59"
  | .second => "second must be in 0..59"
  | .offset minutes =>
    "offset must be a timedelta strictly between -timedelta(hours=24) and timedelta(hours=24), " ++
      "not " ++ spanText minutes ++ "."

def raised (l : Limit) : Raised := ⟨if l = .float then "OverflowError" else "ValueError", l.message⟩

end Limit

end TemplateExpr
