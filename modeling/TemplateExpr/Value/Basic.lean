import TemplateExpr.Numeric.FloatText

namespace TemplateExpr

inductive Kind where
  | integer | float | boolean | string | list
deriving DecidableEq

def Kind.name : Kind → String
  | .integer => "integer"
  | .float => "float"
  | .boolean => "boolean"
  | .string => "string"
  | .list => "list"

inductive Value where
  | integer (n : Int)
  | float (x : Float)
  | boolean (b : Bool)
  | string (s : String)
  | list (items : List Value)

namespace Value

def kind : Value → Kind
  | .integer _ => .integer
  | .float _ => .float
  | .boolean _ => .boolean
  | .string _ => .string
  | .list _ => .list

def isNumeric : Value → Bool
  | .integer _ | .float _ => true
  | _ => false

def place? : Value → Option Binary64.Place
  | .integer n => some (.ofInt n)
  | .float x => Binary64.Place.ofFloat? x
  | _ => none

def isZero (v : Value) : Bool := v.place? = some (.at 0)

/-- Zero and what is empty count as false, and a float that is not a number as true. -/
def truthy : Value → Bool
  | .boolean b => b
  | .string s => !s.isEmpty
  | .list items => !items.isEmpty
  | number => !number.isZero

def enclosed (s : String) : String := "\"" ++ s ++ "\""

mutual

def text : Value → String
  | .integer n => n.repr
  | .float x => FloatText.text x
  | .boolean b => if b then "true" else "false"
  | .string s => s
  | .list items => "[" ++ ", ".intercalate (elementTexts items) ++ "]"

def elementTexts : List Value → List String
  | [] => []
  | .string s :: rest => enclosed s :: elementTexts rest
  | v :: rest => text v :: elementTexts rest

end

def bound : Int := 9223372036854775808

def inRange (n : Int) : Bool := -bound ≤ n && n < bound

end Value

end TemplateExpr
