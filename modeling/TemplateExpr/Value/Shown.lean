import TemplateExpr.Text.Quoted
import TemplateExpr.Value.Datum

namespace TemplateExpr

def padded (width n : Nat) : String :=
  let digits := Nat.toDigits 10 n
  String.ofList (List.replicate (width - digits.length) '0' ++ digits)

def Date.text (d : Date) : String :=
  padded 4 d.year ++ "-" ++ padded 2 d.month ++ "-" ++ padded 2 d.day ++
    match d.time with
    | none => ""
    | some time => " " ++ time

namespace Datum

mutual

def quoted : Datum → String
  | .null => "None"
  | .boolean b => if b then "True" else "False"
  | .integer n => n.repr
  | .float x => FloatText.text x
  | .string s => Text.quoted s
  | .list items => "[" ++ ", ".intercalate (quotedItems items) ++ "]"
  | .tuple items => "(" ++ ", ".intercalate (quotedItems items) ++ ")"
  | .mapping entries => "\x7b" ++ ", ".intercalate (quotedEntries entries) ++ "\x7d"
  | .date d =>
    "datetime.date(" ++ ", ".intercalate [d.year.repr, d.month.repr, d.day.repr] ++ ")"
  | .value v => v.text
  | .foreign typeName => typeName

def quotedItems : List Datum → List String
  | [] => []
  | d :: rest => quoted d :: quotedItems rest

def quotedEntries : List (Datum × Datum) → List String
  | [] => []
  | (k, v) :: rest => (quoted k ++ ": " ++ quoted v) :: quotedEntries rest

end

def shown : Datum → String
  | .string s => s
  | .date d => d.text
  | d => d.quoted

end Datum

end TemplateExpr
