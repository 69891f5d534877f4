namespace TemplateExpr.Text

def isStyleParameter (c : Char) : Bool := c.isDigit || c = ';' || c = '?'

def escape : Char := '\x1b'

/-- The text without its sequences; `pending` is what may be the start of one, read backwards. -/
def withoutStyle (pending : List Char) : List Char → List Char
  | [] => pending.reverse
  | c :: cs =>
    if c = escape then pending.reverse ++ withoutStyle [escape] cs
    else if pending.isEmpty then c :: withoutStyle [] cs
    else if pending = [escape] && c = '[' || pending ≠ [escape] && isStyleParameter c then
      withoutStyle (c :: pending) cs
    else if pending ≠ [escape] && c.isAlpha then withoutStyle [] cs
    else pending.reverse ++ c :: withoutStyle [] cs

def unstyled (s : String) : String := String.ofList (withoutStyle [] s.toList)

end TemplateExpr.Text
