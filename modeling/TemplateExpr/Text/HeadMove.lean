namespace TemplateExpr.Text

def isHeadMove (c : Char) : Bool :=
  c = '\x07' || c = '\x08' || c = '\x0b' || c = '\x0c' || c = '\r'

def withoutHeadMoves (s : String) : String := String.ofList (s.toList.filter fun c => !isHeadMove c)

end TemplateExpr.Text
