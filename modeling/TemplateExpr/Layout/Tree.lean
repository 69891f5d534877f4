import TemplateExpr.Expr.Outline
import TemplateExpr.Layout.Line

namespace TemplateExpr

def Layout.behind (first later : String) : List String → List String
  | [] => []
  | line :: lines => (first ++ line) :: lines.map (later ++ ·)

namespace Outline.Tree

open Layout

mutual

def lines : Tree → List String
  | .node label branches => printedLines label ++ branchLines branches

def branchLines : List Tree → List String
  | [] => []
  | t :: ts =>
    match ts with
    | [] => behind "└── " "    " (lines t)
    | _ :: _ => behind "├── " "│   " (lines t) ++ branchLines ts

end

end Outline.Tree

end TemplateExpr
