import TemplateExpr.Layout.Line

namespace TemplateExpr.Layout

inductive Align where
  | left
  | right
deriving DecidableEq

structure Column where
  title : String
  align : Align

structure Table where
  columns : List Column
  rows : List (List String)

structure Rule where
  left : String
  line : String
  cross : String
  right : String

namespace Rule

def top : Rule := ⟨"┏", "━", "┳", "┓"⟩

def belowHead : Rule := ⟨"┡", "━", "╇", "┩"⟩

def bottom : Rule := ⟨"└", "─", "┴", "┘"⟩

def draw (r : Rule) (widths : List Nat) : String :=
  let lines := widths.map fun w => "".intercalate (List.replicate (w + 2) r.line)
  r.left ++ r.cross.intercalate lines ++ r.right

end Rule

namespace Table

def widths (t : Table) : List Nat :=
  t.columns.zipIdx.map fun (c, i) =>
    (t.rows.map fun row => measure (row.getD i "")).foldl max (measure c.title)

def pad (align : Align) (width : Nat) (s : String) : String :=
  let blanks := String.ofList (List.replicate (width - Text.width s.toList) ' ')
  match align with
  | .left => s ++ blanks
  | .right => blanks ++ s

def rowLines (t : Table) (widths : List Nat) (bar : String) (cells : List String) : List String :=
  let printed := (widths.zip cells).map fun (w, cell) => columnLines w cell
  let height := (printed.map List.length).foldl max 1
  (List.range height).map fun i =>
    let shown := (t.columns.zip (widths.zip printed)).map fun (c, w, lines) =>
      " " ++ pad c.align w (lines.getD i "") ++ " "
    bar ++ bar.intercalate shown ++ bar

def lines (t : Table) : List String :=
  let widths := t.widths
  [Rule.top.draw widths] ++ t.rowLines widths "┃" (t.columns.map (·.title)) ++
    [Rule.belowHead.draw widths] ++ t.rows.flatMap (t.rowLines widths "│") ++
    [Rule.bottom.draw widths]

end Table

end TemplateExpr.Layout
