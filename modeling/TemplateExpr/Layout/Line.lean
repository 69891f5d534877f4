import TemplateExpr.Text.Blank
import TemplateExpr.Text.HeadMove
import TemplateExpr.Text.Width

namespace TemplateExpr.Layout

open Text (withoutHeadMoves)

def tabWidth : Nat := 8

/-- Joins what stands between tabs. A tab is a blank at least and goes on to the next tab stop. -/
def expandTabs (column : Nat) : List String → List Char
  | [] => []
  | [last] => last.toList
  | part :: parts =>
    let shown := part.toList ++ [' ']
    let next := column + Text.width shown
    let stop := (next + tabWidth - 1) / tabWidth * tabWidth
    shown ++ List.replicate (stop - next) ' ' ++ expandTabs stop parts

def printedLines (s : String) : List String :=
  ((withoutHeadMoves s).splitOn "\n").map fun line =>
    String.ofList (expandTabs 0 (line.splitOn "\t"))

def endsLine (c : Char) : Bool :=
  c = '\n' || (0x1C ≤ c.toNat && c.toNat ≤ 0x1E) || c.toNat = 0x85 || c.toNat = 0x2028 ||
    c.toNat = 0x2029

def measure (s : String) : Nat :=
  let lines := ((withoutHeadMoves s).map fun c => if endsLine c then '\n' else c).splitOn "\n"
  (lines.map fun line => Text.width line.toList).foldl max 0

/-- A line cut before each word but the first, so that blanks stay with the word before them. -/
def wordPieces (cs : List Char) : List (List Char) :=
  match cs.splitBy fun c d => !Text.isSeparating c || Text.isSeparating d with
  | first :: second :: rest =>
    if first.all Text.isSeparating then (first ++ second) :: rest else first :: second :: rest
  | pieces => pieces

def trailingBlanks (cs : List Char) : Nat := (cs.reverse.takeWhile Text.isSeparating).length

/-- Fills lines with pieces as long as there is room for their words; `line` has been filled so far. -/
def fillLines (room : Nat) (line : List Char) (used : Nat) : List (List Char) → List (List Char)
  | [] => [line]
  | piece :: pieces =>
    let word := piece.take (piece.length - trailingBlanks piece)
    if used + Text.width word ≤ room then
      fillLines room (line ++ piece) (used + Text.width piece) pieces
    else line :: fillLines room piece (Text.width piece) pieces

def crop (room : Nat) : List Char → List Char
  | [] => []
  | c :: cs =>
    if Text.charWidth c ≤ room then c :: crop (room - Text.charWidth c) cs
    else List.replicate room ' '

/-- Blanks are dropped from the end of a line that has more characters than there are columns. What is
too wide all the same is cut short. -/
def fit (room : Nat) (cs : List Char) : List Char :=
  let shown := cs.take (cs.length - min (trailingBlanks cs) (cs.length - room))
  if Text.width shown ≤ room then shown else crop (room - 1) shown ++ ['…']

def columnLines (room : Nat) (s : String) : List String :=
  (printedLines s).flatMap fun line =>
    match wordPieces line.toList with
    | [] => [""]
    | piece :: pieces =>
      (fillLines room piece (Text.width piece) pieces).map fun cs => String.ofList (fit room cs)

end TemplateExpr.Layout
