import TemplateExpr.Yaml.BlockScalar
import TemplateExpr.Yaml.Flow

namespace TemplateExpr.Yaml

mutual

/-- A node in a block that is indented by `indent`; one that is missing is null. A collection may
begin here only if it is `fresh`, which is when nothing but indicators stands before it on its line.
With `sameColumn` a list may stand in the very column of the block. -/
def blockNode : Nat → Int → Bool → Bool → Cursor → Option (Node × Cursor)
  | 0, _, _, _, _ => none
  | n + 1, indent, sameColumn, fresh, c =>
    let t := c.toToken
    let newLine := t.line ≠ c.line
    let fresh := fresh || newLine
    let outside := newLine &&
      (t.column < indent || (t.column = indent && !(sameColumn && t.atIndicator '-')))
    if t.rest.isEmpty || t.atAnyMarker || outside then some (.missing, c)
    else if t.atIndicator '-' then
      if fresh then (blockItems n t.column t).map fun r => (.list none r.1, r.2) else none
    else if t.atIndicator '?' then
      if fresh then (blockEntries n t.column t).map fun r => (.mapping none r.1, r.2) else none
    else if startsProperty t.rest then do
      let (properties, after) ← readProperties t
      let next := after.toToken
      if next.line ≠ t.line || next.rest.isEmpty then do
        let (node, after) ← blockNode n indent sameColumn false after
        properties.apply node after
      else if next.rest.head? = some '|' || next.rest.head? = some '>' then do
        let (text, after) ← blockScalar? indent next
        properties.apply (.scalar none false (String.ofList text)) after
      else inlineOrEntries n indent fresh t
    else if t.rest.head? = some '|' || t.rest.head? = some '>' then
      (blockScalar? indent t).map fun r => (.scalar none false (String.ofList r.1), r.2)
    else inlineOrEntries n indent fresh t
termination_by structural n => n

def inlineOrEntries : Nat → Int → Bool → Cursor → Option (Node × Cursor)
  | 0, _, _, _ => none
  | n + 1, indent, fresh, c => do
    let (node, after) ← inlineNode n false indent c
    let next := after.skip after.blanks
    if next.atIndicator ':' then
      if fresh && keyEnds c next then
        (blockEntries n c.column c).map fun r => (.mapping none r.1, r.2)
      else none
    else some (node, after)
termination_by structural n => n

def blockItems : Nat → Nat → Cursor → Option (List Node × Cursor)
  | 0, _, _ => none
  | n + 1, column, c => do
    let (item, after) ← blockNode n column false true (c.skip 1)
    let next := after.toToken
    if next.column = column && next.atIndicator '-' && !next.atAnyMarker then do
      let (items, after) ← blockItems n column next
      some (item :: items, after)
    else some ([item], after)
termination_by structural n => n

def blockEntries : Nat → Nat → Cursor → Option (List (Node × Node) × Cursor)
  | 0, _, _ => none
  | n + 1, column, c => do
    let next := c.toToken
    if next.rest.isEmpty || next.atAnyMarker || next.column ≠ column then some ([], c)
    else do
      let (entry, after) ←
        if next.atIndicator '?' then announcedEntry n column next else blockEntry n column next
      let (entries, after) ← blockEntries n column after
      some (entry :: entries, after)
termination_by structural n => n

def blockEntry : Nat → Nat → Cursor → Option ((Node × Node) × Cursor)
  | 0, _, _ => none
  | n + 1, column, c => do
    let (key, after) ← inlineNode n false column c
    let colon := after.skip after.blanks
    if colon.atIndicator ':' && keyEnds c colon then
      (blockNode n column true false (colon.skip 1)).map fun r => ((key, r.1), r.2)
    else none
termination_by structural n => n

def announcedEntry : Nat → Nat → Cursor → Option ((Node × Node) × Cursor)
  | 0, _, _ => none
  | n + 1, column, c => do
    let (key, after) ← blockNode n column true true (c.skip 1)
    let colon := after.toToken
    if colon.column = column && colon.line ≠ c.line && colon.atIndicator ':' then do
      let (value, after) ← blockNode n column true true (colon.skip 1)
      some ((key, value), after)
    else some ((key, .missing), after)
termination_by structural n => n

end

def atEnd : Nat → Cursor → Bool
  | 0, c => c.rest.isEmpty
  | n + 1, c => if c.atMarker '.' then atEnd n (c.skip 3).toToken else c.rest.isEmpty

def startsDirective (c : Cursor) : Bool := c.column = 0 && c.rest.head? = some '%'

/-- Behind the word of a directive for the version that is used, which has to be the first one. -/
def readVersion (c : Cursor) : Option Cursor := do
  let c := c.skip c.blanks
  let major := c.rest.takeWhile Lexeme.isDigit
  let c := c.skip major.length
  guard (!major.isEmpty && Nat.ofDigitChars 10 major 0 = 1 && c.rest.head? = some '.')
  let minor := (c.rest.drop 1).takeWhile Lexeme.isDigit
  let c := c.skip (1 + minor.length)
  guard (!minor.isEmpty && endsTag c.rest)
  some c

/-- Directives in front of a document, at most one of them for the version. -/
def readDirectives : Nat → Bool → Cursor → Option Cursor
  | 0, _, c => some c
  | n + 1, versioned, c =>
    if startsDirective c then do
      let word := (c.rest.drop 1).takeWhile isNameChar
      let next := c.skip (1 + word.length)
      guard (!word.isEmpty && endsTag next.rest)
      let isVersion : Bool := word = "YAML".toList
      guard (!(isVersion && versioned) && word ≠ "TAG".toList)
      let next ← if isVersion then readVersion next
        else some (next.skip (next.rest.takeWhile fun d => !isBreak d).length)
      let next := next.skipLineRest
      guard (next.rest.isEmpty || next.atBreak)
      readDirectives n (versioned || isVersion) next.toToken
    else some c

def document (text : List Char) : Option Node := do
  let c := Cursor.start (if text.head? = some '\ufeff' then text.drop 1 else text)
  let size := 4 * text.length + 12
  let first := c.toToken
  guard (!text.any isForbidden && !first.atMarker '.')
  let t ← readDirectives text.length false first
  if startsDirective first && !t.atMarker '-' then none
  else if t.rest.isEmpty then some .missing
  else do
    let (node, after) ←
      if t.atMarker '-' then blockNode size (-1) false false (t.skip 3)
      else blockNode size (-1) false true c
    if atEnd text.length after.toToken then some node else none

/-- The data of a text; a text without a document is null. The limits of numbers and dates matter only
in a text that is a document. -/
def load (text : String) : Except Error Datum :=
  match document text.toList with
  | none => .error .malformed
  | some node => node.toDatum

end TemplateExpr.Yaml
