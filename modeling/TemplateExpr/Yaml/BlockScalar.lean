import TemplateExpr.Yaml.Cursor

namespace TemplateExpr.Yaml

/-- What becomes of the line breaks at the end: all are dropped, one is kept, or all are. -/
inductive Chomping where
  | strip
  | clip
  | keep
deriving DecidableEq

structure BlockHeader where
  folded : Bool
  chomping : Chomping
  increment : Option Nat

def chomping? : Char → Option Chomping
  | '-' => some .strip
  | '+' => some .keep
  | _ => none

def increment? (c : Char) : Option Nat :=
  if '1' ≤ c && c ≤ '9' then some (digitValue c) else none

def blockHeader? (c : Cursor) : Option (BlockHeader × Cursor) :=
  match c.rest with
  | mark :: rest => do
    guard (mark = '|' || mark = '>')
    let marks := rest.takeWhile fun d => (chomping? d).isSome || (increment? d).isSome
    let chompings := marks.filterMap chomping?
    let increments := marks.filterMap increment?
    let after := c.skip (1 + marks.length)
    guard (chompings.length ≤ 1 && increments.length ≤ 1 && endsWord after.rest)
    let line := after.skipLineRest
    guard (line.rest.isEmpty || line.atBreak)
    some (⟨mark = '>', chompings.head?.getD .clip, increments.head?⟩, line.nextLine)
  | [] => none

/-- Empty lines, and the indentation of the next line up to `indent` columns. -/
def blockBreaks (indent : Nat) : Nat → Cursor → List Char × Cursor
  | 0, c => ([], c)
  | n + 1, c =>
    let c := c.skip (min (c.rest.takeWhile (· = ' ')).length (indent - c.column))
    match c.rest with
    | d :: _ =>
      if isBreak d then
        let (breaks, c) := blockBreaks indent n c.nextLine
        (breakText d :: breaks, c)
      else ([], c)
    | [] => ([], c)

def deepestIndent : Nat → Nat → Cursor → Nat
  | 0, deepest, _ => deepest
  | n + 1, deepest, c =>
    let c := c.skip c.blanks
    let deepest := max deepest c.column
    if c.atBreak then deepestIndent n deepest c.nextLine else deepest

def startsBlank (cs : List Char) : Bool :=
  match cs with
  | c :: _ => isBlank c
  | [] => false

def blockLines (header : BlockHeader) (indent : Nat) :
    Nat → List Char → Cursor → List Char × Cursor
  | 0, _, c => ([], c)
  | n + 1, breaks, c =>
    if c.column ≠ indent || c.rest.isEmpty then ([], c)
    else
      let line := c.rest.takeWhile fun d => !isBreak d
      let ended := c.skip line.length
      let lineBreak := (ended.rest.take 1).map breakText
      let (more, next) := blockBreaks indent n ended.nextLine
      let inside := next.column = indent && !next.rest.isEmpty
      if inside then
        let foldable := lineBreak = ['\n'] && !startsBlank c.rest && !startsBlank next.rest
        let between :=
          if !(header.folded && foldable) then lineBreak else if more.isEmpty then [' '] else []
        let (cs, last) := blockLines header indent n more next
        (breaks ++ line ++ between ++ cs, last)
      else
        let ending := match header.chomping with
          | .strip => []
          | .clip => lineBreak
          | .keep => lineBreak ++ more
        (breaks ++ line ++ ending, next)

def blockScalar? (parent : Int) (c : Cursor) : Option (List Char × Cursor) := do
  let (header, first) ← blockHeader? c
  let size := c.rest.length
  let least := max 1 (parent + 1).toNat
  let indent := match header.increment with
    | some i => least + i - 1
    | none => max least (deepestIndent size 0 first)
  let (breaks, first) := blockBreaks indent size first
  if first.column = indent && !first.rest.isEmpty then
    some (blockLines header indent size breaks first)
  else some (if header.chomping = .keep then breaks else [], first)

end TemplateExpr.Yaml
